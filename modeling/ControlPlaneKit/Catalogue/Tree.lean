import ControlPlaneKit.Client.Transport
import ControlPlaneKit.Python.Raise

/-!
# Files of a repository

A tree of files and directories as the functions of `pathlib` see it: `read_bytes`, `read_text`,
`write_bytes` and `mkdir`, by the parts of a path below the root. Links, permissions and a full disk
are outside the model; a write that goes wrong does so because of what stands in the tree.
-/

namespace ControlPlaneKit

namespace Catalogue

/-- What ends a run: the two errors of the repository's own, and what Python raises. -/
inductive Failure where
  /-- `CoordinateError(message)`. -/
  | coordinate (message : Text)
  /-- `CatalogueError(message)`. -/
  | catalogue (message : Text)
  | fileNotFound
  | osError
  | unicodeDecodeError
  | jsonDecodeError
  | recursionError
  | valueError
  | keyError
  | typeError
deriving DecidableEq

/-- The parts of a path, each by its code points. -/
abbrev Path :=
  List (List ℕ)

namespace Path

/-- `Path(text).parts` of a relative path. -/
def parts (text : Text) : Path :=
  (text.codes.splitOn 47).filter fun part => part ≠ [] ∧ part ≠ [46]

/-- `Path(text).is_absolute()`. -/
def isAbsolute (text : Text) : Bool :=
  text.codes.head? == some 47

/-- Neither absolute nor with a part `..`. -/
def isSafe (text : Text) : Bool :=
  !isAbsolute text && !(parts text).contains [46, 46]

/-- `str(path)`. -/
def text (path : Path) : List ℕ :=
  if path.isEmpty then [46] else [47].intercalate path

/-- `path.with_suffix(path.suffix + suffix)`. -/
def withSuffix (path : Path) (suffix : String) : Path :=
  path.dropLast ++ [path.getLastD [] ++ (Text.utf8 suffix).codes]

end Path

/-- What a path names. -/
inductive Entry where
  | file (content : List UInt8)
  | directory
deriving DecidableEq

/-- A file. -/
def Entry.isFile : Entry → Bool
  | .file _ => true
  | .directory => false

/-- The entries of a repository below its root. -/
abbrev Repository :=
  Path → Option Entry

/-- Universal newlines: a carriage return, with the line feed after it, is one line feed. -/
def universalNewlines : List Char → List Char
  | '\r' :: '\n' :: cs => '\n' :: universalNewlines cs
  | '\r' :: cs => '\n' :: universalNewlines cs
  | c :: cs => c :: universalNewlines cs
  | [] => []

/-- `text.encode("utf-8")` of a text without surrogates. -/
def encodeUtf8 (cs : List Char) : List UInt8 :=
  (String.ofList cs).toByteArray.data.toList

namespace Repository

/-- `path.read_bytes()`. -/
def readBytes (repo : Repository) (path : Path) : Except Failure (List UInt8) :=
  match repo path with
  | some (.file content) => .ok content
  | some .directory => .error .osError
  | none =>
    -- below a file there is no directory to look in
    if path.inits.any fun p => (repo p).any Entry.isFile then .error .osError
    else .error .fileNotFound

/-- `path.read_text(encoding="utf-8")`. -/
def readText (repo : Repository) (path : Path) : Except Failure (List Char) := do
  let content ← repo.readBytes path
  match Server.decodeUtf8 content with
  | some text => return universalNewlines text.toList
  | none => throw .unicodeDecodeError

/-- The repository with an entry at one path. -/
def set (repo : Repository) (path : Path) (entry : Entry) : Repository :=
  Function.update repo path (some entry)

/-- `path.write_bytes(content)`. -/
def writeBytes (repo : Repository) (path : Path) (content : List UInt8) :
    Except Failure Repository :=
  match repo path with
  | some (.file _) => .ok (repo.set path (.file content))
  | some .directory => .error .osError
  | none =>
    if repo path.dropLast = some .directory then .ok (repo.set path (.file content))
    else .error .fileNotFound

/-- One directory of `mkdir`. -/
def makeDirectory (repo : Repository) (path : Path) : Except Failure Repository :=
  match repo path with
  | some .directory => .ok repo
  | some (.file _) => .error .osError
  | none => .ok (repo.set path .directory)

/-- `path.mkdir(parents=True, exist_ok=True)`. -/
def makeDirectories (repo : Repository) (path : Path) : Except Failure Repository :=
  path.inits.foldlM makeDirectory repo

/-- The content of the file at a path. -/
def file? (repo : Repository) (path : Path) : Option (List UInt8) :=
  match repo path with
  | some (.file content) => some content
  | _ => none

/-- Two repositories with the same files, byte for byte. -/
def SameFiles (repo repo' : Repository) : Prop :=
  ∀ path, repo.file? path = repo'.file? path

variable {repo repo' : Repository} {path other : Path} {content : List UInt8}

theorem file?_eq_some : repo.file? path = some content ↔ repo path = some (.file content) := by
  rw [file?]
  split
  · next c h => simp [h]
  · next h => exact ⟨fun hc => by simp at hc, fun hc => absurd hc (h content)⟩

theorem readBytes_eq_ok : repo.readBytes path = .ok content ↔ repo.file? path = some content := by
  rw [readBytes, file?_eq_some]
  split
  · next c h => simp [h]
  · next h => simp [h]
  · next h => split <;> simp [h]

/-- What is no file is not read, and the error is the operating system's. -/
theorem readBytes_eq_error (h : repo.file? path = none) :
    repo.readBytes path = .error .osError ∨ repo.readBytes path = .error .fileNotFound := by
  rw [readBytes]
  split
  · next c hc => simp [file?, hc] at h
  · exact .inl rfl
  · split
    · exact .inl rfl
    · exact .inr rfl

theorem file?_set_file : (repo.set path (.file content)).file? other =
    if other = path then some content else repo.file? other := by
  by_cases h : other = path <;> simp [file?, set, h]

theorem set_file_of_file? (h : repo.file? path = some content) :
    repo.set path (.file content) = repo := by
  rw [set, ← file?_eq_some.mp h, Function.update_eq_self]

theorem writeBytes_file? (h : repo.writeBytes path content = .ok repo') :
    repo'.file? other = if other = path then some content else repo.file? other := by
  have hset : repo' = repo.set path (.file content) := by
    rw [writeBytes] at h
    split at h
    · exact (Except.ok.inj h).symm
    · cases h
    · split at h
      · exact (Except.ok.inj h).symm
      · cases h
  rw [hset, file?_set_file]

/-- Writing what stands there changes nothing. -/
theorem writeBytes_replaces {old : List UInt8} (h : repo.file? path = some old) :
    repo.writeBytes path content = .ok (repo.set path (.file content)) := by
  rw [writeBytes, file?_eq_some.mp h]

theorem writeBytes_same (h : repo.file? path = some content) :
    repo.writeBytes path content = .ok repo := by
  rw [writeBytes_replaces h, set_file_of_file? h]

theorem makeDirectory_file? (h : repo.makeDirectory path = .ok repo') : repo.SameFiles repo' := by
  rw [makeDirectory] at h
  split at h
  · cases h
    exact fun _ => rfl
  · cases h
  · next hnone =>
    cases h
    intro other
    by_cases hother : other = path
    · simp [file?, set, hother, hnone]
    · simp [file?, set, hother]

/-- New directories hold no files. -/
theorem makeDirectories_file? (h : repo.makeDirectories path = .ok repo') :
    repo.SameFiles repo' := by
  rw [makeDirectories] at h
  generalize path.inits = paths at h
  induction paths generalizing repo with
  | nil =>
    cases h
    exact fun _ => rfl
  | cons p paths ih =>
    rw [List.foldlM_cons] at h
    cases hp : repo.makeDirectory p with
    | error e => simp [hp, bind, Except.bind] at h
    | ok middle =>
      rw [hp] at h
      intro other
      rw [makeDirectory_file? hp other, ih h other]

end Repository

section Encoding

variable {cs ds : List Char}

theorem universalNewlines_eq_self (h : '\r' ∉ cs) : universalNewlines cs = cs := by
  fun_induction universalNewlines cs with
  | case1 cs ih => simp at h
  | case2 cs _ ih => simp at h
  | case3 c cs _ _ ih => rw [ih fun hc => h (List.mem_cons_of_mem _ hc)]
  | case4 => rfl

theorem notMem_universalNewlines : '\r' ∉ universalNewlines cs := by
  fun_induction universalNewlines cs with
  | case1 cs ih => simpa using ih
  | case2 cs _ ih => simpa using ih
  | case3 c cs h h' ih =>
    rw [List.mem_cons, not_or]
    exact ⟨fun hc => h' hc.symm, ih⟩
  | case4 => exact List.not_mem_nil

theorem encodeUtf8_append : encodeUtf8 (cs ++ ds) = encodeUtf8 cs ++ encodeUtf8 ds := by
  simp [encodeUtf8]

/-- A text without carriage returns is read as it was written. -/
theorem Repository.readText_encodeUtf8 {repo : Repository} {path : Path}
    (h : repo.file? path = some (encodeUtf8 cs)) (hcs : '\r' ∉ cs) :
    repo.readText path = .ok cs := by
  have hbytes := Repository.readBytes_eq_ok.mpr h
  have hdecode : Server.decodeUtf8 (encodeUtf8 cs) = some (String.ofList cs) :=
    Client.decodeUtf8_toByteArray _
  simp only [readText, hbytes, bind, Except.bind, hdecode, String.toList_ofList,
    universalNewlines_eq_self hcs]
  rfl

/-- What is read of a file has no carriage return. -/
theorem Repository.notMem_readText {repo : Repository} {path : Path}
    (h : repo.readText path = .ok cs) : '\r' ∉ cs := by
  rw [readText] at h
  cases hbytes : repo.readBytes path with
  | error e => simp [hbytes, bind, Except.bind] at h
  | ok content =>
    simp only [hbytes, bind, Except.bind] at h
    split at h
    · cases h
      exact notMem_universalNewlines
    · cases h

/-- What is read is a file. -/
theorem Repository.file?_of_readText {repo : Repository} {path : Path}
    (h : repo.readText path = .ok cs) : ∃ content, repo.file? path = some content := by
  rw [readText] at h
  cases hbytes : repo.readBytes path with
  | error e => simp [hbytes, bind, Except.bind] at h
  | ok content => exact ⟨content, Repository.readBytes_eq_ok.mp hbytes⟩

end Encoding

end Catalogue

end ControlPlaneKit
