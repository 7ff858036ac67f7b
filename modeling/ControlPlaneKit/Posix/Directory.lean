import ControlPlaneKit.Interaction.Logic

/-!
# A directory and its system calls

The entries of one directory, the files behind them, and the calls a process makes on them, each as
one atomic step. Files are numbered in the order of their creation, so that a file is never
confused with a later one; the inode number a process sees is a field of the file, and the kernel
may give a new file any number that no linked file carries. What survives a process is exactly the
directory: a call either took place before its death or not at all.

A call fails where the state refuses it. Under `faults` it may also fail anywhere, write nothing,
or create a file with another mode than the one asked for.
-/

namespace Posix

open Interaction

variable {N : Type}

/-- What `fstat` and `lstat` report of a file. -/
structure Stat where
  ino : ℕ
  regular : Bool
  owned : Bool
  mode : ℕ
  size : ℕ
  mtime : ℕ
deriving DecidableEq

/-- A file. -/
structure File where
  ino : ℕ
  regular : Bool
  owned : Bool
  mode : ℕ
  mtime : ℕ
  content : List UInt8
deriving DecidableEq

def File.stat (f : File) : Stat :=
  ⟨f.ino, f.regular, f.owned, f.mode, f.content.length, f.mtime⟩

/-- A directory: its entries, the files, and how many were created so far. -/
structure Directory (N : Type) where
  entry : N → Option ℕ
  file : ℕ → File
  count : ℕ
  created : ∀ {name i}, entry name = some i → i < count

/-- Why a call failed. -/
inductive Errno where
  | noEntry
  | taken
  | other
deriving DecidableEq

/-- What is found out about the directory itself. -/
inductive Root where
  | safe
  /-- A symbolic link leads to it. -/
  | linked
  /-- It is not a private directory of the user. -/
  | exposed
deriving DecidableEq

/-- The calls. Files stand for their descriptors. -/
inductive Call (N : Type) where
  /-- The calls that make sure of the directory itself, as one: they leave its entries alone. -/
  | prepareRoot
  /-- `open` for reading, without following a link. -/
  | openRead (name : N)
  /-- `open` with `O_CREAT | O_EXCL`. -/
  | openNew (name : N) (mode : ℕ)
  | fstat (file : ℕ)
  | lstat (name : N)
  | read (file offset size : ℕ)
  /-- `write` at the end of the file. -/
  | write (file : ℕ) (bytes : List UInt8)
  | fsync (file : ℕ)
  | close (file : ℕ)
  | link (source target : N)
  | replace (source target : N)
  | unlink (name : N)
  | openRoot
  | fsyncRoot
  | closeRoot

/-- What a call returns. -/
def Call.Result : Call N → Type
  | .prepareRoot => Root
  | .openRead _ => ℕ
  | .openNew _ _ => ℕ
  | .fstat _ => Stat
  | .lstat _ => Stat
  | .read _ _ _ => List UInt8
  | .write _ _ => ℕ
  | _ => Unit

/-- The answer to a call. -/
abbrev Call.Answer (call : Call N) : Type :=
  Except Errno call.Result

namespace Directory

section Steps

variable [DecidableEq N] (faults : Prop) (d : Directory N)

/-- The directory after a new file took a name. -/
def withNew (name : N) (f : File) : Directory N where
  entry := Function.update d.entry name (some d.count)
  file := Function.update d.file d.count f
  count := d.count + 1
  created := by
    intro other i h
    rcases eq_or_ne other name with rfl | hne
    · rw [Function.update_self, Option.some.injEq] at h
      omega
    · rw [Function.update_of_ne hne] at h
      have := d.created h
      omega

/-- The directory after a file changed. -/
def withFile (i : ℕ) (f : File) : Directory N :=
  ⟨d.entry, Function.update d.file i f, d.count, d.created⟩

/-- The directory after a name was bound to what another one is bound to. -/
def withLink (source target : N) : Directory N where
  entry := Function.update d.entry target (d.entry source)
  file := d.file
  count := d.count
  created := by
    intro other i h
    rcases eq_or_ne other target with rfl | hne
    · rw [Function.update_self] at h
      exact d.created h
    · rw [Function.update_of_ne hne] at h
      exact d.created h

/-- The directory after a name was removed. -/
def without (name : N) : Directory N where
  entry := Function.update d.entry name none
  file := d.file
  count := d.count
  created := by
    intro other i h
    rcases eq_or_ne other name with rfl | hne
    · rw [Function.update_self] at h
      cases h
    · rw [Function.update_of_ne hne] at h
      exact d.created h

variable {d} {name other source target : N} {f : File} {i k : ℕ}

@[simp]
theorem withNew_entry_self : (d.withNew name f).entry name = some d.count :=
  Function.update_self _ _ _

theorem withNew_entry_of_ne (h : other ≠ name) : (d.withNew name f).entry other = d.entry other :=
  Function.update_of_ne h _ _

@[simp]
theorem withNew_file_self : (d.withNew name f).file d.count = f :=
  Function.update_self _ _ _

theorem withNew_file_of_lt (h : i < d.count) : (d.withNew name f).file i = d.file i :=
  Function.update_of_ne (Nat.ne_of_lt h) _ _

omit [DecidableEq N] in
@[simp]
theorem withFile_file_self : (d.withFile i f).file i = f :=
  Function.update_self _ _ _

omit [DecidableEq N] in
theorem withFile_file_of_ne (h : k ≠ i) : (d.withFile i f).file k = d.file k :=
  Function.update_of_ne h _ _

@[simp]
theorem withLink_entry_self : (d.withLink source target).entry target = d.entry source :=
  Function.update_self _ _ _

theorem withLink_entry_of_ne (h : other ≠ target) :
    (d.withLink source target).entry other = d.entry other :=
  Function.update_of_ne h _ _

@[simp]
theorem without_entry_self : (d.without name).entry name = none :=
  Function.update_self _ _ _

theorem without_entry_of_ne (h : other ≠ name) : (d.without name).entry other = d.entry other :=
  Function.update_of_ne h _ _

variable (d)

/-- No linked file carries this inode number. -/
def Unused (ino : ℕ) : Prop :=
  ∀ name i, d.entry name = some i → (d.file i).ino ≠ ino

/-- A call takes place: what it returns, and the directory after it. -/
def Does : (call : Call N) → call.Result → Directory N → Prop
  | .openRead name, (i : ℕ), d' => d.entry name = some i ∧ d' = d
  | .openNew name mode, (i : ℕ), d' =>
    d.entry name = none ∧ i = d.count ∧ ∃ ino mtime given, d.Unused ino ∧ (given = mode ∨ faults) ∧
      d' = d.withNew name ⟨ino, true, true, given, mtime, []⟩
  | .fstat i, (s : Stat), d' => s = (d.file i).stat ∧ d' = d
  | .lstat name, (s : Stat), d' => (∃ i, d.entry name = some i ∧ s = (d.file i).stat) ∧ d' = d
  | .read i offset size, (chunk : List UInt8), d' =>
    (∃ n ≤ size, chunk = ((d.file i).content.drop offset).take n) ∧
      (chunk = [] → size = 0 ∨ (d.file i).content.length ≤ offset) ∧ d' = d
  | .write i bytes, (n : ℕ), d' =>
    n ≤ bytes.length ∧ (n = 0 → bytes = [] ∨ faults) ∧ ∃ mtime,
      d' = d.withFile i
        { d.file i with content := (d.file i).content ++ bytes.take n, mtime := mtime }
  | .link source target, _, d' =>
    d.entry source ≠ none ∧ d.entry target = none ∧ d' = d.withLink source target
  | .replace source target, _, d' =>
    d.entry source ≠ none ∧
      -- two names of one file: `rename` does nothing
      d' = if d.entry target = d.entry source then d
        else (d.withLink source target).without source
  | .unlink name, _, d' => d.entry name ≠ none ∧ d' = d.without name
  | .prepareRoot, (root : Root), d' => (root = .safe ∨ faults) ∧ d' = d
  | .fsync _, _, d' => d' = d
  | .close _, _, d' => d' = d
  | .openRoot, _, d' => d' = d
  | .fsyncRoot, _, d' => d' = d
  | .closeRoot, _, d' => d' = d

/-- The state refuses a call. -/
def Refuses : Call N → Errno → Prop
  | .openRead name, e => d.entry name = none ∧ e = .noEntry ∨
      (∃ i, d.entry name = some i ∧ (d.file i).regular = false) ∧ e = .other
  | .openNew name _, e => d.entry name ≠ none ∧ e = .taken
  | .lstat name, e => d.entry name = none ∧ e = .noEntry
  | .link source target, e => d.entry target ≠ none ∧ e = .taken ∨ d.entry source = none ∧ e = .noEntry
  | .replace source _, e => d.entry source = none ∧ e = .noEntry
  | .unlink name, e => d.entry name = none ∧ e = .noEntry
  | _, _ => False

/-- The calls in a directory. -/
inductive Step : Directory N → (call : Call N) → call.Answer → Directory N → Prop where
  | done {d d' : Directory N} {call : Call N} {r : call.Result} (h : d.Does faults call r d') :
      Step d call (.ok r) d'
  | refused {d : Directory N} {call : Call N} {e : Errno} (h : d.Refuses call e) :
      Step d call (.error e) d
  | fault {d : Directory N} {call : Call N} (h : faults) : Step d call (.error .other) d

end Steps

/-! ### Progress -/

variable {faults : Prop}

/-- There is an inode number that no linked file carries. -/
theorem exists_unused (d : Directory N) : ∃ ino, d.Unused ino := by
  have hbound : ∃ m, ∀ i < d.count, (d.file i).ino < m := by
    induction d.count with
    | zero => exact ⟨0, fun i hi => absurd hi (Nat.not_lt_zero i)⟩
    | succ n ih =>
      obtain ⟨m, hm⟩ := ih
      refine ⟨max m ((d.file n).ino + 1), fun i hi => ?_⟩
      rcases Nat.lt_succ_iff_lt_or_eq.mp hi with hlt | rfl
      · exact Nat.lt_of_lt_of_le (hm i hlt) (Nat.le_max_left _ _)
      · exact Nat.lt_of_lt_of_le (Nat.lt_succ_self _) (Nat.le_max_right _ _)
  obtain ⟨m, hm⟩ := hbound
  exact ⟨m, fun name i hi => Nat.ne_of_lt (hm i (d.created hi))⟩

/-- Every call gets an answer, also without faults. -/
theorem exists_step [DecidableEq N] (d : Directory N) (call : Call N) :
    ∃ a d', Step faults d call a d' := by
  have hdone : ∀ {r : call.Result} {d' : Directory N}, d.Does faults call r d' →
      ∃ a d', Step faults d call a d' := fun h => ⟨_, _, .done h⟩
  have hrefused : ∀ {e : Errno}, d.Refuses call e → ∃ a d', Step faults d call a d' :=
    fun h => ⟨_, _, .refused h⟩
  -- each call is done or refused by the directory as it is; no fault is needed
  cases call with
  | openRead name =>
    rcases hentry : d.entry name with _ | i
    · exact hrefused (.inl ⟨hentry, rfl⟩)
    · exact hdone ⟨hentry, rfl⟩
  | openNew name mode =>
    by_cases hentry : d.entry name = none
    · obtain ⟨ino, hino⟩ := d.exists_unused
      exact hdone ⟨hentry, rfl, ino, 0, mode, hino, .inl rfl, rfl⟩
    · exact hrefused ⟨hentry, rfl⟩
  | lstat name =>
    rcases hentry : d.entry name with _ | i
    · exact hrefused ⟨hentry, rfl⟩
    · exact hdone ⟨⟨i, hentry, rfl⟩, rfl⟩
  | read i offset size =>
    refine hdone ⟨⟨size, Nat.le_refl _, rfl⟩, fun hempty => ?_, rfl⟩
    rcases Nat.eq_zero_or_pos size with hzero | hpos
    · exact .inl hzero
    · rw [List.take_eq_nil_iff, List.drop_eq_nil_iff] at hempty
      exact .inr (hempty.resolve_left (by omega))
  | write i bytes =>
    exact hdone ⟨Nat.le_refl _, fun hzero => .inl (List.length_eq_zero_iff.mp hzero), 0, rfl⟩
  | link source target =>
    by_cases htarget : d.entry target = none
    · by_cases hsource : d.entry source = none
      · exact hrefused (.inr ⟨hsource, rfl⟩)
      · exact hdone (r := ()) ⟨hsource, htarget, rfl⟩
    · exact hrefused (.inl ⟨htarget, rfl⟩)
  | replace source target =>
    by_cases hsource : d.entry source = none
    · exact hrefused ⟨hsource, rfl⟩
    · exact hdone (r := ()) ⟨hsource, rfl⟩
  | unlink name =>
    by_cases hentry : d.entry name = none
    · exact hrefused ⟨hentry, rfl⟩
    · exact hdone (r := ()) ⟨hentry, rfl⟩
  | prepareRoot => exact hdone (r := .safe) ⟨.inl rfl, rfl⟩
  | fstat i => exact hdone ⟨rfl, rfl⟩
  | _ => exact hdone (r := ()) rfl

end Directory

end Posix
