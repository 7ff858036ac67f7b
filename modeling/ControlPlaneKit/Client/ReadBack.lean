import ControlPlaneKit.Python.Compact
import ControlPlaneKit.Client.Atomicity
import ControlPlaneKit.Client.StoredJournal
import ControlPlaneKit.Client.Transport
import ControlPlaneKit.Python.Refusals

/-!
# What is written is read

The client writes a journal with `json.dumps` and reads it with `json.loads`. Here the decoder is no
parameter but the scanner of the interpreter: a document that `create` or `write` has published is
read back as it was, up to the order of its members, and the reader accepts what the workflow holds.
-/

namespace ControlPlaneKit

open Server (Loaded)

/-- `json.loads(raw.decode("utf-8"), ...)`. -/
def Hooks.loadsBytes (h : Hooks) (depthLimit : ℕ) (raw : List UInt8) : Loaded :=
  match Server.decodeUtf8 raw with
  | none => .unicodeDecodeError
  | some s =>
    match h.loads depthLimit s.toList with
    | .ok v => .value v
    | .error .decode => .jsonDecodeError
    | .error .value => .valueError
    | .error .recursion => .recursionError

section Bytes

variable {h : Hooks} {floatText : ℚ → List Char} {depth : ℕ} {v : Json} {raw : List Char}

theorem Client.decodeUtf8_asciiBytes {cs : List Char} (hcs : ∀ c ∈ cs, c.toNat < 128) :
    Server.decodeUtf8 (Json.asciiBytes cs) = some (String.ofList cs) := by
  rw [Json.asciiBytes, ← toByteArray_ascii hcs, decodeUtf8_toByteArray]

/-- **The bytes of an encoded value are decoded to the value**, with its members sorted. -/
theorem Hooks.loadsBytes_encode (hkeeps : h.Keeps Hooks.Distinct) (hfloats : Json.PlainFloats floatText)
    (hv : h.Legible floatText depth v) (hraw : v.encode floatText = some raw) :
    h.loadsBytes depth (Json.asciiBytes raw) = .value v.sorted := by
  obtain rfl := Json.eq_text_of_encode hraw
  rw [loadsBytes, Client.decodeUtf8_asciiBytes (Json.text_ascii hfloats _)]
  dsimp only
  rw [String.toList_ofList, loads_text hkeeps hv.sorted]

/-- What the decoder raises, as its caller finds it. -/
def LoadsError.loaded : LoadsError → Loaded
  | .decode => .jsonDecodeError
  | .value => .valueError
  | .recursion => .recursionError

/-- The bytes of a text that the decoder refuses. -/
theorem Hooks.loadsBytes_refused {e : LoadsError} (hraw : ∀ c ∈ raw, c.toNat < 128)
    (he : h.loads depth raw = .error e) : h.loadsBytes depth (Json.asciiBytes raw) = e.loaded := by
  rw [loadsBytes, Client.decodeUtf8_asciiBytes hraw]
  dsimp only
  rw [String.toList_ofList, he]
  cases e <;> rfl

/-- **The other exceptions of the decoder** are read off the text. -/
theorem Hooks.loadsBytes_raised {e : LoadsError} {bytes : List UInt8} (hsilent : ¬ h.Raises e)
    (he : e ≠ .decode) (hbytes : h.loadsBytes depth bytes = e.loaded) :
    ∃ s, Server.decodeUtf8 bytes = some s ∧ Scan.Shows depth s.toList e := by
  unfold loadsBytes at hbytes
  cases hs : Server.decodeUtf8 bytes with
  | none =>
    rw [hs] at hbytes
    cases e <;> cases hbytes
  | some s =>
    rw [hs] at hbytes
    dsimp only at hbytes
    cases hloads : h.loads depth s.toList with
    | ok v =>
      rw [hloads] at hbytes
      cases e <;> cases hbytes
    | error e' =>
      rw [hloads] at hbytes
      obtain rfl : e' = e := by
        cases e' <;> cases e <;> first | rfl | cases hbytes
      exact ⟨s, rfl, (loads_error hloads).resolve_left hsilent⟩

end Bytes

namespace Client

namespace Publication

open Interaction Posix

/-- The codec of an interpreter. -/
def codecOf (ip : Interpreter) (floatText : ℚ → List Char) (tooDeep : Json → Bool) : Codec where
  floatText := floatText
  tooDeep := tooDeep
  loads := (Hooks.unique ip).loadsBytes ip.depthLimit

section Codec

variable {ip : Interpreter} {floatText : ℚ → List Char} {tooDeep : Json → Bool} {codec : Codec}
  {ref : OperationRef} {value : Json} {j : Journal} {raw : List UInt8} {faults : Prop}
  {d d' d'' : StoreDirectory} {tr tr' : List (Event StoreCall Call.Answer)}

/-- What `_encode_journal` returns is the text of the value. -/
theorem encodeDocument_text (h : encodeDocument codec ref value = .ok raw) :
    ∃ text, value.encode codec.floatText = some text ∧ raw = Json.asciiBytes text := by
  unfold encodeDocument at h
  rw [(encodeDocument_checked h).1] at h
  dsimp only [bind, Except.bind] at h
  split at h
  · cases h
  · cases htext : Json.encode codec.floatText value with
    | none => simp [htext] at h
    | some text =>
      rw [htext] at h
      dsimp only at h
      split at h
      · cases h
      · exact ⟨text, rfl, (Except.ok.inj h).symm⟩

/-- **A document that was encoded is read back**, and equals what was written. -/
theorem readDocument_codecOf (hfloats : Json.PlainFloats floatText)
    (hlegible : (Hooks.unique ip).Legible floatText ip.depthLimit value)
    (hencoded : encodeDocument (codecOf ip floatText tooDeep) ref value = .ok raw) :
    readDocument (codecOf ip floatText tooDeep).loads raw ref = .ok value.sorted ∧
      value.sorted.pyEq value = true := by
  obtain ⟨text, htext, rfl⟩ := encodeDocument_text hencoded
  exact readDocument_encoded hlegible.isDict hencoded
    (Hooks.loadsBytes_encode (Hooks.keeps_unique ip) hfloats hlegible htext)

/-- A writer that returned has published the bytes of its value. -/
theorem holds_of_returned {p : StoreProgram Unit}
    (hp : p = create codec ref value ∨ p = write codec ref value)
    (hrun : Exec (StoreStep faults) d p tr d' (some (.ok ()))) :
    ∃ raw, encodeDocument codec ref value = .ok raw ∧ HoldsBytes d' ref raw := by
  cases hencoded : encodeDocument codec ref value with
  | error failure =>
    rcases hp with rfl | rfl
    · exact absurd rfl ((meets_unencoded hencoded (createBytes ref)).outcome hrun)
    · exact absurd rfl ((meets_unencoded hencoded (writeBytes ref)).outcome hrun)
  | ok raw =>
    have hraw : ∀ raw', encodeDocument codec ref value = .ok raw' → raw' = raw :=
      fun raw' h => Except.ok.inj (h.symm.trans hencoded)
    have hdone : Done d ref raw d' := by
      rcases hp with rfl | rfl
      · exact ((ensures_create hraw []).outcome hrun).done rfl
      · exact ((ensures_write hraw []).outcome hrun).done rfl
    obtain ⟨f, hcomplete, hstage⟩ := hdone
    refine ⟨raw, rfl, _, hstage.journal, ?_⟩
    rw [hstage.file]
    exact hcomplete

/-- **What a writer has published, a reader returns**: after a run of `create` or `write` that
returned, whichever of its calls failed on the way, every `read` that ends returns the document. -/
theorem read_published {p : StoreProgram Unit} {r : Except Failure Json}
    (hfloats : Json.PlainFloats floatText)
    (hlegible : (Hooks.unique ip).Legible floatText ip.depthLimit value)
    (hp : p = create (codecOf ip floatText tooDeep) ref value ∨
      p = write (codecOf ip floatText tooDeep) ref value)
    (hrun : Exec (StoreStep faults) d p tr d' (some (.ok ())))
    (hread : Exec (StoreStep False) d' (read (codecOf ip floatText tooDeep) ref) tr' d'' (some r)) :
    r = .ok value.sorted ∧ value.sorted.pyEq value = true := by
  obtain ⟨raw, hencoded, hholds⟩ := holds_of_returned hp hrun
  obtain ⟨hdocument, hequal⟩ := readDocument_codecOf hfloats hlegible hencoded
  exact ⟨read_alone hholds (encodeDocument_checked hencoded).2 hdocument hread, hequal⟩

/-- **The store writes what the workflow holds**: `_validate_journal` on the document of a journal
passes exactly where it passes on the journal, and the bytes are the same. -/
theorem encodeDocument_journal (hshallow : codec.tooDeep j.json = false) :
    encodeDocument codec ref j.json = .ok raw ↔ encodeJournal codec.floatText ref j = .ok raw := by
  unfold encodeDocument encodeJournal
  rw [checkDocument_json]
  cases hvalid : validateJournal j ref with
  | error e => cases e <;> simp [stored, bind, Except.bind]
  | ok _ =>
    simp only [stored, bind, Except.bind, hshallow, Bool.false_eq_true, if_false]
    cases j.json.encode codec.floatText with
    | none => simp
    | some text =>
      dsimp only
      by_cases hsize : text.length ≤ maximumJournalBytes
      · rw [if_neg (by omega), if_pos hsize, Except.ok.injEq, Except.ok.injEq]
      · rw [if_pos (by omega), if_neg hsize]
        simp

/-- **A journal survives its process**: where the workflow's encoder accepts a journal, the operation
has one already and no partial file is left, `write` returns and the next `read` returns the
document of the journal. -/
theorem write_then_read (hfloats : Json.PlainFloats floatText)
    (hlegible : (Hooks.unique ip).Legible floatText ip.depthLimit j.json)
    (hshallow : tooDeep j.json = false) (hencoded : encodeJournal floatText ref j = .ok raw)
    (hjournal : HasJournal d ref) (hfree : d.entry (.partialPath ref) = none) :
    Succeeds (write (codecOf ip floatText tooDeep) ref j.json) d ∧
      ∀ tr d' r, Exec (StoreStep False) d (write (codecOf ip floatText tooDeep) ref j.json) tr d'
        (some r) → ∀ tr' d'' r', Exec (StoreStep False) d'
          (read (codecOf ip floatText tooDeep) ref) tr' d'' (some r') → r' = .ok j.json.sorted := by
  have hdocument : encodeDocument (codecOf ip floatText tooDeep) ref j.json = .ok raw :=
    (encodeDocument_journal hshallow).mpr hencoded
  have hsucceeds := (write_succeeds_iff hjournal hdocument).mpr hfree
  refine ⟨hsucceeds, fun tr d' r hrun tr' d'' r' hread => ?_⟩
  obtain rfl := hsucceeds.2 tr d' r hrun
  exact (read_published hfloats hlegible (.inr rfl) hrun hread).1

/-! ### Deep documents -/

/-- **Where the brackets of a document can be nested**, reading is total exactly where its enumerated
members are hashable. -/
theorem readDocument_nested {bytes : List UInt8} (hsize : bytes.length ≤ maximumJournalBytes)
    (hnested : ∀ s, Server.decodeUtf8 bytes = some s →
      s.toList.countP Scan.isOpening ≤ ip.depthLimit) :
    ReadsClosed (codecOf ip floatText tooDeep).loads bytes ref ↔
      ∀ value, (codecOf ip floatText tooDeep).loads bytes = .value value →
        DocumentHashes value ref := by
  cases hloads : (codecOf ip floatText tooDeep).loads bytes with
  | value value =>
    rw [readDocument_value hsize hloads, checkDocument_closed]
    exact ⟨fun h v hv => by cases hv; exact h, fun h => h value rfl⟩
  | unicodeDecodeError => exact iff_of_true (readDocument_invalid hsize (.inl hloads)) nofun
  | jsonDecodeError => exact iff_of_true (readDocument_invalid hsize (.inr (.inl hloads))) nofun
  | valueError => exact iff_of_true (readDocument_invalid hsize (.inr (.inr hloads))) nofun
  | recursionError =>
    have hsilent : ¬ (Hooks.unique ip).Raises .recursion := fun h => nomatch Hooks.raises_unique h
    obtain ⟨s, hs, hdeep⟩ := Hooks.loadsBytes_raised hsilent nofun hloads
    exact absurd hdeep (Nat.not_lt.mpr (hnested s hs))

/-- **A document of nested lists** that are too deep ends the read with a `RecursionError`. -/
theorem readDocument_brackets {n : ℕ} (hn : ip.depthLimit < n) (hsize : n ≤ maximumJournalBytes) :
    ¬ ReadsClosed (codecOf ip floatText tooDeep).loads
      (Json.asciiBytes (List.replicate n '[')) ref := by
  have hbrackets : (Hooks.unique ip).loads ip.depthLimit (List.replicate n '[' ++ []) =
      .error .recursion := Hooks.loads_brackets hn
  rw [List.append_nil] at hbrackets
  refine readDocument_recursion ?_ (Hooks.loadsBytes_refused ?_ hbrackets)
  · rwa [Json.length_asciiBytes, List.length_replicate]
  · intro c hc
    rw [List.eq_of_mem_replicate hc]
    decide

end Codec

/-! ### A planned journal -/

namespace Instance

open Scan Client.Instance

/-- An interpreter that reads every float as NaN. -/
def interpreter : Interpreter where
  floatOf _ := .nan
  depthLimit := 1000
  nests := by decide

/-- A new journal. -/
def plannedJournal : Journal where
  operationRef := listedRef
  target := ⟨⟨"e3b0c44298fc1c149afbf4c8996fb92427ae41e4649b934ca495991b7852b855",
    by decide +kernel⟩, .literal "main"⟩
  desired := ⟨"/graph.json", 2,
    ⟨"44136fa355b3678a1146ad16f7e8649e94fb4fc21fe77e8310c060f61caaff8a", by decide +kernel⟩⟩
  phase := .planning
  pendingRequest := none
  coordinates := {}
  requestHistory := []
  lastResult := none

theorem legible_plannedJournal : (Hooks.unique interpreter).Legible codec.floatText
    interpreter.depthLimit plannedJournal.json := by
  have htext : ∀ {depth : ℕ} (s : String),
      (Hooks.unique interpreter).Legible codec.floatText depth (.str (.utf8 s)) :=
    fun s => .str (isScanned_utf8 s)
  have hname : ∀ s : String, IsScanned (.utf8 s) := isScanned_utf8
  have hnil : ∀ {depth : ℕ}, (Hooks.unique interpreter).Legible codec.floatText (depth + 1)
      (.obj []) := .obj List.nodup_nil (List.forall_mem_nil _) (List.forall_mem_nil _)
  refine Hooks.Readable.obj (by decide) ?_ ?_
  · simp only [List.forall_mem_cons]
    exact ⟨hname _, hname _, hname _, hname _, hname _, hname _, hname _, hname _, hname _,
      List.forall_mem_nil _⟩
  · simp only [List.forall_mem_cons]
    refine ⟨htext _, htext _, .obj (by decide) ?_ ?_, .obj (by decide) ?_ ?_, htext _, .null, hnil,
      .arr (List.forall_mem_nil _), .null, List.forall_mem_nil _⟩
    · simp only [List.forall_mem_cons]
      exact ⟨hname _, hname _, List.forall_mem_nil _⟩
    · simp only [List.forall_mem_cons]
      exact ⟨htext _, htext _, List.forall_mem_nil _⟩
    · simp only [List.forall_mem_cons]
      exact ⟨hname _, hname _, hname _, List.forall_mem_nil _⟩
    · simp only [List.forall_mem_cons]
      exact ⟨htext _, .int (by decide), htext _, List.forall_mem_nil _⟩

/-- The codec of the interpreter. -/
abbrev scannedCodec : Codec :=
  codecOf interpreter codec.floatText fun _ => false

theorem encodeJournal_planned :
    ∃ raw, encodeJournal codec.floatText listedRef plannedJournal = .ok raw := by
  obtain ⟨raw, hraw⟩ := encodeDocument_planning
  exact ⟨raw, (@encodeDocument_journal codec _ _ _ rfl).mp hraw⟩

/-- The new journal is written over an old one and read. -/
theorem read_published_planned : ∃ tr d, Exec (StoreStep False) journalDirectory
      (write scannedCodec listedRef plannedJournal.json) tr d (some (.ok ())) ∧
    ∀ tr' d' r, Exec (StoreStep False) d (read scannedCodec listedRef) tr' d' (some r) →
      r = .ok plannedJournal.json.sorted ∧
        plannedJournal.json.sorted.pyEq plannedJournal.json = true := by
  obtain ⟨raw, hraw⟩ := encodeJournal_planned
  have hencoded := (@encodeDocument_journal scannedCodec _ _ _ rfl).mpr hraw
  obtain ⟨⟨tr, d, hrun⟩, -⟩ :=
    (write_succeeds_iff journalDirectory_readable.hasJournal hencoded).mpr rfl
  exact ⟨tr, d, hrun, fun tr' d' r hread =>
    read_published (fun _ => List.forall_mem_nil _) legible_plannedJournal (.inr rfl) hrun hread⟩

/-- The same, from what the workflow holds. -/
theorem write_then_read_planned : ∃ raw,
    encodeJournal codec.floatText listedRef plannedJournal = .ok raw ∧
      Succeeds (write scannedCodec listedRef plannedJournal.json) journalDirectory ∧
      ∀ tr d' r, Exec (StoreStep False) journalDirectory
          (write scannedCodec listedRef plannedJournal.json) tr d' (some r) →
        ∀ tr' d'' r', Exec (StoreStep False) d' (read scannedCodec listedRef) tr' d'' (some r') →
          r' = .ok plannedJournal.json.sorted := by
  obtain ⟨raw, hraw⟩ := encodeJournal_planned
  exact ⟨raw, hraw, write_then_read (fun _ => List.forall_mem_nil _) legible_plannedJournal rfl hraw
    journalDirectory_readable.hasJournal rfl⟩

end Instance

end Publication

end Client

end ControlPlaneKit
