import ControlPlaneKit.Client.Publishing

/-!
# What a dead writer leaves behind

The kernel releases the lock of a writer that dies, but not its partial file. The next writer
creates that file exclusively, so it succeeds exactly when the death did not fall between the
creation of the partial file and its renaming or removal. Whether it did is read off the calls that
took place (`boundThrough`).
-/

namespace ControlPlaneKit

namespace Client

namespace Publication

open Interaction Posix

/-- Whether a name is bound after these calls. -/
def boundThrough (path : JournalPath) : Bool → List (Event StoreCall Call.Answer) → Bool
  | bound, [] => bound
  | bound, e :: tr => boundThrough path (boundAfter path bound e) tr

/-- Without faults the program has a run, and every complete run returns. -/
def Succeeds (p : StoreProgram Unit) (d : StoreDirectory) : Prop :=
  (∃ tr d', Exec (StoreStep False) d p tr d' (some (.ok ()))) ∧
    ∀ tr d' r, Exec (StoreStep False) d p tr d' (some r) → r = .ok ()

section Death

variable {faults : Prop} {d₀ d d' : StoreDirectory} {ref : OperationRef} {raw : List UInt8}
  {creates : Prop} {codec : Codec} {value : Json}

/-- `create`, call by call. -/
theorem ensures_create (henc : ∀ raw', encodeDocument codec ref value = .ok raw' → raw' = raw) :
    Ensures faults d₀ ref raw True (create codec ref value) (Outcome faults d₀ ref raw
      (encodeDocument codec ref value = .ok raw ∧ d₀.entry (.journal ref) = none)) d₀ :=
  ensures_prefixed henc ensures_createBytes

/-- `write`, call by call. -/
theorem ensures_write (henc : ∀ raw', encodeDocument codec ref value = .ok raw' → raw' = raw) :
    Ensures faults d₀ ref raw False (write codec ref value) (Outcome faults d₀ ref raw
      (encodeDocument codec ref value = .ok raw ∧ HasJournal d₀ ref)) d₀ :=
  ensures_prefixed henc (ensures_writeBytes fun h => h)

/-- The calls of a run say whether the partial path is bound at its end. -/
theorem bound_of_exec {p : StoreProgram Unit}
    {Q : Post StoreCall Call.Answer StoreDirectory Failure Unit}
    {h tr : List (Event StoreCall Call.Answer)} {out : Option (Except Failure Unit)}
    (hp : Meets (StoreStep faults) (fun _ d e d' => Keeps d₀ ref raw creates d e d') p Q h d)
    (hrun : Exec (StoreStep faults) d p tr d' out) :
    (d'.entry (.partialPath ref)).isSome =
      boundThrough (.partialPath ref) (d.entry (.partialPath ref)).isSome tr := by
  induction hrun generalizing h with
  | performed hstep _ ih =>
    obtain ⟨hkeeps, hnext⟩ := hp _ _ hstep
    rw [ih hnext, hkeeps.bound, boundThrough]
  | _ => rfl

/-- A writer succeeds where a journal is there, exactly if the partial path is free. -/
theorem write_succeeds_iff (hjournal : HasJournal d ref)
    (hencoded : encodeDocument codec ref value = .ok raw) :
    Succeeds (write codec ref value) d ↔ d.entry (.partialPath ref) = none := by
  have hensures : Ensures False d ref raw False (write codec ref value) _ d :=
    ensures_write fun raw' h => Except.ok.inj (h.symm.trans hencoded)
  constructor
  · rintro ⟨⟨tr, d', hrun⟩, -⟩
    exact ((hensures []).outcome hrun).free rfl
  · intro hfree
    have hreturns : ∀ tr d' r, Exec (StoreStep False) d (write codec ref value) tr d' (some r) →
        r = .ok () := fun tr d' r hrun =>
      ((hensures []).outcome hrun).succeeds hfree ⟨hencoded, hjournal⟩ (fun h => h)
    refine ⟨?_, hreturns⟩
    obtain ⟨tr, d', r, hrun⟩ :=
      exists_exec (M := StoreStep False) (fun s op => s.exists_step op) (write codec ref value) d
    obtain rfl := hreturns tr d' r hrun
    exact ⟨tr, d', hrun⟩

/-- A journal that can be read. -/
def Readable (codec : Codec) (d : StoreDirectory) (ref : OperationRef) : Prop :=
  ∃ i, d.entry (.journal ref) = some i ∧ (d.file i).regular = true ∧ (d.file i).owned = true ∧
    (d.file i).mode = 0o600 ∧ ∃ old, readDocument codec.loads (d.file i).content ref = .ok old

theorem Readable.hasJournal (h : Readable codec d ref) : HasJournal d ref := by
  obtain ⟨i, hi, hregular, howned, hmode, -⟩ := h
  exact ⟨i, hi, hregular, howned, hmode⟩

/-- The writer after a dead one succeeds exactly if the partial path is not bound at the death. -/
theorem write_after_death_iff {first : Json} {p : StoreProgram Unit}
    {tr : List (Event StoreCall Call.Answer)}
    (hp : p = create codec ref first ∨ p = write codec ref first)
    (hdeath : Exec (StoreStep faults) d p tr d' none) (hreadable : Readable codec d' ref)
    (hvalid : encodeDocument codec ref value = .ok raw) :
    Succeeds (write codec ref value) d' ↔
      boundThrough (.partialPath ref) (d.entry (.partialPath ref)).isSome tr = false := by
  have hbound : (d'.entry (.partialPath ref)).isSome =
      boundThrough (.partialPath ref) (d.entry (.partialPath ref)).isSome tr := by
    -- what the first writer meant to write, if it could be encoded
    obtain ⟨raw₀, hraw⟩ : ∃ raw₀, ∀ raw', encodeDocument codec ref first = .ok raw' → raw' = raw₀ := by
      cases hfirst : encodeDocument codec ref first with
      | ok raw₀ => exact ⟨raw₀, fun raw' h => (Except.ok.inj h).symm⟩
      | error failure => exact ⟨[], fun raw' h => by cases h⟩
    rcases hp with rfl | rfl
    · exact bound_of_exec (ensures_create hraw []) hdeath
    · exact bound_of_exec (ensures_write hraw []) hdeath
  rw [write_succeeds_iff hreadable.hasJournal hvalid, ← hbound, Option.isSome_eq_false_iff,
    Option.isNone_iff_eq_none]

end Death

/-! ### A death after the creation -/

namespace Instance

open Client.Instance

/-- The codec that knows the documents of `documentLoads`. -/
def codec : Codec :=
  ⟨fun _ => [], fun _ => false, documentLoads⟩

/-- The file of the journal. -/
def journalFile : File :=
  ⟨1, true, true, 0o600, 0, documentBytes "\"planning\""⟩

/-- A directory with a journal. -/
def journalDirectory : StoreDirectory where
  entry
    | .journal ref => if ref = listedRef then some 0 else none
    | .partialPath _ => none
  file _ := journalFile
  count := 1
  created := by
    intro name i h
    cases name with
    | journal ref =>
      dsimp only at h
      split at h
      · cases h
        exact Nat.zero_lt_one
      · cases h
    | partialPath ref => cases h

theorem journalFile_read :
    readDocument codec.loads journalFile.content listedRef = .ok (documentWith (.str "planning")) := by
  have hsize := length_planning
  rw [journalFile, codec, readDocument, if_neg (by dsimp only; omega)]
  dsimp only
  rw [documentLoads_planning]
  dsimp only
  rw [checkDocument_planning]
  rfl

theorem journalDirectory_entry : journalDirectory.entry (.journal listedRef) = some 0 := by
  simp [journalDirectory]

theorem journalDirectory_readable : Readable codec journalDirectory listedRef :=
  ⟨0, journalDirectory_entry, rfl, rfl, rfl, _, journalFile_read⟩

theorem encodeDocument_planning :
    ∃ raw, encodeDocument codec listedRef (documentWith (.str "planning")) = .ok raw := by
  have htext : ∀ s : String, s.utf8ByteSize ≤ 64 →
      Json.Fits codec.floatText (12 * 64 + 2) (.str (.utf8 s)) := fun s h => Json.fits_str h
  have htarget := Json.fits_obj ((Json.FitsMembers.nil.member "workspace_id"
    (htext "main" (by decide))).member "endpoint_sha256" (htext
      "e3b0c44298fc1c149afbf4c8996fb92427ae41e4649b934ca495991b7852b855" (by decide)))
  have hdesired := Json.fits_obj (((Json.FitsMembers.nil.member "sha256" (htext
      "44136fa355b3678a1146ad16f7e8649e94fb4fc21fe77e8310c060f61caaff8a" (by decide))).member "size"
    (Json.fits_int (k := 2) (n := 1) (by decide))).member "path" (htext "/graph.json" (by decide)))
  have hempty : Json.Fits codec.floatText (0 + 2) (.obj []) := Json.fits_obj .nil
  have hhistory : Json.Fits codec.floatText (0 * (0 + 1) + 2) (.arr []) :=
    Json.fits_arr fun x hx => absurd hx List.not_mem_nil
  obtain ⟨text, htext, hlength⟩ := Json.fits_obj (((((((((Json.FitsMembers.nil.member "last_result"
    Json.fits_null).member "request_history" hhistory).member "coordinates" hempty).member
    "pending_request" Json.fits_null).member "phase" (htext "planning" (by decide))).member
    "desired" hdesired).member "target" htarget).member "operation_ref"
    (htext listedRef.text (by decide))).member "schema"
    (htext "cpk.client-invocation.v1" (by decide)))
  have htext : Json.encode codec.floatText (documentWith (.str "planning")) = some text := htext
  refine ⟨Json.asciiBytes text, ?_⟩
  have hsize : ¬ maximumJournalBytes < text.length := by
    rw [maximumJournalBytes]
    omega
  rw [encodeDocument, checkDocument_planning, htext]
  exact if_neg hsize

/-- The calls of a writer before it creates the partial file. -/
def checkedCalls : List (Event StoreCall Call.Answer) :=
  [⟨.prepareRoot, .ok Root.safe⟩, ⟨.openRead (.journal listedRef), .ok (0 : ℕ)⟩,
    ⟨.fstat 0, .ok journalFile.stat⟩, ⟨.close 0, .ok ()⟩]

theorem exec_checked : Exec (StoreStep False) journalDirectory
    (write codec listedRef (documentWith (.str "planning"))) checkedCalls journalDirectory none := by
  obtain ⟨raw, hraw⟩ := encodeDocument_planning
  have hencoded : encoded codec listedRef (documentWith (.str "planning")) = .pure raw := by
    rw [encoded, hraw]
  have hrest : Exec (StoreStep False) journalDirectory
      (encoded codec listedRef (documentWith (.str "planning")) >>= writeBytes listedRef)
      checkedCalls.tail journalDirectory none := by
    rw [hencoded]
    exact .performed (.done ⟨journalDirectory_entry, rfl⟩) (.performed (.done ⟨rfl, rfl⟩)
      (.performed (.done rfl) (.stopped _ _)))
  exact .performed (.done ⟨.inl rfl, rfl⟩) hrest

/-- The writer after one that died before it created its file. -/
theorem write_after_early_death :
    Exec (StoreStep False) journalDirectory
        (write codec listedRef (documentWith (.str "planning"))) checkedCalls journalDirectory none ∧
      Succeeds (write codec listedRef (documentWith (.str "planning"))) journalDirectory := by
  obtain ⟨raw, hraw⟩ := encodeDocument_planning
  refine ⟨exec_checked,
    (write_after_death_iff (.inr rfl) exec_checked journalDirectory_readable hraw).mpr ?_⟩
  rfl

/-- The directory once the partial file was created. -/
def stagedDirectory : StoreDirectory :=
  journalDirectory.withNew (.partialPath listedRef) ⟨2, true, true, 0o600, 0, []⟩

theorem stagedDirectory_readable : Readable codec stagedDirectory listedRef := by
  have hentry : stagedDirectory.entry (.journal listedRef) = some 0 :=
    (Posix.Directory.withNew_entry_of_ne (by simp)).trans journalDirectory_entry
  have hfile : stagedDirectory.file 0 = journalFile := Posix.Directory.withNew_file_of_lt Nat.zero_lt_one
  refine ⟨0, hentry, ?_⟩
  rw [hfile]
  exact ⟨rfl, rfl, rfl, _, journalFile_read⟩

/-- The calls of a writer up to the creation of the partial file. -/
def stagedCalls : List (Event StoreCall Call.Answer) :=
  [⟨.openRead (.journal listedRef), .ok (0 : ℕ)⟩, ⟨.fstat 0, .ok journalFile.stat⟩,
    ⟨.close 0, .ok ()⟩, ⟨.openNew (.partialPath listedRef) 0o600, .ok (1 : ℕ)⟩]

/-- **A dead writer wedges the operation**: it died right after it created the partial file, the
journal is readable, and no writer of the same document succeeds. -/
theorem write_after_late_death :
    Exec (StoreStep False) journalDirectory
        (write codec listedRef (documentWith (.str "planning")))
        (⟨.prepareRoot, .ok Root.safe⟩ :: stagedCalls) stagedDirectory none ∧
      Readable codec stagedDirectory listedRef ∧
      (∃ raw, encodeDocument codec listedRef (documentWith (.str "planning")) = .ok raw) ∧
      ¬ Succeeds (write codec listedRef (documentWith (.str "planning"))) stagedDirectory := by
  obtain ⟨raw, hraw⟩ := encodeDocument_planning
  have hunused : journalDirectory.Unused 2 := by
    intro name i _ h
    cases h
  -- the writer up to the creation of the partial file
  have hwriter : Exec (StoreStep False) journalDirectory (writeBytes listedRef raw)
      stagedCalls stagedDirectory none :=
    .performed (.done ⟨journalDirectory_entry, rfl⟩) (.performed (.done ⟨rfl, rfl⟩)
      (.performed (.done rfl) (.performed
        (.done ⟨rfl, rfl, 2, 0, 0o600, hunused, .inl rfl, rfl⟩) (.stopped _ _))))
  have hencoded : encoded codec listedRef (documentWith (.str "planning")) = .pure raw := by
    rw [encoded, hraw]
  have hrest : Exec (StoreStep False) journalDirectory
      (encoded codec listedRef (documentWith (.str "planning")) >>= writeBytes listedRef) stagedCalls
      stagedDirectory none := by
    rw [hencoded]
    exact hwriter
  refine ⟨.performed (.done ⟨.inl rfl, rfl⟩) hrest, stagedDirectory_readable, ⟨raw, hraw⟩, ?_⟩
  rw [write_succeeds_iff stagedDirectory_readable.hasJournal hraw]
  intro hfree
  have hbound : stagedDirectory.entry (.partialPath listedRef) = some 1 :=
    Posix.Directory.withNew_entry_self
  rw [hbound] at hfree
  cases hfree

end Instance

end Publication

end Client

end ControlPlaneKit
