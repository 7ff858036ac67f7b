import ControlPlaneKit.Client.MemberOrder
import ControlPlaneKit.Client.Leftover
import ControlPlaneKit.Client.Readers

/-!
# Publication is atomic

One writer, which may die between any two calls and whose calls may fail, and any number of readers:
at every point the name of the journal is free, or leads to the complete old document, or to the
complete new one. The readers see the documents through `json.loads`, which gives back the document
that `json.dumps` wrote, up to the order of its members, unless one of its texts holds a high
surrogate directly before a low one: those two come back as one character.
-/

namespace ControlPlaneKit

namespace Client

namespace Publication

open Interaction Posix

section Read

variable {d₀ : StoreDirectory} {ref : OperationRef} {raw : List UInt8} {codec : Codec}

/-- The journal is this document, complete. -/
def HoldsBytes (d : StoreDirectory) (ref : OperationRef) (raw : List UInt8) : Prop :=
  ∃ i, d.entry (.journal ref) = some i ∧ Complete raw (d.file i)

/-- The journal is free, or one of the documents that a reader accepts. -/
def Admissible (codec : Codec) (ref : OperationRef) (d : StoreDirectory) :
    Option (List UInt8 × Json) → Prop
  | none => d.entry (.journal ref) = none
  | some (bytes, value) => HoldsBytes d ref bytes ∧ bytes.length ≤ maximumJournalBytes ∧
    readDocument codec.loads bytes ref = .ok value

/-- The bytes that a reader beside the writer returns. -/
theorem watches_readBytes {P : List UInt8 → Prop}
    (hold : ∀ i, d₀.entry (.journal ref) = some i → ∃ bytes, Complete bytes (d₀.file i) ∧
      bytes.length ≤ maximumJournalBytes ∧ P bytes)
    (hraw : raw.length ≤ maximumJournalBytes) (hP : P raw) :
    Watches d₀ ref raw (Safe d₀ ref raw) (readBytes (.journal ref))
      (fun r => (∃ bytes, r = .ok bytes ∧ P bytes) ∨
        d₀.entry (.journal ref) = none ∧ ∃ message, r = .error (.journal message)) := by
  have hreading : Reading (.openRead (.journal ref)) := trivial
  refine watches_perform stable_safe hreading fun h s a hs hstep => ?_
  -- the file behind the name: the old document, or the new one
  have hfile : ∀ i, s.entry (.journal ref) = some i → ∃ bytes, Complete bytes (s.file i) ∧
      bytes.length ≤ maximumJournalBytes ∧ P bytes := by
    intro i hentry
    rcases hs.journal with hsame | ⟨hnew, hcomplete⟩
    · have hi : d₀.entry (.journal ref) = some i := hsame.symm.trans hentry
      rw [hs.files i (d₀.created hi)]
      exact hold i hi
    · obtain rfl : d₀.count = i := Option.some.inj (hnew.symm.trans hentry)
      exact ⟨raw, hcomplete, hraw, hP⟩
  cases hstep with
  | done hdoes =>
    rename_i i
    have hentry : s.entry (.journal ref) = some i := hdoes.1
    obtain ⟨bytes, hcomplete, hsize, hbytes⟩ := hfile i hentry
    have hheld : Held d₀ ref raw i (s.file i) s := ⟨hs, .inr hentry, rfl⟩
    have hcontent : (s.file i).content.length ≤ maximumJournalBytes := by
      rw [hcomplete.content]
      exact hsize
    have hwatches : Watches d₀ ref raw (Held d₀ ref raw i (s.file i)) _ _ :=
      watches_held (g := fun failure => do
        call (.close i)
        Program.raise failure) hcomplete.regular hcomplete.owned hcomplete.mode hcontent
    refine (hwatches _ s hheld).post fun _ t r hr => ⟨hr.1.safe, .inl ⟨bytes, ?_, hbytes⟩⟩
    rw [hr.2, hcomplete.content]
  | refused hrefuses =>
    refine ⟨hs, .inr ⟨?_, _, rfl⟩⟩
    rcases hrefuses with ⟨hnone, -⟩ | ⟨⟨i, hi, hirregular⟩, -⟩
    · rcases hs.journal with hsame | ⟨hnew, -⟩
      · exact hsame.symm.trans hnone
      · rw [hnone] at hnew
        cases hnew
    · obtain ⟨bytes, hcomplete, -⟩ := hfile i hi
      rw [hcomplete.regular] at hirregular
      cases hirregular
  | fault hfault => exact absurd hfault (fun h => h)

/-- What a reader beside the writer returns. -/
theorem watches_read {P : Json → Prop}
    (hold : ∀ i, d₀.entry (.journal ref) = some i → ∃ bytes v, Complete bytes (d₀.file i) ∧
      bytes.length ≤ maximumJournalBytes ∧ readDocument codec.loads bytes ref = .ok v ∧ P v)
    (hraw : raw.length ≤ maximumJournalBytes)
    (hnew : ∃ v, readDocument codec.loads raw ref = .ok v ∧ P v) :
    Watches d₀ ref raw (Safe d₀ ref raw) (read codec ref)
      (fun r => (∃ v, r = .ok v ∧ P v) ∨
        d₀.entry (.journal ref) = none ∧ ∃ message, r = .error (.journal message)) := by
  have hroot : Watches d₀ ref raw (Safe d₀ ref raw) initializeRoot (fun r => r = .ok ()) := by
    have hreading : Reading .prepareRoot := trivial
    have hprepare : Watches d₀ ref raw (Safe d₀ ref raw) (call .prepareRoot)
        (fun r => r = .ok Root.safe) := by
      refine watches_call stable_safe hreading (fun _ _ h => h) fun s r _ hdoes => ?_
      have hr : r = Root.safe := hdoes.1.resolve_right (fun h => h)
      rw [hr]
    refine hprepare.bind (fun root hroot => ?_) (fun e he => by cases he)
    obtain rfl := Except.ok.inj hroot
    exact watches_pure rfl
  refine hroot.bind (fun _ _ => ?_) (fun e he => by cases he)
  have hbytes := watches_readBytes (P := fun bytes => ∃ v, readDocument codec.loads bytes ref = .ok v ∧ P v)
    (fun i hi => by
      obtain ⟨bytes, v, hcomplete, hsize, hv, hp⟩ := hold i hi
      exact ⟨bytes, hcomplete, hsize, v, hv, hp⟩) hraw hnew
  refine hbytes.bind (fun bytes h => ?_) (fun e h => ?_)
  · rcases h with ⟨bytes', hsame, v, hv, hp⟩ | ⟨-, message, h⟩
    · obtain rfl := Except.ok.inj hsame
      rw [hv]
      exact watches_pure (.inl ⟨v, rfl, hp⟩)
    · cases h
  · rcases h with ⟨bytes', h, -⟩ | ⟨hnone, message, h⟩
    · cases h
    · cases h
      exact .inr ⟨hnone, message, rfl⟩

/-- What a reader returns when no writer is there. -/
theorem read_alone {d d' : StoreDirectory} {tr : List (Event StoreCall Call.Answer)}
    {r : Except Failure Json} {v : Json} (hholds : HoldsBytes d ref raw)
    (hraw : raw.length ≤ maximumJournalBytes) (hv : readDocument codec.loads raw ref = .ok v)
    (hrun : Exec (StoreStep False) d (read codec ref) tr d' (some r)) : r = .ok v := by
  have hold : ∀ i, d.entry (.journal ref) = some i → ∃ bytes w, Complete bytes (d.file i) ∧
      bytes.length ≤ maximumJournalBytes ∧ readDocument codec.loads bytes ref = .ok w ∧ w = v := by
    obtain ⟨i, hi, hcomplete⟩ := hholds
    intro k hk
    obtain rfl : i = k := Option.some.inj (hi.symm.trans hk)
    exact ⟨raw, v, hcomplete, hraw, hv, rfl⟩
  have hwatches := watches_read hold hraw ⟨v, hv, rfl⟩
  have houtcome := (hwatches [] d Safe.refl).outcome (hrun.under Moves.refl)
  rcases houtcome.2 with ⟨w, hw, rfl⟩ | ⟨hnone, -⟩
  · exact hw
  · obtain ⟨i, hi, -⟩ := hholds
    rw [hnone] at hi
    cases hi

end Read

/-! ### The system -/

/-- A writer and its readers over one directory. -/
abbrev System :=
  Interaction.Observed StoreCall Call.Answer Failure Unit Failure Json StoreDirectory

/-- The steps of the system; only the calls of the writer may fail without a reason. -/
abbrev Steps (faults : Prop) (codec : Codec) (ref : OperationRef) :
    System → Option (Event StoreCall Call.Answer) → System → Prop :=
  Interaction.Observed.Step (StoreStep faults) (StoreStep False) (read codec ref)

/-- What the system can reach. -/
abbrev Runs (faults : Prop) (codec : Codec) (ref : OperationRef) : System → System → Prop :=
  Interaction.Observed.Reaches (StoreStep faults) (StoreStep False) (read codec ref)

/-- The journal is the new document, complete. -/
def HoldsNew (codec : Codec) (ref : OperationRef) (value : Json) (d : StoreDirectory) : Prop :=
  ∃ raw, encodeDocument codec ref value = .ok raw ∧ HoldsBytes d ref raw

/-- An outcome of a reader that is the old value or a value equal to the new one, or a
`JournalError`. -/
def Expected (old : Option (List UInt8 × Json)) (value : Json) (r : Except Failure Json) : Prop :=
  (∃ v, r = .ok v ∧ ((∃ bytes, old = some (bytes, v)) ∨ v.pyEq value = true)) ∨
    ∃ message, r = .error (.journal message)

/-- Atomic publication of a value, seen from one point of a run that began in `d₀`. -/
structure Atomic (faults : Prop) (codec : Codec) (ref : OperationRef) (value : Json)
    (old : Option (List UInt8 × Json)) (creates : Prop) (d₀ : StoreDirectory) (c : System) :
    Prop where
  /-- The journal is absent as before, or the complete old document, or the complete new one. -/
  path : old = none ∧ c.state.entry (.journal ref) = none ∨
    (∃ bytes v, old = some (bytes, v) ∧ HoldsBytes c.state ref bytes) ∨
    HoldsNew codec ref value c.state
  /-- A document that was published stays. -/
  stays : HoldsNew codec ref value c.state → c.state.entry (.journal ref) ≠ d₀.entry (.journal ref) →
    ∀ c', Runs faults codec ref c c' → HoldsNew codec ref value c'.state
  /-- `create` replaces nothing. -/
  kept : creates → old ≠ none → c.state.entry (.journal ref) = d₀.entry (.journal ref)
  /-- A writer that returned has published. -/
  returned : c.writer = some (.pure ()) → HoldsNew codec ref value c.state
  /-- Readers return one of the two values, or raise `JournalError`. -/
  readers : value.paired = false → ∀ i,
    (∀ v, c.observer i = some (.pure v) → Expected old value (.ok v)) ∧
      ∀ e, c.observer i = some (.raise e) → Expected old value (.error e)
  /-- Once the writer has returned, a read returns a value equal to the one written. -/
  reread : value.paired = false → c.writer = some (.pure ()) → ∀ tr d' r,
    Exec (StoreStep False) c.state (read codec ref) tr d' (some r) →
      ∃ v, r = .ok v ∧ v.pyEq value = true
  /-- Only a file that this call created is unlinked. -/
  unlinks : ∀ path a c', Steps faults codec ref c (some ⟨.unlink path, a⟩) c' →
    c'.state.entry path ≠ c.state.entry path →
      path = .partialPath ref ∧ c.state.entry path = some d₀.count

section Atomic

variable {faults : Prop} {codec : Codec} {ref : OperationRef} {value : Json} {raw : List UInt8}
  {old : Option (List UInt8 × Json)} {creates : Prop} {d₀ : StoreDirectory}
  {p : StoreProgram Unit} {c : System}

/-- What `_encode_journal` has checked of a document that it encoded. -/
theorem encodeDocument_checked (h : encodeDocument codec ref value = .ok raw) :
    checkDocument value ref = .ok () ∧ raw.length ≤ maximumJournalBytes := by
  unfold encodeDocument at h
  cases hcheck : checkDocument value ref with
  | error failure =>
    rw [hcheck] at h
    cases h
  | ok _ =>
    refine ⟨rfl, ?_⟩
    rw [hcheck] at h
    dsimp only [bind, Except.bind] at h
    split at h
    · cases h
    · cases hencode : Json.encode codec.floatText value with
      | none =>
        rw [hencode] at h
        cases h
      | some text =>
        rw [hencode] at h
        dsimp only at h
        split at h
        · cases h
        · cases h
          rw [Json.length_asciiBytes]
          omega

/-- What a reader gets of a value without surrogate pairs. -/
theorem readDocument_encoded (hdict : value.isDict = true)
    (hencoded : encodeDocument codec ref value = .ok raw)
    (hloads : codec.loads raw = .value value.sorted) :
    readDocument codec.loads raw ref = .ok value.sorted ∧ value.sorted.pyEq value = true := by
  obtain ⟨hcheck, hsize⟩ := encodeDocument_checked hencoded
  constructor
  · have hsorted : checkDocument value.sorted ref = .ok () := by
      rw [checkDocument_sorted hdict]
      exact hcheck
    rw [readDocument, if_neg (by omega), hloads]
    simp only [hsorted]
    rfl
  · -- only an object passes the first check
    cases value with
    | obj members => exact Json.obj_sorted_pyEq hdict
    | _ => cases hcheck

/-- The point of a run: what is safe, and kept where nothing may be replaced. -/
def Kept (creates : Prop) (d₀ : StoreDirectory) (ref : OperationRef) (raw : List UInt8)
    (d : StoreDirectory) : Prop :=
  Safe d₀ ref raw d ∧ (creates → d₀.entry (.journal ref) ≠ none →
    d.entry (.journal ref) = d₀.entry (.journal ref))

theorem Kept.keep {d d' : StoreDirectory} {e : Event StoreCall Call.Answer}
    (h : Kept creates d₀ ref raw d) (hkeeps : Keeps d₀ ref raw creates d e d') :
    Kept creates d₀ ref raw d' := by
  refine ⟨h.1.keep hkeeps, fun hcreates hne => ?_⟩
  have hsame := h.2 hcreates hne
  rcases hkeeps.journal with hstays | ⟨-, hfree, -⟩
  · exact hstays.trans hsame
  · exact absurd (hsame.symm.trans (hfree hcreates)) hne

/-- The old document of an admissible directory. -/
theorem Admissible.document {i : ℕ} (h : Admissible codec ref d₀ old)
    (hi : d₀.entry (.journal ref) = some i) : ∃ bytes v, old = some (bytes, v) ∧
      Complete bytes (d₀.file i) ∧ bytes.length ≤ maximumJournalBytes ∧
      readDocument codec.loads bytes ref = .ok v := by
  cases old with
  | none =>
    have hnone : d₀.entry (.journal ref) = none := h
    rw [hi] at hnone
    cases hnone
  | some pair =>
    obtain ⟨bytes, v⟩ := pair
    obtain ⟨⟨k, hk, hcomplete⟩, hsize, hread⟩ := h
    obtain rfl : i = k := Option.some.inj (hi.symm.trans hk)
    exact ⟨bytes, v, rfl, hcomplete, hsize, hread⟩

/-- The old document is still there, or the journal still absent. -/
theorem Admissible.unchanged {d : StoreDirectory} (h : Admissible codec ref d₀ old)
    (hentry : d.entry (.journal ref) = d₀.entry (.journal ref))
    (hfiles : ∀ i < d₀.count, d.file i = d₀.file i) :
    old = none ∧ d.entry (.journal ref) = none ∨
      ∃ bytes v, old = some (bytes, v) ∧ HoldsBytes d ref bytes := by
  cases hi : d₀.entry (.journal ref) with
  | none =>
    cases old with
    | none => exact .inl ⟨rfl, hentry.trans hi⟩
    | some pair =>
      obtain ⟨⟨k, hk, -⟩, -⟩ := h
      rw [hi] at hk
      cases hk
  | some i =>
    obtain ⟨bytes, v, hold, hcomplete, -⟩ := h.document hi
    refine .inr ⟨bytes, v, hold, i, hentry.trans hi, ?_⟩
    rw [hfiles i (d₀.created hi)]
    exact hcomplete

/-- Publication of a value that is encoded. -/
theorem atomic_of_encoded (hadmissible : Admissible codec ref d₀ old) (hdict : value.isDict = true)
    (hencoded : encodeDocument codec ref value = .ok raw)
    (hloads : value.paired = false → codec.loads raw = .value value.sorted)
    (hp : Ensures faults d₀ ref raw creates p (fun d r => r = .ok () → Done d₀ ref raw d) d₀)
    (hreach : Runs faults codec ref ⟨d₀, some p, fun _ => none⟩ c) :
    Atomic faults codec ref value old creates d₀ c := by
  obtain ⟨-, hsize⟩ := encodeDocument_checked hencoded
  have hP : ∀ s op a s', Reading op → StoreStep False s op a s' → s' = s :=
    fun s op a s' hop hstep => hop.same hstep
  have hobserve : ∀ s, Safe d₀ ref raw s →
      Meets (Semantics.under (StoreStep False) (Moves d₀ ref raw)) (fun _ _ _ _ => True)
        (read codec ref) (Post.outcome fun r => value.paired = false → Expected old value r) [] s := by
    intro s hs
    by_cases hpaired : value.paired = false
    · obtain ⟨hread, hequal⟩ := readDocument_encoded hdict hencoded (hloads hpaired)
      have hwatches := watches_read
        (P := fun v => (∃ bytes, old = some (bytes, v)) ∨ v.pyEq value = true)
        (fun i hi => by
          obtain ⟨bytes, v, hold, hcomplete, hlength, hv⟩ := hadmissible.document hi
          exact ⟨bytes, v, hcomplete, hlength, hv, .inl ⟨bytes, hold⟩⟩)
        hsize ⟨_, hread, .inr hequal⟩
      exact (hwatches [] s hs).post fun _ _ r hr _ => hr.2.imp id fun h => h.2
    · exact meets_of_forall (fun _ _ _ _ => trivial) fun _ _ _ h => absurd h hpaired
  -- the run up to `c`
  have hstart : Interaction.Observed.Holds (StoreStep faults) (StoreStep False)
      (fun _ d e d' => Keeps d₀ ref raw creates d e d') (fun _ d r => r = .ok () → Done d₀ ref raw d)
      (Moves d₀ ref raw) (Kept creates d₀ ref raw)
      (fun r => value.paired = false → Expected old value r) Reading
      (⟨d₀, some p, fun _ => none⟩ : System) :=
    ⟨⟨Safe.refl, fun _ _ => rfl⟩, fun q hq => (by cases hq; exact ⟨[], hp []⟩),
      fun i q hq => by cases hq⟩
  have hc := hreach.holds Moves.refl (fun _ _ _ => Moves.trans)
    (fun _ _ _ _ hs _ hkeeps => ⟨hs.keep hkeeps, hkeeps.moves⟩) hP (uses_read codec ref)
    (fun s hs => hobserve s hs.1) hstart
  obtain ⟨⟨hsafe, hkept⟩, hwriter, hobserver⟩ := hc
  have hnew : ∀ {d : StoreDirectory}, Published d₀ ref raw d → HoldsNew codec ref value d :=
    fun h => ⟨raw, hencoded, _, h.1, h.2⟩
  have hdone : c.writer = some (.pure ()) → Published d₀ ref raw c.state := by
    intro hw
    obtain ⟨h, hmeets⟩ := hwriter _ hw
    obtain ⟨f, hcomplete, hstage⟩ := hmeets rfl
    refine ⟨hstage.journal, ?_⟩
    rw [hstage.file]
    exact hcomplete
  refine ⟨?_, fun _ hchanged c' hreach' => ?_, fun hcreates hold => ?_, fun hw => hnew (hdone hw),
    fun hpaired i => ?_, fun hpaired hw tr d' r hrun => ?_, fun path a c' hstep hchanged => ?_⟩
  · rcases hsafe.journal with hsame | hpublished
    · rcases hadmissible.unchanged hsame hsafe.files with habsent | hold
      · exact .inl habsent
      · exact .inr (.inl hold)
    · exact .inr (.inr (hnew hpublished))
  · -- from here on the invariant is that the document is published
    have hpublished : Published d₀ ref raw c.state := hsafe.journal.resolve_left hchanged
    have hfrom : Interaction.Observed.Holds (StoreStep faults) (StoreStep False)
        (fun _ d e d' => Keeps d₀ ref raw creates d e d')
        (fun _ d r => r = .ok () → Done d₀ ref raw d) (Moves d₀ ref raw)
        (fun d => Safe d₀ ref raw d ∧ Published d₀ ref raw d)
        (fun r => value.paired = false → Expected old value r) Reading c :=
      ⟨⟨hsafe, hpublished⟩, hwriter, hobserver⟩
    have hc' := hreach'.holds Moves.refl (fun _ _ _ => Moves.trans)
      (fun _ _ _ _ hs _ hkeeps => ⟨⟨hs.1.keep hkeeps, hs.2.keep hkeeps⟩, hkeeps.moves⟩) hP
      (uses_read codec ref) (fun s hs => hobserve s hs.1) hfrom
    exact hnew hc'.invariant.2
  · refine hkept hcreates fun hnone => ?_
    cases old with
    | none => exact hold rfl
    | some pair =>
      obtain ⟨⟨k, hk, -⟩, -⟩ := hadmissible
      rw [hnone] at hk
      cases hk
  · constructor
    · intro v hv
      obtain ⟨-, h, hmeets⟩ := hobserver i _ hv
      exact hmeets hpaired
    · intro e he
      obtain ⟨-, h, hmeets⟩ := hobserver i _ he
      exact hmeets hpaired
  · obtain ⟨hread, hequal⟩ := readDocument_encoded hdict hencoded (hloads hpaired)
    obtain ⟨hentry, hcomplete⟩ := hdone hw
    exact ⟨_, read_alone ⟨_, hentry, hcomplete⟩ hsize hread hrun, hequal⟩
  · cases hstep with
    | write op next a s hw hstep =>
      obtain ⟨h, hmeets⟩ := hwriter _ hw
      exact (hmeets a s hstep).1.unlinked path rfl hchanged

/-! ### Values that are not encoded -/

/-- A reader over a directory that does not change. -/
theorem read_unchanged (hadmissible : Admissible codec ref d₀ old) :
    Meets (Semantics.under (StoreStep False) Eq) (fun _ _ _ _ => True) (read codec ref)
      (Post.outcome (Expected old value)) [] d₀ := by
  cases old with
  | some pair =>
    obtain ⟨bytes, v⟩ := pair
    have hdocument := fun i hi => hadmissible.document (i := i) hi
    obtain ⟨⟨i, hi, hcomplete⟩, hsize, hread⟩ := hadmissible
    -- a writer of the same document would disturb more
    have hwatches : Watches d₀ ref bytes (Safe d₀ ref bytes) (read codec ref) _ :=
      watches_read (P := fun w => w = v)
      (fun k hk => by
        obtain ⟨bytes', w, hsame, hcomplete', hsize', hread'⟩ := hdocument k hk
        cases hsame
        exact ⟨_, _, hcomplete', hsize', hread', rfl⟩) hsize ⟨v, hread, rfl⟩
    refine ((hwatches [] d₀ Safe.refl).under_mono fun s t h => h ▸ Moves.refl s).post
      fun _ _ r hr => hr.2.imp ?_ fun h => h.2
    rintro ⟨w, hw, rfl⟩
    exact ⟨w, hw, .inl ⟨bytes, rfl⟩⟩
  | none =>
    have hnone : d₀.entry (.journal ref) = none := hadmissible
    rintro a s ⟨_, rfl, hstep⟩
    refine ⟨trivial, ?_⟩
    cases hstep with
    | done hdoes =>
      obtain ⟨hroot, rfl⟩ := hdoes
      obtain rfl := hroot.resolve_right (fun h => h)
      rintro a s ⟨_, rfl, hstep⟩
      refine ⟨trivial, ?_⟩
      cases hstep with
      | done hdoes =>
        have hentry := hdoes.1
        rw [hnone] at hentry
        cases hentry
      | refused _ => exact .inr ⟨_, rfl⟩
      | fault hfault => exact absurd hfault (fun h => h)
    | refused hrefuses => exact absurd hrefuses (fun h => h)
    | fault hfault => exact absurd hfault (fun h => h)

/-- A value that is not encoded leaves the directory alone, and the writer raises. -/
theorem meets_unencoded {failure : ReadFailure} (h : encodeDocument codec ref value = .error failure)
    (p : List UInt8 → StoreProgram Unit) :
    Meets (StoreStep faults) (fun _ d _ d' => d' = d) (do
      initializeRoot
      let raw ← encoded codec ref value
      p raw) (fun _ _ r => r ≠ .ok ()) [] d₀ := by
  have hencoded : encoded codec ref value = .raise (.raised failure) := by
    rw [encoded, h]
  rw [hencoded]
  refine Meets.of_runs (P := fun c => c = .prepareRoot) (fun _ s op a s' hop hstep => ?_) ?_ ?_
  · subst hop
    cases hstep with
    | done hdoes => exact ⟨hdoes.2, hdoes.2⟩
    | refused _ => exact ⟨rfl, rfl⟩
    | fault _ => exact ⟨rfl, rfl⟩
  · have hroot : initializeRoot.Uses fun c => c = .prepareRoot := by
      have hprepare : (call .prepareRoot).Uses fun c => c = .prepareRoot := by
        refine ⟨rfl, fun a => ?_⟩
        cases a <;> trivial
      refine hprepare.bind fun root => ?_
      cases (root : Root) <;> trivial
    exact hroot.bind fun _ => trivial
  · rintro tr r hruns rfl
    obtain ⟨_, _, _, -, -, hrest⟩ := hruns.bind_ok
    cases hrest

/-- Publication of a value that is not encoded: nothing happens. -/
theorem atomic_of_unencoded {failure : ReadFailure} (hadmissible : Admissible codec ref d₀ old)
    (hencoded : encodeDocument codec ref value = .error failure)
    (hp : Meets (StoreStep faults) (fun _ d _ d' => d' = d) p (fun _ _ r => r ≠ .ok ()) [] d₀)
    (hreach : Runs faults codec ref ⟨d₀, some p, fun _ => none⟩ c) :
    Atomic faults codec ref value old creates d₀ c := by
  have hstart : Interaction.Observed.Holds (StoreStep faults) (StoreStep False)
      (fun _ d _ d' => d' = d) (fun _ _ r => r ≠ .ok ()) Eq (fun d => d = d₀)
      (Expected old value) Reading (⟨d₀, some p, fun _ => none⟩ : System) :=
    ⟨rfl, fun q hq => (by cases hq; exact ⟨[], hp⟩), fun i q hq => by cases hq⟩
  obtain ⟨hstate, hwriter, hobserver⟩ := hreach.holds (fun _ => rfl) (fun _ _ _ => Eq.trans)
    (fun _ _ _ _ hs _ hsame => ⟨hsame.trans hs, hsame.symm⟩)
    (fun s op a s' hop hstep => hop.same hstep) (uses_read codec ref)
    (fun s hs => hs ▸ read_unchanged hadmissible) hstart
  have hreturns : c.writer ≠ some (.pure ()) := by
    intro hw
    obtain ⟨h, hmeets⟩ := hwriter _ hw
    exact hmeets rfl
  have hnever : ¬ HoldsNew codec ref value c.state := by
    rintro ⟨raw, hraw, -⟩
    rw [hencoded] at hraw
    cases hraw
  refine ⟨?_, fun hnew => absurd hnew hnever, fun _ _ => by rw [hstate], fun hw => absurd hw hreturns,
    fun _ i => ⟨fun v hv => ?_, fun e he => ?_⟩, fun _ hw => absurd hw hreturns,
    fun path a c' hstep hchanged => ?_⟩
  · rcases hadmissible.unchanged (congrArg (fun d => d.entry (.journal ref)) hstate)
      (fun i _ => congrArg (fun d => d.file i) hstate) with habsent | hold
    · exact .inl habsent
    · exact .inr (.inl hold)
  · obtain ⟨-, h, hmeets⟩ := hobserver i _ hv
    exact hmeets
  · obtain ⟨-, h, hmeets⟩ := hobserver i _ he
    exact hmeets
  · cases hstep with
    | write op next a s hw hstep =>
      obtain ⟨h, hmeets⟩ := hwriter _ hw
      obtain ⟨hsame, -⟩ := hmeets a s hstep
      exact absurd (congrArg (fun d => d.entry path) hsame) hchanged

end Atomic

/-- **Publication is atomic**, for every value, from every admissible directory, at every point of
every run of a writer and its readers. -/
theorem publication_atomic (faults : Prop) (codec : Codec) (ref : OperationRef) (value : Json)
    (old : Option (List UInt8 × Json)) (d₀ : StoreDirectory) (creates : Bool) (c : System)
    (hadmissible : Admissible codec ref d₀ old) (hdict : value.isDict = true)
    (hloads : ∀ raw, encodeDocument codec ref value = .ok raw → value.paired = false →
      codec.loads raw = .value value.sorted)
    (hreach : Runs faults codec ref
      ⟨d₀, some (if creates then create codec ref value else write codec ref value), fun _ => none⟩ c) :
    Atomic faults codec ref value old (creates = true) d₀ c := by
  cases hencoded : encodeDocument codec ref value with
  | ok raw =>
    have hraw : ∀ raw', encodeDocument codec ref value = .ok raw' → raw' = raw :=
      fun raw' h => Except.ok.inj (h.symm.trans hencoded)
    refine atomic_of_encoded hadmissible hdict hencoded (hloads raw hencoded) ?_ hreach
    cases creates with
    | true => exact (ensures_prefixed hraw ensures_createBytes).mono fun _ _ h => h.done
    | false =>
      exact (ensures_prefixed hraw (ensures_writeBytes Bool.false_ne_true)).mono fun _ _ h => h.done
  | error failure =>
    refine atomic_of_unencoded hadmissible hencoded ?_ hreach
    cases creates with
    | true => exact meets_unencoded hencoded (createBytes ref)
    | false => exact meets_unencoded hencoded (writeBytes ref)

/-! ### A surrogate pair -/

namespace Instance

open Client.Instance

/-- A new journal with one record, whose response holds this text. -/
def recordedWith (text : Text) : Json :=
  .obj [("schema", .str "cpk.client-invocation.v1"), ("operation_ref", listedRef.json),
    ("target", .obj [
      ("endpoint_sha256",
        .str "e3b0c44298fc1c149afbf4c8996fb92427ae41e4649b934ca495991b7852b855"),
      ("workspace_id", .str "main")]),
    ("desired", .obj [("path", .str "/graph.json"), ("size", .int 2),
      ("sha256", .str "44136fa355b3678a1146ad16f7e8649e94fb4fc21fe77e8310c060f61caaff8a")]),
    ("phase", .str "planning"), ("pending_request", .null), ("coordinates", .obj []),
    ("request_history", .arr [.obj [("route_id", .str "command.deployment.prepare"),
      ("idempotency_key", .str "0b8e4f2a-6c1d-4e3f-9a5b-7d2c1e0f3a4c"),
      ("body_sha256",
        .str "e3b0c44298fc1c149afbf4c8996fb92427ae41e4649b934ca495991b7852b855"),
      ("response", .obj [("note", .str text)])]]),
    ("last_result", .null)]

/-- The two surrogates of a character beyond the basic plane, as two characters. -/
def pairText : Text :=
  .surrogate [0xD83D, 0xDE00]

theorem fits_singleton {n : ℕ} {x : Json} (h : Json.Fits codec.floatText n x) :
    Json.Fits codec.floatText (1 * (n + 1) + 2) (.arr [x]) :=
  Json.fits_arr fun y hy => by
    rw [List.mem_singleton.mp hy]
    exact h

/-- The encoder accepts the document. -/
theorem encode_recorded (text : Text) (h : text.codes.length ≤ 64) :
    ∃ cs, Json.encode codec.floatText (recordedWith text) = some cs ∧
      cs.length ≤ maximumJournalBytes := by
  have htext : ∀ s : String, s.utf8ByteSize ≤ 64 →
      Json.Fits codec.floatText (12 * 64 + 2) (.str (.utf8 s)) := fun s h => Json.fits_str h
  have hnote : Json.Fits codec.floatText (12 * 64 + 2) (.str text) :=
    (Json.fits_text text).mono (by omega)
  have htarget := Json.fits_obj ((Json.FitsMembers.nil.member "workspace_id"
    (htext "main" (by decide))).member "endpoint_sha256" (htext
      "e3b0c44298fc1c149afbf4c8996fb92427ae41e4649b934ca495991b7852b855" (by decide)))
  have hdesired := Json.fits_obj (((Json.FitsMembers.nil.member "sha256" (htext
      "44136fa355b3678a1146ad16f7e8649e94fb4fc21fe77e8310c060f61caaff8a" (by decide))).member "size"
    (Json.fits_int (k := 2) (n := 1) (by decide))).member "path" (htext "/graph.json" (by decide)))
  have hempty : Json.Fits codec.floatText (0 + 2) (.obj []) := Json.fits_obj .nil
  have hrecord := Json.fits_obj ((((Json.FitsMembers.nil.member "response"
    (Json.fits_obj (Json.FitsMembers.nil.member "note" hnote))).member "body_sha256"
    (htext "e3b0c44298fc1c149afbf4c8996fb92427ae41e4649b934ca495991b7852b855" (by decide))).member
    "idempotency_key" (htext "0b8e4f2a-6c1d-4e3f-9a5b-7d2c1e0f3a4c" (by decide))).member "route_id"
    (htext "command.deployment.prepare" (by decide)))
  have hhistory := fits_singleton hrecord
  obtain ⟨cs, hcs, hlength⟩ := Json.fits_obj (((((((((Json.FitsMembers.nil.member "last_result"
    Json.fits_null).member "request_history" hhistory).member "coordinates" hempty).member
    "pending_request" Json.fits_null).member "phase" (htext "planning" (by decide))).member
    "desired" hdesired).member "target" htarget).member "operation_ref"
    (htext listedRef.text (by decide))).member "schema"
    (htext "cpk.client-invocation.v1" (by decide)))
  refine ⟨cs, hcs, ?_⟩
  rw [maximumJournalBytes]
  omega

/-- The bytes of the document with the two surrogates. -/
def pairBytes : List UInt8 :=
  Json.asciiBytes ((Json.encode codec.floatText (recordedWith pairText)).getD [])

/-- A decoder that knows the documents above; it joins the two surrogates. -/
def pairCodec : Codec where
  floatText := codec.floatText
  tooDeep _ := false
  loads raw :=
    if raw = documentBytes "\"planning\"" then .value (documentWith (.str "planning"))
    else if raw = pairBytes then .value (recordedWith "😀")
    else .jsonDecodeError

theorem loads_planning : pairCodec.loads (documentBytes "\"planning\"") =
    .value (documentWith (.str "planning")) := by
  simp only [pairCodec, if_true]

theorem loads_pair (h : pairBytes ≠ documentBytes "\"planning\"") :
    pairCodec.loads pairBytes = .value (recordedWith "😀") := by
  simp only [pairCodec, if_neg h, if_true]

theorem encodeDocument_pair :
    encodeDocument pairCodec listedRef (recordedWith pairText) = .ok pairBytes := by
  obtain ⟨cs, hcs, hlength⟩ := encode_recorded pairText (by decide)
  have hcheck : checkDocument (recordedWith pairText) listedRef = .ok () := rfl
  have hencode : Json.encode pairCodec.floatText (recordedWith pairText) = some cs := hcs
  rw [encodeDocument, hcheck, hencode]
  have hbytes : pairBytes = Json.asciiBytes cs := by rw [pairBytes, hcs, Option.getD_some]
  rw [hbytes]
  exact if_neg (by omega)

/-- What is read back of the bytes is not equal to the value. -/
theorem readDocument_pair : ∃ v, readDocument pairCodec.loads pairBytes listedRef = .ok v ∧
    v.pyEq (recordedWith pairText) = false := by
  obtain ⟨-, hsize⟩ := encodeDocument_checked encodeDocument_pair
  have hread : ∀ v, pairCodec.loads pairBytes = .value v → checkDocument v listedRef = .ok () →
      readDocument pairCodec.loads pairBytes listedRef = .ok v := by
    intro v hloads hcheck
    rw [readDocument, if_neg (by omega), hloads]
    simp only [hcheck]
    rfl
  by_cases hsame : pairBytes = documentBytes "\"planning\""
  · refine ⟨documentWith (.str "planning"), hread _ ?_ checkDocument_planning, rfl⟩
    rw [hsame]
    exact loads_planning
  · exact ⟨recordedWith "😀", hread _ (loads_pair hsame) rfl, rfl⟩

/-- The bytes of the document without them. -/
def plainBytes : List UInt8 :=
  Json.asciiBytes ((Json.encode codec.floatText (recordedWith "note")).getD [])

/-- A decoder that knows this document, whose members come in the order in which they were written,
and the document that it replaces. -/
def plainCodec : Codec where
  floatText := codec.floatText
  tooDeep _ := false
  loads raw :=
    if raw = plainBytes then .value (recordedWith "note").sorted
    else if raw = documentBytes "\"planning\"" then .value (documentWith (.str "planning"))
    else .jsonDecodeError

theorem encodeDocument_plain :
    encodeDocument plainCodec listedRef (recordedWith "note") = .ok plainBytes := by
  obtain ⟨cs, hcs, hlength⟩ := encode_recorded "note" (by decide)
  have hcheck : checkDocument (recordedWith "note") listedRef = .ok () := rfl
  have hencode : Json.encode plainCodec.floatText (recordedWith "note") = some cs := hcs
  rw [encodeDocument, hcheck, hencode]
  have hbytes : plainBytes = Json.asciiBytes cs := by rw [plainBytes, hcs, Option.getD_some]
  rw [hbytes]
  exact if_neg (by omega)

/-- The directory holds a document that is read. -/
theorem admissible_planning : ∃ old, Admissible plainCodec listedRef journalDirectory
    (some (documentBytes "\"planning\"", old)) := by
  have hfile : Complete (documentBytes "\"planning\"") journalFile :=
    ⟨rfl, rfl, rfl, by rw [journalFile]⟩
  have hsize := length_planning
  have hread : ∀ v, plainCodec.loads (documentBytes "\"planning\"") = .value v →
      checkDocument v listedRef = .ok () → Admissible plainCodec listedRef journalDirectory
        (some (documentBytes "\"planning\"", v)) := by
    intro v hloads hcheck
    refine ⟨⟨0, journalDirectory_entry, hfile⟩, hsize, ?_⟩
    rw [readDocument, if_neg (by omega), hloads]
    simp only [hcheck]
    rfl
  by_cases hsame : documentBytes "\"planning\"" = plainBytes
  · refine ⟨(recordedWith "note").sorted, hread _ (by simp only [plainCodec, hsame, if_true]) ?_⟩
    rw [checkDocument_sorted rfl]
    rfl
  · exact ⟨documentWith (.str "planning"),
      hread _ (by simp only [plainCodec, hsame, if_false, if_true]) checkDocument_planning⟩

/-- The point after the new document was renamed over the old one. -/
theorem publication_atomic_replaced : ∃ old tr d,
    Exec (StoreStep False) journalDirectory
        (write plainCodec listedRef (recordedWith "note")) tr d (some (.ok ())) ∧
      Atomic False plainCodec listedRef (recordedWith "note")
        (some (documentBytes "\"planning\"", old)) (false = true) journalDirectory
        ⟨d, some (.pure ()), fun _ => none⟩ := by
  obtain ⟨old, hadmissible⟩ := admissible_planning
  obtain ⟨⟨tr, d, hrun⟩, -⟩ :=
    (write_succeeds_iff journalDirectory_readable.hasJournal encodeDocument_plain).mpr rfl
  refine ⟨old, tr, d, hrun, publication_atomic False plainCodec listedRef (recordedWith "note") _
    journalDirectory false _ hadmissible rfl (fun raw h _ => ?_) (.exec .refl hrun)⟩
  obtain rfl := Except.ok.inj (encodeDocument_plain.symm.trans h)
  simp only [plainCodec, if_true]

/-- **Two surrogates come back as one character**: the writer returns, and a read after it returns a
value that is not equal to the one written. -/
theorem write_pair : Admissible pairCodec listedRef journalDirectory
      (some (documentBytes "\"planning\"", documentWith (.str "planning"))) ∧
    ∃ tr d v, Exec (StoreStep False) journalDirectory
        (write pairCodec listedRef (recordedWith pairText)) tr d (some (.ok ())) ∧
      (∀ tr' d' r, Exec (StoreStep False) d (read pairCodec listedRef) tr' d' (some r) →
        r = .ok v) ∧ v.pyEq (recordedWith pairText) = false := by
  have hjournal : HasJournal journalDirectory listedRef := journalDirectory_readable.hasJournal
  constructor
  · have hfile : Complete (documentBytes "\"planning\"") journalFile :=
      ⟨rfl, rfl, rfl, by rw [journalFile]⟩
    have hsize := length_planning
    refine ⟨⟨0, journalDirectory_entry, hfile⟩, hsize, ?_⟩
    rw [readDocument, if_neg (by omega), loads_planning]
    simp only [checkDocument_planning]
    rfl
  · obtain ⟨v, hread, hunequal⟩ := readDocument_pair
    obtain ⟨-, hsize⟩ := encodeDocument_checked encodeDocument_pair
    have hsucceeds := (write_succeeds_iff hjournal encodeDocument_pair).mpr rfl
    obtain ⟨⟨tr, d, hrun⟩, -⟩ := hsucceeds
    refine ⟨tr, d, v, hrun, fun tr' d' r hread' => ?_, hunequal⟩
    have hensures : Ensures False journalDirectory listedRef pairBytes False
        (write pairCodec listedRef (recordedWith pairText)) _ journalDirectory :=
      ensures_write fun raw' h => Except.ok.inj (h.symm.trans encodeDocument_pair)
    obtain ⟨f, hcomplete, hstage⟩ := ((hensures []).outcome hrun).done rfl
    refine read_alone ⟨_, hstage.journal, ?_⟩ hsize hread hread'
    rw [hstage.file]
    exact hcomplete

end Instance

end Publication

end Client

end ControlPlaneKit
