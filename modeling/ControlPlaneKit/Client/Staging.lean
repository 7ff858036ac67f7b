import ControlPlaneKit.Interaction.Observed
import ControlPlaneKit.Client.Publication

/-!
# The stages of a publication

A writer creates one file. While the document is written the file is bound to the partial path only;
the link or the replacement binds it to the journal, and the cleanup removes the partial path.
`Stage` describes the directory at any point after the creation, relative to the directory `d₀` at
the start of the call, and each helper of the store moves from stage to stage. What a single call
may do is `Keeps`, which is shown of every call on the way.
-/

namespace ControlPlaneKit

namespace Client

namespace Publication

open Interaction Posix

/-! ### What a call may do -/

section Guarantee

variable (d₀ : StoreDirectory) (ref : OperationRef) (raw : List UInt8)

/-- The file of a complete document. -/
structure Complete (f : File) : Prop where
  regular : f.regular = true
  owned : f.owned = true
  mode : f.mode = 0o600
  content : f.content = raw

/-- The journal is the file created by this call, and the file is complete. -/
def Published (d : StoreDirectory) : Prop :=
  d.entry (.journal ref) = some d₀.count ∧ Complete raw (d.file d₀.count)

/-- A file whose content is fixed: one from before the call, or the journal. -/
def Settled (d : StoreDirectory) (i : ℕ) : Prop :=
  i < d₀.count ∨ d.entry (.journal ref) = some i

/-- Whether a name is bound after a call, from whether it was before. -/
def boundAfter (path : JournalPath) (bound : Bool) : Event StoreCall Call.Answer → Bool
  | ⟨.openNew name _, .ok _⟩ => if name = path then true else bound
  | ⟨.unlink name, .ok _⟩ => if name = path then false else bound
  | ⟨.replace source _, .ok _⟩ => if source = path then false else bound
  | _ => bound

/-- What one call of a writer may do. -/
structure Keeps (creates : Prop) (d : StoreDirectory)
    (e : Event StoreCall Call.Answer) (d' : StoreDirectory) : Prop where
  /-- The journal stays, or the new document takes the place of the old one. -/
  journal : d'.entry (.journal ref) = d.entry (.journal ref) ∨
    d.entry (.journal ref) = d₀.entry (.journal ref) ∧
      (creates → d.entry (.journal ref) = none) ∧ Published d₀ ref raw d'
  /-- Fixed contents stay. -/
  files : ∀ i, Settled d₀ ref d i → d'.file i = d.file i
  /-- No other name is touched. -/
  others : ∀ path, path ≠ .partialPath ref → path ≠ .journal ref → d'.entry path = d.entry path
  grown : d.count ≤ d'.count
  /-- Only the file created by this call is unlinked. -/
  unlinked : ∀ path, e.op = .unlink path → d'.entry path ≠ d.entry path →
    path = .partialPath ref ∧ d.entry path = some d₀.count
  /-- The partial path is bound by its creation, and free after it was renamed or unlinked. -/
  bound : (d'.entry (.partialPath ref)).isSome =
    boundAfter (.partialPath ref) (d.entry (.partialPath ref)).isSome e

/-- What holds of the directory at every point of a call. -/
structure Safe (d : StoreDirectory) : Prop where
  journal : d.entry (.journal ref) = d₀.entry (.journal ref) ∨ Published d₀ ref raw d
  files : ∀ i < d₀.count, d.file i = d₀.file i
  others : ∀ path, path ≠ .partialPath ref → path ≠ .journal ref → d.entry path = d₀.entry path
  grown : d₀.count ≤ d.count

end Guarantee

section Rules

variable {d₀ d d' : StoreDirectory} {ref : OperationRef} {raw : List UInt8} {creates : Prop}
  {e : Event StoreCall Call.Answer}

theorem Safe.refl : Safe d₀ ref raw d₀ :=
  ⟨.inl rfl, fun _ _ => rfl, fun _ _ _ => rfl, le_refl _⟩

/-- A call that leaves the directory alone. -/
theorem Keeps.same (he : ∀ path b, boundAfter path b e = b := by intros; rfl) :
    Keeps d₀ ref raw creates d e d :=
  ⟨.inl rfl, fun _ _ => rfl, fun _ _ _ => rfl, le_refl _, fun _ _ h => absurd rfl h,
    (he _ _).symm⟩

/-- A call that failed. -/
theorem Keeps.failed {c : StoreCall} {errno : Errno} :
    Keeps d₀ ref raw creates d ⟨c, .error errno⟩ d :=
  .same fun _ _ => by cases c <;> rfl

/-- A published document stays published. -/
theorem Published.keep (h : Published d₀ ref raw d) (hkeeps : Keeps d₀ ref raw creates d e d') :
    Published d₀ ref raw d' := by
  obtain ⟨hentry, hcomplete⟩ := h
  rcases hkeeps.journal with hsame | ⟨-, -, hpublished⟩
  · refine ⟨hsame.trans hentry, ?_⟩
    rw [hkeeps.files _ (.inr hentry)]
    exact hcomplete
  · exact hpublished

theorem Safe.keep (h : Safe d₀ ref raw d) (hkeeps : Keeps d₀ ref raw creates d e d') :
    Safe d₀ ref raw d' where
  journal := by
    rcases h.journal with hold | hpublished
    · rcases hkeeps.journal with hsame | ⟨-, -, hpublished⟩
      · exact .inl (hsame.trans hold)
      · exact .inr hpublished
    · exact .inr (hpublished.keep hkeeps)
  files i hi := (hkeeps.files i (.inl hi)).trans (h.files i hi)
  others path hpart hjournal := (hkeeps.others path hpart hjournal).trans (h.others path hpart hjournal)
  grown := h.grown.trans hkeeps.grown

end Rules

/-! ### Programs that keep the guarantee -/

section Ensures

variable (faults : Prop) (d₀ : StoreDirectory) (ref : OperationRef) (raw : List UInt8)
  (creates : Prop)

/-- Every call of the program keeps the guarantee, and every outcome meets the postcondition. -/
def Ensures {α : Type} (p : StoreProgram α) (Q : StoreDirectory → Except Failure α → Prop)
    (d : StoreDirectory) : Prop :=
  ∀ h, Meets (StoreStep faults) (fun _ d e d' => Keeps d₀ ref raw creates d e d') p
    (fun _ d r => Q d r) h d

variable {faults d₀ ref raw creates} {α β : Type} {p : StoreProgram α}
  {Q Q' : StoreDirectory → Except Failure α → Prop}
  {Q₂ : StoreDirectory → Except Failure β → Prop} {d : StoreDirectory}

theorem ensures_pure {a : α} (h : Q d (.ok a)) : Ensures faults d₀ ref raw creates (.pure a) Q d :=
  fun _ => h

theorem ensures_raise {failure : Failure} (h : Q d (.error failure)) :
    Ensures faults d₀ ref raw creates (.raise failure) Q d :=
  fun _ => h

theorem ensures_perform {c : StoreCall} {next : c.Answer → StoreProgram α}
    (hstep : ∀ a d', StoreStep faults d c a d' →
      Keeps d₀ ref raw creates d ⟨c, a⟩ d' ∧ Ensures faults d₀ ref raw creates (next a) Q d') :
    Ensures faults d₀ ref raw creates (.perform c next) Q d :=
  fun _ a d' hd => ⟨(hstep a d' hd).1, (hstep a d' hd).2 _⟩

theorem Ensures.mono (hp : Ensures faults d₀ ref raw creates p Q d) (hQ : ∀ d r, Q d r → Q' d r) :
    Ensures faults d₀ ref raw creates p Q' d :=
  fun h => (hp h).post fun _ d r => hQ d r

theorem Ensures.bind {f : α → StoreProgram β} (hp : Ensures faults d₀ ref raw creates p Q d)
    (hok : ∀ d a, Q d (.ok a) → Ensures faults d₀ ref raw creates (f a) Q₂ d)
    (herror : ∀ d e, Q d (.error e) → Q₂ d (.error e)) :
    Ensures faults d₀ ref raw creates (p >>= f) Q₂ d := by
  intro h
  rw [meets_bind]
  refine (hp h).post fun h' d r hr => ?_
  cases r with
  | ok a => exact hok d a hr h'
  | error e => exact herror d e hr

theorem Ensures.handle {g : Failure → StoreProgram α}
    (hp : Ensures faults d₀ ref raw creates p Q d) (hok : ∀ d a, Q d (.ok a) → Q' d (.ok a))
    (herror : ∀ d e, Q d (.error e) → Ensures faults d₀ ref raw creates (g e) Q' d) :
    Ensures faults d₀ ref raw creates (p.handle g) Q' d := by
  intro h
  rw [meets_handle]
  refine (hp h).post fun h' d r hr => ?_
  cases r with
  | ok a => exact hok d a hr
  | error e => exact herror d e hr h'

/-- A call that leaves the directory alone, and the exception its error becomes. -/
theorem ensures_attempt {c : StoreCall} {failure : Failure}
    {Q : StoreDirectory → Except Failure c.Result → Prop}
    (hsame : ∀ r d', d.Does faults c r d' → d' = d) (hok : ∀ r, d.Does faults c r d → Q d (.ok r))
    (herror : ∀ errno, d.Refuses c errno ∨ faults → Q d (.error failure))
    (hc : ∀ path b a, boundAfter path b ⟨c, a⟩ = b := by intros; rfl) :
    Ensures faults d₀ ref raw creates (attempt c failure) Q d := by
  refine ensures_perform fun a d' hstep => ?_
  cases hstep with
  | done hdoes =>
    have hd := hsame _ _ hdoes
    subst hd
    exact ⟨.same fun path b => hc path b _, ensures_pure (hok _ hdoes)⟩
  | refused hrefuses => exact ⟨.failed, ensures_raise (herror _ (.inl hrefuses))⟩
  | fault hfault => exact ⟨.failed, ensures_raise (herror .other (.inr hfault))⟩

/-- A call about which nothing is left to say: it returns, or fails by a fault. -/
theorem ensures_call {c : StoreCall} {Q : StoreDirectory → Except Failure c.Result → Prop}
    (hsame : ∀ r d', d.Does faults c r d' → d' = d) (hnever : ∀ errno, ¬ d.Refuses c errno)
    (hok : ∀ r, d.Does faults c r d → Q d (.ok r)) (herror : faults → Q d (.error .osError))
    (hc : ∀ path b a, boundAfter path b ⟨c, a⟩ = b := by intros; rfl) :
    Ensures faults d₀ ref raw creates (call c) Q d :=
  ensures_attempt hsame hok (fun errno h => herror (h.resolve_left (hnever errno))) hc

end Ensures

/-! ### Stages -/

/-- The directory after the file was created: where the partial path and the journal lead, and what
the file is. -/
structure Stage (d₀ : StoreDirectory) (ref : OperationRef) (partialEntry journalEntry : Option ℕ)
    (f : File) (d : StoreDirectory) : Prop where
  partialPath : d.entry (.partialPath ref) = partialEntry
  journal : d.entry (.journal ref) = journalEntry
  others : ∀ path, path ≠ .partialPath ref → path ≠ .journal ref → d.entry path = d₀.entry path
  file : d.file d₀.count = f
  files : ∀ i < d₀.count, d.file i = d₀.file i
  count : d.count = d₀.count + 1

section Stages

variable {faults : Prop} {d₀ d : StoreDirectory} {ref : OperationRef} {raw : List UInt8}
  {creates : Prop} {p j : Option ℕ} {f : File}

/-- The new file before it is published. -/
theorem Stage.not_settled (h : Stage d₀ ref p (d₀.entry (.journal ref)) f d) {i : ℕ}
    (hi : Settled d₀ ref d i) : i ≠ d₀.count := by
  rcases hi with hlt | hjournal
  · omega
  · rw [h.journal] at hjournal
    have hlt := d₀.created hjournal
    omega

/-- The creation of the file. -/
theorem Stage.created (raw : List UInt8) (creates : Prop) {mode : ℕ} {i : ℕ} {d' : StoreDirectory}
    (h : d₀.Does faults (.openNew (.partialPath ref) mode) i d') :
    i = d₀.count ∧ Keeps d₀ ref raw creates d₀ ⟨.openNew (.partialPath ref) mode, .ok i⟩ d' ∧
      ∃ f, Stage d₀ ref (some d₀.count) (d₀.entry (.journal ref)) f d' ∧ f.regular = true ∧
        f.owned = true ∧ f.content = [] ∧ (¬ faults → f.mode = mode) := by
  obtain ⟨-, rfl, ino, mtime, given, -, hgiven, rfl⟩ := h
  have hentry : ∀ path, path ≠ .partialPath ref →
      (d₀.withNew (.partialPath ref) ⟨ino, true, true, given, mtime, []⟩).entry path =
        d₀.entry path := fun path hne => Posix.Directory.withNew_entry_of_ne hne
  have hfile : ∀ i < d₀.count,
      (d₀.withNew (.partialPath ref) ⟨ino, true, true, given, mtime, []⟩).file i = d₀.file i :=
    fun i hi => Posix.Directory.withNew_file_of_lt hi
  refine ⟨rfl, ⟨.inl (hentry _ (by simp)), ?_, fun path hpart _ => hentry path hpart,
    Nat.le_succ _, fun path h => (by cases h), by simp [boundAfter]⟩, ⟨ino, true, true, given, mtime, []⟩,
    ⟨Posix.Directory.withNew_entry_self, hentry _ (by simp), fun path hpart _ => hentry path hpart,
      Posix.Directory.withNew_file_self, hfile, rfl⟩, rfl, rfl, rfl, fun hf => hgiven.resolve_right hf⟩
  rintro i (hlt | hjournal)
  · exact hfile i hlt
  · exact hfile i (d₀.created hjournal)

/-- Writing to the file before it is published. -/
theorem Stage.written (raw : List UInt8) (creates : Prop) {bytes : List UInt8} {n : ℕ} {d' : StoreDirectory}
    (hstage : Stage d₀ ref p (d₀.entry (.journal ref)) f d)
    (h : d.Does faults (.write d₀.count bytes) n d') :
    Keeps d₀ ref raw creates d ⟨.write d₀.count bytes, .ok n⟩ d' ∧ ∃ mtime,
      Stage d₀ ref p (d₀.entry (.journal ref))
        { f with content := f.content ++ bytes.take n, mtime := mtime } d' := by
  obtain ⟨-, -, mtime, rfl⟩ := h
  refine ⟨⟨.inl rfl, fun i hi => ?_, fun _ _ _ => rfl, le_refl _, fun path h => (by cases h), rfl⟩,
    mtime, hstage.partialPath, hstage.journal, hstage.others, ?_, fun i hi => ?_, hstage.count⟩
  · exact Posix.Directory.withFile_file_of_ne (hstage.not_settled hi)
  · rw [← hstage.file]
    exact Posix.Directory.withFile_file_self
  · exact (Posix.Directory.withFile_file_of_ne (Nat.ne_of_lt hi)).trans (hstage.files i hi)

/-- Removing the partial path, which is bound to the new file. -/
theorem Stage.unlinked {d' : StoreDirectory} {u : Unit}
    (hstage : Stage d₀ ref (some d₀.count) j f d)
    (h : d.Does faults (.unlink (.partialPath ref)) u d') :
    Keeps d₀ ref raw creates d ⟨.unlink (.partialPath ref), .ok u⟩ d' ∧ Stage d₀ ref none j f d' := by
  obtain ⟨-, rfl⟩ := h
  have hentry : ∀ path, path ≠ .partialPath ref →
      (d.without (.partialPath ref)).entry path = d.entry path :=
    fun path hne => Posix.Directory.without_entry_of_ne hne
  refine ⟨⟨.inl (hentry _ (by simp)), fun _ _ => rfl, fun path hpart _ => hentry path hpart,
    le_refl _, fun path h _ => ?_, by simp [boundAfter]⟩, Posix.Directory.without_entry_self,
    (hentry _ (by simp)).trans hstage.journal,
    fun path hpart hjournal => (hentry path hpart).trans (hstage.others path hpart hjournal),
    hstage.file, hstage.files, hstage.count⟩
  cases h
  exact ⟨rfl, hstage.partialPath⟩

/-- Linking the complete file to a free name. -/
theorem Stage.linked (creates : Prop) {d' : StoreDirectory} {u : Unit}
    (hstage : Stage d₀ ref (some d₀.count) (d₀.entry (.journal ref)) f d) (hf : Complete raw f)
    (h : d.Does faults (.link (.partialPath ref) (.journal ref)) u d') :
    Keeps d₀ ref raw creates d ⟨.link (.partialPath ref) (.journal ref), .ok u⟩ d' ∧
      Stage d₀ ref (some d₀.count) (some d₀.count) f d' := by
  obtain ⟨-, hfree, rfl⟩ := h
  have hentry : ∀ path, path ≠ .journal ref →
      (d.withLink (.partialPath ref) (.journal ref)).entry path = d.entry path :=
    fun path hne => Posix.Directory.withLink_entry_of_ne hne
  have hjournal : (d.withLink (.partialPath ref) (.journal ref)).entry (.journal ref) =
      some d₀.count := Posix.Directory.withLink_entry_self.trans hstage.partialPath
  have hcomplete : Complete raw (d.file d₀.count) := by
    rw [hstage.file]
    exact hf
  exact ⟨⟨.inr ⟨hstage.journal, fun _ => hfree, hjournal, hcomplete⟩, fun _ _ => rfl,
      fun path _ hne => hentry path hne, le_refl _, fun path h => (by cases h),
      congrArg Option.isSome (hentry _ (by simp))⟩,
    (hentry _ (by simp)).trans hstage.partialPath, hjournal,
    fun path hpart hne => (hentry path hne).trans (hstage.others path hpart hne),
    hstage.file, hstage.files, hstage.count⟩

/-- Renaming the complete file over the journal. -/
theorem Stage.replaced {d' : StoreDirectory} {u : Unit} (hcreates : ¬ creates)
    (hstage : Stage d₀ ref (some d₀.count) (d₀.entry (.journal ref)) f d) (hf : Complete raw f)
    (h : d.Does faults (.replace (.partialPath ref) (.journal ref)) u d') :
    Keeps d₀ ref raw creates d ⟨.replace (.partialPath ref) (.journal ref), .ok u⟩ d' ∧
      Stage d₀ ref none (some d₀.count) f d' := by
  have happart : d.entry (.journal ref) ≠ d.entry (.partialPath ref) := by
    rw [hstage.journal, hstage.partialPath]
    intro hsame
    have hlt := d₀.created hsame
    omega
  obtain ⟨-, hd'⟩ := h
  rw [if_neg happart] at hd'
  subst hd'
  have hentry : ∀ path, path ≠ .partialPath ref → path ≠ .journal ref →
      ((d.withLink (.partialPath ref) (.journal ref)).without (.partialPath ref)).entry path =
        d.entry path := by
    intro path hpart hjournal
    rw [Posix.Directory.without_entry_of_ne hpart, Posix.Directory.withLink_entry_of_ne hjournal]
  have hjournal : ((d.withLink (.partialPath ref) (.journal ref)).without (.partialPath ref)).entry
      (.journal ref) = some d₀.count := by
    rw [Posix.Directory.without_entry_of_ne (by simp), Posix.Directory.withLink_entry_self]
    exact hstage.partialPath
  have hcomplete : Complete raw (d.file d₀.count) := by
    rw [hstage.file]
    exact hf
  exact ⟨⟨.inr ⟨hstage.journal, fun h => absurd h hcreates, hjournal, hcomplete⟩, fun _ _ => rfl,
      hentry, le_refl _, fun path h => (by cases h), by simp [boundAfter]⟩,
    Posix.Directory.without_entry_self, hjournal,
    fun path hpart hne => (hentry path hpart hne).trans (hstage.others path hpart hne),
    hstage.file, hstage.files, hstage.count⟩

end Stages

end Publication

end Client

end ControlPlaneKit
