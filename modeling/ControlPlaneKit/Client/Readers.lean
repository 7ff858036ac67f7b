import ControlPlaneKit.Client.Publishing

/-!
# Readers beside a writer

A reader takes no lock: between two of its calls the writer may link, replace or unlink. What it
relies on is `Moves`: a file that was in the directory before the call, or that is the journal, keeps
its content. The descriptor of a reader refers to such a file, so the reader returns one of the two
documents, whole.
-/

namespace ControlPlaneKit

namespace Client

namespace Publication

open Interaction Posix

section Moves

variable (d₀ : StoreDirectory) (ref : OperationRef) (raw : List UInt8)

/-- What a writer may do between two calls of a reader. -/
def Moves (d d' : StoreDirectory) : Prop :=
  Safe d₀ ref raw d → Safe d₀ ref raw d' ∧
    ∀ i, Settled d₀ ref d i → Settled d₀ ref d' i ∧ d'.file i = d.file i

variable {d₀ ref raw} {d d' d'' : StoreDirectory} {creates : Prop}
  {e : Event StoreCall Call.Answer}

theorem Moves.refl (d : StoreDirectory) : Moves d₀ ref raw d d :=
  fun h => ⟨h, fun _ hi => ⟨hi, rfl⟩⟩

theorem Moves.trans (h : Moves d₀ ref raw d d') (h' : Moves d₀ ref raw d' d'') :
    Moves d₀ ref raw d d'' := by
  intro hd
  obtain ⟨hd', hfiles⟩ := h hd
  obtain ⟨hd'', hfiles'⟩ := h' hd'
  refine ⟨hd'', fun i hi => ?_⟩
  obtain ⟨hi', hsame⟩ := hfiles i hi
  obtain ⟨hi'', hsame'⟩ := hfiles' i hi'
  exact ⟨hi'', hsame'.trans hsame⟩

/-- Each call of a writer is such a move. -/
theorem Keeps.moves (h : Keeps d₀ ref raw creates d e d') : Moves d₀ ref raw d d' := by
  refine fun hd => ⟨hd.keep h, fun i hi => ⟨?_, h.files i hi⟩⟩
  rcases hi with hlt | hjournal
  · exact .inl hlt
  · rcases h.journal with hsame | ⟨hold, -, -⟩
    · exact .inr (hsame.trans hjournal)
    · -- the replaced journal is from before the call
      exact .inl (d₀.created (hold.symm.trans hjournal))

end Moves

/-! ### Programs that only read -/

/-- The calls of a reader. -/
def Reading : StoreCall → Prop
  | .prepareRoot => True
  | .openRead _ => True
  | .fstat _ => True
  | .read _ _ _ => True
  | .close _ => True
  | _ => False

theorem Reading.same {d d' : StoreDirectory} {c : StoreCall} {a : c.Answer}
    (hc : Reading c) (h : StoreStep False d c a d') : d' = d := by
  cases h with
  | done hdoes =>
    cases c with
    | prepareRoot => exact hdoes.2
    | openRead name => exact hdoes.2
    | fstat i => exact hdoes.2
    | read i offset size => exact hdoes.2.2
    | close i => exact hdoes
    | _ => exact absurd hc (fun h => h)
  | refused _ => rfl
  | fault hfault => exact absurd hfault (fun h => h)

section Uses

theorem uses_attempt {c : StoreCall} {failure : Failure} (hc : Reading c) :
    (attempt c failure).Uses Reading := by
  refine ⟨hc, fun a => ?_⟩
  cases a <;> trivial

theorem uses_initializeRoot : initializeRoot.Uses Reading := by
  have hprepare : (call .prepareRoot).Uses Reading := uses_attempt trivial
  refine hprepare.bind fun root => ?_
  match root with
  | Root.safe => trivial
  | Root.linked => trivial
  | Root.exposed => trivial

theorem uses_readAll (descriptor remaining : ℕ) (raw : List UInt8) :
    (readAll descriptor remaining raw).Uses Reading := by
  induction remaining using Nat.strong_induction_on generalizing raw with
  | h remaining ih =>
    rw [readAll]
    split
    · trivial
    · refine ⟨trivial, fun a => ?_⟩
      match a with
      | .error _ => trivial
      | .ok ([] : List UInt8) => trivial
      | .ok (b :: bs : List UInt8) => exact ih _ (by omega) _

theorem uses_close (descriptor : ℕ) : (call (.close descriptor)).Uses Reading :=
  uses_attempt trivial

theorem uses_fstat (descriptor : ℕ) : (call (.fstat descriptor)).Uses Reading :=
  uses_attempt trivial

theorem uses_readBytes (path : JournalPath) : (readBytes path).Uses Reading := by
  have hopen : (attempt (.openRead path)
      (.journal "operation journal is unavailable")).Uses Reading := uses_attempt trivial
  refine hopen.bind fun descriptor => ?_
  refine Program.Uses.bind (Program.Uses.handle ?_ fun _ => (uses_close _).bind fun _ => trivial)
    fun raw => (uses_close _).bind fun _ => trivial
  refine (uses_fstat descriptor).bind fun before => ?_
  split
  · trivial
  · refine (uses_readAll _ _ _).bind fun raw => (uses_fstat descriptor).bind fun after => ?_
    dsimp only
    split <;> trivial

theorem uses_read (codec : Codec) (ref : OperationRef) : (read codec ref).Uses Reading := by
  refine uses_initializeRoot.bind fun _ => (uses_readBytes _).bind fun raw => ?_
  split <;> trivial

end Uses

/-! ### What a reader returns -/

section Watches

variable (d₀ : StoreDirectory) (ref : OperationRef) (raw : List UInt8) {α β : Type}

/-- Beside a writer, from a directory with `K`, the program ends with an outcome in `Q`; `K` holds
throughout. -/
def Watches (K : StoreDirectory → Prop) (p : StoreProgram α) (Q : Except Failure α → Prop) :
    Prop :=
  ∀ h s, K s → Meets (Semantics.under (StoreStep False) (Moves d₀ ref raw)) (fun _ _ _ _ => True) p
    (fun _ s r => K s ∧ Q r) h s

/-- The writer keeps `K`. -/
def Stable (K : StoreDirectory → Prop) : Prop :=
  ∀ s t, Moves d₀ ref raw s t → K s → K t

variable {d₀ ref raw} {K : StoreDirectory → Prop} {p : StoreProgram α}
  {Q : Except Failure α → Prop} {Q₂ : Except Failure β → Prop}

theorem watches_pure {a : α} (h : Q (.ok a)) : Watches d₀ ref raw K (.pure a) Q :=
  fun _ _ hs => ⟨hs, h⟩

theorem watches_perform (hK : Stable d₀ ref raw K) {c : StoreCall} (hc : Reading c)
    {next : c.Answer → StoreProgram α}
    (hnext : ∀ h s a, K s → StoreStep False s c a s →
      Meets (Semantics.under (StoreStep False) (Moves d₀ ref raw)) (fun _ _ _ _ => True) (next a)
        (fun _ s r => K s ∧ Q r) h s) :
    Watches d₀ ref raw K (.perform c next) Q := by
  rintro h s hs a s'' ⟨s', hmoves, hstep⟩
  obtain rfl := hc.same hstep
  exact ⟨trivial, hnext _ _ a (hK _ _ hmoves hs) hstep⟩

theorem Watches.bind {f : α → StoreProgram β} (hp : Watches d₀ ref raw K p Q)
    (hok : ∀ a, Q (.ok a) → Watches d₀ ref raw K (f a) Q₂)
    (herror : ∀ e, Q (.error e) → Q₂ (.error e)) : Watches d₀ ref raw K (p >>= f) Q₂ := by
  intro h s hs
  rw [meets_bind]
  refine (hp h s hs).post fun h' t r hr => ?_
  cases r with
  | ok a => exact hok a hr.2 h' t hr.1
  | error e => exact ⟨hr.1, herror e hr.2⟩

theorem Watches.handle {g : Failure → StoreProgram α} {Q' : Except Failure α → Prop}
    (hp : Watches d₀ ref raw K p Q) (hok : ∀ a, Q (.ok a) → Q' (.ok a))
    (herror : ∀ e, Q (.error e) → Watches d₀ ref raw K (g e) Q') :
    Watches d₀ ref raw K (p.handle g) Q' := by
  intro h s hs
  rw [meets_handle]
  refine (hp h s hs).post fun h' t r hr => ?_
  cases r with
  | ok a => exact ⟨hr.1, hok a hr.2⟩
  | error e => exact herror e hr.2 h' t hr.1

/-- A call of a reader that cannot be refused returns. -/
theorem watches_call (hK : Stable d₀ ref raw K) {c : StoreCall} (hc : Reading c)
    {Q : Except Failure c.Result → Prop} (hnever : ∀ s errno, ¬ Posix.Directory.Refuses s c errno)
    (hok : ∀ s r, K s → Posix.Directory.Does False s c r s → Q (.ok r)) :
    Watches d₀ ref raw K (call c) Q := by
  refine watches_perform hK hc fun h s a hs hstep => ?_
  cases hstep with
  | done hdoes => exact ⟨hs, hok s _ hs hdoes⟩
  | refused hrefuses => exact absurd hrefuses (hnever s _)
  | fault hfault => exact absurd hfault (fun h => h)

theorem stable_safe : Stable d₀ ref raw (Safe d₀ ref raw) :=
  fun _ _ hmoves hs => (hmoves hs).1

/-- The reader holds this file, whose content is fixed. -/
structure Held (d₀ : StoreDirectory) (ref : OperationRef) (raw : List UInt8) (i : ℕ) (f : File)
    (d : StoreDirectory) : Prop where
  safe : Safe d₀ ref raw d
  settled : Settled d₀ ref d i
  file : d.file i = f

theorem stable_held {i : ℕ} {f : File} : Stable d₀ ref raw (Held d₀ ref raw i f) := by
  intro s t hmoves hs
  obtain ⟨hsafe, hfiles⟩ := hmoves hs.safe
  obtain ⟨hsettled, hsame⟩ := hfiles i hs.settled
  exact ⟨hsafe, hsettled, hsame.trans hs.file⟩

variable {i : ℕ} {f : File}

theorem watches_fstat :
    Watches d₀ ref raw (Held d₀ ref raw i f) (call (.fstat i)) (fun r => r = .ok f.stat) := by
  have hreading : Reading (.fstat i) := trivial
  refine watches_call stable_held hreading (fun _ _ h => h) fun s r hs hdoes => ?_
  have hr : r = (s.file i).stat := hdoes.1
  rw [hr, hs.file]

theorem watches_close (hK : Stable d₀ ref raw K) :
    Watches d₀ ref raw K (call (.close i)) (fun r => r = .ok ()) := by
  have hreading : Reading (.close i) := trivial
  exact watches_call hK hreading (fun _ _ h => h) fun _ _ _ _ => rfl

/-- The chunks make up the content, which is not longer than what is asked for. -/
theorem watches_readAll {remaining : ℕ} {chunks : List UInt8} (hpre : chunks <+: f.content)
    (hbound : f.content.length < chunks.length + remaining) :
    Watches d₀ ref raw (Held d₀ ref raw i f) (readAll i remaining chunks)
      (fun r => r = .ok f.content) := by
  -- on the bytes that may still come; each chunk that is not the last is not empty
  induction remaining using Nat.strong_induction_on generalizing chunks with
  | h remaining ih =>
    rw [readAll]
    have hpos : remaining ≠ 0 := by
      have := hpre.length_le
      omega
    rw [if_neg hpos]
    have hreading : Reading (.read i chunks.length remaining) := trivial
    refine watches_perform stable_held hreading fun h s a hs hstep => ?_
    cases hstep with
    | done hdoes =>
      rename_i r
      obtain ⟨⟨n, hn, hchunk⟩, hend, -⟩ := hdoes
      rw [hs.file] at hchunk hend
      match r, hchunk, hend with
      | ([] : List UInt8), _, hend =>
        have hlength := (hend rfl).resolve_left hpos
        have hwhole : chunks = f.content := hpre.eq_of_length_le hlength
        exact ⟨hs, congrArg Except.ok hwhole⟩
      | (b :: bs : List UInt8), hchunk, _ =>
        obtain ⟨rest, hrest⟩ := hpre
        have hdrop : f.content.drop chunks.length = rest := by
          rw [← hrest, List.drop_left]
        rw [hdrop] at hchunk
        have hlonger : chunks ++ b :: bs <+: f.content := by
          rw [← hrest, hchunk]
          exact (List.prefix_append_right_inj chunks).mpr (List.take_prefix n rest)
        have hlength : bs.length + 1 ≤ remaining := by
          have := congrArg List.length hchunk
          rw [List.length_cons, List.length_take] at this
          omega
        refine ih _ (by omega) hlonger ?_ h s hs
        rw [List.length_append, List.length_cons]
        omega
    | refused hrefuses => exact absurd hrefuses (fun h => h)
    | fault hfault => exact absurd hfault (fun h => h)

/-- What the reader does with a file it holds. -/
theorem watches_held {g : Failure → StoreProgram (List UInt8)} (hf : f.regular = true)
    (howned : f.owned = true) (hmode : f.mode = 0o600)
    (hsize : f.content.length ≤ maximumJournalBytes) :
    Watches d₀ ref raw (Held d₀ ref raw i f) (do
      let raw ← Program.handle (do
        let before : Stat ← call (.fstat i)
        if before.regular = false ∨ before.owned = false ∨ before.mode ≠ 0o600 ∨
            maximumJournalBytes < before.size then
          Program.raise (.journal "operation journal is unsafe")
        let raw ← readAll i (maximumJournalBytes + 1) []
        let after : Stat ← call (.fstat i)
        if maximumJournalBytes < raw.length ∨ before.ino ≠ after.ino ∨ before.size ≠ after.size ∨
            before.mtime ≠ after.mtime then
          Program.raise (.journal "operation journal changed during read")
        return raw) g
      call (.close i)
      return raw) (fun r => r = .ok f.content) := by
  have hstat : f.stat.size = f.content.length := rfl
  have hsafe : ¬ (f.stat.regular = false ∨ f.stat.owned = false ∨ f.stat.mode ≠ 0o600 ∨
      maximumJournalBytes < f.stat.size) := by
    simp only [File.stat, hf, howned, hmode]
    simp only [Bool.true_eq_false, ne_eq, not_true_eq_false, false_or]
    omega
  -- While the file is held, both stats and all chunks are of one content.
  have hbody : Watches d₀ ref raw (Held d₀ ref raw i f) (do
      let before : Stat ← call (.fstat i)
      if before.regular = false ∨ before.owned = false ∨ before.mode ≠ 0o600 ∨
          maximumJournalBytes < before.size then
        Program.raise (.journal "operation journal is unsafe")
      let raw ← readAll i (maximumJournalBytes + 1) []
      let after : Stat ← call (.fstat i)
      if maximumJournalBytes < raw.length ∨ before.ino ≠ after.ino ∨ before.size ≠ after.size ∨
          before.mtime ≠ after.mtime then
        Program.raise (.journal "operation journal changed during read")
      return raw) (fun r => r = .ok f.content) := by
    refine watches_fstat.bind (fun before hbefore => ?_) (fun e he => by cases he)
    obtain rfl := Except.ok.inj hbefore
    rw [if_neg hsafe]
    have hread : Watches d₀ ref raw (Held d₀ ref raw i f) (readAll i (maximumJournalBytes + 1) [])
        (fun r => r = .ok f.content) := by
      refine watches_readAll List.nil_prefix ?_
      rw [List.length_nil]
      omega
    refine hread.bind (fun bytes hbytes => ?_) (fun e he => by cases he)
    obtain rfl := Except.ok.inj hbytes
    refine watches_fstat.bind (fun after hafter => ?_) (fun e he => by cases he)
    obtain rfl := Except.ok.inj hafter
    rw [if_neg (by simp; omega)]
    exact watches_pure rfl
  have hguarded : Watches d₀ ref raw (Held d₀ ref raw i f) _ (fun r => r = .ok f.content) :=
    hbody.handle (g := g) (fun bytes h => h) (fun e he => by cases he)
  refine hguarded.bind (fun bytes hbytes => ?_) (fun e he => by cases he)
  obtain rfl := Except.ok.inj hbytes
  exact (watches_close stable_held).bind (fun _ _ => watches_pure rfl) (fun e he => by cases he)

end Watches

end Publication

end Client

end ControlPlaneKit
