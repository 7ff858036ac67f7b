import ControlPlaneKit.Client.Staging

/-!
# The writers of the journal store

One lemma for each helper of `create` and `write`: every call keeps the guarantee of a writer, also
where calls fail, and the outcome says which stage was reached. Without faults the outcome is a
success, which is what the next writer relies on.
-/

namespace ControlPlaneKit

namespace Client

namespace Publication

open Interaction Posix

section Helpers

variable {faults : Prop} {d₀ d : StoreDirectory} {ref : OperationRef} {raw : List UInt8}
  {creates : Prop} {p j : Option ℕ} {f : File}

/-- Where the partial path leads after the creation of the file: to the file, or nowhere. -/
def Own (d₀ : StoreDirectory) (p : Option ℕ) : Prop :=
  p = some d₀.count ∨ p = none

/-- The cleanup removes the partial path if it is still bound to the new file. -/
theorem ensures_unlinkOwnedPartial (hstage : Stage d₀ ref p j f d) (hp : Own d₀ p)
    (hregular : f.regular = true) :
    Ensures faults d₀ ref raw creates (unlinkOwnedPartial (.partialPath ref) (some f.ino))
      (fun d r => (r = .ok () → Stage d₀ ref none j f d) ∧ (¬ faults → r = .ok ())) d := by
  refine ensures_perform fun a d' hstep => ?_
  cases hstep with
  | done hdoes =>
    obtain ⟨⟨i, hentry, rfl⟩, rfl⟩ := hdoes
    have hi : p = some i := hstage.partialPath.symm.trans hentry
    have hnew : p = some d₀.count := hp.resolve_right (by rw [hi]; exact Option.some_ne_none i)
    obtain rfl : i = d₀.count := Option.some.inj (hi.symm.trans hnew)
    subst hnew
    refine ⟨.same, ?_⟩
    have hown : (d'.file d₀.count).stat.ino = f.ino ∧ (d'.file d₀.count).stat.regular = true := by
      rw [hstage.file]
      exact ⟨rfl, hregular⟩
    dsimp only
    rw [if_pos hown]
    -- the unlink itself
    refine ensures_perform fun a d'' hstep => ?_
    cases hstep with
    | done hdoes =>
      obtain ⟨hkeeps, hnext⟩ := hstage.unlinked hdoes
      exact ⟨hkeeps, ensures_pure ⟨fun _ => hnext, fun _ => rfl⟩⟩
    | refused hrefuses => exact absurd hrefuses.1 (by rw [hentry]; exact Option.some_ne_none _)
    | fault hfault =>
      exact ⟨.same, ensures_raise ⟨fun h => (by cases h), fun h => absurd hfault h⟩⟩
  | refused hrefuses =>
    obtain ⟨hnone, rfl⟩ := hrefuses
    have hp : p = none := hstage.partialPath.symm.trans hnone
    subst hp
    exact ⟨.same, ensures_pure ⟨fun _ => hstage, fun _ => rfl⟩⟩
  | fault hfault =>
    exact ⟨.same, ensures_raise ⟨fun h => (by cases h), fun h => absurd hfault h⟩⟩

/-- The handler around the creation cleans up and raises. -/
theorem ensures_abandonPartial {α : Type} {Q : StoreDirectory → Except Failure α → Prop}
    {i : ℕ} {identity : Option ℕ} {failure : Failure} (hstage : Stage d₀ ref p j f d) (hp : Own d₀ p)
    (hregular : f.regular = true) (hidentity : ∀ k, identity = some k → k = f.ino)
    (hQ : ∀ d e, Q d (.error e)) :
    Ensures faults d₀ ref raw creates (abandonPartial (.partialPath ref) i identity failure) Q d := by
  have hclose : Ensures faults d₀ ref raw creates (call (.close i))
      (fun d' r => r = .ok () → d' = d) d :=
    ensures_call (fun _ _ h => h) (fun _ h => h) (fun _ _ _ => rfl) (fun _ h => by cases h)
  refine hclose.bind (fun d' u hd' => ?_) (fun d' e _ => hQ d' e)
  rw [hd' rfl]
  cases identity with
  | none => exact ensures_raise (hQ _ _)
  | some k =>
    obtain rfl := hidentity k rfl
    exact (ensures_unlinkOwnedPartial hstage hp hregular).bind
      (fun d' _ _ => ensures_raise (hQ d' _)) (fun d' e _ => hQ d' e)

/-- The files that differ only in their content and modification time. -/
def SameFile (f g : File) : Prop :=
  g.ino = f.ino ∧ g.regular = f.regular ∧ g.owned = f.owned ∧ g.mode = f.mode

theorem ensures_writeAll (bytes : List UInt8) (hstage : Stage d₀ ref p (d₀.entry (.journal ref)) f d) :
    Ensures faults d₀ ref raw creates (writeAll d₀.count bytes)
      (fun d r => ∃ g, Stage d₀ ref p (d₀.entry (.journal ref)) g d ∧ SameFile f g ∧
        (r = .ok () → g.content = f.content ++ bytes) ∧ (¬ faults → r = .ok ())) d := by
  -- on the bytes that are left; a short write leaves fewer
  induction hn : bytes.length using Nat.strong_induction_on generalizing bytes f d with
  | h n ih =>
    cases bytes with
    | nil =>
      rw [writeAll]
      exact ensures_pure ⟨f, hstage, ⟨rfl, rfl, rfl, rfl⟩, fun _ => by simp, fun _ => rfl⟩
    | cons b bs =>
      rw [writeAll]
      refine ensures_perform fun a d' hstep => ?_
      have hfails : faults → ∀ d', Stage d₀ ref p (d₀.entry (.journal ref)) f d' →
          Ensures faults d₀ ref raw creates (.raise .osError)
            (fun d r => ∃ g, Stage d₀ ref p (d₀.entry (.journal ref)) g d ∧ SameFile f g ∧
              (r = .ok () → g.content = f.content ++ b :: bs) ∧ (¬ faults → r = .ok ())) d' :=
        fun hfault d' hd' => ensures_raise ⟨f, hd', ⟨rfl, rfl, rfl, rfl⟩, fun h => (by cases h),
          fun h => absurd hfault h⟩
      cases hstep with
      | done hdoes =>
        rename_i r
        obtain ⟨hkeeps, mtime, hnext⟩ := hstage.written raw creates hdoes
        refine ⟨hkeeps, ?_⟩
        cases r with
        | zero =>
          have hfault : faults := (hdoes.2.1 rfl).resolve_left (List.cons_ne_nil b bs)
          exact ensures_raise ⟨_, hnext, ⟨rfl, rfl, rfl, rfl⟩, fun h => (by cases h),
            fun h => absurd hfault h⟩
        | succ count =>
          have hlength : (bs.drop count).length < n := by
            rw [List.length_drop]
            rw [List.length_cons] at hn
            omega
          refine (ih _ hlength (bs.drop count) hnext rfl).mono fun d r h => ?_
          obtain ⟨g, hg, ⟨hino, hregular, howned, hmode⟩, hcontent, hok⟩ := h
          refine ⟨g, hg, ⟨hino, hregular, howned, hmode⟩, fun hr => ?_, hok⟩
          rw [hcontent hr]
          simp only [List.take_succ_cons, List.append_assoc, List.cons_append, List.take_append_drop]
      | refused hrefuses => exact absurd hrefuses (fun h => h)
      | fault hfault => exact ⟨.same, hfails hfault _ hstage⟩

/-- The new file is complete, or the program raised. -/
theorem ensures_writeOwnedPartial (hfree : d₀.entry (.partialPath ref) = none) :
    Ensures faults d₀ ref raw creates (writeOwnedPartial (.partialPath ref) raw)
      (fun d r => (∀ i k, r = .ok (i, k) → i = d₀.count ∧ ∃ f, k = f.ino ∧ Complete raw f ∧
          Stage d₀ ref (some d₀.count) (d₀.entry (.journal ref)) f d) ∧
        (¬ faults → ∃ a, r = .ok a)) d₀ := by
  refine ensures_perform fun a d hstep => ?_
  cases hstep with
  | done hdoes =>
    rename_i i
    obtain ⟨hi, hkeeps, f, hstage, hregular, howned, hempty, hmode⟩ :=
      Stage.created raw creates hdoes
    refine ⟨hkeeps, ?_⟩
    have hi : i = d₀.count := hi
    subst hi
    -- the identity
    have hstat : Ensures faults d₀ ref raw creates
        ((call (.fstat d₀.count)).handle (abandonPartial (.partialPath ref) d₀.count none))
        (fun d' r => (∀ s, r = .ok s → s = f.stat ∧ d' = d) ∧ (¬ faults → ∃ s, r = .ok s)) d := by
      have hcall : Ensures faults d₀ ref raw creates (call (.fstat d₀.count))
          (fun d' r => d' = d ∧ (∀ s, r = .ok s → s = f.stat) ∧ (¬ faults → ∃ s, r = .ok s)) d := by
        refine ensures_call (fun _ _ h => h.2) (fun _ h => h) (fun r h => ?_) (fun hfault => ?_)
        · refine ⟨rfl, fun s hs => ?_, fun _ => ⟨r, rfl⟩⟩
          cases hs
          rw [← hstage.file]
          exact h.1
        · exact ⟨rfl, fun s hs => (by cases hs), fun h => absurd hfault h⟩
      refine hcall.handle (fun d' s h => ⟨fun s' hs => ?_, fun hf => h.2.2 hf⟩) (fun d' e h => ?_)
      · exact ⟨h.2.1 s' hs, h.1⟩
      · have hfault : faults := by
          by_contra hf
          obtain ⟨s, hs⟩ := h.2.2 hf
          cases hs
        rw [h.1]
        exact ensures_abandonPartial hstage (.inl rfl) hregular (fun k hk => by cases hk)
          (fun d e => ⟨fun s hs => (by cases hs), fun h => absurd hfault h⟩)
    refine hstat.bind (fun d' s hs => ?_) (fun d' e h => ⟨fun i k h' => (by cases h'), fun hf => ?_⟩)
    swap
    · obtain ⟨s, hs⟩ := h.2 hf
      cases hs
    obtain ⟨rfl, rfl⟩ := hs.1 s rfl
    -- the bytes
    have hbody : Ensures faults d₀ ref raw creates (do
        if f.stat.regular = false ∨ f.stat.mode ≠ 0o600 then
          Program.raise (.journal "journal partial is unsafe")
        writeAll d₀.count raw
        call (.fsync d₀.count)
        return (d₀.count, f.stat.ino))
        (fun d r => ∃ g, Stage d₀ ref (some d₀.count) (d₀.entry (.journal ref)) g d ∧
          SameFile f g ∧ (∀ i k, r = .ok (i, k) → i = d₀.count ∧ k = f.ino ∧ Complete raw g) ∧
          (¬ faults → ∃ a, r = .ok a)) d' := by
      by_cases hunsafe : f.stat.regular = false ∨ f.stat.mode ≠ 0o600
      · rw [if_pos hunsafe]
        have hfault : faults := by
          by_contra hf
          rcases hunsafe with h | h
          · rw [File.stat, hregular] at h
            cases h
          · exact h (hmode hf)
        exact ensures_raise ⟨f, hstage, ⟨rfl, rfl, rfl, rfl⟩, fun i k h => (by cases h),
          fun h => absurd hfault h⟩
      · rw [if_neg hunsafe]
        have hsafe : f.mode = 0o600 := by
          by_contra h
          exact hunsafe (.inr h)
        refine (ensures_writeAll raw hstage).bind (fun d u h => ?_) (fun d e h => ?_)
        · obtain ⟨g, hg, hsame, hcontent, -⟩ := h
          have hcomplete : Complete raw g :=
            ⟨hsame.2.1.trans hregular, hsame.2.2.1.trans howned, hsame.2.2.2.trans hsafe, by
              rw [hcontent rfl, hempty, List.nil_append]⟩
          have hsync : Ensures faults d₀ ref raw creates (call (.fsync d₀.count))
              (fun d' r => d' = d ∧ (¬ faults → r = .ok ())) d :=
            ensures_call (fun _ _ h => h) (fun _ h => h) (fun _ _ => ⟨rfl, fun _ => rfl⟩)
              (fun hfault => ⟨rfl, fun h => absurd hfault h⟩)
          refine hsync.bind (fun d' u h => ?_) (fun d' e h => ?_)
          · rw [h.1]
            refine ensures_pure ⟨g, hg, hsame, fun i k h => ?_, fun _ => ⟨_, rfl⟩⟩
            cases h
            exact ⟨rfl, rfl, hcomplete⟩
          · rw [h.1]
            exact ⟨g, hg, hsame, fun i k h => (by cases h), fun hf => by cases h.2 hf⟩
        · obtain ⟨g, hg, hsame, -, hok⟩ := h
          exact ⟨g, hg, hsame, fun i k h => (by cases h), fun hf => by cases hok hf⟩
    refine hbody.handle (fun d a h => ?_) (fun d e h => ?_)
    · obtain ⟨g, hg, hsame, hdone, -⟩ := h
      refine ⟨fun i k h => ?_, fun _ => ⟨a, rfl⟩⟩
      obtain ⟨hi, hk, hcomplete⟩ := hdone i k h
      exact ⟨hi, g, hk.trans hsame.1.symm, hcomplete, hg⟩
    · obtain ⟨g, hg, hsame, -, hok⟩ := h
      have hfault : faults := by
        by_contra hf
        obtain ⟨a, ha⟩ := hok hf
        cases ha
      refine ensures_abandonPartial hg (.inl rfl) (hsame.2.1.trans hregular) (fun k hk => ?_)
        (fun d e => ⟨fun i k h => (by cases h), fun h => absurd hfault h⟩)
      cases hk
      exact hsame.1.symm
  | refused hrefuses => exact absurd hfree hrefuses.1
  | fault hfault =>
    exact ⟨.same, ensures_raise ⟨fun i k h => (by cases h), fun h => absurd hfault h⟩⟩

/-! ### Publication -/

/-- Without faults the directory is synced. -/
theorem ensures_syncRoot : Ensures faults d₀ ref raw creates syncRoot
    (fun d' r => d' = d ∧ (¬ faults → r = .ok ())) d := by
  have hopen : Ensures faults d₀ ref raw creates (call .openRoot)
      (fun d' r => d' = d ∧ (¬ faults → r = .ok ())) d :=
    ensures_call (fun _ _ h => h) (fun _ h => h) (fun _ _ => ⟨rfl, fun _ => rfl⟩)
      (fun hfault => ⟨rfl, fun h => absurd hfault h⟩)
  have hclose : Ensures faults d₀ ref raw creates (call .closeRoot)
      (fun d' r => d' = d ∧ (¬ faults → r = .ok ())) d :=
    ensures_call (fun _ _ h => h) (fun _ h => h) (fun _ _ => ⟨rfl, fun _ => rfl⟩)
      (fun hfault => ⟨rfl, fun h => absurd hfault h⟩)
  have hsync : Ensures faults d₀ ref raw creates (call .fsyncRoot)
      (fun d' r => d' = d ∧ (¬ faults → r = .ok ())) d :=
    ensures_call (fun _ _ h => h) (fun _ h => h) (fun _ _ => ⟨rfl, fun _ => rfl⟩)
      (fun hfault => ⟨rfl, fun h => absurd hfault h⟩)
  have herror : ∀ {d' : StoreDirectory} {e : Failure}, d' = d ∧ (¬ faults →
      (.error e : Except Failure Unit) = .ok ()) → faults := by
    intro d' e h
    by_contra hf
    cases h.2 hf
  refine hopen.bind (fun d' _ h => ?_) (fun d' e h => h)
  rw [h.1]
  have hguarded : Ensures faults d₀ ref raw creates ((call .fsyncRoot).handle fun failure => do
        call .closeRoot
        Program.raise failure)
      (fun d' r => d' = d ∧ (¬ faults → r = .ok ())) d := by
    refine hsync.handle (fun d' u h => h) (fun d' e h => ?_)
    have hfault := herror h
    rw [h.1]
    refine hclose.bind (fun d' _ h => ?_) (fun d' e h => h)
    exact ensures_raise ⟨h.1, fun h => absurd hfault h⟩
  refine hguarded.bind (fun d' _ h => ?_) (fun d' e h => h)
  rw [h.1]
  exact hclose

/-- The `try` statement around a publication: if that reaches the journal, the whole statement does,
and the partial path is gone. -/
theorem ensures_publishing {i : ℕ} {publish : StoreProgram Unit}
    (hstage : Stage d₀ ref (some d₀.count) (d₀.entry (.journal ref)) f d) (hregular : f.regular = true)
    {success : Prop}
    (hpublish : Ensures faults d₀ ref raw creates publish (fun d r =>
      (∃ p j, Own d₀ p ∧ Stage d₀ ref p j f d ∧ (r = .ok () → j = some d₀.count)) ∧
        (success → ¬ faults → r = .ok ())) d) :
    Ensures faults d₀ ref raw creates (publishing (.partialPath ref) i f.ino publish)
      (fun d r => (r = .ok () → Stage d₀ ref none (some d₀.count) f d) ∧
        (success → ¬ faults → r = .ok ())) d := by
  refine ensures_perform fun a d' hstep => ?_
  cases hstep with
  | done hdoes =>
    obtain rfl : d' = d := hdoes
    refine ⟨.same, ?_⟩
    -- inside the inner `try`, then the `finally` block on both paths
    have hpersisted : Ensures faults d₀ ref raw creates (publish.handle persisted) (fun d r =>
        (∃ p j, Own d₀ p ∧ Stage d₀ ref p j f d ∧ (r = .ok () → j = some d₀.count)) ∧
          (success → ¬ faults → r = .ok ())) d' := by
      refine hpublish.handle (fun d u h => h) (fun d e h => ?_)
      obtain ⟨⟨p, j, hp, hj, -⟩, hok⟩ := h
      have hfails : ∀ e : Failure, (∃ p j, Own d₀ p ∧ Stage d₀ ref p j f d ∧
          ((.error e : Except Failure Unit) = .ok () → j = some d₀.count)) ∧
          (success → ¬ faults → (.error e : Except Failure Unit) = .ok ()) :=
        fun e => ⟨⟨p, j, hp, hj, fun h => by cases h⟩, fun hs hf => by cases hok hs hf⟩
      cases e with
      | osError => exact ensures_raise (hfails _)
      | raised failure => exact ensures_raise (hfails _)
    have hcleaned : Ensures faults d₀ ref raw creates
        ((publish.handle persisted).handle fun failure => do
          unlinkOwnedPartial (.partialPath ref) (some f.ino)
          Program.raise failure)
        (fun d r => (r = .ok () → ∃ p, Own d₀ p ∧ Stage d₀ ref p (some d₀.count) f d) ∧
          (success → ¬ faults → r = .ok ())) d' := by
      refine hpersisted.handle (fun d u h => ?_) (fun d e h => ?_)
      · obtain ⟨⟨p, j, hp, hj, hdone⟩, hok⟩ := h
        exact ⟨fun _ => ⟨p, hp, hdone rfl ▸ hj⟩, hok⟩
      · obtain ⟨⟨p, j, hp, hj, -⟩, hok⟩ := h
        refine (ensures_unlinkOwnedPartial hj hp hregular).bind (fun d' _ _ => ?_) (fun d' e _ => ?_)
        · exact ensures_raise ⟨fun h => (by cases h), fun hs hf => by cases hok hs hf⟩
        · exact ⟨fun h => (by cases h), fun hs hf => by cases hok hs hf⟩
    refine hcleaned.bind (fun d u h => ?_) (fun d e h => ?_)
    · obtain ⟨p, hp, hj⟩ := h.1 rfl
      exact (ensures_unlinkOwnedPartial hj hp hregular).mono fun d r h => ⟨h.1, fun _ => h.2⟩
    · exact ⟨fun h => (by cases h), h.2⟩
  | refused hrefuses => exact absurd hrefuses (fun h => h)
  | fault hfault =>
    refine ⟨.same, ?_⟩
    have hQ : ∀ (d : StoreDirectory) (e : Failure),
        (((.error e : Except Failure Unit) = .ok ()) → Stage d₀ ref none (some d₀.count) f d) ∧
        (success → ¬ faults → (.error e : Except Failure Unit) = .ok ()) :=
      fun d e => ⟨fun h => (by cases h), fun _ h => absurd hfault h⟩
    have hclose : Ensures faults d₀ ref raw creates (call (.close i))
        (fun d' r => r = .ok () → d' = d) d :=
      ensures_call (fun _ _ h => h) (fun _ h => h) (fun _ _ _ => rfl) (fun _ h => by cases h)
    refine hclose.bind (fun d' u hd' => ?_) (fun d' e _ => hQ d' e)
    rw [hd' rfl]
    exact (ensures_unlinkOwnedPartial hstage (.inl rfl) hregular).bind
      (fun d' _ _ => ensures_raise (hQ d' _)) (fun d' e _ => hQ d' e)

/-- The link takes place if the name is free. -/
theorem ensures_linkJournal (hf : Complete raw f)
    (hstage : Stage d₀ ref (some d₀.count) (d₀.entry (.journal ref)) f d) :
    Ensures faults d₀ ref raw creates (linkJournal ref) (fun d r =>
      (∃ p j, Own d₀ p ∧ Stage d₀ ref p j f d ∧ (r = .ok () → j = some d₀.count)) ∧
        (d₀.entry (.journal ref) = none → ¬ faults → r = .ok ())) d := by
  refine ensures_perform fun a d' hstep => ?_
  cases hstep with
  | done hdoes =>
    obtain ⟨hkeeps, hnext⟩ := hstage.linked creates hf hdoes
    refine ⟨hkeeps, ensures_syncRoot.mono fun d r h => ⟨⟨_, _, .inl rfl, ?_, fun _ => rfl⟩, ?_⟩⟩
    · rw [h.1]
      exact hnext
    · exact fun _ => h.2
  | refused hrefuses =>
    have hQ : ∀ e : Failure, (∃ p j, Own d₀ p ∧ Stage d₀ ref p j f d ∧
        ((.error e : Except Failure Unit) = .ok () → j = some d₀.count)) ∧
        (d₀.entry (.journal ref) = none → ¬ faults → (.error e : Except Failure Unit) = .ok ()) := by
      refine fun e => ⟨⟨_, _, .inl rfl, hstage, fun h => by cases h⟩, fun hfree => ?_⟩
      rcases hrefuses with ⟨htaken, -⟩ | ⟨hnone, -⟩
      · exact absurd (hstage.journal.trans hfree) htaken
      · rw [hstage.partialPath] at hnone
        cases hnone
    refine ⟨.same, ?_⟩
    rcases hrefuses with ⟨-, rfl⟩ | ⟨-, rfl⟩
    · exact ensures_raise (hQ _)
    · exact ensures_raise (hQ _)
  | fault hfault =>
    exact ⟨.same, ensures_raise ⟨⟨_, _, .inl rfl, hstage, fun h => by cases h⟩,
      fun _ h => absurd hfault h⟩⟩

/-- The replacement takes place if the journal is the file that was there before. -/
theorem ensures_replaceJournal (hcreates : ¬ creates) {k i : ℕ} (hf : Complete raw f)
    (hjournal : d₀.entry (.journal ref) = some i)
    (hstage : Stage d₀ ref (some d₀.count) (d₀.entry (.journal ref)) f d) :
    Ensures faults d₀ ref raw creates (replaceJournal ref k) (fun d r =>
      (∃ p j, Own d₀ p ∧ Stage d₀ ref p j f d ∧ (r = .ok () → j = some d₀.count)) ∧
        (k = (d₀.file i).ino ∧ (d₀.file i).regular = true → ¬ faults → r = .ok ())) d := by
  have hi : d.entry (.journal ref) = some i := hstage.journal.trans hjournal
  have hfile : d.file i = d₀.file i := hstage.files i (d₀.created hjournal)
  have hlstat : Ensures faults d₀ ref raw creates (call (.lstat (.journal ref)))
      (fun d' r => d' = d ∧ (∀ s, r = .ok s → s = (d₀.file i).stat) ∧ (¬ faults → ∃ s, r = .ok s)) d := by
    refine ensures_attempt (fun _ _ h => h.2) (fun s h => ?_) (fun errno h => ?_)
    · obtain ⟨⟨i', hi', rfl⟩, -⟩ := h
      obtain rfl : i = i' := Option.some.inj (hi.symm.trans hi')
      refine ⟨rfl, fun s hs => ?_, fun _ => ⟨_, rfl⟩⟩
      cases hs
      rw [hfile]
    · have hfault : faults := by
        refine h.resolve_left fun h => ?_
        rw [h.1] at hi
        cases hi
      exact ⟨rfl, fun s hs => (by cases hs), fun h => absurd hfault h⟩
  have hQ : ∀ e : Failure, (k = (d₀.file i).ino ∧ (d₀.file i).regular = true → faults) →
      (∃ p j, Own d₀ p ∧ Stage d₀ ref p j f d ∧
        ((.error e : Except Failure Unit) = .ok () → j = some d₀.count)) ∧
      (k = (d₀.file i).ino ∧ (d₀.file i).regular = true → ¬ faults →
        (.error e : Except Failure Unit) = .ok ()) :=
    fun e hfault => ⟨⟨_, _, .inl rfl, hstage, fun h => by cases h⟩, fun hk h => absurd (hfault hk) h⟩
  refine hlstat.bind (fun d' s h => ?_) (fun d' e h => ?_)
  · obtain ⟨rfl, hs, -⟩ := h
    obtain rfl := hs s rfl
    by_cases hchanged : (d₀.file i).stat.ino ≠ k ∨ (d₀.file i).stat.regular = false
    · rw [if_pos hchanged]
      refine ensures_raise (hQ _ fun hk => ?_)
      rcases hchanged with hino | hirregular
      · exact absurd hk.1.symm hino
      · rw [File.stat, hk.2] at hirregular
        cases hirregular
    · rw [if_neg hchanged]
      -- the replacement itself
      have hreplace : Ensures faults d₀ ref raw creates
          (call (.replace (.partialPath ref) (.journal ref))) (fun d r =>
            (r = .ok () → Stage d₀ ref none (some d₀.count) f d) ∧
            (∀ e, r = .error e → faults ∧ d = d')) d' := by
        refine ensures_perform fun a d'' hstep => ?_
        cases hstep with
        | done hdoes =>
          obtain ⟨hkeeps, hnext⟩ := hstage.replaced hcreates hf hdoes
          exact ⟨hkeeps, ensures_pure ⟨fun _ => hnext, fun e he => by cases he⟩⟩
        | refused hrefuses =>
          have hnone := hrefuses.1
          rw [hstage.partialPath] at hnone
          cases hnone
        | fault hfault =>
          exact ⟨.failed, ensures_raise ⟨fun h => (by cases h), fun e _ => ⟨hfault, rfl⟩⟩⟩
      refine hreplace.bind (fun d u h => ?_) (fun d e h => ?_)
      · refine ensures_syncRoot.mono fun d' r h' => ⟨⟨_, _, .inr rfl, ?_, fun _ => rfl⟩, fun _ => h'.2⟩
        rw [h'.1]
        exact h.1 rfl
      · obtain ⟨hfault, rfl⟩ := h.2 e rfl
        exact hQ e fun _ => hfault
  · obtain ⟨rfl, -, hok⟩ := h
    refine hQ e fun _ => ?_
    by_contra hf
    obtain ⟨s, hs⟩ := hok hf
    cases hs

end Helpers

/-! ### The two writers -/

section Writers

variable {faults : Prop} {d₀ : StoreDirectory} {ref : OperationRef} {raw : List UInt8}
  {creates : Prop}

/-- The journal is there and passes the checks of its kind, owner and mode. -/
def HasJournal (d : StoreDirectory) (ref : OperationRef) : Prop :=
  ∃ i, d.entry (.journal ref) = some i ∧ (d.file i).regular = true ∧ (d.file i).owned = true ∧
    (d.file i).mode = 0o600

/-- The new document is the journal, and nothing else is left behind. -/
def Done (d₀ : StoreDirectory) (ref : OperationRef) (raw : List UInt8)
    (d : StoreDirectory) : Prop :=
  ∃ f, Complete raw f ∧ Stage d₀ ref none (some d₀.count) f d

/-- The outcome of a writer that needs `ready` of the directory. -/
structure Outcome (faults : Prop) (d₀ : StoreDirectory) (ref : OperationRef)
    (raw : List UInt8) (ready : Prop) (d : StoreDirectory) (r : Except Failure Unit) : Prop where
  done : r = .ok () → Done d₀ ref raw d
  free : r = .ok () → d₀.entry (.partialPath ref) = none
  succeeds : d₀.entry (.partialPath ref) = none → ready → ¬ faults → r = .ok ()

/-- An exception is no success, and needs a fault or a directory that is not ready. -/
theorem Outcome.failed {ready : Prop} {d : StoreDirectory} {e : Failure}
    (h : d₀.entry (.partialPath ref) = none → ready → faults) :
    Outcome faults d₀ ref raw ready d (.error e) :=
  ⟨fun h => (by cases h), fun h => (by cases h), fun hfree hready hf => absurd (h hfree hready) hf⟩

/-- A partial path that is bound ends the creation of the file. -/
theorem ensures_writeOwnedPartial_taken (htaken : d₀.entry (.partialPath ref) ≠ none) :
    Ensures faults d₀ ref raw creates (writeOwnedPartial (.partialPath ref) raw)
      (fun _ r => ∀ a, r ≠ .ok a) d₀ := by
  refine ensures_perform fun a d hstep => ?_
  cases hstep with
  | done hdoes => exact absurd hdoes.1 htaken
  | refused hrefuses => exact ⟨.failed, ensures_raise fun a h => by cases h⟩
  | fault hfault => exact ⟨.failed, ensures_raise fun a h => by cases h⟩

/-- What both writers do once the directory is known: the new file, and its publication. -/
theorem ensures_staged {ready : Prop} {publish : StoreProgram Unit}
    (hpublish : ∀ f d, Complete raw f →
      Stage d₀ ref (some d₀.count) (d₀.entry (.journal ref)) f d →
      Ensures faults d₀ ref raw creates publish (fun d r =>
        (∃ p j, Own d₀ p ∧ Stage d₀ ref p j f d ∧ (r = .ok () → j = some d₀.count)) ∧
          (ready → ¬ faults → r = .ok ())) d) :
    Ensures faults d₀ ref raw creates (do
      let (descriptor, identity) ← writeOwnedPartial (.partialPath ref) raw
      publishing (.partialPath ref) descriptor identity publish)
      (Outcome faults d₀ ref raw ready) d₀ := by
  by_cases hfree : d₀.entry (.partialPath ref) = none
  · refine (ensures_writeOwnedPartial hfree).bind (fun d a h => ?_) (fun d e h => ?_)
    · obtain ⟨i, k⟩ := a
      obtain ⟨rfl, f, rfl, hcomplete, hstage⟩ := h.1 i k rfl
      refine (ensures_publishing hstage hcomplete.regular (hpublish f d hcomplete hstage)).mono
        fun d r h => ⟨fun hr => ⟨f, hcomplete, h.1 hr⟩, fun _ => hfree, fun _ hready => h.2 hready⟩
    · refine .failed fun _ _ => ?_
      by_contra hf
      obtain ⟨a, ha⟩ := h.2 hf
      cases ha
  · refine (ensures_writeOwnedPartial_taken hfree).bind (fun d a h => absurd rfl (h a))
      (fun d e _ => .failed fun h => absurd h hfree)

/-- `create` needs a free name. -/
theorem ensures_createBytes : Ensures faults d₀ ref raw creates (createBytes ref raw)
    (Outcome faults d₀ ref raw (d₀.entry (.journal ref) = none)) d₀ :=
  ensures_staged fun _ _ hf hstage => ensures_linkJournal hf hstage

/-- The identity of a journal that is there. -/
theorem ensures_validatedJournalIdentity : Ensures faults d₀ ref raw creates
    (validatedJournalIdentity (.journal ref)) (fun d r => d = d₀ ∧
      (∀ k, r = .ok k → ∃ i, d₀.entry (.journal ref) = some i ∧ k = (d₀.file i).ino ∧
        (d₀.file i).regular = true) ∧
      (HasJournal d₀ ref → ¬ faults → ∃ k, r = .ok k)) d₀ := by
  have hopen : Ensures faults d₀ ref raw creates
      (attempt (.openRead (.journal ref)) (.journal "operation journal is unavailable"))
      (fun d r => d = d₀ ∧ (∀ i, r = .ok i → d₀.entry (.journal ref) = some i) ∧
        (HasJournal d₀ ref → ¬ faults → ∃ i, r = .ok i)) d₀ := by
    refine ensures_attempt (fun _ _ h => h.2) (fun i h => ⟨rfl, fun k hk => ?_, fun _ _ => ⟨i, rfl⟩⟩)
      (fun errno h => ⟨rfl, fun k hk => (by cases hk), fun hjournal hf => ?_⟩)
    · cases hk
      exact h.1
    · obtain ⟨i, hi, hregular, -⟩ := hjournal
      rcases h.resolve_right hf with ⟨hnone, -⟩ | ⟨⟨k, hk, hirregular⟩, -⟩
      · rw [hi] at hnone
        cases hnone
      · obtain rfl : i = k := Option.some.inj (hi.symm.trans hk)
        rw [hregular] at hirregular
        cases hirregular
  have hclose : ∀ i, Ensures faults d₀ ref raw creates (call (.close i))
      (fun d r => d = d₀ ∧ (¬ faults → r = .ok ())) d₀ := fun i =>
    ensures_call (fun _ _ h => h) (fun _ h => h) (fun _ _ => ⟨rfl, fun _ => rfl⟩)
      (fun hfault => ⟨rfl, fun h => absurd hfault h⟩)
  -- Any failure is admitted, unless there is a journal and no call fails.
  have hQ : ∀ e : Failure, (HasJournal d₀ ref → faults) → d₀ = d₀ ∧
      (∀ k, (.error e : Except Failure ℕ) = .ok k → ∃ i, d₀.entry (.journal ref) = some i ∧
        k = (d₀.file i).ino ∧ (d₀.file i).regular = true) ∧
      (HasJournal d₀ ref → ¬ faults → ∃ k, (.error e : Except Failure ℕ) = .ok k) :=
    fun e h => ⟨rfl, fun k hk => (by cases hk), fun hjournal hf => absurd (h hjournal) hf⟩
  refine hopen.bind (fun d i h => ?_) (fun d e h => ?_)
  · obtain ⟨rfl, hentry, -⟩ := h
    have hi := hentry i rfl
    have hcall : Ensures faults d ref raw creates (call (.fstat i))
        (fun d' r => d' = d ∧ (∀ s, r = .ok s → s = (d.file i).stat) ∧ (¬ faults → ∃ s, r = .ok s))
        d := by
      refine ensures_call (fun _ _ h => h.2) (fun _ h => h) (fun s h => ?_) (fun hfault => ?_)
      · refine ⟨rfl, fun s' hs => ?_, fun _ => ⟨s, rfl⟩⟩
        cases hs
        exact h.1
      · exact ⟨rfl, fun s hs => (by cases hs), fun h => absurd hfault h⟩
    have hstat : Ensures faults d ref raw creates ((call (.fstat i)).handle fun failure => do
          call (.close i)
          Program.raise failure)
        (fun d' r => d' = d ∧ (∀ s, r = .ok s → s = (d.file i).stat) ∧ (¬ faults → ∃ s, r = .ok s))
        d := by
      refine hcall.handle (fun d' s h => h) (fun d' e h => ?_)
      have hfault : faults := by
        by_contra hf
        obtain ⟨s, hs⟩ := h.2.2 hf
        cases hs
      rw [h.1]
      exact (hclose i).bind
        (fun d' _ h => ensures_raise ⟨h.1, fun s hs => (by cases hs), fun h => absurd hfault h⟩)
        (fun d' e h => ⟨h.1, fun s hs => (by cases hs), fun h => absurd hfault h⟩)
    refine hstat.bind (fun d' s h => ?_) (fun d' e h => ?_)
    · obtain ⟨rfl, hs, -⟩ := h
      obtain rfl := hs s rfl
      refine (hclose i).bind (fun d'' _ h => ?_) (fun d'' e h => ?_)
      -- the status was read; what is left is whether it is safe
      · rw [h.1]
        by_cases hunsafe : (d'.file i).stat.regular = false ∨ (d'.file i).stat.owned = false ∨
            (d'.file i).stat.mode ≠ 0o600
        · rw [if_pos hunsafe]
          refine ensures_raise (hQ _ fun hjournal => ?_)
          obtain ⟨k, hk, hregular, howned, hmode⟩ := hjournal
          obtain rfl : i = k := Option.some.inj (hi.symm.trans hk)
          simp [File.stat, hregular, howned, hmode] at hunsafe
        · rw [if_neg hunsafe]
          refine ensures_pure ⟨rfl, fun k hk => ?_, fun _ _ => ⟨_, rfl⟩⟩
          cases hk
          refine ⟨i, hi, rfl, ?_⟩
          by_contra hirregular
          exact hunsafe (.inl (Bool.eq_false_iff.mpr hirregular))
      · rw [h.1]
        refine hQ e fun _ => ?_
        by_contra hf
        cases h.2 hf
    · rw [h.1]
      refine hQ e fun _ => ?_
      by_contra hf
      obtain ⟨s, hs⟩ := h.2.2 hf
      cases hs
  · rw [h.1]
    refine hQ e fun hjournal => ?_
    by_contra hf
    obtain ⟨i, hi⟩ := h.2.2 hjournal hf
    cases hi

/-- `write` needs a journal that is there. -/
theorem ensures_writeBytes (hcreates : ¬ creates) : Ensures faults d₀ ref raw creates
    (writeBytes ref raw) (Outcome faults d₀ ref raw (HasJournal d₀ ref)) d₀ := by
  refine ensures_validatedJournalIdentity.bind (fun d k h => ?_) (fun d e h => ?_)
  · obtain ⟨rfl, hk, -⟩ := h
    obtain ⟨i, hi, hino, hregular⟩ := hk k rfl
    have hstaged : Ensures faults d ref raw creates (do
        let (descriptor, identity) ← writeOwnedPartial (.partialPath ref) raw
        publishing (.partialPath ref) descriptor identity (replaceJournal ref k))
        (Outcome faults d ref raw True) d := ensures_staged fun f d' hf hstage =>
      (ensures_replaceJournal hcreates hf hi hstage).mono
        fun d'' r h => ⟨h.1, fun _ => h.2 ⟨hino, hregular⟩⟩
    refine hstaged.mono fun d' r h => ?_
    · exact ⟨h.done, h.free, fun hfree _ => h.succeeds hfree trivial⟩
  · refine .failed fun _ hjournal => ?_
    by_contra hf
    obtain ⟨k, hk⟩ := h.2.2 hjournal hf
    cases hk

variable {codec : Codec} {value : Json}

/-- What comes before the bytes leaves the directory alone. -/
theorem ensures_prefixed {ready : Prop} {p : List UInt8 → StoreProgram Unit}
    (henc : ∀ raw', encodeDocument codec ref value = .ok raw' → raw' = raw)
    (hp : Ensures faults d₀ ref raw creates (p raw) (Outcome faults d₀ ref raw ready) d₀) :
    Ensures faults d₀ ref raw creates (do
      initializeRoot
      let raw ← encoded codec ref value
      p raw)
      (Outcome faults d₀ ref raw (encodeDocument codec ref value = .ok raw ∧ ready)) d₀ := by
  have hroot : Ensures faults d₀ ref raw creates initializeRoot
      (fun d r => d = d₀ ∧ (¬ faults → r = .ok ())) d₀ := by
    have hprepare : Ensures faults d₀ ref raw creates (call .prepareRoot)
        (fun d r => d = d₀ ∧ (¬ faults → r = .ok Root.safe)) d₀ := by
      refine ensures_call (fun _ _ h => h.2) (fun _ h => h) (fun root h => ⟨rfl, fun hf => ?_⟩)
        (fun hfault => ⟨rfl, fun h => absurd hfault h⟩)
      rw [h.1.resolve_right hf]
    refine hprepare.bind (fun d root h => ?_) (fun d e h => ⟨h.1, fun hf => by cases h.2 hf⟩)
    rw [h.1]
    match root, h with
    | Root.safe, h => exact ensures_pure ⟨rfl, fun _ => rfl⟩
    | Root.linked, h => exact ensures_raise ⟨rfl, fun hf => by cases h.2 hf⟩
    | Root.exposed, h => exact ensures_raise ⟨rfl, fun hf => by cases h.2 hf⟩
  refine hroot.bind (fun d u h => ?_) (fun d e h => .failed fun _ _ => ?_)
  · rw [h.1]
    unfold encoded
    cases hencoded : encodeDocument codec ref value with
    | ok raw' =>
      obtain rfl := henc raw' hencoded
      exact hp.mono fun d r h => ⟨h.done, h.free, fun hfree hready => h.succeeds hfree hready.2⟩
    | error failure => exact ensures_raise (.failed fun _ h => absurd h.1 (by simp))
  · by_contra hf
    cases h.2 hf

end Writers

end Publication

end Client

end ControlPlaneKit
