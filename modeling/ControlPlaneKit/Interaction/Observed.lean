import Mathlib.Logic.Function.Basic
import ControlPlaneKit.Interaction.Logic

/-!
# A writer and its observers

One process changes a shared state while any number of observers look at it, and the operations of
both interleave freely. Observers leave the state alone, so the writer may be verified as if it ran
by itself. An observer, in turn, is verified against every state the writer can move to between two
of its operations: `Semantics.under M R` lets a relation `R` act before each operation, and the
guarantee of the writer is shown to stay within `R`.
-/

namespace Interaction

universe u v w w' x

variable {Op : Type u} {Ans : Op → Type v} {ε α : Type w} {ε' β : Type w'} {σ : Type x}

/-- The operations of a process between which the rest of the world moves the state along `R`. -/
def Semantics.under (M : Semantics Op Ans σ) (R : σ → σ → Prop) : Semantics Op Ans σ :=
  fun s op a s'' => ∃ s', R s s' ∧ M s' op a s''

/-- A run that nothing disturbs is a run under interference. -/
theorem Exec.under {M : Semantics Op Ans σ} {R : σ → σ → Prop} (hrefl : ∀ s, R s s)
    {p : Program Op Ans ε α} {s s' : σ} {tr : List (Event Op Ans)} {out : Option (Except ε α)}
    (h : Exec M s p tr s' out) : Exec (M.under R) s p tr s' out := by
  induction h with
  | stopped s p => exact .stopped s p
  | returned s a => exact .returned s a
  | raised s e => exact .raised s e
  | performed hstep _ ih => exact .performed ⟨_, hrefl _, hstep⟩ ih

/-- A postcondition that only sees the outcome. -/
def Post.outcome (Q : Except ε α → Prop) : Post Op Ans σ ε α :=
  fun _ _ r => Q r

/-- What is known under interference stays known while the rest of the world moves. -/
theorem Meets.moved {M : Semantics Op Ans σ} {R : σ → σ → Prop}
    (htrans : ∀ s t u, R s t → R t u → R s u) {p : Program Op Ans ε α} {Q : Except ε α → Prop}
    {h : List (Event Op Ans)} {s t : σ} (hR : R s t)
    (hp : Meets (M.under R) (fun _ _ _ _ => True) p (Post.outcome Q) h s) :
    Meets (M.under R) (fun _ _ _ _ => True) p (Post.outcome Q) h t := by
  cases p with
  | pure a => exact hp
  | raise e => exact hp
  | perform op next =>
    rintro a s'' ⟨s', hs', hstep⟩
    exact hp a s'' ⟨s', htrans _ _ _ hR hs', hstep⟩

/-- Less interference makes no new outcomes. -/
theorem Meets.under_mono {M : Semantics Op Ans σ} {R R' : σ → σ → Prop}
    (hR : ∀ s t, R' s t → R s t) {G : Guarantee Op Ans σ} {p : Program Op Ans ε α}
    {Q : Post Op Ans σ ε α} {h : List (Event Op Ans)} {s : σ} (hp : Meets (M.under R) G p Q h s) :
    Meets (M.under R') G p Q h s := by
  induction p generalizing h s with
  | pure a => exact hp
  | raise e => exact hp
  | perform op next ih =>
    rintro a s'' ⟨s', hs', hstep⟩
    obtain ⟨hg, hnext⟩ := hp a s'' ⟨s', hR _ _ hs', hstep⟩
    exact ⟨hg, ih a hnext⟩

/-- What holds of everything is met by everything. -/
theorem meets_of_forall {M : Semantics Op Ans σ} {G : Guarantee Op Ans σ} {p : Program Op Ans ε α}
    {Q : Post Op Ans σ ε α} (hG : ∀ h s e s', G h s e s') (hQ : ∀ h s r, Q h s r)
    {h : List (Event Op Ans)} {s : σ} : Meets M G p Q h s := by
  induction p generalizing h s with
  | pure a => exact hQ _ _ _
  | raise e => exact hQ _ _ _
  | perform op next ih => exact fun a s' _ => ⟨hG _ _ _ _, ih a⟩

/-- Where every operation gets an answer, every program has a complete run. -/
theorem exists_exec {M : Semantics Op Ans σ} (htotal : ∀ s op, ∃ a s', M s op a s')
    (p : Program Op Ans ε α) (s : σ) : ∃ tr s' r, Exec M s p tr s' (some r) := by
  induction p generalizing s with
  | pure a => exact ⟨[], s, .ok a, .returned s a⟩
  | raise e => exact ⟨[], s, .error e, .raised s e⟩
  | perform op next ih =>
    obtain ⟨a, s₁, hstep⟩ := htotal s op
    obtain ⟨tr, s', r, hrun⟩ := ih a s₁
    exact ⟨_, s', r, .performed hstep hrun⟩

/-- The state, the writer while it lives, and the observers. -/
structure Observed (Op : Type u) (Ans : Op → Type v) (ε α : Type w) (ε' β : Type w') (σ : Type x) where
  state : σ
  /-- What the writer still has to do; `none` after its death. -/
  writer : Option (Program Op Ans ε α)
  /-- What each observer still has to do. -/
  observer : ℕ → Option (Program Op Ans ε' β)

namespace Observed

section Steps

variable (M O : Semantics Op Ans σ) (observation : Program Op Ans ε' β)

/-- A step, labelled with the operation of the writer, if it takes one. -/
inductive Step : Observed Op Ans ε α ε' β σ → Option (Event Op Ans) →
    Observed Op Ans ε α ε' β σ → Prop where
  | write (c : Observed Op Ans ε α ε' β σ) (op : Op) (next : Ans op → Program Op Ans ε α)
      (a : Ans op) (s : σ) (hw : c.writer = some (.perform op next)) (hstep : M c.state op a s) :
      Step c (some ⟨op, a⟩) ⟨s, some (next a), c.observer⟩
  | die (c : Observed Op Ans ε α ε' β σ) : Step c none { c with writer := none }
  | start (c : Observed Op Ans ε α ε' β σ) (i : ℕ) (hi : c.observer i = none) :
      Step c none { c with observer := Function.update c.observer i (some observation) }
  | observe (c : Observed Op Ans ε α ε' β σ) (i : ℕ) (op : Op)
      (next : Ans op → Program Op Ans ε' β) (a : Ans op) (s : σ)
      (hi : c.observer i = some (.perform op next)) (hstep : O c.state op a s) :
      Step c none ⟨s, c.writer, Function.update c.observer i (some (next a))⟩
  | leave (c : Observed Op Ans ε α ε' β σ) (i : ℕ) :
      Step c none { c with observer := Function.update c.observer i none }

/-- What can be reached. -/
inductive Reaches (c : Observed Op Ans ε α ε' β σ) : Observed Op Ans ε α ε' β σ → Prop where
  | refl : Reaches c c
  | tail {d e : Observed Op Ans ε α ε' β σ} {label : Option (Event Op Ans)} (hd : Reaches c d)
      (hstep : Step M O observation d label e) : Reaches c e

/-- Between two observations the writer may come to its end. -/
theorem Reaches.exec {M O : Semantics Op Ans σ} {observation : Program Op Ans ε' β}
    {c : Observed Op Ans ε α ε' β σ} {observer : ℕ → Option (Program Op Ans ε' β)}
    {p : Program Op Ans ε α} {s s' : σ} {tr : List (Event Op Ans)} {a : α}
    (hc : Reaches M O observation c ⟨s, some p, observer⟩) (h : Exec M s p tr s' (some (.ok a))) :
    Reaches M O observation c ⟨s', some (.pure a), observer⟩ := by
  generalize hout : some (Except.ok a) = out at h
  induction h with
  | stopped s p => cases hout
  | returned s a' =>
    cases hout
    exact hc
  | raised s e => cases hout
  | performed hstep _ ih => exact ih (hc.tail (.write _ _ _ _ _ rfl hstep)) hout

end Steps

section Invariant

variable {M O : Semantics Op Ans σ} {observation : Program Op Ans ε' β}
  {G : Guarantee Op Ans σ} {Q : Post Op Ans σ ε α} {R : σ → σ → Prop} {I : σ → Prop}
  {Q' : Except ε' β → Prop} {P : Op → Prop}

/-- What holds of the system between two steps: the state invariant, what is known of the rest of
the writer, and what is known of the rest of each observer, against every move of the writer. -/
structure Holds (M O : Semantics Op Ans σ) (G : Guarantee Op Ans σ) (Q : Post Op Ans σ ε α)
    (R : σ → σ → Prop) (I : σ → Prop) (Q' : Except ε' β → Prop) (P : Op → Prop)
    (c : Observed Op Ans ε α ε' β σ) : Prop where
  invariant : I c.state
  writer : ∀ p, c.writer = some p → ∃ h, Meets M G p Q h c.state
  observer : ∀ i p, c.observer i = some p → p.Uses P ∧
    ∃ h, Meets (O.under R) (fun _ _ _ _ => True) p (Post.outcome Q') h c.state

theorem update_cases {γ : Type*} {f : ℕ → Option γ} {i j : ℕ} {v : Option γ} {p : γ}
    (h : Function.update f i v j = some p) : v = some p ∨ f j = some p := by
  rcases eq_or_ne j i with rfl | hne
  · rw [Function.update_self] at h
    exact .inl h
  · rw [Function.update_of_ne hne] at h
    exact .inr h

/-- Every step keeps what holds of the system. -/
theorem Holds.step (hrefl : ∀ s, R s s) (htrans : ∀ s t u, R s t → R t u → R s u)
    (hG : ∀ h s e s', I s → M s e.op e.answer s' → G h s e s' → I s' ∧ R s s')
    (hP : ∀ s op a s', P op → O s op a s' → s' = s) (huses : observation.Uses P)
    (hobserve : ∀ s, I s →
      Meets (O.under R) (fun _ _ _ _ => True) observation (Post.outcome Q') [] s)
    {c d : Observed Op Ans ε α ε' β σ} {label : Option (Event Op Ans)}
    (hc : Holds M O G Q R I Q' P c) (hstep : Step M O observation c label d) :
    Holds M O G Q R I Q' P d := by
  obtain ⟨hI, hwriter, hobserver⟩ := hc
  cases hstep with
  | write op next a s hw hstep =>
    obtain ⟨h, hmeets⟩ := hwriter _ hw
    obtain ⟨hg, hnext⟩ := hmeets a s hstep
    obtain ⟨hI', hR⟩ := hG h _ ⟨op, a⟩ s hI hstep hg
    refine ⟨hI', fun p hp => ?_, fun i p hp => ?_⟩
    · cases hp
      exact ⟨_, hnext⟩
    · obtain ⟨hu, h', hobs⟩ := hobserver i p hp
      exact ⟨hu, h', hobs.moved htrans hR⟩
  | die => exact ⟨hI, fun p hp => absurd hp (by simp), hobserver⟩
  | start i hi =>
    refine ⟨hI, hwriter, fun j p hp => ?_⟩
    rcases update_cases hp with hnew | hold
    · cases hnew
      exact ⟨huses, [], hobserve _ hI⟩
    · exact hobserver j p hold
  | observe i op next a s hi hstep =>
    obtain ⟨hu, h, hobs⟩ := hobserver i _ hi
    have hsame : s = c.state := hP _ _ _ _ hu.1 hstep
    subst hsame
    refine ⟨hI, hwriter, fun j p hp => ?_⟩
    rcases update_cases hp with hnew | hold
    · cases hnew
      exact ⟨hu.2 a, _, (hobs a _ ⟨_, hrefl _, hstep⟩).2⟩
    · exact hobserver j p hold
  | leave i =>
    refine ⟨hI, hwriter, fun j p hp => ?_⟩
    rcases update_cases hp with hnew | hold
    · cases hnew
    · exact hobserver j p hold

/-- What holds of the system holds after every run. -/
theorem Reaches.holds (hrefl : ∀ s, R s s) (htrans : ∀ s t u, R s t → R t u → R s u)
    (hG : ∀ h s e s', I s → M s e.op e.answer s' → G h s e s' → I s' ∧ R s s')
    (hP : ∀ s op a s', P op → O s op a s' → s' = s) (huses : observation.Uses P)
    (hobserve : ∀ s, I s →
      Meets (O.under R) (fun _ _ _ _ => True) observation (Post.outcome Q') [] s)
    {c d : Observed Op Ans ε α ε' β σ} (hc : Holds M O G Q R I Q' P c)
    (hreach : Reaches M O observation c d) : Holds M O G Q R I Q' P d := by
  induction hreach with
  | refl => exact hc
  | tail _ hstep ih => exact ih.step hrefl htrans hG hP huses hobserve hstep

end Invariant

section Trans

variable {M O : Semantics Op Ans σ} {observation : Program Op Ans ε' β}

theorem Reaches.trans {c d e : Observed Op Ans ε α ε' β σ} (h : Reaches M O observation c d)
    (h' : Reaches M O observation d e) : Reaches M O observation c e := by
  induction h' with
  | refl => exact h
  | tail _ hstep ih => exact ih.tail hstep

end Trans

end Observed

end Interaction
