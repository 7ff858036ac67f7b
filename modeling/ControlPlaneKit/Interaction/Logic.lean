import ControlPlaneKit.Interaction.Program

/-!
# Guarantees of interactive programs

`Meets M G p Q h s` is the weakest precondition of a program: started in state `s` after the
events `h`, every operation `p` performs satisfies the guarantee `G`, whatever the world answers
within `M`, and if `p` ends, its result satisfies `Q`. A guarantee speaks of a single operation,
the events before it and the states around it, so it holds at every point of a run, also of one
that is abandoned: this is what makes the rules below usable for programs that may crash.

The rules follow the constructors of `Program` (`meets_bind`, `meets_handle`), plus the two
structural ones (`Meets.mono`, `Meets.and`). `Meets.event` and `Meets.outcome` read the
conclusion off a run.
-/

namespace Interaction

universe u v w x

variable {Op : Type u} {Ans : Op → Type v} {σ : Type x} {ε ε' : Type w} {α β : Type w}

/-- A relation between the events so far, the state before an operation, the operation with its
answer, and the state after it. -/
abbrev Guarantee (Op : Type u) (Ans : Op → Type v) (σ : Type x) :=
  List (Event Op Ans) → σ → Event Op Ans → σ → Prop

/-- Postconditions see the events so far, the final state and the outcome. -/
abbrev Post (Op : Type u) (Ans : Op → Type v) (σ : Type x) (ε α : Type w) :=
  List (Event Op Ans) → σ → Except ε α → Prop

/-- Every operation of the program keeps the guarantee and every outcome meets the
postcondition. -/
def Meets (M : Semantics Op Ans σ) (G : Guarantee Op Ans σ) :
    Program Op Ans ε α → Post Op Ans σ ε α → List (Event Op Ans) → σ → Prop
  | .pure a, Q, h, s => Q h s (.ok a)
  | .raise e, Q, h, s => Q h s (.error e)
  | .perform op next, Q, h, s =>
      ∀ a s', M s op a s' → G h s ⟨op, a⟩ s' ∧ Meets M G (next a) Q (h ++ [⟨op, a⟩]) s'

variable {M : Semantics Op Ans σ} {G G' : Guarantee Op Ans σ}

@[simp]
theorem meets_pure {a : α} {Q : Post Op Ans σ ε α} {h : List (Event Op Ans)} {s : σ} :
    Meets M G (.pure a) Q h s ↔ Q h s (.ok a) :=
  Iff.rfl

@[simp]
theorem meets_raise {e : ε} {Q : Post Op Ans σ ε α} {h : List (Event Op Ans)} {s : σ} :
    Meets M G (.raise e) Q h s ↔ Q h s (.error e) :=
  Iff.rfl

theorem meets_perform {op : Op} {next : Ans op → Program Op Ans ε α} {Q : Post Op Ans σ ε α}
    {h : List (Event Op Ans)} {s : σ} :
    Meets M G (.perform op next) Q h s ↔ ∀ a s', M s op a s' →
      G h s ⟨op, a⟩ s' ∧ Meets M G (next a) Q (h ++ [⟨op, a⟩]) s' :=
  Iff.rfl

/-- The postcondition a first program must meet for its continuation `f` to meet `Q`. -/
def Post.after (M : Semantics Op Ans σ) (G : Guarantee Op Ans σ) (f : α → Program Op Ans ε β)
    (Q : Post Op Ans σ ε β) : Post Op Ans σ ε α
  | h, s, .ok a => Meets M G (f a) Q h s
  | h, s, .error e => Q h s (.error e)

@[simp]
theorem Post.after_ok {f : α → Program Op Ans ε β} {Q : Post Op Ans σ ε β}
    {h : List (Event Op Ans)} {s : σ} {a : α} :
    Post.after M G f Q h s (.ok a) ↔ Meets M G (f a) Q h s :=
  Iff.rfl

@[simp]
theorem Post.after_error {f : α → Program Op Ans ε β} {Q : Post Op Ans σ ε β}
    {h : List (Event Op Ans)} {s : σ} {e : ε} :
    Post.after M G f Q h s (.error e) ↔ Q h s (.error e) :=
  Iff.rfl

/-- The rule for sequencing. -/
theorem meets_bind {p : Program Op Ans ε α} {f : α → Program Op Ans ε β}
    {Q : Post Op Ans σ ε β} {h : List (Event Op Ans)} {s : σ} :
    Meets M G (p >>= f) Q h s ↔ Meets M G p (Post.after M G f Q) h s := by
  induction p generalizing h s with
  | pure a => exact Iff.rfl
  | raise e => exact Iff.rfl
  | perform op next ih =>
    simp only [Program.perform_bind, meets_perform, ih]

/-- The postcondition a program must meet for its handler `g` to meet `Q` on exceptions. -/
def Post.orElse (M : Semantics Op Ans σ) (G : Guarantee Op Ans σ) (g : ε → Program Op Ans ε' α)
    (Q : Post Op Ans σ ε' α) : Post Op Ans σ ε α
  | h, s, .ok a => Q h s (.ok a)
  | h, s, .error e => Meets M G (g e) Q h s

@[simp]
theorem Post.orElse_ok {g : ε → Program Op Ans ε' α} {Q : Post Op Ans σ ε' α}
    {h : List (Event Op Ans)} {s : σ} {a : α} :
    Post.orElse M G g Q h s (.ok a) ↔ Q h s (.ok a) :=
  Iff.rfl

@[simp]
theorem Post.orElse_error {g : ε → Program Op Ans ε' α} {Q : Post Op Ans σ ε' α}
    {h : List (Event Op Ans)} {s : σ} {e : ε} :
    Post.orElse M G g Q h s (.error e) ↔ Meets M G (g e) Q h s :=
  Iff.rfl

/-- The rule for exception handlers. -/
theorem meets_handle {p : Program Op Ans ε α} {g : ε → Program Op Ans ε' α}
    {Q : Post Op Ans σ ε' α} {h : List (Event Op Ans)} {s : σ} :
    Meets M G (p.handle g) Q h s ↔ Meets M G p (Post.orElse M G g Q) h s := by
  induction p generalizing h s with
  | pure a => exact Iff.rfl
  | raise e => exact Iff.rfl
  | perform op next ih =>
    simp only [Program.handle_perform, meets_perform, ih]

/-- **Consequence.** Guarantee and postcondition may be weakened. -/
theorem Meets.mono {p : Program Op Ans ε α} {Q Q' : Post Op Ans σ ε α}
    {h : List (Event Op Ans)} {s : σ} (hp : Meets M G p Q h s)
    (hG : ∀ h s e s', M s e.op e.answer s' → G h s e s' → G' h s e s')
    (hQ : ∀ h s r, Q h s r → Q' h s r) : Meets M G' p Q' h s := by
  induction p generalizing h s with
  | pure a => exact hQ _ _ _ hp
  | raise e => exact hQ _ _ _ hp
  | perform op next ih =>
    intro a s' hstep
    obtain ⟨h₁, h₂⟩ := hp a s' hstep
    exact ⟨hG _ _ _ _ hstep h₁, ih a h₂⟩

theorem Meets.post {p : Program Op Ans ε α} {Q Q' : Post Op Ans σ ε α}
    {h : List (Event Op Ans)} {s : σ} (hp : Meets M G p Q h s)
    (hQ : ∀ h s r, Q h s r → Q' h s r) : Meets M G p Q' h s :=
  hp.mono (fun _ _ _ _ _ h => h) hQ

/-- **Conjunction.** Two proofs about one program combine. -/
theorem Meets.and {p : Program Op Ans ε α} {Q Q' : Post Op Ans σ ε α}
    {h : List (Event Op Ans)} {s : σ} (hp : Meets M G p Q h s) (hp' : Meets M G' p Q' h s) :
    Meets M (fun h s e s' => G h s e s' ∧ G' h s e s') p (fun h s r => Q h s r ∧ Q' h s r) h s := by
  induction p generalizing h s with
  | pure a => exact ⟨hp, hp'⟩
  | raise e => exact ⟨hp, hp'⟩
  | perform op next ih =>
    intro a s' hstep
    exact ⟨⟨(hp a s' hstep).1, (hp' a s' hstep).1⟩, ih a (hp a s' hstep).2 (hp' a s' hstep).2⟩

/-- An invariant of the events and states of a run, kept by every operation the world can
answer, may be assumed to hold at the end. -/
theorem Meets.keep {p : Program Op Ans ε α} {Q : Post Op Ans σ ε α}
    {I : List (Event Op Ans) → σ → Prop}
    (hI : ∀ h s e s', I h s → M s e.op e.answer s' → G h s e s' → I (h ++ [e]) s')
    {h : List (Event Op Ans)} {s : σ} (hs : I h s) (hp : Meets M G p Q h s) :
    Meets M (fun h s e s' => I h s ∧ G h s e s') p (fun h s r => I h s ∧ Q h s r) h s := by
  induction p generalizing h s with
  | pure a => exact ⟨hs, hp⟩
  | raise e => exact ⟨hs, hp⟩
  | perform op next ih =>
    intro a s' hstep
    obtain ⟨h₁, h₂⟩ := hp a s' hstep
    exact ⟨⟨hs, h₁⟩, ih a (hI _ _ _ _ hs hstep h₁) h₂⟩

/-- A program that keeps to operations which leave the state alone meets every postcondition
that its complete runs meet. -/
theorem Meets.of_runs {P : Op → Prop} {p : Program Op Ans ε α} {Q : Post Op Ans σ ε α}
    (hP : ∀ h s op a s', P op → M s op a s' → s' = s ∧ G h s ⟨op, a⟩ s')
    {h : List (Event Op Ans)} {s : σ} (hp : p.Uses P)
    (hQ : ∀ tr r, p.Runs tr r → Q (h ++ tr) s r) : Meets M G p Q h s := by
  induction p generalizing h with
  | pure a => simpa using hQ [] _ (.pure a)
  | raise e => simpa using hQ [] _ (.raise e)
  | perform op next ih =>
    intro a s' hstep
    obtain ⟨rfl, hg⟩ := hP h s op a s' hp.1 hstep
    exact ⟨hg, ih a (hp.2 a) fun tr r hr => by simpa using hQ _ r (.perform hr)⟩

/-! ### Reading a guarantee off a run -/

/-- Every event of a run happens in a state of an invariant that the guarantee keeps, and satisfies
the guarantee between the states it happened in. -/
theorem Meets.event_of_invariant {I : σ → Prop} {p : Program Op Ans ε α} {Q : Post Op Ans σ ε α}
    (hI : ∀ h s e s', I s → G h s e s' → I s') {h : List (Event Op Ans)} {s s' : σ}
    {tr : List (Event Op Ans)} {out : Option (Except ε α)} (hp : Meets M G p Q h s)
    (hs : I s) (hrun : Exec M s p tr s' out)
    {pre post : List (Event Op Ans)} {e : Event Op Ans} (htr : tr = pre ++ e :: post) :
    ∃ s₁ s₂, I s₁ ∧ M s₁ e.op e.answer s₂ ∧ G (h ++ pre) s₁ e s₂ := by
  induction hrun generalizing h pre with
  | stopped => simp at htr
  | returned => simp at htr
  | raised => simp at htr
  | @performed s s' s'' op next a tr out hstep hrest ih =>
    obtain ⟨hg, hnext⟩ := hp a s' hstep
    cases pre with
    | nil =>
      simp only [List.nil_append, List.cons.injEq] at htr
      obtain ⟨rfl, rfl⟩ := htr
      exact ⟨s, s', hs, hstep, by simpa using hg⟩
    | cons e' pre =>
      simp only [List.cons_append, List.cons.injEq] at htr
      obtain ⟨rfl, rfl⟩ := htr
      simpa using ih hnext (hI _ _ _ _ hs hg) rfl

/-- Every event of a run satisfies the guarantee, between the states it happened in. -/
theorem Meets.event {p : Program Op Ans ε α} {Q : Post Op Ans σ ε α}
    {h : List (Event Op Ans)} {s s' : σ} {tr : List (Event Op Ans)}
    {out : Option (Except ε α)} (hp : Meets M G p Q h s) (hrun : Exec M s p tr s' out)
    {pre post : List (Event Op Ans)} {e : Event Op Ans} (htr : tr = pre ++ e :: post) :
    ∃ s₁ s₂, M s₁ e.op e.answer s₂ ∧ G (h ++ pre) s₁ e s₂ := by
  obtain ⟨s₁, s₂, -, hevent⟩ :=
    hp.event_of_invariant (I := fun _ => True) (fun _ _ _ _ _ _ => trivial) trivial hrun htr
  exact ⟨s₁, s₂, hevent⟩

/-- A finished run meets the postcondition. -/
theorem Meets.outcome {p : Program Op Ans ε α} {Q : Post Op Ans σ ε α}
    {h : List (Event Op Ans)} {s s' : σ} {tr : List (Event Op Ans)} {r : Except ε α}
    (hp : Meets M G p Q h s) (hrun : Exec M s p tr s' (some r)) : Q (h ++ tr) s' r := by
  generalize hout : some r = out at hrun
  induction hrun generalizing h with
  | stopped => simp at hout
  | returned => cases hout; simpa using hp
  | raised => cases hout; simpa using hp
  | performed hstep hrest ih => simpa using ih (hp _ _ hstep).2 hout

/-- A state invariant that the guarantee carries from the state before to the state after each
operation holds in the last state of every run. -/
theorem Meets.invariant {I : σ → Prop} {p : Program Op Ans ε α} {Q : Post Op Ans σ ε α}
    (hI : ∀ h s e s', I s → G h s e s' → I s') {h : List (Event Op Ans)} {s s' : σ}
    {tr : List (Event Op Ans)} {out : Option (Except ε α)} (hp : Meets M G p Q h s)
    (hs : I s) (hrun : Exec M s p tr s' out) : I s' := by
  induction hrun generalizing h with
  | stopped => exact hs
  | returned => exact hs
  | raised => exact hs
  | performed hstep hrest ih =>
    obtain ⟨hg, hnext⟩ := hp _ _ hstep
    exact ih hnext (hI _ _ _ _ hs hg)

end Interaction
