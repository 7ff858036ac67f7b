import ControlPlaneKit.Interaction.Logic

/-!
# What is left of a program

`Meets` speaks of the operations a program performs and of their answers. `Foresees M F p Q h s`
speaks of the operations and of what is left of the program behind them: wherever `p` is about to
perform an operation, the outlook `F` relates the events so far, the state, the operation and the
continuation. Two runs that reach the same continuation go on alike, as long as they are answered
alike (`Runs.unique`).
-/

namespace Interaction

universe u v w x

variable {Op : Type u} {Ans : Op → Type v} {σ : Type x} {ε ε' : Type w} {α β : Type w}

/-! ### Programs with equal continuations -/

/-- Continuations that agree on the values a program can return may be exchanged. -/
theorem Program.bind_congr {p : Program Op Ans ε α} {f g : α → Program Op Ans ε β}
    (h : ∀ tr a, p.Runs tr (.ok a) → f a = g a) : p >>= f = p >>= g := by
  induction p with
  | pure a => exact h [] a (.pure a)
  | raise e => rfl
  | perform op next ih =>
    exact congrArg (Program.perform op) (funext fun a => ih a fun tr b hb => h _ b (.perform hb))

/-- Two traces that are answered alike: where the same was asked after the same events, the same
was answered. -/
def Alike (tr tr' : List (Event Op Ans)) : Prop :=
  ∀ pre e e' post post', tr = pre ++ e :: post → tr' = pre ++ e' :: post' → e.op = e'.op → e = e'

theorem Alike.tail {e : Event Op Ans} {tr tr' : List (Event Op Ans)}
    (h : Alike (e :: tr) (e :: tr')) : Alike tr tr' :=
  fun pre e₁ e₂ post post' htr htr' => h (e :: pre) e₁ e₂ post post' (by rw [htr, List.cons_append])
    (by rw [htr', List.cons_append])

/-- Complete runs of one program that are answered alike are one run. -/
theorem Program.Runs.unique {p : Program Op Ans ε α} {tr tr' : List (Event Op Ans)}
    {r r' : Except ε α} (h : p.Runs tr r) (h' : p.Runs tr' r') (halike : Alike tr tr') :
    tr = tr' ∧ r = r' := by
  induction h generalizing tr' r' with
  | pure a =>
    cases h'
    exact ⟨rfl, rfl⟩
  | raise e =>
    cases h'
    exact ⟨rfl, rfl⟩
  | @perform op next a tr r _ ih =>
    cases h' with
    | @perform _ _ a' tr₁ _ h' =>
      obtain rfl : a = a' := by
        simpa using halike [] ⟨op, a⟩ ⟨op, a'⟩ tr tr₁ rfl rfl rfl
      obtain ⟨rfl, rfl⟩ := ih h' halike.tail
      exact ⟨rfl, rfl⟩

/-! ### Outlooks -/

/-- A relation between the events so far, the state before an operation, the operation, and what
the program does with its answer. -/
abbrev Outlook (Op : Type u) (Ans : Op → Type v) (σ : Type x) (ε α : Type w) :=
  List (Event Op Ans) → σ → (op : Op) → (Ans op → Program Op Ans ε α) → Prop

/-- The outlook holds at every operation of the program, and every outcome meets the
postcondition. -/
def Foresees (M : Semantics Op Ans σ) (F : Outlook Op Ans σ ε α) :
    Program Op Ans ε α → Post Op Ans σ ε α → List (Event Op Ans) → σ → Prop
  | .pure a, Q, h, s => Q h s (.ok a)
  | .raise e, Q, h, s => Q h s (.error e)
  | .perform op next, Q, h, s =>
      F h s op next ∧ ∀ a s', M s op a s' → Foresees M F (next a) Q (h ++ [⟨op, a⟩]) s'

/-- The outlook on a first program that `f` continues. -/
def Outlook.before (F : Outlook Op Ans σ ε β) (f : α → Program Op Ans ε β) : Outlook Op Ans σ ε α :=
  fun h s op next => F h s op fun a => next a >>= f

/-- The outlook on a program that `g` guards. -/
def Outlook.within (F : Outlook Op Ans σ ε' α) (g : ε → Program Op Ans ε' α) :
    Outlook Op Ans σ ε α :=
  fun h s op next => F h s op fun a => (next a).handle g

variable {M : Semantics Op Ans σ} {h : List (Event Op Ans)} {s : σ}

/-- The rule for sequencing. -/
theorem foresees_bind {F : Outlook Op Ans σ ε β} {p : Program Op Ans ε α}
    {f : α → Program Op Ans ε β} {Q : Post Op Ans σ ε β}
    (hp : Foresees M (F.before f) p (fun h s r => match r with
      | .ok a => Foresees M F (f a) Q h s
      | .error e => Q h s (.error e)) h s) : Foresees M F (p >>= f) Q h s := by
  induction p generalizing h s with
  | pure a => exact hp
  | raise e => exact hp
  | perform op next ih => exact ⟨hp.1, fun a s' hstep => ih a (hp.2 a s' hstep)⟩

/-- The rule for exception handlers. -/
theorem foresees_handle {F : Outlook Op Ans σ ε' α} {p : Program Op Ans ε α}
    {g : ε → Program Op Ans ε' α} {Q : Post Op Ans σ ε' α}
    (hp : Foresees M (F.within g) p (fun h s r => match r with
      | .ok a => Q h s (.ok a)
      | .error e => Foresees M F (g e) Q h s) h s) : Foresees M F (p.handle g) Q h s := by
  induction p generalizing h s with
  | pure a => exact hp
  | raise e => exact hp
  | perform op next ih => exact ⟨hp.1, fun a s' hstep => ih a (hp.2 a s' hstep)⟩

/-- The rule of consequence. -/
theorem Foresees.post {F : Outlook Op Ans σ ε α} {p : Program Op Ans ε α} {Q Q' : Post Op Ans σ ε α}
    (hp : Foresees M F p Q h s) (hQ : ∀ h s r, Q h s r → Q' h s r) : Foresees M F p Q' h s := by
  induction p generalizing h s with
  | pure a => exact hQ _ _ _ hp
  | raise e => exact hQ _ _ _ hp
  | perform op next ih => exact ⟨hp.1, fun a s' hstep => ih a (hp.2 a s' hstep)⟩

theorem Foresees.outlook {F F' : Outlook Op Ans σ ε α} {p : Program Op Ans ε α}
    {Q : Post Op Ans σ ε α} (hp : Foresees M F p Q h s)
    (hF : ∀ h s op next, F h s op next → F' h s op next) : Foresees M F' p Q h s := by
  induction p generalizing h s with
  | pure a => exact hp
  | raise e => exact hp
  | perform op next ih => exact ⟨hF _ _ _ _ hp.1, fun a s' hstep => ih a (hp.2 a s' hstep)⟩

/-- A program whose operations the outlook accepts foresees what its complete runs show. -/
theorem Foresees.of_exec {P : Op → Prop} {F : Outlook Op Ans σ ε α} {p : Program Op Ans ε α}
    {Q : Post Op Ans σ ε α} (hP : ∀ h s op next, P op → F h s op next) (hp : p.Uses P)
    (hQ : ∀ tr s' r, Exec M s p tr s' (some r) → Q (h ++ tr) s' r) : Foresees M F p Q h s := by
  induction p generalizing h s with
  | pure a =>
    have hok := hQ [] s _ (.returned s a)
    rwa [List.append_nil] at hok
  | raise e =>
    have herror := hQ [] s _ (.raised s e)
    rwa [List.append_nil] at herror
  | perform op next ih =>
    refine ⟨hP h s op next hp.1, fun a s' hstep => ih a (hp.2 a) fun tr s'' r hr => ?_⟩
    simpa using hQ _ s'' r (.performed hstep hr)

/-! ### Reading an outlook off a run -/

/-- What is left after some events, in a world without choice, is one program in one state. -/
theorem Residual.unique (hM : ∀ s op a s' s'', M s op a s' → M s op a s'' → s' = s'')
    {p q q' : Program Op Ans ε α} {tr : List (Event Op Ans)} {s₁ s₂ : σ}
    (hr : Residual M s p tr s₁ q) (hr' : Residual M s p tr s₂ q') : s₁ = s₂ ∧ q = q' := by
  induction hr with
  | refl s p =>
    cases hr'
    exact ⟨rfl, rfl⟩
  | step hstep _ ih =>
    cases hr' with
    | step hstep' hrest' =>
      obtain rfl := hM _ _ _ _ _ hstep hstep'
      exact ih hrest'

/-- A run splits at each of its operations. -/
theorem Exec.split_at {p : Program Op Ans ε α} {s' : σ} {pre post : List (Event Op Ans)} {op : Op}
    {a : Ans op} {out : Option (Except ε α)} (hrun : Exec M s p (pre ++ ⟨op, a⟩ :: post) s' out) :
    ∃ s₁ s₂ next, Residual M s p pre s₁ (.perform op next) ∧ M s₁ op a s₂ ∧
      Exec M s₂ (next a) post s' out := by
  obtain ⟨s₁, q, hresidual, hrest⟩ := hrun.split
  cases hrest with
  | performed hstep hrest => exact ⟨s₁, _, _, hresidual, hstep, hrest⟩

/-- The outlook holds wherever a run is about to perform an operation. -/
theorem Foresees.residual {F : Outlook Op Ans σ ε α} {p : Program Op Ans ε α}
    {Q : Post Op Ans σ ε α} {tr : List (Event Op Ans)} {s' : σ} {op : Op}
    {next : Ans op → Program Op Ans ε α} (hp : Foresees M F p Q h s)
    (hr : Residual M s p tr s' (.perform op next)) : F (h ++ tr) s' op next := by
  generalize hq : Program.perform op next = q at hr
  induction hr generalizing h with
  | refl s p =>
    subst hq
    simpa using hp.1
  | step hstep _ ih => simpa using ih (hp.2 _ _ hstep) hq

end Interaction
