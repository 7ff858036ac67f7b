import Mathlib.Data.List.Basic

/-!
# Interactive programs

A `Program Op Ans ε α` is a finite tree of operations against an outside world: it returns a
value, raises an exception, or performs one operation and continues with whatever answer the
world gives. The tree fixes what the program asks and in which order; it says nothing about
which answers are possible. That is the job of a `Semantics`, which relates the state of the
world before an operation to its answer and the state after it.

`Exec M s p tr s' out` is a run of `p`: it started in state `s`, performed the operations of
`tr` with the answers recorded there, and left the world in `s'`. The outcome `none` stands for
a program that stopped before it was done. Since every tree may be abandoned at every node, this
one constructor covers a process that dies between any two operations.
-/

namespace Interaction

universe u v w

/-- A program over operations `Op` with answers `Ans`, exceptions `ε` and results `α`. -/
inductive Program (Op : Type u) (Ans : Op → Type v) (ε : Type w) (α : Type w) where
  | pure (a : α)
  | raise (e : ε)
  | perform (op : Op) (next : Ans op → Program Op Ans ε α)

namespace Program

variable {Op : Type u} {Ans : Op → Type v} {ε ε' : Type w} {α β γ : Type w}

/-- Sequencing: exceptions of the first program skip the second one. -/
protected def bind : Program Op Ans ε α → (α → Program Op Ans ε β) → Program Op Ans ε β
  | .pure a, f => f a
  | .raise e, _ => .raise e
  | .perform op next, f => .perform op fun a => (next a).bind f

/-- Exception handling: `h` runs where the program raises. -/
def handle : Program Op Ans ε α → (ε → Program Op Ans ε' α) → Program Op Ans ε' α
  | .pure a, _ => .pure a
  | .raise e, h => h e
  | .perform op next, h => .perform op fun a => (next a).handle h

instance : Monad (Program Op Ans ε) where
  pure := .pure
  bind := Program.bind

/-- The program that performs one operation and returns its answer. -/
def request {Ans : Op → Type w} (op : Op) : Program Op Ans ε (Ans op) :=
  .perform op .pure

@[simp]
theorem pure_eq (a : α) : (Pure.pure a : Program Op Ans ε α) = .pure a :=
  rfl

@[simp]
theorem pure_bind' (a : α) (f : α → Program Op Ans ε β) :
    (Program.pure a >>= f : Program Op Ans ε β) = f a :=
  rfl

@[simp]
theorem raise_bind (e : ε) (f : α → Program Op Ans ε β) :
    (Program.raise e >>= f : Program Op Ans ε β) = .raise e :=
  rfl

@[simp]
theorem perform_bind (op : Op) (next : Ans op → Program Op Ans ε α)
    (f : α → Program Op Ans ε β) :
    (Program.perform op next >>= f) = .perform op fun a => next a >>= f :=
  rfl

@[simp]
theorem handle_pure (a : α) (h : ε → Program Op Ans ε' α) : (Program.pure a).handle h = .pure a :=
  rfl

@[simp]
theorem handle_raise (e : ε) (h : ε → Program Op Ans ε' α) :
    (Program.raise e : Program Op Ans ε α).handle h = h e :=
  rfl

@[simp]
theorem handle_perform (op : Op) (next : Ans op → Program Op Ans ε α)
    (h : ε → Program Op Ans ε' α) :
    (Program.perform op next).handle h = .perform op fun a => (next a).handle h :=
  rfl

instance : LawfulMonad (Program Op Ans ε) :=
  LawfulMonad.mk' _
    (fun x => by
      induction x with
      | pure a => rfl
      | raise e => rfl
      | perform op next ih => exact congrArg (Program.perform op) (funext ih))
    (fun _ _ => rfl)
    (fun x f g => by
      induction x with
      | pure a => rfl
      | raise e => rfl
      | perform op next ih => exact congrArg (Program.perform op) (funext ih))

/-! ### Programs that keep to a set of operations -/

/-- `p.Uses P` says that `p` performs only operations satisfying `P`, whatever the answers. -/
def Uses (P : Op → Prop) : Program Op Ans ε α → Prop
  | .pure _ => True
  | .raise _ => True
  | .perform op next => P op ∧ ∀ a, (next a).Uses P

theorem Uses.bind {P : Op → Prop} {p : Program Op Ans ε α} {f : α → Program Op Ans ε β}
    (hp : p.Uses P) (hf : ∀ a, (f a).Uses P) : (p >>= f).Uses P := by
  induction p with
  | pure a => exact hf a
  | raise e => trivial
  | perform op next ih => exact ⟨hp.1, fun a => ih a (hp.2 a)⟩

theorem Uses.handle {P : Op → Prop} {p : Program Op Ans ε α} {h : ε → Program Op Ans ε' α}
    (hp : p.Uses P) (hh : ∀ e, (h e).Uses P) : (p.handle h).Uses P := by
  induction p with
  | pure a => trivial
  | raise e => exact hh e
  | perform op next ih => exact ⟨hp.1, fun a => ih a (hp.2 a)⟩

end Program

/-- An operation together with the answer it received. -/
structure Event (Op : Type u) (Ans : Op → Type v) where
  /-- The operation performed. -/
  op : Op
  /-- The answer the world gave. -/
  answer : Ans op

namespace Program

variable {Op : Type u} {Ans : Op → Type v} {ε ε' : Type w} {α β : Type w}

/-- The complete runs of a program, whatever the answers: the events and the outcome. -/
inductive Runs : Program Op Ans ε α → List (Event Op Ans) → Except ε α → Prop where
  | pure (a : α) : Runs (.pure a) [] (.ok a)
  | raise (e : ε) : Runs (.raise e) [] (.error e)
  | perform {op : Op} {next : Ans op → Program Op Ans ε α} {a : Ans op}
      {tr : List (Event Op Ans)} {r : Except ε α} (h : Runs (next a) tr r) :
      Runs (.perform op next) (⟨op, a⟩ :: tr) r

/-- A complete run of a sequence ends in its first part, or runs on in the second. -/
theorem Runs.bind_cases {p : Program Op Ans ε α} {f : α → Program Op Ans ε β}
    {tr : List (Event Op Ans)} {r : Except ε β} (h : (p >>= f).Runs tr r) :
    (∃ e, p.Runs tr (.error e) ∧ r = .error e) ∨
      ∃ a tr₁ tr₂, tr = tr₁ ++ tr₂ ∧ p.Runs tr₁ (.ok a) ∧ (f a).Runs tr₂ r := by
  induction p generalizing tr with
  | pure a => exact .inr ⟨a, [], tr, rfl, .pure a, h⟩
  | raise e =>
    cases h
    exact .inl ⟨e, .raise e, rfl⟩
  | perform op next ih =>
    cases h with
    | perform h =>
      rcases ih _ h with ⟨e, h₁, rfl⟩ | ⟨a, tr₁, tr₂, rfl, h₁, h₂⟩
      · exact .inl ⟨e, .perform h₁, rfl⟩
      · exact .inr ⟨a, _, tr₂, rfl, .perform h₁, h₂⟩

/-- The events of a complete run are operations the program uses. -/
theorem Runs.uses {P : Op → Prop} {p : Program Op Ans ε α} {tr : List (Event Op Ans)}
    {r : Except ε α} (h : p.Runs tr r) (hp : p.Uses P) : ∀ e ∈ tr, P e.op := by
  induction h with
  | pure a => exact fun e he => absurd he List.not_mem_nil
  | raise e => exact fun e he => absurd he List.not_mem_nil
  | perform h ih =>
    intro e he
    rcases List.mem_cons.mp he with rfl | he
    · exact hp.1
    · exact ih (hp.2 _) e he

/-- A sequence that returned ran both of its parts. -/
theorem Runs.bind_ok {p : Program Op Ans ε α} {f : α → Program Op Ans ε β}
    {tr : List (Event Op Ans)} {b : β} (h : (p >>= f).Runs tr (.ok b)) :
    ∃ a tr₁ tr₂, tr = tr₁ ++ tr₂ ∧ p.Runs tr₁ (.ok a) ∧ (f a).Runs tr₂ (.ok b) := by
  rcases h.bind_cases with ⟨e, -, he⟩ | h
  · cases he
  · exact h

/-- A complete run of a guarded program is a run of the program, continued by the handler where
the program raised. -/
theorem Runs.handle_cases {p : Program Op Ans ε α} {g : ε → Program Op Ans ε' α}
    {tr : List (Event Op Ans)} {r : Except ε' α} (h : (p.handle g).Runs tr r) :
    (∃ a, p.Runs tr (.ok a) ∧ r = .ok a) ∨
      ∃ e tr₁ tr₂, tr = tr₁ ++ tr₂ ∧ p.Runs tr₁ (.error e) ∧ (g e).Runs tr₂ r := by
  induction p generalizing tr with
  | pure a =>
    cases h
    exact .inl ⟨a, .pure a, rfl⟩
  | raise e => exact .inr ⟨e, [], tr, rfl, .raise e, h⟩
  | perform op next ih =>
    cases h with
    | perform h =>
      rcases ih _ h with ⟨a, h₁, rfl⟩ | ⟨e, tr₁, tr₂, rfl, h₁, h₂⟩
      · exact .inl ⟨a, .perform h₁, rfl⟩
      · exact .inr ⟨e, _, tr₂, rfl, .perform h₁, h₂⟩

end Program

/-! ### Runs in a world -/

/-- How the world answers an operation: the state before, the operation, its answer and the
state after. Several answers may be possible. -/
abbrev Semantics (Op : Type u) (Ans : Op → Type v) (σ : Type w) :=
  σ → (op : Op) → Ans op → σ → Prop

section Exec

universe x

variable {Op : Type u} {Ans : Op → Type v} {σ : Type x} {ε : Type w} {α β : Type w}
variable {M : Semantics Op Ans σ}

/-- The runs of a program, complete or abandoned. -/
inductive Exec (M : Semantics Op Ans σ) :
    σ → Program Op Ans ε α → List (Event Op Ans) → σ → Option (Except ε α) → Prop where
  | stopped (s : σ) (p : Program Op Ans ε α) : Exec M s p [] s none
  | returned (s : σ) (a : α) : Exec M s (.pure a) [] s (some (.ok a))
  | raised (s : σ) (e : ε) : Exec M s (.raise e) [] s (some (.error e))
  | performed {s s' s'' : σ} {op : Op} {next : Ans op → Program Op Ans ε α} {a : Ans op}
      {tr : List (Event Op Ans)} {out : Option (Except ε α)} (hstep : M s op a s')
      (hrest : Exec M s' (next a) tr s'' out) :
      Exec M s (.perform op next) (⟨op, a⟩ :: tr) s'' out

/-- A run of a sequence is a run of its first part, continued by a run of the second one when
the first part returned. -/
theorem Exec.bind_cases {p : Program Op Ans ε α} {f : α → Program Op Ans ε β} {s s' : σ}
    {tr : List (Event Op Ans)} {out : Option (Except ε β)} (h : Exec M s (p >>= f) tr s' out) :
    (Exec M s p tr s' none ∧ out = none) ∨
      (∃ e, Exec M s p tr s' (some (.error e)) ∧ out = some (.error e)) ∨
      ∃ a tr₁ tr₂ s₁, tr = tr₁ ++ tr₂ ∧ Exec M s p tr₁ s₁ (some (.ok a)) ∧
        Exec M s₁ (f a) tr₂ s' out := by
  induction p generalizing s tr with
  | pure a => exact .inr (.inr ⟨a, [], tr, s, rfl, .returned s a, h⟩)
  | raise e =>
    cases h with
    | stopped => exact .inl ⟨.stopped _ _, rfl⟩
    | raised => exact .inr (.inl ⟨e, .raised _ _, rfl⟩)
  | perform op next ih =>
    cases h with
    | stopped => exact .inl ⟨.stopped _ _, rfl⟩
    | performed hstep hrest =>
      rcases ih _ hrest with ⟨h₁, rfl⟩ | ⟨e, h₁, rfl⟩ | ⟨a, tr₁, tr₂, s₁, rfl, h₁, h₂⟩
      · exact .inl ⟨.performed hstep h₁, rfl⟩
      · exact .inr (.inl ⟨e, .performed hstep h₁, rfl⟩)
      · exact .inr (.inr ⟨a, _, tr₂, s₁, rfl, .performed hstep h₁, h₂⟩)

/-- A complete run in a world is a complete run. -/
theorem Exec.runs {p : Program Op Ans ε α} {s s' : σ} {tr : List (Event Op Ans)}
    {r : Except ε α} (h : Exec M s p tr s' (some r)) : p.Runs tr r := by
  generalize hout : some r = out at h
  induction h with
  | stopped => cases hout
  | returned s a =>
    cases hout
    exact .pure a
  | raised s e =>
    cases hout
    exact .raise e
  | performed _ _ ih => exact .perform (ih hout)

/-- The events of a run are operations the program uses. -/
theorem Exec.uses {P : Op → Prop} {p : Program Op Ans ε α} {s s' : σ} {tr : List (Event Op Ans)}
    {out : Option (Except ε α)} (h : Exec M s p tr s' out) (hp : p.Uses P) : ∀ e ∈ tr, P e.op := by
  induction h with
  | performed _ _ ih =>
    intro e he
    rcases List.mem_cons.mp he with rfl | he
    · exact hp.1
    · exact ih (hp.2 _) e he
  | _ => exact fun e he => absurd he List.not_mem_nil

/-- An invariant of the operations a program uses holds at the end of its runs. -/
theorem Exec.keep {P : Op → Prop} {I : σ → Prop}
    (hI : ∀ s op a s', P op → I s → M s op a s' → I s') {p : Program Op Ans ε α} {s s' : σ}
    {tr : List (Event Op Ans)} {out : Option (Except ε α)} (h : Exec M s p tr s' out)
    (hp : p.Uses P) (hs : I s) : I s' := by
  induction h with
  | performed hstep _ ih => exact ih (hp.2 _) (hI _ _ _ _ hp.1 hs hstep)
  | _ => exact hs

/-- What every step guarantees of its event holds of all events of a run. -/
theorem Exec.forall_event {P : Event Op Ans → Prop} (hP : ∀ s op a s', M s op a s' → P ⟨op, a⟩)
    {p : Program Op Ans ε α} {s s' : σ} {tr : List (Event Op Ans)} {out : Option (Except ε α)}
    (h : Exec M s p tr s' out) : ∀ e ∈ tr, P e := by
  induction h with
  | performed hstep _ ih => exact List.forall_mem_cons.mpr ⟨hP _ _ _ _ hstep, ih⟩
  | _ => exact List.forall_mem_nil _

/-- Runs compose along sequencing. -/
theorem Exec.bind {p : Program Op Ans ε α} {f : α → Program Op Ans ε β} {s s₁ s' : σ}
    {tr₁ tr₂ : List (Event Op Ans)} {a : α} {out : Option (Except ε β)}
    (hp : Exec M s p tr₁ s₁ (some (.ok a))) (hf : Exec M s₁ (f a) tr₂ s' out) :
    Exec M s (p >>= f) (tr₁ ++ tr₂) s' out := by
  induction p generalizing s tr₁ with
  | pure b => cases hp; exact hf
  | raise e => cases hp
  | perform op next ih =>
    cases hp with
    | performed hstep hrest => exact .performed hstep (ih _ hrest)

/-- A run under an exception handler that returned is the run. -/
theorem Exec.handle_ok {ε' : Type w} {p : Program Op Ans ε α} {g : ε → Program Op Ans ε' α}
    {s s' : σ} {tr : List (Event Op Ans)} {a : α} (h : Exec M s p tr s' (some (.ok a))) :
    Exec M s (p.handle g) tr s' (some (.ok a)) := by
  induction p generalizing s tr with
  | pure b => cases h; exact .returned _ _
  | raise e => cases h
  | perform op next ih =>
    cases h with
    | performed hstep hrest => exact .performed hstep (ih _ hrest)

/-- A run that raised is continued by the exception handler. -/
theorem Exec.handle_error {ε' : Type w} {p : Program Op Ans ε α} {g : ε → Program Op Ans ε' α}
    {s s₁ s' : σ} {tr₁ tr₂ : List (Event Op Ans)} {e : ε} {out : Option (Except ε' α)}
    (hp : Exec M s p tr₁ s₁ (some (.error e))) (hg : Exec M s₁ (g e) tr₂ s' out) :
    Exec M s (p.handle g) (tr₁ ++ tr₂) s' out := by
  induction p generalizing s tr₁ with
  | pure b => cases hp
  | raise e' => cases hp; exact hg
  | perform op next ih =>
    cases hp with
    | performed hstep hrest => exact .performed hstep (ih _ hrest)

/-- An exception ends a sequence. -/
theorem Exec.bind_error {p : Program Op Ans ε α} {f : α → Program Op Ans ε β} {s s' : σ}
    {tr : List (Event Op Ans)} {e : ε} (hp : Exec M s p tr s' (some (.error e))) :
    Exec M s (p >>= f) tr s' (some (.error e)) := by
  induction p generalizing s tr with
  | pure b => cases hp
  | raise e' => cases hp; exact .raised _ _
  | perform op next ih =>
    cases hp with
    | performed hstep hrest => exact .performed hstep (ih _ hrest)

/-- `q` is what is left of `p` after the events `tr`. -/
inductive Residual (M : Semantics Op Ans σ) :
    σ → Program Op Ans ε α → List (Event Op Ans) → σ → Program Op Ans ε α → Prop where
  | refl (s : σ) (p : Program Op Ans ε α) : Residual M s p [] s p
  | step {s s' s'' : σ} {op : Op} {next : Ans op → Program Op Ans ε α} {a : Ans op}
      {tr : List (Event Op Ans)} {q : Program Op Ans ε α} (hstep : M s op a s')
      (hrest : Residual M s' (next a) tr s'' q) :
      Residual M s (.perform op next) (⟨op, a⟩ :: tr) s'' q

/-- A run splits at every point of its trace. -/
theorem Exec.split {p : Program Op Ans ε α} {s s' : σ} {tr tr' : List (Event Op Ans)}
    {out : Option (Except ε α)} (h : Exec M s p (tr ++ tr') s' out) :
    ∃ s₁ q, Residual M s p tr s₁ q ∧ Exec M s₁ q tr' s' out := by
  induction tr generalizing s p with
  | nil => exact ⟨s, p, .refl s p, h⟩
  | cons e tr ih =>
    cases h with
    | performed hstep hrest =>
      obtain ⟨s₁, q, hresidual, hexec⟩ := ih hrest
      exact ⟨s₁, q, .step hstep hresidual, hexec⟩

/-- A run may be abandoned at every point. -/
theorem Exec.abandon {p : Program Op Ans ε α} {s s' : σ} {tr tr' : List (Event Op Ans)}
    {out : Option (Except ε α)} (h : Exec M s p (tr ++ tr') s' out) :
    ∃ s₁, Exec M s p tr s₁ none := by
  induction tr generalizing s p with
  | nil => exact ⟨s, .stopped s p⟩
  | cons e tr ih =>
    cases h with
    | performed hstep hrest =>
      obtain ⟨s₁, hexec⟩ := ih hrest
      exact ⟨s₁, .performed hstep hexec⟩

end Exec

end Interaction
