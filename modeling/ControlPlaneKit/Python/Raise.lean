import Mathlib.Logic.Basic

/-!
# Computations that may raise

`Except` as the effect of code that raises: what a sequence returns, and how it fails. The lemmas
are stated for `>>=`, which is what `do` blocks unfold to.
-/

namespace Raise

universe u v

variable {ε : Type u} {α β : Type v} {x : Except ε α} {f : α → Except ε β}

@[simp]
theorem ok_bind (a : α) (f : α → Except ε β) : (Except.ok a >>= f) = f a :=
  rfl

@[simp]
theorem error_bind (e : ε) (f : α → Except ε β) : (Except.error e >>= f) = .error e :=
  rfl

/-- A sequence returns when both of its parts do. -/
theorem bind_eq_ok {b : β} : (x >>= f) = .ok b ↔ ∃ a, x = .ok a ∧ f a = .ok b := by
  cases x with
  | error e => simp
  | ok a => simp

/-- A sequence fails in its first part, or in the second one. -/
theorem bind_eq_error {e : ε} :
    (x >>= f) = .error e ↔ x = .error e ∨ ∃ a, x = .ok a ∧ f a = .error e := by
  cases x with
  | error e' => simp
  | ok a => simp

end Raise
