import Mathlib.Algebra.BigOperators.Group.List.Basic
import Mathlib.Algebra.GroupWithZero.Nat
import Mathlib.Algebra.Order.BigOperators.Group.List
import Mathlib.Data.List.Perm.Basic

/-!
# The depth of a tree by a worklist

A loop takes entries off a worklist, each with the depth it stands at, keeps the greatest depth of a
node it has met, and stops as soon as that depth exceeds a limit. Up to the limit it finds the depth
of the tree, and it exceeds the limit exactly when the tree does (`visit_root`). Which entry is
taken next does not matter: the loop runs under any schedule.
-/

namespace ControlPlaneKit

namespace Worklist

variable {α : Type*}

/-- How the values of a type are trees: a leaf has no children, a node has a list of them. -/
structure Shape (α : Type*) where
  children : α → Option (List α)
  depth : α → ℕ
  size : α → ℕ
  depth_leaf : ∀ v, children v = none → depth v = 0
  depth_node : ∀ v vs, children v = some vs → depth v = (vs.map depth).foldr max 0 + 1
  size_pos : ∀ v, 0 < size v
  size_node : ∀ v vs, children v = some vs → (vs.map size).sum < size v

/-- What stands where in the worklist before an entry is taken off its front. -/
structure Schedule (α : Type*) where
  arrange : List α → List α
  perm : ∀ pending, (arrange pending).Perm pending

/-- A stack that is pushed to and popped from at its end. -/
def Schedule.popLast : Schedule α where
  arrange pending := pending.getLast?.toList ++ pending.dropLast
  perm pending := by
    rcases List.eq_nil_or_concat' pending with rfl | ⟨rest, last, rfl⟩
    · exact .nil
    · rw [List.getLast?_concat, List.dropLast_concat]
      exact List.perm_append_comm

/-- The children of a node, each with the depth it stands at. -/
def below (depth : ℕ) (children : List α) : List (α × ℕ) :=
  children.map fun child => (child, depth)

/-- The work that a worklist stands for. -/
def work (t : Shape α) (pending : List (α × ℕ)) : ℕ :=
  (pending.map fun entry => t.size entry.1).sum

section Work

variable {t : Shape α} {s : Schedule (α × ℕ)} {pending rest : List (α × ℕ)} {v : α} {d : ℕ}

theorem work_cons : work t ((v, d) :: rest) = t.size v + work t rest :=
  List.sum_cons

theorem work_arrange (h : s.arrange pending = (v, d) :: rest) :
    work t pending = t.size v + work t rest := by
  rw [← work_cons (d := d), ← h]
  exact ((s.perm pending).symm.map _).sum_eq

theorem work_rest (h : s.arrange pending = (v, d) :: rest) : work t rest < work t pending := by
  have hpos := t.size_pos v
  have hwork := work_arrange (t := t) h
  omega

theorem work_children {vs : List α} (h : s.arrange pending = (v, d) :: rest)
    (hv : t.children v = some vs) :
    work t (rest ++ below (d + 1) vs) < work t pending := by
  have hsize := t.size_node v vs hv
  have hwork := work_arrange (t := t) h
  have hchildren : work t (below (d + 1) vs) = (vs.map t.size).sum := by
    rw [work, below, List.map_map]
    rfl
  have happend : work t (rest ++ below (d + 1) vs) =
      work t rest + work t (below (d + 1) vs) := by
    rw [work, List.map_append, List.sum_append]
    rfl
  omega

end Work

/-- The loop over a worklist, with the greatest depth met so far. -/
def visit (t : Shape α) (s : Schedule (α × ℕ)) (limit : ℕ) (pending : List (α × ℕ))
    (maximum : ℕ) : ℕ :=
  match h : s.arrange pending with
  | [] => maximum
  | (current, depth) :: rest =>
    match hv : t.children current with
    | none => visit t s limit rest maximum
    | some children =>
      if limit < max maximum depth then max maximum depth
      else
        visit t s limit (rest ++ below (depth + 1) children) (max maximum depth)
termination_by work t pending
decreasing_by
  · exact work_rest h
  · exact work_children h hv

section Visit

variable {t : Shape α} {s : Schedule (α × ℕ)} {limit maximum d : ℕ}
  {pending rest : List (α × ℕ)} {v : α} {vs : List α}

theorem visit_nil (h : s.arrange pending = []) : visit t s limit pending maximum = maximum := by
  rw [visit]
  split
  · rfl
  · next hpending => rw [h] at hpending; cases hpending

theorem visit_leaf (h : s.arrange pending = (v, d) :: rest) (hv : t.children v = none) :
    visit t s limit pending maximum = visit t s limit rest maximum := by
  rw [visit]
  split
  · next hpending => rw [h] at hpending; cases hpending
  · next hpending =>
    rw [h] at hpending
    cases hpending
    split
    · rfl
    · next hsome => rw [hv] at hsome; cases hsome

theorem visit_node (h : s.arrange pending = (v, d) :: rest) (hv : t.children v = some vs) :
    visit t s limit pending maximum =
      if limit < max maximum d then max maximum d
      else visit t s limit (rest ++ below (d + 1) vs) (max maximum d) := by
  rw [visit]
  split
  · next hpending => rw [h] at hpending; cases hpending
  · next hpending =>
    rw [h] at hpending
    cases hpending
    split
    · next hnone => rw [hv] at hnone; cases hnone
    · next hsome =>
      rw [hv] at hsome
      cases hsome
      rfl

/-! ### The depth below a worklist -/

/-- The depth that an entry reaches to: none for a leaf. -/
def reach (t : Shape α) (entry : α × ℕ) : ℕ :=
  if t.depth entry.1 = 0 then 0 else entry.2 + t.depth entry.1 - 1

/-- The depth that a worklist reaches to. -/
def deepest (t : Shape α) (pending : List (α × ℕ)) : ℕ :=
  (pending.map (reach t)).foldr max 0

@[simp] theorem deepest_nil : deepest t [] = 0 :=
  rfl

theorem deepest_cons : deepest t ((v, d) :: rest) = max (reach t (v, d)) (deepest t rest) :=
  rfl

theorem deepest_append : deepest t (pending ++ rest) = max (deepest t pending) (deepest t rest) := by
  induction pending with
  | nil => rw [List.nil_append, deepest_nil, Nat.zero_max]
  | cons entry pending ih => rw [List.cons_append, deepest_cons, deepest_cons, ih, max_assoc]

theorem deepest_perm (h : pending.Perm rest) : deepest t pending = deepest t rest :=
  (h.map _).foldr_op_eq

theorem deepest_arrange (h : s.arrange pending = (v, d) :: rest) :
    deepest t pending = max (reach t (v, d)) (deepest t rest) := by
  rw [deepest_perm (s.perm pending).symm, h]
  rfl

theorem max_deepest_below :
    max d (deepest t (below (d + 1) vs)) = d + (vs.map t.depth).foldr max 0 := by
  induction vs with
  | nil => exact Nat.max_zero d
  | cons v vs ih =>
    have hreach : max d (reach t (v, d + 1)) = d + t.depth v := by
      unfold reach
      split <;> simp only at * <;> omega
    have hcons : deepest t (below (d + 1) (v :: vs)) =
        max (reach t (v, d + 1)) (deepest t (below (d + 1) vs)) := rfl
    rw [hcons, List.map_cons, List.foldr_cons]
    omega

theorem reach_leaf (hv : t.children v = none) : reach t (v, d) = 0 :=
  if_pos (t.depth_leaf v hv)

/-- A node reaches to the depth it stands at, or to where its children reach. -/
theorem reach_node (hv : t.children v = some vs) :
    reach t (v, d) = max d (deepest t (below (d + 1) vs)) := by
  have hdepth := t.depth_node v vs hv
  rw [max_deepest_below, reach, if_neg (by simp only; omega)]
  simp only
  omega

/-- The loop finds the depth that its worklist reaches to, up to the limit. -/
theorem visit_spec :
    (max maximum (deepest t pending) ≤ limit →
      visit t s limit pending maximum = max maximum (deepest t pending)) ∧
    (limit < visit t s limit pending maximum ↔ limit < max maximum (deepest t pending)) := by
  induction hwork : work t pending using Nat.strong_induction_on generalizing pending maximum with
  | _ n ih =>
    subst hwork
    cases hpending : s.arrange pending with
    | nil =>
      have hdeepest : deepest t pending = 0 := by
        rw [← deepest_perm (s.perm pending), hpending, deepest_nil]
      rw [visit_nil hpending, hdeepest, Nat.max_zero]
      exact ⟨fun _ => rfl, Iff.rfl⟩
    | cons entry rest =>
      obtain ⟨v, d⟩ := entry
      rw [deepest_arrange hpending]
      cases hv : t.children v with
      | none =>
        rw [visit_leaf hpending hv, reach_leaf hv, Nat.zero_max]
        exact ih _ (work_rest hpending) rfl
      | some vs =>
        have hchildren := @ih _ (work_children hpending hv) (max maximum d) _ rfl
        rw [deepest_append] at hchildren
        rw [visit_node hpending hv, reach_node hv]
        -- the early exit: the node itself stands deeper than the limit
        by_cases hexit : limit < max maximum d
        · rw [if_pos hexit]
          omega
        · rw [if_neg hexit]
          omega

/-- **The depth by a worklist**: from a root, the loop finds the depth of the tree up to the limit,
under every schedule. -/
theorem visit_root :
    (t.depth v ≤ limit → visit t s limit [(v, 1)] 0 = t.depth v) ∧
    (limit < visit t s limit [(v, 1)] 0 ↔ limit < t.depth v) := by
  have hroot : max 0 (deepest t [(v, 1)]) = t.depth v := by
    rw [deepest_cons, deepest_nil, Nat.max_zero, Nat.zero_max, reach]
    split <;> simp only at * <;> omega
  rw [← hroot]
  exact visit_spec

end Visit

end Worklist

end ControlPlaneKit
