import ControlPlaneKit.Python.Worklist
import ControlPlaneKit.Server.Boundary

/-!
# The nesting of a JSON value by a worklist

`_json_nesting` computes by a stack and an early exit what the boundary's `nesting` computes by
recursion, up to the bound that the boundary compares it with (`jsonNesting_eq_nesting`).
-/

namespace ControlPlaneKit

namespace Server

/-- The values of a mapping or a list; none for a scalar. -/
def containedValues : Json → Option (List Json)
  | .arr items => some items
  | .obj members => some (members.map Prod.snd)
  | _ => none

mutual

/-- The number of values in a value, itself included. -/
def valueCount : Json → ℕ
  | .arr items => valueCountItems items + 1
  | .obj members => valueCountMembers members + 1
  | _ => 1

/-- The number of values in the items. -/
def valueCountItems : List Json → ℕ
  | [] => 0
  | x :: xs => valueCount x + valueCountItems xs

/-- The number of values in the members. -/
def valueCountMembers : List (Text × Json) → ℕ
  | [] => 0
  | (_, x) :: xs => valueCount x + valueCountMembers xs

end

theorem valueCountItems_eq (items : List Json) :
    valueCountItems items = (items.map valueCount).sum := by
  induction items with
  | nil => rfl
  | cons v items ih => rw [valueCountItems, ih, List.map_cons, List.sum_cons]

theorem valueCountMembers_eq (members : Fields) :
    valueCountMembers members = ((members.map Prod.snd).map valueCount).sum := by
  induction members with
  | nil => rfl
  | cons m members ih =>
    rw [valueCountMembers, ih, List.map_cons, List.map_cons, List.sum_cons]

theorem nestingItems_eq (items : List Json) :
    nestingItems items = (items.map nesting).foldr max 0 := by
  induction items with
  | nil => rfl
  | cons v items ih => rw [nestingItems, ih, List.map_cons, List.foldr_cons]

theorem nestingMembers_eq (members : Fields) :
    nestingMembers members = ((members.map Prod.snd).map nesting).foldr max 0 := by
  induction members with
  | nil => rfl
  | cons m members ih => rw [nestingMembers, ih, List.map_cons, List.map_cons, List.foldr_cons]

section Shape

variable {value : Json} {children : List Json}

theorem nesting_scalar (h : containedValues value = none) : nesting value = 0 := by
  cases value with
  | arr items => cases h
  | obj members => cases h
  | _ => rfl

theorem nesting_container (h : containedValues value = some children) :
    nesting value = (children.map nesting).foldr max 0 + 1 := by
  cases value with
  | arr items =>
    obtain rfl := Option.some.inj h
    rw [nesting, nestingItems_eq]
  | obj members =>
    obtain rfl := Option.some.inj h
    rw [nesting, nestingMembers_eq]
  | _ => cases h

theorem valueCount_pos : 0 < valueCount value := by
  cases value with
  | arr items => exact Nat.succ_pos _
  | obj members => exact Nat.succ_pos _
  | _ => exact Nat.one_pos

theorem valueCount_container (h : containedValues value = some children) :
    (children.map valueCount).sum < valueCount value := by
  cases value with
  | arr items =>
    obtain rfl := Option.some.inj h
    rw [valueCount, valueCountItems_eq]
    exact Nat.lt_succ_self _
  | obj members =>
    obtain rfl := Option.some.inj h
    rw [valueCount, valueCountMembers_eq]
    exact Nat.lt_succ_self _
  | _ => cases h

end Shape

/-- JSON values as trees. -/
def jsonShape : Worklist.Shape Json where
  children := containedValues
  depth := nesting
  size := valueCount
  depth_leaf _ := nesting_scalar
  depth_node _ _ := nesting_container
  size_pos _ := valueCount_pos
  size_node _ _ := valueCount_container

/-- `_json_nesting`, whose `pending` is a worklist under the given schedule: the source extends it
and pops from it at its end, which is `Schedule.popLast`. -/
def jsonNesting (schedule : Worklist.Schedule (Json × ℕ)) (value : Json) : ℕ :=
  Worklist.visit jsonShape schedule 64 [(value, 1)] 0

/-- **The worklist and the recursion agree** up to the bound, in whatever order the children are
visited. -/
theorem jsonNesting_eq_nesting (schedule : Worklist.Schedule (Json × ℕ)) (value : Json) :
    (nesting value ≤ 64 → jsonNesting schedule value = nesting value) ∧
      (64 < jsonNesting schedule value ↔ 64 < nesting value) :=
  Worklist.visit_root (t := jsonShape) (v := value)

end Server

end ControlPlaneKit
