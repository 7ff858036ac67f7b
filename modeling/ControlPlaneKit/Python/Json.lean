import Mathlib.Data.List.Basic
import Mathlib.Data.Rat.Defs

/-!
# Python values decoded from JSON

The values `json.loads` produces, with the comparisons the client makes on them. Three points of
Python matter here and are kept:

* a `str` may hold a lone surrogate (from an escape), which no UTF-8 encoder accepts: `Text`
  separates those strings from the encodable ones;
* `==` compares numbers by value across `bool`, `int` and `float`, and a NaN is unequal to
  itself unless it is the same object inside a container (`json.loads` shares one NaN object);
* membership in a set of strings hashes the value first, so a list or an object raises
  `TypeError` (`Json.memberOf` returns `none` there).
-/

namespace ControlPlaneKit

/-- A Python `str`: either encodable as UTF-8, or holding a lone surrogate. -/
inductive Text where
  | utf8 (s : String)
  | surrogate (codes : List Nat)
deriving DecidableEq

instance : Coe String Text := ⟨.utf8⟩

/-- The values of a Python `float`: a finite one is kept as the rational it denotes. -/
inductive Float64 where
  | finite (q : ℚ)
  | infinite (negative : Bool)
  | nan
deriving DecidableEq

/-- A value decoded from JSON. Objects keep their members in document order. -/
inductive Json where
  | null
  | bool (b : Bool)
  | int (n : Int)
  | float (x : Float64)
  | str (s : Text)
  | arr (items : List Json)
  | obj (members : List (Text × Json))

/-- The members of a JSON object: a Python `dict` with string keys. -/
abbrev Fields := List (Text × Json)

namespace Json

/-- The numeric value of a `bool`, `int` or `float`. -/
def number? : Json → Option Float64
  | .bool b => some (.finite (if b then 1 else 0))
  | .int n => some (.finite n)
  | .float x => some x
  | _ => none

mutual

/-- Equality as containers apply it to their elements: identical objects are equal. -/
def same : Json → Json → Bool
  | .null, .null => true
  | .str a, .str b => a == b
  | .arr xs, .arr ys => sameItems xs ys
  | .obj xs, .obj ys => xs.length == ys.length && sameMembers xs ys
  | a, b =>
    match a.number?, b.number? with
    | some x, some y => x == y
    | _, _ => false

/-- Elementwise equality of lists. -/
def sameItems : List Json → List Json → Bool
  | [], [] => true
  | x :: xs, y :: ys => same x y && sameItems xs ys
  | _, _ => false

/-- Every member on the left has an equal one on the right, in any order. -/
def sameMembers : List (Text × Json) → List (Text × Json) → Bool
  | [], _ => true
  | (k, x) :: xs, ys =>
    (match ys.lookup k with
      | some y => same x y
      | none => false) && sameMembers xs ys

end

/-- Python's `==`. -/
def pyEq (a b : Json) : Bool :=
  match a with
  | .float .nan => false
  | _ => same a b

/-- `value in {names...}` for a set of strings; `none` where hashing the value raises. -/
def memberOf (names : List String) : Json → Option Bool
  | .arr _ => none
  | .obj _ => none
  | v => some (names.any fun n => v.pyEq (.str n))

/-- `n <= value` for an integer `n`; `none` where the comparison raises. -/
def atLeast (n : Int) (v : Json) : Option Bool :=
  match v.number? with
  | some (.finite q) => some (decide ((n : ℚ) ≤ q))
  | some (.infinite negative) => some !negative
  | some .nan => some false
  | none => none

/-- Equality with a string is equality. -/
theorem pyEq_str {v : Json} {s : Text} : v.pyEq (.str s) = true ↔ v = .str s := by
  cases v with
  | float x => cases x <;> simp [pyEq, same, number?]
  | _ => simp [pyEq, same, number?]

/-- Only a string belongs to a set of strings. -/
theorem memberOf_eq_some_true {names : List String} {v : Json} (h : memberOf names v = some true) :
    ∃ n ∈ names, v = .str n := by
  have hany : ∀ {w : Json}, some (names.any fun n => w.pyEq (.str n)) = some true →
      ∃ n ∈ names, w = .str n := by
    intro w hw
    obtain ⟨n, hn, heq⟩ := List.any_eq_true.mp (Option.some.inj hw)
    exact ⟨n, hn, pyEq_str.mp heq⟩
  unfold memberOf at h
  split at h
  · cases h
  · cases h
  · exact hany h

/-- Equality with `None` is equality. -/
theorem pyEq_null {v : Json} : v.pyEq .null = true ↔ v = .null := by
  cases v with
  | float x => cases x <;> simp [pyEq, same, number?]
  | _ => simp [pyEq, same, number?]

/-- Two integers are equal as Python values when they are the same integer. -/
theorem pyEq_int {m n : Int} : (Json.int m).pyEq (.int n) = true ↔ m = n := by
  simp [pyEq, same, number?]

mutual

/-- How deep the containers of a value nest, which is how deep an encoder recurses on it. -/
def depth : Json → Nat
  | .arr items => depthItems items + 1
  | .obj members => depthMembers members + 1
  | _ => 0

/-- The depth of the items. -/
def depthItems : List Json → Nat
  | [] => 0
  | x :: xs => max (depth x) (depthItems xs)

/-- The depth of the members. -/
def depthMembers : List (Text × Json) → Nat
  | [] => 0
  | (_, x) :: xs => max (depth x) (depthMembers xs)

end

theorem depth_obj_le {members : List (Text × Json)} {n : Nat} :
    (Json.obj members).depth ≤ n + 1 ↔ ∀ m ∈ members, m.2.depth ≤ n := by
  rw [depth, Nat.add_le_add_iff_right]
  induction members with
  | nil => simp [depthMembers]
  | cons m members ih =>
    rw [depthMembers, Nat.max_le, ih]
    simp

/-- The order of the members does not matter. -/
theorem depth_obj_of_perm {a b : List (Text × Json)} (h : a.Perm b) :
    (Json.obj a).depth = (Json.obj b).depth := by
  rw [depth, depth, Nat.add_right_cancel_iff]
  induction h with
  | nil => rfl
  | cons m _ ih => rw [depthMembers, depthMembers, ih]
  | swap m m' l => rw [depthMembers, depthMembers, depthMembers, depthMembers, Nat.max_left_comm]
  | trans _ _ ih ih' => exact ih.trans ih'

end Json

namespace Fields

/-- `members.get(name)`: absent members read as `None`. -/
def get (members : Fields) (name : String) : Json :=
  (members.lookup (.utf8 name)).getD .null

/-- `name in members`. -/
def has (members : Fields) (name : String) : Bool :=
  (members.lookup (.utf8 name)).isSome

/-- `members.pop(name, None)`, keeping the remaining members. -/
def pop (members : Fields) (name : String) : Fields :=
  members.filter fun m => m.1 != .utf8 name

/-- `members[name] = value`. -/
def set (members : Fields) (name : String) (value : Json) : Fields :=
  pop members name ++ [(.utf8 name, value)]

/-- Equality of two `dict`s: the same value under every key. -/
def Same (a b : Fields) : Prop :=
  ∀ k, List.lookup k a = List.lookup k b

/-- The keys of the object are exactly `names`, as sets. -/
def keysAre (members : Fields) (names : List String) : Bool :=
  members.all (fun m => names.any fun n => m.1 == .utf8 n) && names.all fun n => members.has n

theorem has_of_get {members : Fields} {name : String} {v : Json} (h : members.get name = v)
    (hv : v ≠ .null) : members.has name = true := by
  rw [get] at h
  rw [has]
  cases hlookup : List.lookup (.utf8 name) members with
  | some w => rfl
  | none =>
    rw [hlookup] at h
    exact absurd h.symm hv

@[simp]
theorem get_nil (name : String) : get [] name = .null :=
  rfl

@[simp]
theorem get_cons (key name : String) (v : Json) (members : Fields) :
    get ((.utf8 key, v) :: members) name = if name = key then v else get members name := by
  by_cases h : name = key
  · simp [get, h]
  · have hne : (Text.utf8 name == Text.utf8 key) = false := by simpa using h
    simp [get, List.lookup_cons, hne, h]

@[simp]
theorem has_nil (name : String) : has [] name = false :=
  rfl

@[simp]
theorem has_cons (key name : String) (v : Json) (members : Fields) :
    has ((.utf8 key, v) :: members) name = (name == key || has members name) := by
  by_cases h : name = key
  · simp [has, h]
  · have hne : (Text.utf8 name == Text.utf8 key) = false := by simpa using h
    have hne' : (name == key) = false := by simpa using h
    simp [has, List.lookup_cons, hne, hne']

theorem Same.refl (a : Fields) : Same a a :=
  fun _ => rfl

theorem Same.symm {a b : Fields} (h : Same a b) : Same b a :=
  fun k => (h k).symm

theorem Same.trans {a b c : Fields} (h : Same a b) (h' : Same b c) : Same a c :=
  fun k => (h k).trans (h' k)

theorem Same.get {a b : Fields} (h : Same a b) (name : String) : a.get name = b.get name := by
  simp only [Fields.get, h _]

theorem lookup_pop_self (a : Fields) (name : String) :
    List.lookup (.utf8 name) (a.pop name) = none := by
  simp only [pop, List.lookup_eq_none_iff, List.mem_filter, bne_iff_ne]
  rintro m ⟨-, hm⟩
  simpa using Ne.symm hm

theorem lookup_pop_of_ne (a : Fields) {name : String} {k : Text} (hk : k ≠ .utf8 name) :
    List.lookup k (a.pop name) = List.lookup k a := by
  induction a with
  | nil => rfl
  | cons m a ih =>
    obtain ⟨k', v⟩ := m
    by_cases hm : k' = .utf8 name
    · have hne : (k == k') = false := by simpa [hm] using hk
      rw [List.lookup_cons, hne, ← ih]
      simp [pop, hm]
    · have hkeep : pop ((k', v) :: a) name = (k', v) :: pop a name := by simp [pop, hm]
      rw [hkeep, List.lookup_cons, List.lookup_cons, ih]

/-- Removing a member and setting it again restores it. -/
theorem same_set_pop {a : Fields} {name : String} {v : Json}
    (h : List.lookup (.utf8 name) a = some v) : Same a ((a.pop name).set name v) := by
  intro k
  have hpop : (a.pop name).pop name = a.pop name := by simp [pop]
  rw [set, hpop, List.lookup_append]
  by_cases hk : k = .utf8 name
  · subst hk
    simp [lookup_pop_self, h]
  · have hne : (k == Text.utf8 name) = false := by simpa using hk
    simp [lookup_pop_of_ne a hk, List.lookup_cons, hne]

end Fields

end ControlPlaneKit
