import ControlPlaneKit.Python.Dumps

/-!
# Objects up to the order of their members

What a program can see of a `dict` does not depend on the order of its members: lookups, comparisons
and tests over all members give the same for a value and for the value with its members sorted.
-/

namespace ControlPlaneKit

namespace Fields

/-- The members with their values sorted inside, sorted by their keys. -/
def sorted (members : Fields) : Fields :=
  (members.map fun m => (m.1, m.2.sorted)).mergeSort fun a b => a.1.le b.1

/-- The keys are distinct, and so are those of every object among the values. -/
def IsDict (members : Fields) : Prop :=
  (Json.obj members).isDict = true

section Sorted

variable {members : Fields} {name : String} {names : List String} {k : Text}

theorem IsDict.nodup (h : IsDict members) : (members.map (·.1)).Nodup := by
  rw [IsDict, Json.isDict_obj, Bool.and_eq_true, decide_eq_true_eq] at h
  exact h.1

theorem IsDict.value (h : IsDict members) {m : Text × Json} (hm : m ∈ members) :
    m.2.isDict = true := by
  rw [IsDict, Json.isDict_obj, Bool.and_eq_true, List.all_eq_true] at h
  exact h.2 m hm

theorem sorted_perm (members : Fields) :
    (sorted members).Perm (members.map fun m => (m.1, m.2.sorted)) :=
  List.mergeSort_perm _ _

/-- With distinct keys, looking a key up is membership. -/
theorem lookup_eq_some_iff (h : (members.map (·.1)).Nodup) {v : Json} :
    members.lookup k = some v ↔ (k, v) ∈ members := by
  induction members with
  | nil => simp
  | cons m ms ih =>
    obtain ⟨key, x⟩ := m
    rw [List.map_cons, List.nodup_cons] at h
    by_cases hk : k = key
    · subst hk
      have hfresh : (k, v) ∉ ms := fun hmem => h.1 (List.mem_map.mpr ⟨(k, v), hmem, rfl⟩)
      rw [List.lookup_cons, beq_self_eq_true]
      constructor
      · intro hv
        cases hv
        exact List.mem_cons_self
      · intro hmem
        rcases List.mem_cons.mp hmem with heq | hmem
        · cases heq
          rfl
        · exact absurd hmem hfresh
    · have hne : (k == key) = false := by simpa using hk
      rw [List.lookup_cons, hne, ih h.2, List.mem_cons]
      simp [hk]

/-- Sorting moves lookups inside. -/
theorem lookup_sorted (h : IsDict members) :
    (sorted members).lookup k = (members.lookup k).map Json.sorted := by
  have hkeys : ((sorted members).map (·.1)).Nodup := by
    rw [((sorted_perm members).map _).nodup_iff, List.map_map]
    exact h.nodup
  refine Option.ext fun v => ?_
  rw [lookup_eq_some_iff hkeys, (sorted_perm members).mem_iff, List.mem_map, Option.map_eq_some_iff]
  constructor
  · rintro ⟨m, hm, heq⟩
    cases heq
    exact ⟨m.2, (lookup_eq_some_iff h.nodup).mpr hm, rfl⟩
  · rintro ⟨x, hx, rfl⟩
    exact ⟨(k, x), (lookup_eq_some_iff h.nodup).mp hx, rfl⟩

@[simp]
theorem get_sorted (h : IsDict members) : (sorted members).get name = (members.get name).sorted := by
  rw [get, get, lookup_sorted h]
  cases members.lookup (.utf8 name) <;> rfl

@[simp]
theorem has_sorted (h : IsDict members) : (sorted members).has name = members.has name := by
  rw [has, has, lookup_sorted h, Option.isSome_map]

/-- A test of all members. -/
theorem all_sorted {p : Text × Json → Bool} :
    (sorted members).all p = members.all fun m => p (m.1, m.2.sorted) := by
  rw [Bool.eq_iff_iff, List.all_eq_true, List.all_eq_true]
  constructor
  · exact fun h m hm => h _ ((sorted_perm members).mem_iff.mpr (List.mem_map_of_mem hm))
  · intro h m hm
    obtain ⟨m', hm', rfl⟩ := List.mem_map.mp ((sorted_perm members).mem_iff.mp hm)
    exact h m' hm'

@[simp]
theorem keysAre_sorted (h : IsDict members) :
    (sorted members).keysAre names = members.keysAre names := by
  simp only [keysAre, all_sorted, has_sorted h]

@[simp]
theorem isEmpty_sorted : (sorted members).isEmpty = members.isEmpty := by
  rw [Bool.eq_iff_iff, List.isEmpty_iff, List.isEmpty_iff]
  constructor
  · intro h
    have hperm := sorted_perm members
    rw [h, List.nil_perm, List.map_eq_nil_iff] at hperm
    exact hperm
  · rintro rfl
    rw [sorted, List.map_nil, List.mergeSort_nil]

/-- The value under a key. -/
theorem IsDict.get (h : IsDict members) : (members.get name).isDict = true := by
  rw [Fields.get]
  cases hlookup : members.lookup (.utf8 name) with
  | none => rfl
  | some v => exact h.value ((lookup_eq_some_iff h.nodup).mp hlookup)

end Sorted

end Fields

namespace Json

theorem sorted_obj' (members : Fields) : sorted (.obj members) = .obj (Fields.sorted members) :=
  sorted_obj members

theorem sameMembers_iff {xs ys : Fields} : sameMembers xs ys = true ↔
    ∀ m ∈ xs, ∃ y, ys.lookup m.1 = some y ∧ same m.2 y = true := by
  induction xs with
  | nil => simp [sameMembers]
  | cons m ms ih =>
    obtain ⟨k, x⟩ := m
    rw [sameMembers, Bool.and_eq_true, ih, List.forall_mem_cons]
    refine and_congr_left fun _ => ?_
    cases ys.lookup k <;> simp

theorem sameItems_sorted {xs ys : List Json}
    (h : ∀ x ∈ xs, ∀ y ∈ ys, same x.sorted y.sorted = same x y) :
    sameItems (xs.map sorted) (ys.map sorted) = sameItems xs ys := by
  induction xs generalizing ys with
  | nil => cases ys <;> rfl
  | cons x xs ih =>
    cases ys with
    | nil => rfl
    | cons y ys =>
      rw [List.map_cons, List.map_cons, sameItems, sameItems, h x List.mem_cons_self y
        List.mem_cons_self, ih fun a ha b hb => h a (List.mem_cons_of_mem _ ha) b
          (List.mem_cons_of_mem _ hb)]

/-- Comparisons do not see the order of the members. -/
theorem same_sorted {a b : Json} (ha : a.isDict = true) (hb : b.isDict = true) :
    same a.sorted b.sorted = same a b := by
  induction a using Json.induct generalizing b with
  | null => cases b <;> simp [sorted, same, number?]
  | bool _ => cases b <;> simp [sorted, same, number?]
  | int _ => cases b <;> simp [sorted, same, number?]
  | float _ => cases b <;> simp [sorted, same, number?]
  | str _ => cases b <;> simp [sorted, same, number?]
  | arr items ih =>
    cases b with
    | arr items' =>
      rw [isDict_arr, List.all_eq_true] at ha hb
      rw [sorted_arr, sorted_arr, same, same]
      exact sameItems_sorted fun x hx y hy => ih x hx (ha x hx) (hb y hy)
    | _ => simp [sorted, same, number?]
  | obj members ih =>
    cases b with
    | obj members' =>
      have hlength : ∀ ms : Fields, (Fields.sorted ms).length = ms.length := fun ms => by
        rw [(Fields.sorted_perm ms).length_eq, List.length_map]
      -- equal dicts have equal values under each key, in whatever order
      have hmembers : sameMembers (Fields.sorted members) (Fields.sorted members') =
          sameMembers members members' := by
        rw [Bool.eq_iff_iff, sameMembers_iff, sameMembers_iff]
        constructor
        · intro h m hm
          obtain ⟨y, hy, hsame⟩ := h (m.1, m.2.sorted)
            ((Fields.sorted_perm members).mem_iff.mpr (List.mem_map_of_mem hm))
          rw [Fields.lookup_sorted hb, Option.map_eq_some_iff] at hy
          obtain ⟨x, hx, rfl⟩ := hy
          have hdict := Fields.IsDict.value hb ((Fields.lookup_eq_some_iff
            (Fields.IsDict.nodup hb)).mp hx)
          rw [ih m hm (Fields.IsDict.value ha hm) hdict] at hsame
          exact ⟨x, hx, hsame⟩
        · intro h m hm
          obtain ⟨m', hm', rfl⟩ := List.mem_map.mp ((Fields.sorted_perm members).mem_iff.mp hm)
          obtain ⟨y, hy, hsame⟩ := h m' hm'
          have hdict := Fields.IsDict.value hb ((Fields.lookup_eq_some_iff
            (Fields.IsDict.nodup hb)).mp hy)
          rw [← ih m' hm' (Fields.IsDict.value ha hm') hdict] at hsame
          refine ⟨y.sorted, ?_, hsame⟩
          rw [Fields.lookup_sorted hb, hy]
          rfl
      rw [sorted_obj', sorted_obj', same, same, hlength, hlength, hmembers]
    | _ => simp [sorted, same, number?]

/-- Python's `==` does not see the order of the members. -/
theorem pyEq_sorted {a b : Json} (ha : a.isDict = true) (hb : b.isDict = true) :
    a.sorted.pyEq b.sorted = a.pyEq b := by
  have hsame := same_sorted ha hb
  cases a with
  | arr items =>
    rw [sorted_arr] at hsame ⊢
    exact hsame
  | obj members =>
    rw [sorted_obj'] at hsame ⊢
    exact hsame
  | float x => cases x <;> first | exact hsame | rfl
  | _ => exact hsame

/-- A value is the same as itself, NaN included. -/
theorem same_self {a : Json} (ha : a.isDict = true) : same a a = true := by
  induction a using Json.induct with
  | null => rfl
  | bool b => simp [same, number?]
  | int n => simp [same, number?]
  | float x => simp [same, number?]
  | str s => simp [same]
  | arr items ih =>
    rw [isDict_arr, List.all_eq_true] at ha
    have hitems : ∀ xs : List Json, (∀ x ∈ xs, same x x = true) → sameItems xs xs = true := by
      intro xs h
      induction xs with
      | nil => rfl
      | cons x xs hxs =>
        rw [sameItems, h x List.mem_cons_self,
          hxs fun y hy => h y (List.mem_cons_of_mem _ hy)]
        rfl
    rw [same]
    exact hitems items fun x hx => ih x hx (ha x hx)
  | obj members ih =>
    rw [same, beq_self_eq_true, Bool.true_and, sameMembers_iff]
    exact fun m hm => ⟨m.2, (Fields.lookup_eq_some_iff (Fields.IsDict.nodup ha)).mpr hm,
      ih m hm (Fields.IsDict.value ha hm)⟩

/-- An object and the object with its members sorted are equal. -/
theorem obj_sorted_pyEq {members : Fields} (h : Fields.IsDict members) :
    (Json.obj members).sorted.pyEq (.obj members) = true := by
  have hsame : same (Json.obj members).sorted (.obj members) = true := by
    have hlength : (Fields.sorted members).length = members.length := by
      rw [(Fields.sorted_perm members).length_eq, List.length_map]
    rw [sorted_obj', same, hlength, beq_self_eq_true, Bool.true_and, sameMembers_iff]
    intro m hm
    obtain ⟨m', hm', rfl⟩ := List.mem_map.mp ((Fields.sorted_perm members).mem_iff.mp hm)
    refine ⟨m'.2, (Fields.lookup_eq_some_iff h.nodup).mpr hm', ?_⟩
    have hvalue := h.value hm'
    have hself := same_sorted (isDict_sorted hvalue) hvalue
    rw [sorted_sorted, same_self (isDict_sorted hvalue)] at hself
    exact hself.symm
  exact hsame

end Json

end ControlPlaneKit
