import Mathlib.Data.List.Perm.Subperm
import ControlPlaneKit.Python.Sorted

/-!
# Equality of values is an equivalence

The comparison that containers apply to their elements (`Json.same`) is reflexive, symmetric and
transitive on the values of Python, whose objects have distinct keys. So a program that compares
values and looks members up gives the same for equal values.
-/

namespace ControlPlaneKit

namespace Json

section Same

variable {a b c : Json} {xs ys zs : List Json} {s : Text}

/-! ### Lists, element by element -/

theorem sameItems_iff : sameItems xs ys = true ↔ List.Forall₂ (fun x y => same x y = true) xs ys := by
  induction xs generalizing ys with
  | nil => cases ys <;> simp [sameItems]
  | cons x xs ih => cases ys <;> simp [sameItems, ih]

/-! ### Symmetry -/

theorem forall₂_symm {R : Json → Json → Prop} (h : List.Forall₂ R xs ys)
    (hR : ∀ x ∈ xs, ∀ y ∈ ys, R x y → R y x) : List.Forall₂ R ys xs := by
  induction h with
  | nil => exact .nil
  | cons hxy _ ih =>
    exact .cons (hR _ List.mem_cons_self _ List.mem_cons_self hxy)
      (ih fun x hx y hy => hR x (List.mem_cons_of_mem _ hx) y (List.mem_cons_of_mem _ hy))

theorem mem_of_lookup {ms : Fields} {k : Text} {v : Json} (h : ms.lookup k = some v) :
    (k, v) ∈ ms := by
  induction ms with
  | nil => cases h
  | cons m ms ih =>
    rw [List.lookup_cons] at h
    split at h
    · next hk =>
      cases h
      rw [eq_of_beq hk]
      exact List.mem_cons_self
    · exact List.mem_cons_of_mem _ (ih h)

/-- Where every key on the left is one on the right, and there are as many, the keys are the same. -/
theorem keys_perm {ms ns : Fields} (hm : Fields.IsDict ms) (hn : Fields.IsDict ns)
    (hlength : ms.length = ns.length) (h : sameMembers ms ns = true) :
    (ms.map (·.1)).Perm (ns.map (·.1)) := by
  have hsubset : ms.map (·.1) ⊆ ns.map (·.1) := by
    intro k hk
    obtain ⟨m, hm, rfl⟩ := List.mem_map.mp hk
    obtain ⟨y, hy, -⟩ := sameMembers_iff.mp h m hm
    exact List.mem_map.mpr ⟨(m.1, y), (Fields.lookup_eq_some_iff hn.nodup).mp hy, rfl⟩
  refine (List.Nodup.subperm hm.nodup hsubset).perm_of_length_le ?_
  rw [List.length_map, List.length_map, hlength]

theorem same_symm (ha : a.isDict = true) (hb : b.isDict = true) (h : same a b = true) :
    same b a = true := by
  induction a using Json.induct generalizing b with
  | null => cases b <;> simp_all [same, number?]
  | bool _ => cases b <;> simp_all [same, number?]
  | int _ => cases b <;> simp_all [same, number?]
  | float _ => cases b <;> simp_all [same, number?]
  | str _ => cases b <;> simp_all [same, number?]
  | arr items ih =>
    cases b with
    | arr items' =>
      rw [isDict_arr, List.all_eq_true] at ha hb
      rw [same, sameItems_iff] at h ⊢
      exact forall₂_symm h fun x hx y hy hxy => ih x hx (ha x hx) (hb y hy) hxy
    | _ => simp [same, number?] at h
  | obj members ih =>
    cases b with
    | obj members' =>
      rw [same, Bool.and_eq_true, beq_iff_eq] at h
      rw [same, Bool.and_eq_true, beq_iff_eq]
      refine ⟨h.1.symm, sameMembers_iff.mpr fun m hm => ?_⟩
      have hkey : m.1 ∈ members.map (·.1) :=
        (keys_perm ha hb h.1 h.2).mem_iff.mpr (List.mem_map_of_mem hm)
      obtain ⟨m', hm', hkeys⟩ := List.mem_map.mp hkey
      obtain ⟨y, hy, hsame⟩ := sameMembers_iff.mp h.2 m' hm'
      rw [hkeys, (Fields.lookup_eq_some_iff (Fields.IsDict.nodup hb)).mpr hm] at hy
      cases hy
      refine ⟨m'.2, ?_, ih m' hm' (Fields.IsDict.value ha hm') (Fields.IsDict.value hb hm) hsame⟩
      rw [← hkeys]
      exact (Fields.lookup_eq_some_iff (Fields.IsDict.nodup ha)).mpr hm'
    | _ => simp [same, number?] at h

/-! ### Transitivity -/

theorem forall₂_trans {R : Json → Json → Prop} (h : List.Forall₂ R xs ys) (h' : List.Forall₂ R ys zs)
    (hR : ∀ x ∈ xs, ∀ y z, R x y → R y z → R x z) : List.Forall₂ R xs zs := by
  induction h generalizing zs with
  | nil =>
    cases h'
    exact .nil
  | cons hxy _ ih =>
    cases h' with
    | cons hyz h' =>
      exact .cons (hR _ List.mem_cons_self _ _ hxy hyz)
        (ih h' fun x hx => hR x (List.mem_cons_of_mem _ hx))

theorem same_trans (hab : same a b = true) (hbc : same b c = true) : same a c = true := by
  induction a using Json.induct generalizing b c with
  | null => cases b <;> cases c <;> simp_all [same, number?]
  | bool _ => cases b <;> cases c <;> simp_all [same, number?]
  | int _ => cases b <;> cases c <;> simp_all [same, number?]
  | float _ => cases b <;> cases c <;> simp_all [same, number?]
  | str _ => cases b <;> cases c <;> simp_all [same, number?]
  | arr items ih =>
    cases b with
    | arr items' =>
      cases c with
      | arr items'' =>
        rw [same, sameItems_iff] at hab hbc ⊢
        exact forall₂_trans hab hbc fun x hx y z hxy hyz => ih x hx hxy hyz
      | _ => simp [same, number?] at hbc
    | _ => simp [same, number?] at hab
  | obj members ih =>
    cases b with
    | obj members' =>
      cases c with
      | obj members'' =>
        rw [same, Bool.and_eq_true, beq_iff_eq] at hab hbc ⊢
        refine ⟨hab.1.trans hbc.1, sameMembers_iff.mpr fun m hm => ?_⟩
        obtain ⟨y, hy, hxy⟩ := sameMembers_iff.mp hab.2 m hm
        obtain ⟨z, hz, hyz⟩ := sameMembers_iff.mp hbc.2 (m.1, y) (mem_of_lookup hy)
        exact ⟨z, hz, ih m hm hxy hyz⟩
      | _ => simp [same, number?] at hbc
    | _ => simp [same, number?] at hab

/-! ### What a program sees of equal values -/

/-- What equals a string is the string. -/
theorem same_str : same (.str s) b = true ↔ b = .str s := by
  cases b with
  | str t => rw [same, beq_iff_eq, Json.str.injEq, eq_comm]
  | _ => simp [same, number?]

theorem same_get {ms ns : Fields} (hm : Fields.IsDict ms) (hn : Fields.IsDict ns) {name : String}
    (h : same (.obj ms) (.obj ns) = true) : same (ms.get name) (ns.get name) = true := by
  rw [same, Bool.and_eq_true, beq_iff_eq] at h
  rw [Fields.get, Fields.get]
  cases hx : ms.lookup (.utf8 name) with
  | some x =>
    obtain ⟨y, hy, hsame⟩ := sameMembers_iff.mp h.2 _ (mem_of_lookup hx)
    rw [hy]
    exact hsame
  | none =>
    cases hy : ns.lookup (.utf8 name) with
    | none => rfl
    | some y =>
      have hkey : Text.utf8 name ∈ ms.map (·.1) :=
        (keys_perm hm hn h.1 h.2).mem_iff.mpr (List.mem_map_of_mem (mem_of_lookup hy))
      obtain ⟨m, hmem, hname⟩ := List.mem_map.mp hkey
      rw [← hname, (Fields.lookup_eq_some_iff hm.nodup).mpr hmem] at hx
      cases hx

/-- Values of Python that are equal inside a container. -/
structure Alike (a b : Json) : Prop where
  left : a.isDict = true
  right : b.isDict = true
  same : a.same b = true

theorem Alike.refl (h : a.isDict = true) : Alike a a :=
  ⟨h, h, same_self h⟩

theorem Alike.symm (h : Alike a b) : Alike b a :=
  ⟨h.right, h.left, same_symm h.left h.right h.same⟩

theorem Alike.trans (h : Alike a b) (h' : Alike b c) : Alike a c :=
  ⟨h.left, h'.right, same_trans h.same h'.same⟩

theorem forall₂_alike (hx : ∀ x ∈ xs, x.isDict = true) (hy : ∀ y ∈ ys, y.isDict = true)
    (h : sameItems xs ys = true) : List.Forall₂ Alike xs ys := by
  rw [sameItems_iff] at h
  induction h with
  | nil => exact .nil
  | cons hxy _ ih =>
    rw [List.forall_mem_cons] at hx hy
    exact .cons ⟨hx.1, hy.1, hxy⟩ (ih hx.2 hy.2)

theorem sameItems_symm (hx : ∀ x ∈ xs, x.isDict = true) (hy : ∀ y ∈ ys, y.isDict = true)
    (h : sameItems xs ys = true) : sameItems ys xs = true := by
  rw [sameItems_iff] at h ⊢
  exact forall₂_symm h fun x hx' y hy' => same_symm (hx x hx') (hy y hy')

theorem sameItems_trans (h : sameItems xs ys = true) (h' : sameItems ys zs = true) :
    sameItems xs zs = true := by
  rw [sameItems_iff] at h h' ⊢
  exact forall₂_trans h h' fun _ _ _ _ => same_trans

/-- Comparisons do not tell alike values apart. -/
theorem Alike.pyEq (h : Alike a b) : c.pyEq a = c.pyEq b := by
  have hsame : c.same a = c.same b := by
    rw [Bool.eq_iff_iff]
    exact ⟨fun hca => same_trans hca h.same, fun hcb => same_trans hcb h.symm.same⟩
  cases c with
  | float x => cases x <;> first | exact hsame | rfl
  | _ => exact hsame

theorem Alike.str (h : Alike (.str s) b) : b = .str s :=
  same_str.mp h.same

theorem Alike.pyEq_str (h : Alike a b) : a.pyEq (.str s) = b.pyEq (.str s) := by
  rw [Bool.eq_iff_iff, Json.pyEq_str, Json.pyEq_str]
  constructor
  · rintro rfl
    exact h.str
  · rintro rfl
    exact h.symm.str

theorem Alike.obj {ms : Fields} (h : Alike (.obj ms) b) : ∃ ns, b = .obj ns := by
  obtain ⟨-, -, hsame⟩ := h
  cases b with
  | obj ns => exact ⟨ns, rfl⟩
  | _ => simp [Json.same, number?] at hsame

theorem Alike.arr (h : Alike (.arr xs) b) : ∃ ys, b = .arr ys ∧ List.Forall₂ Alike xs ys := by
  obtain ⟨hx, hy, hsame⟩ := h
  cases b with
  | arr ys =>
    rw [isDict_arr, List.all_eq_true] at hx hy
    rw [Json.same] at hsame
    exact ⟨ys, rfl, forall₂_alike hx hy hsame⟩
  | _ => simp [Json.same, number?] at hsame

theorem Alike.get {ms ns : Fields} (h : Alike (.obj ms) (.obj ns)) (name : String) :
    Alike (ms.get name) (ns.get name) :=
  ⟨Fields.IsDict.get h.left, Fields.IsDict.get h.right, same_get h.left h.right h.same⟩

/-- The members of a value, where `isinstance(value, dict)`. -/
def members? : Json → Option Fields
  | .obj members => some members
  | _ => none

/-- Alike values are both objects or both none. -/
theorem Alike.any_members (h : Alike a b) {p q : Fields → Bool}
    (hpq : ∀ ms ns, Alike (.obj ms) (.obj ns) → p ms = q ns) :
    a.members?.any p = b.members?.any q := by
  cases a with
  | obj ms =>
    obtain ⟨ns, rfl⟩ := h.obj
    exact hpq ms ns h
  | _ =>
    cases b with
    | obj ns =>
      obtain ⟨ms, hms⟩ := h.symm.obj
      cases hms
    | _ => rfl

end Same

end Json

end ControlPlaneKit
