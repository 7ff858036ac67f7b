import ControlPlaneKit.Python.Sorted
import ControlPlaneKit.Client.Reading

/-!
# The validator and the order of members

`json.dumps` sorts the members of a document, so the document that is read back is the one that was
written up to their order. No check of the validator sees that order.
-/

namespace ControlPlaneKit

namespace Client

open Fields (IsDict)

/-! ### Values -/

section Values

variable {v a b : Json} {ref : OperationRef} {members : Fields}

@[simp]
theorem membersOf_sorted (v : Json) : membersOf v.sorted = Fields.sorted (membersOf v) := by
  have hnil : Fields.sorted [] = [] := by rw [Fields.sorted, List.map_nil, List.mergeSort_nil]
  cases v with
  | obj members => rw [Json.sorted_obj']; rfl
  | arr items => rw [Json.sorted_arr]; exact hnil.symm
  | _ => exact hnil.symm

theorem isDict_membersOf (h : v.isDict = true) : IsDict (membersOf v) := by
  cases v with
  | obj members => exact h
  | _ => rfl

@[simp]
theorem hashable_sorted (v : Json) : hashable v.sorted = hashable v := by
  cases v <;> simp [hashable, Json.sorted]

@[simp]
theorem isTextCoordinate_sorted (v : Json) : isTextCoordinate v.sorted = isTextCoordinate v := by
  cases v <;> simp [isTextCoordinate, Json.sorted]

@[simp]
theorem isSha256Text_sorted (v : Json) : isSha256Text v.sorted = isSha256Text v := by
  cases v <;> simp [isSha256Text, Json.sorted]

@[simp]
theorem isUuid4Text_sorted (v : Json) : isUuid4Text v.sorted = isUuid4Text v := by
  cases v <;> simp [isUuid4Text, Json.sorted]

@[simp]
theorem isIntegerFrom_sorted (n : ℤ) (v : Json) : isIntegerFrom n v.sorted = isIntegerFrom n v := by
  cases v <;> simp [isIntegerFrom, Json.sorted]

@[simp]
theorem isIntegerTo_sorted (n : ℤ) (v : Json) : isIntegerTo n v.sorted = isIntegerTo n v := by
  cases v <;> simp [isIntegerTo, Json.sorted]

@[simp]
theorem isPathText_sorted (v : Json) : isPathText v.sorted = isPathText v := by
  cases v <;> simp [isPathText, Json.sorted]

@[simp]
theorem isFlag_sorted (v : Json) : isFlag v.sorted = isFlag v := by
  cases v <;> simp [isFlag, Json.sorted]

@[simp]
theorem isObject_sorted (v : Json) : isObject v.sorted = isObject v := by
  cases v <;> simp [isObject, Json.sorted]

@[simp]
theorem pyEq_str_sorted (v : Json) (s : Text) : v.sorted.pyEq (.str s) = v.pyEq (.str s) := by
  rw [Bool.eq_iff_iff, Json.pyEq_str, Json.pyEq_str]
  cases v <;> simp [Json.sorted]

@[simp]
theorem pyEq_null_sorted (v : Json) : v.sorted.pyEq .null = v.pyEq .null := by
  rw [Bool.eq_iff_iff, Json.pyEq_null, Json.pyEq_null]
  cases v <;> simp [Json.sorted]

@[simp]
theorem pyEq_ref_sorted (v : Json) : v.sorted.pyEq ref.json = v.pyEq ref.json :=
  pyEq_str_sorted v _

@[simp]
theorem memberOf_sorted (names : List String) (v : Json) :
    v.sorted.memberOf names = v.memberOf names := by
  cases v <;> simp [Json.memberOf, Json.sorted]

@[simp]
theorem ensureMember_sorted (names : List String) (v : Json) (message : String) :
    ensureMember names v.sorted message = ensureMember names v message := by
  rw [ensureMember, ensureMember, memberOf_sorted]

@[simp]
theorem keysWithin_sorted (names : List String) (members : Fields) :
    keysWithin (Fields.sorted members) names = keysWithin members names := by
  rw [keysWithin, keysWithin, Fields.all_sorted]

@[simp]
theorem phaseOf_sorted (v : Json) : phaseOf v.sorted = phaseOf v := by
  simp only [phaseOf, pyEq_str_sorted]

@[simp]
theorem routeOf_sorted (v : Json) : routeOf v.sorted = routeOf v := by
  simp only [routeOf, pyEq_str_sorted]

/-- A test of an object that does not see the order of its members. -/
theorem test_sorted {test : Json → Bool} (hother : ∀ items, test (.arr items) = false)
    (hobj : ∀ members, IsDict members → test (.obj (Fields.sorted members)) = test (.obj members))
    (h : v.isDict = true) : test v.sorted = test v := by
  cases v with
  | obj members => rw [Json.sorted_obj', hobj members h]
  | arr items => rw [Json.sorted_arr, hother, hother]
  | _ => rfl

theorem hasKeys_sorted {names : List String} (h : v.isDict = true) :
    hasKeys names v.sorted = hasKeys names v :=
  test_sorted (fun _ => rfl) (fun _ hm => Fields.keysAre_sorted hm) h

end Values

/-! ### The checks -/

section Checks

variable {v : Json} {ref : OperationRef} {members target coordinates path body : Fields}
  {phase : Phase} {desired : Json}

theorem isTarget_sorted (h : v.isDict = true) : isTarget v.sorted = isTarget v := by
  refine test_sorted (fun _ => rfl) (fun members hm => ?_) h
  simp only [isTarget, Fields.keysAre_sorted hm, Fields.get_sorted hm, isSha256Text_sorted,
    isTextCoordinate_sorted]

theorem isDesiredReference_sorted (h : v.isDict = true) :
    isDesiredReference v.sorted = isDesiredReference v := by
  refine test_sorted (fun _ => rfl) (fun members hm => ?_) h
  simp only [isDesiredReference, Fields.keysAre_sorted hm, Fields.get_sorted hm, isSha256Text_sorted,
    isPathText_sorted, isIntegerFrom_sorted, isIntegerTo_sorted]

theorem isCoordinates_sorted (h : v.isDict = true) : isCoordinates v.sorted = isCoordinates v := by
  refine test_sorted (fun _ => rfl) (fun members hm => ?_) h
  simp only [isCoordinates, keysWithin_sorted, Fields.all_sorted, isIntegerFrom_sorted,
    isTextCoordinate_sorted]

theorem validPointer_sorted (h : v.isDict = true) : validPointer v.sorted = validPointer v := by
  refine test_sorted (fun _ => rfl) (fun members hm => ?_) h
  simp only [validPointer, Fields.keysAre_sorted hm, Fields.all_sorted, isTextCoordinate_sorted]

theorem checkHead_sorted (h : v.isDict = true) : checkHead v.sorted ref = checkHead v ref := by
  have hm := isDict_membersOf h
  simp only [checkHead, hasKeys_sorted h, membersOf_sorted, Fields.get_sorted hm,
    pyEq_str_sorted, pyEq_ref_sorted, isTarget_sorted hm.get, isDesiredReference_sorted hm.get]

theorem checkCoordinates_sorted (h : v.isDict = true) :
    checkCoordinates phase v.sorted = checkCoordinates phase v := by
  have hm := isDict_membersOf h
  simp only [checkCoordinates, isCoordinates_sorted h, membersOf_sorted, Fields.has_sorted hm,
    Fields.get_sorted hm, pyEq_str_sorted, Fields.isEmpty_sorted, Json.pyEq_sorted hm.get hm.get]

theorem matchesCoordinates_sorted {route : CommandRoute} (hp : IsDict path) (hb : IsDict body)
    (hc : IsDict coordinates) :
    matchesCoordinates (Fields.sorted path) (Fields.sorted body) (Fields.sorted coordinates) route =
      matchesCoordinates path body coordinates route := by
  have hempty : ∀ w : Json, w.isDict = true → w.sorted.pyEq (.arr []) = w.pyEq (.arr []) := by
    intro w hw
    have hsorted : (Json.arr []).sorted = .arr [] := by rw [Json.sorted_arr, List.map_nil]
    have hnil : (Json.arr []).isDict = true := rfl
    rw [← Json.pyEq_sorted hw hnil, hsorted]
  have hone : ∀ w : Json, w.isDict = true → w.sorted.pyEq (.int 1) = w.pyEq (.int 1) :=
    fun w hw => Json.pyEq_sorted (b := .int 1) hw rfl
  cases route <;> simp only [matchesCoordinates, Fields.get_sorted hp, Fields.get_sorted hb,
    Fields.get_sorted hc, pyEq_str_sorted, isIntegerFrom_sorted, hempty _ hb.get, hone _ hb.get,
    isIntegerTo_sorted, Json.pyEq_sorted hp.get hc.get, Json.pyEq_sorted hb.get hc.get]

theorem checkRequest_sorted {route : CommandRoute} (hm : IsDict members) (ht : IsDict target)
    (hd : desired.isDict = true) (hc : IsDict coordinates) :
    checkRequest route (Fields.sorted members) phase (Fields.sorted target) desired.sorted
        (Fields.sorted coordinates) =
      checkRequest route members phase target desired coordinates := by
  have hp : IsDict (membersOf (members.get "path_parameters")) := isDict_membersOf hm.get
  have hb : IsDict (membersOf (members.get "body")) := isDict_membersOf hm.get
  simp only [checkRequest, Fields.get_sorted hm, Fields.get_sorted ht, membersOf_sorted,
    Fields.get_sorted hp, Fields.get_sorted hb, Fields.keysAre_sorted hp, Fields.keysAre_sorted hb,
    pyEq_str_sorted, pyEq_null_sorted, isUuid4Text_sorted, isSha256Text_sorted, isIntegerFrom_sorted,
    isTextCoordinate_sorted, validPointer_sorted hb.get, isObject_sorted, Json.pyEq_sorted hb.get hm.get,
    Json.pyEq_sorted hp.get ht.get, Json.pyEq_sorted hm.get hd, matchesCoordinates_sorted hp hb hc]

theorem checkPending_sorted (h : v.isDict = true) (ht : IsDict target) (hd : desired.isDict = true)
    (hc : IsDict coordinates) :
    checkPending v.sorted phase (Fields.sorted target) desired.sorted (Fields.sorted coordinates) =
      checkPending v phase target desired coordinates := by
  have hm := isDict_membersOf h
  simp only [checkPending, checkPendingKeys, hasKeys_sorted h, pyEq_null_sorted,
    membersOf_sorted, Fields.get_sorted hm, ensureMember_sorted, routeOf_sorted,
    checkRequest_sorted hm ht hd hc]

theorem checkRecord_sorted (h : v.isDict = true) : checkRecord v.sorted = checkRecord v := by
  have hm := isDict_membersOf h
  have hrecord : isRecord v.sorted = isRecord v := hasKeys_sorted h
  simp only [checkRecord, hrecord, membersOf_sorted, Fields.get_sorted hm, ensureMember_sorted,
    isUuid4Text_sorted, isSha256Text_sorted, isObject_sorted]

theorem checkRecords_sorted {records : List Json} (h : ∀ r ∈ records, r.isDict = true) :
    checkRecords (records.map Json.sorted) = checkRecords records := by
  induction records with
  | nil => rfl
  | cons record records ih =>
    rw [List.map_cons, checkRecords, checkRecords, checkRecord_sorted (h record List.mem_cons_self),
      ih fun r hr => h r (List.mem_cons_of_mem _ hr)]

theorem checkHistory_sorted (h : v.isDict = true) : checkHistory v.sorted = checkHistory v := by
  cases v with
  | arr items =>
    rw [Json.isDict_arr, List.all_eq_true] at h
    simp only [checkHistory, Json.sorted_arr, itemsOf, List.length_map, checkRecords_sorted h]
  | obj members =>
    rw [Json.sorted_obj']
    rfl
  | _ => rfl

theorem isChangeTarget_sorted (h : v.isDict = true) : isChangeTarget v.sorted = isChangeTarget v := by
  refine test_sorted (fun _ => rfl) (fun members hm => ?_) h
  simp only [isChangeTarget, Fields.has_sorted hm, keysWithin_sorted, Fields.all_sorted,
    isTextCoordinate_sorted]

theorem isChange_sorted (h : v.isDict = true) : isChange v.sorted = isChange v := by
  refine test_sorted (fun _ => rfl) (fun members hm => ?_) h
  simp only [isChange, Fields.keysAre_sorted hm, Fields.get_sorted hm, isTextCoordinate_sorted,
    isChangeTarget_sorted hm.get]

theorem isResult_sorted (h : v.isDict = true) (ht : IsDict target) :
    isResult ref (Fields.sorted target) v.sorted = isResult ref target v := by
  cases v with
  | obj members =>
    rw [Json.sorted_obj']
    have hm : IsDict members := h
    simp only [isResult, Fields.has_sorted hm, keysWithin_sorted, Fields.get_sorted hm,
      Fields.get_sorted ht, pyEq_str_sorted, pyEq_ref_sorted, Json.pyEq_sorted hm.get ht.get]
  | arr items =>
    rw [Json.sorted_arr]
    rfl
  | _ => rfl

theorem checkEnumerations_sorted (hm : IsDict members) :
    checkEnumerations (Fields.sorted members) = checkEnumerations members := by
  have ho : IsDict (membersOf (members.get "observation")) := isDict_membersOf hm.get
  have hobservation : isObservation (members.get "observation").sorted =
      isObservation (members.get "observation") := hasKeys_sorted hm.get
  simp only [checkEnumerations, Fields.get_sorted hm, ensureMember_sorted, hobservation,
    membersOf_sorted, Fields.get_sorted ho]

theorem isChanges_sorted (h : v.isDict = true) : isChanges v.sorted = isChanges v := by
  cases v with
  | arr items =>
    rw [Json.isDict_arr, List.all_eq_true] at h
    have hall : (items.map Json.sorted).all isChange = items.all isChange := by
      rw [List.all_map, Bool.eq_iff_iff, List.all_eq_true, List.all_eq_true]
      exact forall₂_congr fun x hx => by rw [Function.comp_apply, isChange_sorted (h x hx)]
    rw [Json.sorted_arr, isChanges, isChanges, List.length_map, hall]
  | obj members =>
    rw [Json.sorted_obj']
    rfl
  | _ => rfl

theorem isNext_sorted (h : v.isDict = true) : isNext v.sorted = isNext v := by
  refine test_sorted (fun _ => rfl) (fun members hm => ?_) h
  simp only [isNext, keysWithin_sorted, Fields.all_sorted, isTextCoordinate_sorted]

theorem checkDetails_sorted (hm : IsDict members) (hc : IsDict coordinates) :
    checkDetails (Fields.sorted members) (Fields.sorted coordinates) =
      checkDetails members coordinates := by
  simp only [checkDetails, Fields.get_sorted hm, Fields.has_sorted hm, Fields.get_sorted hc,
    isChanges_sorted hm.get, isNext_sorted hm.get, isFlag_sorted, isTextCoordinate_sorted,
    Json.pyEq_sorted hm.get hc.get]

theorem checkResult_sorted (h : v.isDict = true) (ht : IsDict target) (hc : IsDict coordinates) :
    checkResult v.sorted ref (Fields.sorted target) (Fields.sorted coordinates) =
      checkResult v ref target coordinates := by
  have hm := isDict_membersOf h
  simp only [checkResult, pyEq_null_sorted, isResult_sorted h ht, membersOf_sorted,
    checkEnumerations_sorted hm, checkDetails_sorted hm hc]

/-- The validator does not see the order of the members. -/
theorem checkDocument_sorted (h : v.isDict = true) :
    checkDocument v.sorted ref = checkDocument v ref := by
  have hm := isDict_membersOf h
  have ht : IsDict (membersOf ((membersOf v).get "target")) := isDict_membersOf hm.get
  have hc : IsDict (membersOf ((membersOf v).get "coordinates")) := isDict_membersOf hm.get
  simp only [checkDocument, checkHead_sorted h, checkPhase, membersOf_sorted, Fields.get_sorted hm,
    ensureMember_sorted, phaseOf_sorted, checkCoordinates_sorted hm.get,
    checkPending_sorted hm.get ht hm.get hc, checkHistory_sorted hm.get,
    checkResult_sorted hm.get ht hc]

end Checks

end Client

end ControlPlaneKit
