import ControlPlaneKit.Client.Answers
import ControlPlaneKit.Client.Trace
import ControlPlaneKit.Python.Raise

/-!
# What the validator guarantees

The validator's answer is a sequence of checks; here each check is stated for what it says of a
journal. `Journal.Valid` and `Pending.Valid` are equivalent to acceptance, with Python's `==`
replaced by equality where the two agree. The last section does the same for a response that
`_response_is_bound` accepts.
-/

namespace ControlPlaneKit

namespace Json

/-- Equality with a string on the left is equality. -/
theorem str_pyEq {s : Text} {v : Json} : (Json.str s).pyEq v = true ↔ v = .str s := by
  cases v with
  | float x => cases x <;> simp [pyEq, same, number?]
  | str t => simpa [pyEq, same] using eq_comm
  | _ => simp [pyEq, same, number?]

end Json

namespace Client

/-! ### Comparing coordinates -/

@[simp]
theorem Coordinate.pyEq_json {v : Json} {c : Coordinate} : v.pyEq c.json = true ↔ v = c.json :=
  Json.pyEq_str

@[simp]
theorem Coordinate.json_pyEq {c : Coordinate} {v : Json} : c.json.pyEq v = true ↔ v = c.json :=
  Json.str_pyEq

@[simp]
theorem Coordinate.json_inj {a b : Coordinate} : a.json = b.json ↔ a = b :=
  ⟨Coordinate.json_injective, congrArg _⟩

@[simp]
theorem OperationRef.pyEq_json {v : Json} {r : OperationRef} : v.pyEq r.json = true ↔ v = r.json :=
  Json.pyEq_str

@[simp]
theorem OperationRef.json_inj {a b : OperationRef} : a.json = b.json ↔ a = b :=
  ⟨OperationRef.json_injective, congrArg _⟩

theorem natJson_pyEq {m n : Nat} : (natJson m).pyEq (natJson n) = true ↔ m = n := by
  rw [natJson, natJson, Json.pyEq_int]
  exact Int.ofNat_inj

/-- An optional text, read with `get`. -/
def textJson (c : Option Coordinate) : Json :=
  (c.map Coordinate.json).getD .null

@[simp]
theorem textJson_some (c : Coordinate) : textJson (some c) = c.json :=
  rfl

@[simp]
theorem textJson_none : textJson none = .null :=
  rfl

/-- Comparison with an optional text is equality. -/
theorem pyEq_textJson {v : Json} {c : Option Coordinate} :
    v.pyEq (textJson c) = true ↔ v = textJson c := by
  cases c with
  | none => exact Json.pyEq_null
  | some c => exact Json.pyEq_str

theorem textJson_injective {a b : Option Coordinate} (h : textJson a = textJson b) : a = b := by
  cases a with
  | none => cases b with
    | none => rfl
    | some b => cases h
  | some a => cases b with
    | none => cases h
    | some b => rw [Coordinate.json_injective h]

/-- An optional number, read with `get`. -/
def numberJson (n : Option Nat) : Json :=
  (n.map natJson).getD .null

theorem numberJson_pyEq {a b : Option Nat} :
    (numberJson a).pyEq (numberJson b) = true ↔ a = b := by
  cases a with
  | none => cases b with
    | none => simp [numberJson, Json.pyEq, Json.same]
    | some b => simp [numberJson, natJson, Json.pyEq, Json.same, Json.number?]
  | some a => cases b with
    | none => simp [numberJson, natJson, Json.pyEq, Json.same, Json.number?]
    | some b => exact natJson_pyEq.trans (by rw [Option.some.injEq])

namespace Coordinates

/-- The names under which a number is stored. -/
def isNumber : CoordinateName → Bool
  | .desiredGraphRevision => true
  | .claimGeneration => true
  | .effectsAttempted => true
  | .advancedRevision => true
  | _ => false

/-- Comparison with a text coordinate is equality. -/
theorem pyEq_get {c : Coordinates} {n : CoordinateName} (hn : isNumber n = false) {v : Json} :
    v.pyEq (c.get n) = true ↔ v = c.get n := by
  cases n <;> first | exact pyEq_textJson | cases hn

theorem mem_names (n : CoordinateName) : n ∈ names := by
  cases n <;> decide

theorem textIs_iff {c : Coordinates} {n : CoordinateName} {s : String} :
    c.textIs n s = true ↔ c.get n = .str s :=
  Json.pyEq_str

end Coordinates

/-! ### Pending requests -/

/-- What `_validate_pending` accepts. -/
structure Pending.Valid (pending : Pending) (phase : Phase) (target : Target)
    (desired : DesiredSource) (coordinates : Coordinates) : Prop where
  role : pending.credentialRole = mutationRole pending.routeId
  phase : phase ∈ pendingPhases pending.routeId
  key : pending.body.get "idempotency_key" = pending.idempotencyKey.json
  bodyKeys : pending.body.keysAre (bodyKeys pending.routeId) = true
  pathKeys : pending.pathParameters.keysAre (pathKeys pending.routeId) = true
  workspace : pending.pathParameters.get "workspace_id" = target.workspaceId.json
  prepare : pending.routeId = .prepare → pending.desiredSource = some desired ∧
    validPointer (pending.body.get "expected_current") = true ∧
    (pending.body.get "expected_desired" = .null ∨
      validPointer (pending.body.get "expected_desired") = true) ∧
    isIntegerFrom 0 (pending.body.get "expected_desired_graph_revision") = true ∧
    isTextCoordinate (pending.body.get "title") = true
  other : pending.routeId ≠ .prepare → pending.desiredSource = none ∧
    pendingMatches pending.pathParameters pending.body coordinates pending.routeId = true

theorem validatePending_eq_ok {pending : Pending} {phase : Phase} {target : Target}
    {desired : DesiredSource} {coordinates : Coordinates} :
    validatePending pending phase target desired coordinates = .ok () ↔
      pending.Valid phase target desired coordinates := by
  obtain ⟨route, path, role, key, body, digest, source⟩ := pending
  unfold validatePending
  simp only [require_bind_eq_ok, Bool.and_eq_true, beq_iff_eq, List.contains_iff_mem,
    OperationRef.pyEq_json, Coordinate.pyEq_json]
  cases route with
  | prepare =>
    simp only [require_eq_ok, Bool.and_eq_true, Bool.or_eq_true, beq_iff_eq, Json.pyEq_null]
    constructor
    · rintro ⟨⟨h₁, h₂⟩, h₃, ⟨h₄, h₅⟩, h₆, ⟨⟨⟨⟨h₇, h₈⟩, h₉⟩, h₁₀⟩, h₁₁⟩⟩
      exact ⟨h₁, h₂, h₃, h₄, h₅, h₆, fun _ => ⟨h₇, h₈, h₉, h₁₀, h₁₁⟩, fun h => absurd rfl h⟩
    · rintro ⟨h₁, h₂, h₃, h₄, h₅, h₆, h₇, -⟩
      obtain ⟨h₇, h₈, h₉, h₁₀, h₁₁⟩ := h₇ rfl
      exact ⟨⟨h₁, h₂⟩, h₃, ⟨h₄, h₅⟩, h₆, ⟨⟨⟨⟨h₇, h₈⟩, h₉⟩, h₁₀⟩, h₁₁⟩⟩
  | _ =>
    simp only [require_bind_eq_ok, require_eq_ok, beq_iff_eq]
    constructor
    · rintro ⟨⟨h₁, h₂⟩, h₃, ⟨h₄, h₅⟩, h₆, h₇⟩
      exact ⟨h₁, h₂, h₃, h₄, h₅, h₆, CommandRoute.noConfusion, fun _ => h₇⟩
    · rintro ⟨h₁, h₂, h₃, h₄, h₅, h₆, -, h₇⟩
      exact ⟨⟨h₁, h₂⟩, h₃, ⟨h₄, h₅⟩, h₆, h₇ CommandRoute.noConfusion⟩

/-! ### Journals -/

/-- What `_validate_journal` accepts. -/
@[mk_iff]
structure Journal.Valid (journal : Journal) (ref : OperationRef) : Prop where
  identity : journal.operationRef = ref
  desired : isAbsolutePath journal.desired.path = true ∧ journal.desired.size ≤ maximumDesiredBytes
  planning : journal.phase = .planning → ∀ n, journal.coordinates.has n = false
  planId : journal.phase ≠ .planning → journal.phase ≠ .attentionRequired →
    journal.coordinates.has .planId = true
  plan : needsPlanCoordinates journal.phase = true →
    ∀ n ∈ planCoordinates, journal.coordinates.has n = true
  required : ∀ n ∈ requiredByPhase journal.phase, journal.coordinates.has n = true
  terminal : journal.phase ∈ [Phase.executed, .advanced, .converged] →
    journal.coordinates.get .runStatus = .str "succeeded" ∧
      journal.coordinates.get .coordinatorStatus = .str "completed"
  started : journal.phase = .started → journal.coordinates.get .runStatus = .str "running"
  executing : journal.phase = .executing →
    journal.coordinates.get .runStatus = .str "running" ∧
      journal.coordinates.get .coordinatorStatus = .str "progressed"
  advancement : journal.phase ∈ [Phase.advanced, .converged] →
    journal.coordinates.advancedGraphId = journal.coordinates.desiredGraphId ∧
      journal.coordinates.advancedProjectionId =
        journal.coordinates.desiredRealizedProjectionId ∧
      journal.coordinates.advancedRevision = journal.coordinates.desiredGraphRevision
  pending : ∀ pending, journal.pendingRequest = some pending →
    pending.Valid journal.phase journal.target journal.desired journal.coordinates
  budget : journal.requestHistory.length ≤ maximumRequestRecords
  result : ∀ result, journal.lastResult = some result →
    validateResult result ref journal.target journal.coordinates = .ok ()

/-- Two checks in sequence pass when both pass. -/
theorem checks_eq_ok {check : Except ClientError Unit} {next : Unit → Except ClientError Unit} :
    (check >>= next) = .ok () ↔ check = .ok () ∧ next () = .ok () := by
  cases check <;> simp [bind, Except.bind]

/-- A check that only applies in one phase. -/
theorem ne_or_eq_true {phase phase' : Phase} {a : Bool} :
    (phase != phase' || a) = true ↔ (phase = phase' → a = true) := by
  by_cases h : phase = phase' <;> simp [h]

/-- A check that only applies in some phases. -/
theorem not_or_eq_true {a b : Bool} : (!a || b) = true ↔ (a = true → b = true) := by
  cases a <;> simp

theorem advancement_iff {c : Coordinates} :
    ((c.get .advancedGraphId).pyEq (c.get .desiredGraphId) &&
      (c.get .advancedProjectionId).pyEq (c.get .desiredRealizedProjectionId) &&
      (c.get .advancedRevision).pyEq (c.get .desiredGraphRevision)) = true ↔
    c.advancedGraphId = c.desiredGraphId ∧
      c.advancedProjectionId = c.desiredRealizedProjectionId ∧
      c.advancedRevision = c.desiredGraphRevision := by
  have htext : ∀ a b : Option Coordinate,
      (textJson a).pyEq (textJson b) = true ↔ a = b := fun a b =>
    pyEq_textJson.trans ⟨textJson_injective, congrArg _⟩
  have h₁ := htext c.advancedGraphId c.desiredGraphId
  have h₂ := htext c.advancedProjectionId c.desiredRealizedProjectionId
  have h₃ : (numberJson c.advancedRevision).pyEq (numberJson c.desiredGraphRevision) = true ↔ _ :=
    numberJson_pyEq
  simp only [Bool.and_eq_true, and_assoc]
  exact and_congr h₁ (and_congr h₂ h₃)

theorem validateJournal_eq_ok {journal : Journal} {ref : OperationRef} :
    validateJournal journal ref = .ok () ↔ journal.Valid ref := by
  rw [Journal.valid_iff]
  unfold validateJournal
  simp only [require_bind_eq_ok]
  refine and_congr beq_iff_eq (and_congr ?_ (and_congr ?_ (and_congr ?_ (and_congr ?_
    (and_congr List.all_eq_true (and_congr ?_ (and_congr ?_ (and_congr ?_ (and_congr ?_ ?_)))))))))
  · rw [Bool.and_eq_true, decide_eq_true_iff]
  · rw [ne_or_eq_true]
    simp [Coordinates.mem_names]
  · simp only [Bool.or_eq_true, beq_iff_eq]
    tauto
  · rw [not_or_eq_true, List.all_eq_true]
  · rw [not_or_eq_true, Bool.and_eq_true, Coordinates.textIs_iff, Coordinates.textIs_iff,
      List.contains_iff_mem]
  · rw [ne_or_eq_true, Coordinates.textIs_iff]
  · rw [ne_or_eq_true, Bool.and_eq_true, Coordinates.textIs_iff, Coordinates.textIs_iff]
  · rw [not_or_eq_true, advancement_iff, List.contains_iff_mem]
  · cases journal.pendingRequest <;> cases journal.lastResult <;>
      simp [checks_eq_ok, validatePending_eq_ok]

/-! ### Accepted responses -/

/-- A projection belongs to its route, and leads to the phase of the response. -/
theorem responseCoordinates_ok {route : CommandRoute} {response : Fields} {p : Projection}
    (h : responseCoordinates route response = .ok p) :
    p.route = route ∧ p.phase = phaseAfter route response := by
  cases route with
  | prepare =>
    obtain ⟨planId, -, h⟩ := Raise.bind_eq_ok.mp h
    split at h
    · obtain ⟨approvalRequestId, -, h⟩ := Raise.bind_eq_ok.mp h
      cases h
      exact ⟨rfl, rfl⟩
    · cases h
      exact ⟨rfl, rfl⟩
  | execute =>
    obtain ⟨runId, -, h⟩ := Raise.bind_eq_ok.mp h
    obtain ⟨runStatus, -, h⟩ := Raise.bind_eq_ok.mp h
    obtain ⟨coordinatorStatus, hstatus, h⟩ := Raise.bind_eq_ok.mp h
    obtain ⟨effectsAttempted, -, h⟩ := Raise.bind_eq_ok.mp h
    -- the phase after a step is read from the status it reports
    have hphase : ∀ activityId, Projection.phase
        (.execute runId runStatus coordinatorStatus effectsAttempted activityId) =
          phaseAfter .execute response := by
      intro activityId
      simp only [phaseAfter, text_ok hstatus, Coordinate.json, Json.pyEq_str, Projection.phase,
        Json.str.injEq, Text.utf8.injEq]
    split at h
    · cases h
      exact ⟨rfl, hphase _⟩
    · obtain ⟨activityId, -, h⟩ := Raise.bind_eq_ok.mp h
      cases h
      exact ⟨rfl, hphase _⟩
  | claim =>
    obtain ⟨runId, -, h⟩ := Raise.bind_eq_ok.mp h
    obtain ⟨claimGeneration, -, h⟩ := Raise.bind_eq_ok.mp h
    cases h
    exact ⟨rfl, rfl⟩
  | advance =>
    obtain ⟨graphId, -, h⟩ := Raise.bind_eq_ok.mp h
    obtain ⟨projectionId, -, h⟩ := Raise.bind_eq_ok.mp h
    obtain ⟨revision, -, h⟩ := Raise.bind_eq_ok.mp h
    cases h
    exact ⟨rfl, rfl⟩
  | _ =>
    obtain ⟨value, -, h⟩ := Raise.bind_eq_ok.mp h
    cases h
    exact ⟨rfl, rfl⟩

/-- The members an execute projection was read from. -/
theorem responseCoordinates_execute {response : Fields} {runId runStatus coordinatorStatus : Coordinate}
    {effects : Nat} {activityId : Option Coordinate}
    (h : responseCoordinates .execute response =
      .ok (.execute runId runStatus coordinatorStatus effects activityId)) :
    response.get "run_id" = runId.json ∧ response.get "run_status" = runStatus.json ∧
      response.get "coordinator_status" = coordinatorStatus.json := by
  obtain ⟨runId', hrun, h⟩ := Raise.bind_eq_ok.mp h
  obtain ⟨runStatus', hrunStatus, h⟩ := Raise.bind_eq_ok.mp h
  obtain ⟨coordinatorStatus', hstatus, h⟩ := Raise.bind_eq_ok.mp h
  obtain ⟨effects', -, h⟩ := Raise.bind_eq_ok.mp h
  have hsame : runId' = runId ∧ runStatus' = runStatus ∧ coordinatorStatus' = coordinatorStatus := by
    split at h
    · cases h
      exact ⟨rfl, rfl, rfl⟩
    · obtain ⟨activityId', -, h⟩ := Raise.bind_eq_ok.mp h
      cases h
      exact ⟨rfl, rfl, rfl⟩
  obtain ⟨rfl, rfl, rfl⟩ := hsame
  exact ⟨text_ok hrun, text_ok hrunStatus, text_ok hstatus⟩

/-- An accepted completed step is the one of a run that succeeded. -/
theorem executeIsBound_completed {runStatus activity : Json} {effects : Int}
    (h : executeIsBound (.str "completed") runStatus activity effects = .ok true) :
    runStatus = .str "succeeded" := by
  by_contra hne
  have hrun : runStatus.pyEq (.str "succeeded") = false := by
    rw [Bool.eq_false_iff]
    exact fun h => hne (Json.pyEq_str.mp h)
  have hin : ∀ s : String, (Json.str "completed").pyEq (.str s) = decide (s = "completed") := by
    intro s
    rw [Bool.eq_iff_iff, Json.pyEq_str, decide_eq_true_iff]
    simp [eq_comm]
  simp only [executeIsBound, hrun, hin, Json.memberOf, Bool.and_false, Bool.false_and] at h
  simp at h
  cases h

/-- An accepted execute response is about the run of its request. -/
theorem bound_execute {response : Fields} {path : PathParameters} {body : Fields}
    {coordinates : Coordinates} {workspaceId : Coordinate}
    (h : responseIsBound .execute response path body coordinates workspaceId = .ok true) :
    response.get "run_id" = path.get "run_id" ∧ ∃ effects,
      executeIsBound (response.get "coordinator_status") (response.get "run_status")
        (response.get "activity_id") effects = .ok true := by
  simp only [responseIsBound] at h
  split at h
  · rename_i hrun
    split at h
    · rename_i effects heffects
      split at h
      · split at h
        · cases h
        · cases h
        · exact ⟨pyEq_textJson.mp hrun, effects, h⟩
      · cases h
    · cases h
  · cases h

/-- The projection of an accepted response is consistent. -/
theorem bound_consistent {route : CommandRoute} {response : Fields} {path : PathParameters}
    {body : Fields} {coordinates : Coordinates} {workspaceId : Coordinate} {p : Projection}
    (hbound : responseIsBound route response path body coordinates workspaceId = .ok true)
    (h : responseCoordinates route response = .ok p) : p.Consistent := by
  obtain ⟨hroute, -⟩ := responseCoordinates_ok h
  cases p with
  | execute runId runStatus coordinatorStatus effects activityId =>
    subst hroute
    intro hcompleted
    obtain ⟨-, effects', hexec⟩ := bound_execute hbound
    obtain ⟨-, hrunStatus, hstatus⟩ := responseCoordinates_execute h
    rw [hstatus, hrunStatus, Coordinate.json, hcompleted] at hexec
    simpa [Coordinate.json] using executeIsBound_completed hexec
  | _ => trivial

end Client

end ControlPlaneKit
