import ControlPlaneKit.Client.Effects

/-!
# How the client reads answers

The pure helpers of the topology client: the report it derives from a journal, the checks it
makes on plans and approvals, and the binding of a response to the pending request it answers,
with the projection and the phase that an accepted response leads to. Each keeps the name and the
order of tests of its source, including the tests that raise.
-/

namespace ControlPlaneKit

namespace Client

/-! ### Reports -/

/-- `_next_read`. -/
def nextRead (journal : Journal) : ReadRoute :=
  if journal.coordinates.has .runId then .runEvents
  else if journal.coordinates.has .planId then .planDetail
  else .workspace

/-- The status `_status_from_journal` derives. -/
def statusOf (attention : Bool) (phase : Phase) : Status :=
  if attention then .attentionRequired
  else match phase with
    | .noChanges => .noChanges
    | .converged => .converged
    | .attentionRequired => .attentionRequired
    | .claimed => .running
    | .started => .running
    | .executing => .running
    | .executed => .running
    | .advanced => .running
    | _ => .planned

/-- The execution value `_status_from_journal` falls back to. -/
def executionOf : Phase → Execution
  | .executed => .succeeded
  | .advanced => .succeeded
  | .converged => .succeeded
  | .claimed => .running
  | .started => .running
  | .executing => .running
  | _ => .notStarted

/-- The advancement value `_status_from_journal` falls back to. -/
def advancementOf : Phase → Advancement
  | .advanced => .advanced
  | .converged => .advanced
  | .noChanges => .unchanged
  | _ => .notAttempted

/-- `_status_from_journal` without an approval. -/
def projectJournal (profile : ClientProfile) (journal : Journal) (attention : Bool)
    (execution : Option Execution) (advancement : Option Advancement)
    (nextPublicRead : Option ReadRoute) (changes : List Change)
    (approval : Option (Coordinate × Bool)) : ClientResult where
  status := statusOf attention journal.phase
  operationRef := journal.operationRef
  workspaceId := profile.workspaceId
  planId := journal.coordinates.planId
  approvalRequestId := journal.coordinates.approvalRequestId
  runId := journal.coordinates.runId
  execution := execution.getD (executionOf journal.phase)
  advancement := advancement.getD (advancementOf journal.phase)
  requiredScope := approval.map (·.1)
  destructive := approval.map (·.2)
  changes := changes
  offersApply := statusOf attention journal.phase == .planned
  nextPublicRead := nextPublicRead

/-- `_status_from_journal`. -/
def statusFromJournal (profile : ClientProfile) (journal : Journal) (attention : Bool)
    (execution : Option Execution) (advancement : Option Advancement)
    (nextPublicRead : Option ReadRoute) (changes : List Change) (approval : Option Fields) :
    Except ClientError ClientResult :=
  match approval with
  | none =>
    .ok (projectJournal profile journal attention execution advancement nextPublicRead changes none)
  | some approval => do
    let scope ← text approval "required_scope"
    let destructive ← boolean approval "destructive"
    return projectJournal profile journal attention execution advancement nextPublicRead changes
      (some (scope, destructive))

/-! ### Plans and approvals -/

/-- `_validate_plan`. -/
def validatePlan (journal : Journal) (plan : Fields) : Except ClientError Unit :=
  if planCoordinates.all fun name =>
      !journal.coordinates.has name || (plan.get name.key).pyEq (journal.coordinates.get name) then
    .ok ()
  else .error (.input "prepared plan coordinates are stale")

/-- `_validate_approval`. -/
def validateApproval (plan : Fields) (approvalId : Coordinate) (approval : Fields) :
    Except ClientError Unit :=
  let stale := .error (.input "prepared approval coordinates are stale")
  if !((approval.get "request_id").pyEq approvalId.json &&
      (approval.get "session_id").pyEq (plan.get "session_id")) then stale
  else
    match (approval.get "required_scope").memberOf ["plan:approve", "plan:approve-destructive"] with
    | none => .error .typeError
    | some false => stale
    | some true =>
      match approval.get "destructive" with
      | .bool destructive =>
        if destructive == (approval.get "required_scope").pyEq (.str "plan:approve-destructive") then
          .ok ()
        else stale
      | _ => stale

/-- `_record_plan_coordinates`. -/
def recordPlanCoordinates (coordinates : Coordinates) (plan : Fields) :
    Except ClientError Coordinates := do
  let planId ← text plan "plan_id"
  let sessionId ← text plan "session_id"
  let baseGraphId ← text plan "base_graph_id"
  let baseRealizedProjectionId ← text plan "base_realized_projection_id"
  let desiredGraphId ← text plan "desired_graph_id"
  let desiredRealizedProjectionId ← text plan "desired_realized_projection_id"
  let desiredGraphRevision ← integer plan "desired_graph_revision" 0
  return { coordinates with
    planId := some planId
    sessionId := some sessionId
    baseGraphId := some baseGraphId
    baseRealizedProjectionId := some baseRealizedProjectionId
    desiredGraphId := some desiredGraphId
    desiredRealizedProjectionId := some desiredRealizedProjectionId
    desiredGraphRevision := some desiredGraphRevision }

/-- The members of an activity's target that are projected, in document order. -/
def projectedTarget : Fields → Except ClientError (List (TargetKey × Coordinate))
  | [] => .ok []
  | (key, value) :: rest =>
    match [TargetKey.kind, .nodeId, .runtimeId, .edgeId].find? fun k => key == .utf8 k.text with
    | some name => do
      let projected ← textCoordinate value
      let others ← projectedTarget rest
      return (name, projected) :: others
    | none => projectedTarget rest

/-- One activity of `_plan_changes`. -/
def planChange : Json → Except ClientError Change
  | .obj activity => do
    let operation ← mapping activity "operation"
    let target ← mapping operation "target"
    let projected ← projectedTarget target
    if (projected.lookup .kind).isNone then
      .error (.input "public plan activity target is invalid")
    let activityId ← text activity "activity_id"
    let kind ← text operation "kind"
    return ⟨activityId, kind, projected⟩
  | _ => .error (.input "public plan activities are invalid")

/-- `_plan_changes`. -/
def planChanges (plan : Fields) : Except ClientError (List Change) := do
  let payload ← mapping plan "payload"
  if payload.has "activities" then
    match payload.get "activities" with
    | .arr activities => activities.mapM planChange
    | _ => .error (.input "public plan activities are invalid")
  else return []

/-! ### Responses -/

/-- `_response_coordinates`. -/
def responseCoordinates (route : CommandRoute) (response : Fields) :
    Except ClientError Projection :=
  match route with
  | .prepare => do
    let planId ← text response "plan_id"
    if response.has "approval_request_id" then
      let approvalRequestId ← text response "approval_request_id"
      return .prepare planId (some approvalRequestId)
    else return .prepare planId none
  | .decide => do
    let approvalState ← text response "state"
    return .decide approvalState
  | .admission => do
    let executionRequestId ← text response "execution_request_id"
    return .admission executionRequestId
  | .claim => do
    let runId ← text response "run_id"
    let claimGeneration ← integer response "claim_generation" 1
    return .claim runId claimGeneration
  | .start => do
    let runStatus ← text response "run_status"
    return .start runStatus
  | .execute => do
    let runId ← text response "run_id"
    let runStatus ← text response "run_status"
    let coordinatorStatus ← text response "coordinator_status"
    let effectsAttempted ← integer response "effects_attempted" 0
    match response.get "activity_id" with
    | .null => return .execute runId runStatus coordinatorStatus effectsAttempted none
    | _ =>
      let activityId ← text response "activity_id"
      return .execute runId runStatus coordinatorStatus effectsAttempted (some activityId)
  | .advance => do
    let graphId ← text response "to_graph_id"
    let projectionId ← text response "to_realized_projection_id"
    let revision ← integer response "desired_graph_revision" 0
    return .advance graphId projectionId revision

/-- `_phase_after`. -/
def phaseAfter (route : CommandRoute) (response : Fields) : Phase :=
  match route with
  | .prepare => .prepared
  | .decide => .approved
  | .admission => .admitted
  | .claim => .claimed
  | .start => .started
  | .execute =>
    if (response.get "coordinator_status").pyEq (.str "completed") then .executed
    else if (response.get "coordinator_status").pyEq (.str "progressed") then .executing
    else .attentionRequired
  | .advance => .advanced

/-- The alternatives of `_response_is_bound` for an execute step, in the order of the source;
membership tests raise on an unhashable value. -/
def executeIsBound (status runStatus activity : Json) (effects : Int) : Except ClientError Bool := do
  if status.pyEq (.str "completed") && runStatus.pyEq (.str "succeeded") && activity.pyEq .null then
    return true
  let some moving := status.memberOf ["progressed", "in-flight"] | .error .typeError
  if moving && runStatus.pyEq (.str "running") && isTextCoordinate activity then return true
  if status.pyEq (.str "failed") && runStatus.pyEq (.str "failed") then return true
  if status.pyEq (.str "unsupported") && runStatus.pyEq (.str "failed") && effects == 1 &&
      isTextCoordinate activity then
    return true
  let some stopped := status.memberOf ["uncertain", "blocked"] | .error .typeError
  if stopped then
    let some known := runStatus.memberOf ["running", "failed"] | .error .typeError
    return known
  else return false

/-- `_response_is_bound`. -/
def responseIsBound (route : CommandRoute) (response : Fields) (path : PathParameters)
    (body : Fields) (coordinates : Coordinates) (workspaceId : Coordinate) :
    Except ClientError Bool :=
  match route with
  | .prepare => .ok ((response.get "workspace_id").pyEq workspaceId.json)
  | .decide =>
    .ok ((response.get "request_id").pyEq (path.get "approval_id") &&
      (response.get "state").pyEq (.str "approved"))
  | .admission => .ok (isTextCoordinate (response.get "execution_request_id"))
  | .claim =>
    .ok ((response.get "execution_request_id").pyEq (path.get "run_id") &&
      isTextCoordinate (response.get "run_id") &&
      (response.get "run_status").pyEq (.str "claimed") &&
      isPositiveInteger (response.get "claim_generation"))
  | .start =>
    .ok ((response.get "execution_request_id").pyEq (coordinates.get .executionRequestId) &&
      (response.get "run_id").pyEq (path.get "run_id") &&
      (response.get "run_status").pyEq (.str "running") &&
      (response.get "claim_generation").pyEq (body.get "claim_generation"))
  | .execute =>
    if (response.get "run_id").pyEq (path.get "run_id") then
      match response.get "effects_attempted" with
      | .int effects =>
        if 0 ≤ effects then
          match (if body.has "max_effects" then body.get "max_effects" else .int (-1)).atLeast effects with
          | none => .error .typeError
          | some false => .ok false
          | some true =>
            executeIsBound (response.get "coordinator_status") (response.get "run_status")
              (response.get "activity_id") effects
        else .ok false
      | _ => .ok false
    else .ok false
  | .advance =>
    .ok ((response.get "from_graph_id").pyEq (body.get "expected_current_graph_id") &&
      (response.get "from_realized_projection_id").pyEq
        (body.get "expected_current_realized_projection_id") &&
      (response.get "to_graph_id").pyEq (body.get "desired_graph_id") &&
      (response.get "to_realized_projection_id").pyEq
        (body.get "desired_realized_projection_id") &&
      (response.get "desired_graph_revision").pyEq
        (body.get "expected_desired_graph_revision"))

/-- `_canonical_digest`. -/
def canonicalDigest (rt : Runtime) (value : Fields) : Except ClientError Digest :=
  if rt.depthLimit < (Json.obj value).depth then .error .recursionError
  else
    match (Json.obj value).encode rt.floatText with
    | none => .error (.input "public request is invalid")
    | some raw =>
      if raw.length ≤ maximumDesiredBytes then .ok (rt.sha256 (Json.asciiBytes raw))
      else .error (.input "public request exceeds its contract")

end Client

end ControlPlaneKit
