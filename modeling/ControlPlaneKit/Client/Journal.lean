import ControlPlaneKit.Client.Vocabulary

/-!
# The invocation journal

The private document an operation is recorded in, its validator and its encoder. The document
is kept as a structure: the closed key sets, the text bounds and the closed enumerations that
`_validate_journal` tests member by member are carried by the types, and the checks that relate
members to each other (phase against coordinates, pending request against phase and coordinates,
result against coordinates) are the definitions below, in the order and with the messages of the
source.
-/

namespace ControlPlaneKit

namespace Client

/-! ### Coordinates -/

/-- `_COORDINATE_KEYS`. -/
inductive CoordinateName where
  | planId
  | sessionId
  | baseGraphId
  | baseRealizedProjectionId
  | desiredGraphId
  | desiredRealizedProjectionId
  | desiredGraphRevision
  | approvalRequestId
  | approvalState
  | executionRequestId
  | runId
  | claimGeneration
  | runStatus
  | coordinatorStatus
  | effectsAttempted
  | activityId
  | advancedGraphId
  | advancedProjectionId
  | advancedRevision
deriving DecidableEq

/-- The member name of a coordinate. -/
def CoordinateName.key : CoordinateName → String
  | .planId => "plan_id"
  | .sessionId => "session_id"
  | .baseGraphId => "base_graph_id"
  | .baseRealizedProjectionId => "base_realized_projection_id"
  | .desiredGraphId => "desired_graph_id"
  | .desiredRealizedProjectionId => "desired_realized_projection_id"
  | .desiredGraphRevision => "desired_graph_revision"
  | .approvalRequestId => "approval_request_id"
  | .approvalState => "approval_state"
  | .executionRequestId => "execution_request_id"
  | .runId => "run_id"
  | .claimGeneration => "claim_generation"
  | .runStatus => "run_status"
  | .coordinatorStatus => "coordinator_status"
  | .effectsAttempted => "effects_attempted"
  | .activityId => "activity_id"
  | .advancedGraphId => "advanced_graph_id"
  | .advancedProjectionId => "advanced_projection_id"
  | .advancedRevision => "advanced_revision"

/-- `_PLAN_COORDINATES`. -/
def planCoordinates : List CoordinateName :=
  [.planId, .sessionId, .baseGraphId, .baseRealizedProjectionId, .desiredGraphId,
    .desiredRealizedProjectionId, .desiredGraphRevision]

/-- The coordinates of a journal: texts and, under the names of `_INTEGER_COORDINATES`,
nonnegative integers. -/
structure Coordinates where
  planId : Option Coordinate := none
  sessionId : Option Coordinate := none
  baseGraphId : Option Coordinate := none
  baseRealizedProjectionId : Option Coordinate := none
  desiredGraphId : Option Coordinate := none
  desiredRealizedProjectionId : Option Coordinate := none
  desiredGraphRevision : Option Nat := none
  approvalRequestId : Option Coordinate := none
  approvalState : Option Coordinate := none
  executionRequestId : Option Coordinate := none
  runId : Option Coordinate := none
  claimGeneration : Option Nat := none
  runStatus : Option Coordinate := none
  coordinatorStatus : Option Coordinate := none
  effectsAttempted : Option Nat := none
  activityId : Option Coordinate := none
  advancedGraphId : Option Coordinate := none
  advancedProjectionId : Option Coordinate := none
  advancedRevision : Option Nat := none
deriving DecidableEq

/-- The JSON integer of a number. -/
def natJson (n : Nat) : Json :=
  .int n

@[simp]
theorem depth_natJson (n : Nat) : (natJson n).depth = 0 := by
  simp [natJson, Json.depth]

theorem natJson_injective {m n : Nat} (h : natJson m = natJson n) : m = n := by
  simp only [natJson, Json.int.injEq] at h
  omega

namespace Coordinates

/-- `coordinates.get(name)`, with absence kept apart from `None`. -/
def value? (c : Coordinates) : CoordinateName → Option Json
  | .planId => c.planId.map Coordinate.json
  | .sessionId => c.sessionId.map Coordinate.json
  | .baseGraphId => c.baseGraphId.map Coordinate.json
  | .baseRealizedProjectionId => c.baseRealizedProjectionId.map Coordinate.json
  | .desiredGraphId => c.desiredGraphId.map Coordinate.json
  | .desiredRealizedProjectionId => c.desiredRealizedProjectionId.map Coordinate.json
  | .desiredGraphRevision => c.desiredGraphRevision.map natJson
  | .approvalRequestId => c.approvalRequestId.map Coordinate.json
  | .approvalState => c.approvalState.map Coordinate.json
  | .executionRequestId => c.executionRequestId.map Coordinate.json
  | .runId => c.runId.map Coordinate.json
  | .claimGeneration => c.claimGeneration.map natJson
  | .runStatus => c.runStatus.map Coordinate.json
  | .coordinatorStatus => c.coordinatorStatus.map Coordinate.json
  | .effectsAttempted => c.effectsAttempted.map natJson
  | .activityId => c.activityId.map Coordinate.json
  | .advancedGraphId => c.advancedGraphId.map Coordinate.json
  | .advancedProjectionId => c.advancedProjectionId.map Coordinate.json
  | .advancedRevision => c.advancedRevision.map natJson

/-- `name in coordinates`. -/
def has (c : Coordinates) (name : CoordinateName) : Bool :=
  (c.value? name).isSome

/-- `coordinates.get(name)`. -/
def get (c : Coordinates) (name : CoordinateName) : Json :=
  (c.value? name).getD .null

/-- Every coordinate name. -/
def names : List CoordinateName :=
  planCoordinates ++ [.approvalRequestId, .approvalState, .executionRequestId, .runId,
    .claimGeneration, .runStatus, .coordinatorStatus, .effectsAttempted, .activityId,
    .advancedGraphId, .advancedProjectionId, .advancedRevision]

/-- The JSON object of the coordinates. -/
def json (c : Coordinates) : Json :=
  .obj (names.filterMap fun n => (c.value? n).map fun v => (Text.utf8 n.key, v))

end Coordinates

/-! ### Requests and their records -/

/-- The path parameters of a request. -/
abbrev PathParameters := List (String × Coordinate)

/-- `path.get(name)`. -/
def PathParameters.get (path : PathParameters) (name : String) : Json :=
  ((path.lookup name).map Coordinate.json).getD .null

/-- The path's keys are exactly `names`, as sets. -/
def PathParameters.keysAre (path : PathParameters) (names : List String) : Bool :=
  path.all (fun m => names.contains m.1) && names.all fun n => (path.lookup n).isSome

/-- The reference to the desired graph file: its absolute path, size and digest. -/
structure DesiredSource where
  path : Text
  size : Nat
  sha256 : Digest
deriving DecidableEq

/-- The JSON object of the reference. -/
def DesiredSource.json (d : DesiredSource) : Json :=
  .obj [("path", .str d.path), ("size", natJson d.size), ("sha256", d.sha256.json)]

/-- A pending request. For a preparation the retained `body` lacks the desired graph, which is
read again from `desiredSource`. -/
structure Pending where
  routeId : CommandRoute
  pathParameters : PathParameters
  credentialRole : Role
  idempotencyKey : OperationRef
  body : Fields
  bodySha256 : Digest
  desiredSource : Option DesiredSource

/-- The projection of a response that is recorded and merged into the coordinates: one shape for
each route. -/
inductive Projection where
  | prepare (planId : Coordinate) (approvalRequestId : Option Coordinate)
  | decide (approvalState : Coordinate)
  | admission (executionRequestId : Coordinate)
  | claim (runId : Coordinate) (claimGeneration : Nat)
  | start (runStatus : Coordinate)
  | execute (runId runStatus coordinatorStatus : Coordinate) (effectsAttempted : Nat)
      (activityId : Option Coordinate)
  | advance (graphId projectionId : Coordinate) (revision : Nat)
deriving DecidableEq

/-- The route a projection belongs to. -/
def Projection.route : Projection → CommandRoute
  | .prepare .. => .prepare
  | .decide .. => .decide
  | .admission .. => .admission
  | .claim .. => .claim
  | .start .. => .start
  | .execute .. => .execute
  | .advance .. => .advance

/-- `coordinates.update(projection)`: members that the projection lacks keep their value. -/
def Coordinates.update (c : Coordinates) : Projection → Coordinates
  | .prepare planId approvalRequestId =>
    { c with
      planId := some planId
      approvalRequestId := approvalRequestId <|> c.approvalRequestId }
  | .decide approvalState => { c with approvalState := some approvalState }
  | .admission executionRequestId => { c with executionRequestId := some executionRequestId }
  | .claim runId claimGeneration =>
    { c with runId := some runId, claimGeneration := some claimGeneration }
  | .start runStatus => { c with runStatus := some runStatus }
  | .execute runId runStatus coordinatorStatus effectsAttempted activityId =>
    { c with
      runId := some runId
      runStatus := some runStatus
      coordinatorStatus := some coordinatorStatus
      effectsAttempted := some effectsAttempted
      activityId := activityId <|> c.activityId }
  | .advance graphId projectionId revision =>
    { c with
      advancedGraphId := some graphId
      advancedProjectionId := some projectionId
      advancedRevision := some revision }

/-- The JSON object of a projection. -/
def Projection.json : Projection → Json
  | .prepare planId approvalRequestId =>
    .obj (("plan_id", planId.json) ::
      (approvalRequestId.map fun a => (("approval_request_id" : Text), a.json)).toList)
  | .decide approvalState => .obj [("approval_state", approvalState.json)]
  | .admission executionRequestId => .obj [("execution_request_id", executionRequestId.json)]
  | .claim runId claimGeneration =>
    .obj [("run_id", runId.json), ("claim_generation", natJson claimGeneration)]
  | .start runStatus => .obj [("run_status", runStatus.json)]
  | .execute runId runStatus coordinatorStatus effectsAttempted activityId =>
    .obj (("run_id", runId.json) :: ("run_status", runStatus.json) ::
      ("coordinator_status", coordinatorStatus.json) ::
      ("effects_attempted", natJson effectsAttempted) ::
      (activityId.map fun a => (("activity_id" : Text), a.json)).toList)
  | .advance graphId projectionId revision =>
    .obj [("advanced_graph_id", graphId.json), ("advanced_projection_id", projectionId.json),
      ("advanced_revision", natJson revision)]

/-- A record of the request history. -/
structure Record where
  routeId : CommandRoute
  idempotencyKey : OperationRef
  bodySha256 : Digest
  response : Projection
deriving DecidableEq

/-- The target an operation is bound to. -/
structure Target where
  endpointSha256 : Digest
  workspaceId : Coordinate
deriving DecidableEq

/-- The journal of one operation. -/
structure Journal where
  operationRef : OperationRef
  target : Target
  desired : DesiredSource
  phase : Phase
  pendingRequest : Option Pending
  coordinates : Coordinates
  requestHistory : List Record
  lastResult : Option ClientResult

/-- `MAXIMUM_REQUEST_RECORDS`. -/
def maximumRequestRecords : Nat := 128

/-- `MAXIMUM_JOURNAL_BYTES`. -/
def maximumJournalBytes : Nat := 1048576

/-- `MAXIMUM_DESIRED_BYTES`. -/
def maximumDesiredBytes : Nat := 65536

/-! ### The document -/

/-- An optional member: left out when absent. -/
def optionalMember (name : String) (value : Option Json) : Fields :=
  (value.map fun v => ((name : Text), v)).toList

/-- The JSON object of a change. -/
def Change.json (change : Change) : Json :=
  .obj [("activity_id", change.activityId.json), ("operation", change.operation.json),
    ("target", .obj (change.target.map fun m => ((m.1.text : Text), m.2.json)))]

/-- `ClientResult.descriptor`. -/
def ClientResult.descriptor (result : ClientResult) : Json :=
  .obj (([("schema", .str "cpk.client-result.v1"), ("status", .str result.status.text),
    ("operation_ref", result.operationRef.json), ("workspace_id", result.workspaceId.json),
    ("execution", .str result.execution.text), ("advancement", .str result.advancement.text),
    ("observation", .obj [("health", .str "unknown"), ("freshness", .str "unknown")]),
    ("changes", .arr (result.changes.map Change.json)),
    ("next", .obj
      (optionalMember "command" (if result.offersApply then some (.str "cpk apply") else none) ++
        optionalMember "public_read" (result.nextPublicRead.map fun r => .str r.routeId)))] : Fields) ++
    optionalMember "plan_id" (result.planId.map Coordinate.json) ++
    optionalMember "approval_request_id" (result.approvalRequestId.map Coordinate.json) ++
    optionalMember "run_id" (result.runId.map Coordinate.json) ++
    optionalMember "required_scope" (result.requiredScope.map Coordinate.json) ++
    optionalMember "destructive" (result.destructive.map Json.bool))

/-- The JSON object of a pending request. -/
def Pending.json (pending : Pending) : Json :=
  .obj [("route_id", .str pending.routeId.routeId),
    ("path_parameters", .obj (pending.pathParameters.map fun m => ((m.1 : Text), m.2.json))),
    ("credential_role", .str pending.credentialRole.text),
    ("idempotency_key", pending.idempotencyKey.json), ("body", .obj pending.body),
    ("body_sha256", pending.bodySha256.json),
    ("desired_source", (pending.desiredSource.map DesiredSource.json).getD .null)]

/-- The JSON object of a history record. -/
def Record.json (record : Record) : Json :=
  .obj [("route_id", .str record.routeId.routeId),
    ("idempotency_key", record.idempotencyKey.json), ("body_sha256", record.bodySha256.json),
    ("response", record.response.json)]

/-- The journal document. -/
def Journal.json (journal : Journal) : Json :=
  .obj [("schema", .str "cpk.client-invocation.v1"),
    ("operation_ref", journal.operationRef.json),
    ("target", .obj [("endpoint_sha256", journal.target.endpointSha256.json),
      ("workspace_id", journal.target.workspaceId.json)]),
    ("desired", journal.desired.json), ("phase", .str journal.phase.text),
    ("pending_request", (journal.pendingRequest.map Pending.json).getD .null),
    ("coordinates", journal.coordinates.json),
    ("request_history", .arr (journal.requestHistory.map Record.json)),
    ("last_result", (journal.lastResult.map ClientResult.descriptor).getD .null)]

/-! ### Validation -/

/-- One check of the validator. -/
def require (condition : Bool) (message : String) : Except ClientError Unit :=
  if condition then .ok () else .error (.journal message)

/-- A sequence of checks passes when each of its conditions holds. -/
@[simp]
theorem require_eq_ok {condition : Bool} {message : String} :
    require condition message = .ok () ↔ condition = true := by
  cases condition <;> simp [require]

@[simp]
theorem require_bind_eq_ok {condition : Bool} {message : String}
    {f : Unit → Except ClientError Unit} :
    (require condition message >>= f) = .ok () ↔ condition = true ∧ f () = .ok () := by
  cases condition <;> simp [require, bind, Except.bind]

/-- `Path(path).is_absolute()`. -/
def isAbsolutePath (path : Text) : Bool :=
  path.codes.head? == some 47

/-- The phases for which the validator wants all plan coordinates. -/
def needsPlanCoordinates : Phase → Bool
  | .planning => false
  | .prepared => false
  | .attentionRequired => false
  | _ => true

/-- `required_by_phase`. -/
def requiredByPhase : Phase → List CoordinateName
  | .approved => [.approvalRequestId, .approvalState]
  | .admitted => [.executionRequestId]
  | .claimed => [.executionRequestId, .runId, .claimGeneration]
  | .started => [.executionRequestId, .runId, .claimGeneration, .runStatus]
  | .executing =>
    [.executionRequestId, .runId, .claimGeneration, .runStatus, .coordinatorStatus,
      .effectsAttempted]
  | .executed =>
    [.executionRequestId, .runId, .claimGeneration, .runStatus, .coordinatorStatus,
      .effectsAttempted]
  | .advanced =>
    [.executionRequestId, .runId, .claimGeneration, .runStatus, .coordinatorStatus,
      .effectsAttempted, .advancedGraphId, .advancedProjectionId, .advancedRevision]
  | .converged =>
    [.executionRequestId, .runId, .claimGeneration, .runStatus, .coordinatorStatus,
      .effectsAttempted, .advancedGraphId, .advancedProjectionId, .advancedRevision]
  | _ => []

/-- The member set of a retained request body, by route. -/
def bodyKeys : CommandRoute → List String
  | .prepare =>
    ["expected_current", "expected_desired", "expected_desired_graph_revision", "title",
      "idempotency_key"]
  | .decide => ["session_id", "decision", "idempotency_key"]
  | .admission => ["session_id", "approval_request_id", "readiness", "idempotency_key"]
  | .claim => ["lease_duration_seconds", "idempotency_key"]
  | .start => ["claim_generation", "idempotency_key"]
  | .execute => ["claim_generation", "max_effects", "idempotency_key"]
  | .advance =>
    ["plan_id", "claim_generation", "expected_current_graph_id",
      "expected_current_realized_projection_id", "desired_graph_id",
      "desired_realized_projection_id", "expected_desired_graph_revision", "idempotency_key"]

/-- The member set of the path parameters, by route. -/
def pathKeys : CommandRoute → List String
  | .prepare => ["workspace_id"]
  | .decide => ["workspace_id", "approval_id"]
  | .admission => ["workspace_id", "plan_id"]
  | .claim => ["workspace_id", "run_id"]
  | .start => ["workspace_id", "run_id"]
  | .execute => ["workspace_id", "run_id"]
  | .advance => ["workspace_id", "run_id"]

/-- `type(value) is int and value >= minimum`. -/
def isIntegerFrom (minimum : Int) : Json → Bool
  | .int n => decide (minimum ≤ n)
  | _ => false

/-- `_valid_pointer`. -/
def validPointer : Json → Bool
  | .obj members =>
    Fields.keysAre members ["authored_graph_id", "realized_projection_id"] &&
      members.all fun m => isTextCoordinate m.2
  | _ => false

/-- The route's own part of `_validate_pending`: the coordinates its path and body repeat. -/
def pendingMatches (path : PathParameters) (body : Fields) (coordinates : Coordinates) :
    CommandRoute → Bool
  | .prepare => true
  | .decide =>
    (path.get "approval_id").pyEq (coordinates.get .approvalRequestId) &&
      (body.get "session_id").pyEq (coordinates.get .sessionId) &&
      (body.get "decision").pyEq (.str "approved")
  | .admission =>
    (path.get "plan_id").pyEq (coordinates.get .planId) &&
      (body.get "session_id").pyEq (coordinates.get .sessionId) &&
      (body.get "approval_request_id").pyEq (coordinates.get .approvalRequestId) &&
      (body.get "readiness").pyEq (.arr [])
  | .claim =>
    (path.get "run_id").pyEq (coordinates.get .executionRequestId) &&
      isIntegerFrom 1 (body.get "lease_duration_seconds") &&
      (match body.get "lease_duration_seconds" with
        | .int n => decide (n ≤ 86400)
        | _ => false)
  | .start =>
    (path.get "run_id").pyEq (coordinates.get .runId) &&
      (body.get "claim_generation").pyEq (coordinates.get .claimGeneration)
  | .execute =>
    (path.get "run_id").pyEq (coordinates.get .runId) &&
      (body.get "claim_generation").pyEq (coordinates.get .claimGeneration) &&
      (body.get "max_effects").pyEq (.int 1)
  | .advance =>
    (path.get "run_id").pyEq (coordinates.get .runId) &&
      (body.get "plan_id").pyEq (coordinates.get .planId) &&
      (body.get "claim_generation").pyEq (coordinates.get .claimGeneration) &&
      (body.get "expected_current_graph_id").pyEq (coordinates.get .baseGraphId) &&
      (body.get "expected_current_realized_projection_id").pyEq
        (coordinates.get .baseRealizedProjectionId) &&
      (body.get "desired_graph_id").pyEq (coordinates.get .desiredGraphId) &&
      (body.get "desired_realized_projection_id").pyEq
        (coordinates.get .desiredRealizedProjectionId) &&
      (body.get "expected_desired_graph_revision").pyEq (coordinates.get .desiredGraphRevision)

/-- `_validate_pending`. -/
def validatePending (pending : Pending) (phase : Phase) (target : Target)
    (desired : DesiredSource) (coordinates : Coordinates) : Except ClientError Unit := do
  require (pending.credentialRole == mutationRole pending.routeId &&
    (pendingPhases pending.routeId).contains phase) "operation journal pending request is invalid"
  require ((pending.body.get "idempotency_key").pyEq pending.idempotencyKey.json)
    "operation journal pending request is invalid"
  require (pending.body.keysAre (bodyKeys pending.routeId) &&
    pending.pathParameters.keysAre (pathKeys pending.routeId))
    "operation journal pending request is invalid"
  require ((pending.pathParameters.get "workspace_id").pyEq target.workspaceId.json)
    "operation journal pending target is invalid"
  match pending.routeId with
  | .prepare =>
    require (pending.desiredSource == some desired &&
      validPointer (pending.body.get "expected_current") &&
      ((pending.body.get "expected_desired").pyEq .null ||
        validPointer (pending.body.get "expected_desired")) &&
      isIntegerFrom 0 (pending.body.get "expected_desired_graph_revision") &&
      isTextCoordinate (pending.body.get "title"))
      "operation journal prepare request is invalid"
  | route => do
    require (pending.desiredSource == none) "operation journal pending request is invalid"
    require (pendingMatches pending.pathParameters pending.body coordinates route)
      "operation journal pending coordinates are invalid"

/-- `_valid_change_target`. -/
def validChangeTarget (target : List (TargetKey × Coordinate)) : Bool :=
  (target.lookup .kind).isSome

/-- `_validate_result`. -/
def validateResult (result : ClientResult) (operationRef : OperationRef) (target : Target)
    (coordinates : Coordinates) : Except ClientError Unit := do
  require (result.operationRef == operationRef && result.workspaceId == target.workspaceId)
    "operation journal result is invalid"
  require (decide (result.changes.length ≤ maximumRequestRecords))
    "operation journal result is invalid"
  require (result.changes.all fun change => validChangeTarget change.target)
    "operation journal result is invalid"
  require ((result.planId.isNone || result.planId == coordinates.planId) &&
    (result.approvalRequestId.isNone ||
      result.approvalRequestId == coordinates.approvalRequestId) &&
    (result.runId.isNone || result.runId == coordinates.runId))
    "operation journal result coordinates are invalid"

/-- `coordinates.get(name) == text` for a text coordinate. -/
def Coordinates.textIs (c : Coordinates) (name : CoordinateName) (s : String) : Bool :=
  (c.get name).pyEq (.str s)

/-- `_validate_journal`. -/
def validateJournal (journal : Journal) (operationRef : OperationRef) :
    Except ClientError Unit := do
  require (journal.operationRef == operationRef) "operation journal identity is invalid"
  require (isAbsolutePath journal.desired.path &&
    decide (journal.desired.size ≤ maximumDesiredBytes))
    "operation journal desired reference is invalid"
  require (journal.phase != .planning || Coordinates.names.all fun n => !journal.coordinates.has n)
    "operation journal phase coordinates are invalid"
  require (journal.phase == .planning || journal.phase == .attentionRequired ||
    journal.coordinates.has .planId) "operation journal phase coordinates are invalid"
  require (!needsPlanCoordinates journal.phase || planCoordinates.all journal.coordinates.has)
    "operation journal phase coordinates are invalid"
  require ((requiredByPhase journal.phase).all journal.coordinates.has)
    "operation journal phase coordinates are invalid"
  require (!([Phase.executed, .advanced, .converged].contains journal.phase) ||
    (journal.coordinates.textIs .runStatus "succeeded" &&
      journal.coordinates.textIs .coordinatorStatus "completed"))
    "operation journal terminal coordinates are invalid"
  require (journal.phase != .started || journal.coordinates.textIs .runStatus "running")
    "operation journal run coordinates are invalid"
  require (journal.phase != .executing ||
    (journal.coordinates.textIs .runStatus "running" &&
      journal.coordinates.textIs .coordinatorStatus "progressed"))
    "operation journal run coordinates are invalid"
  require (!([Phase.advanced, .converged].contains journal.phase) ||
    ((journal.coordinates.get .advancedGraphId).pyEq (journal.coordinates.get .desiredGraphId) &&
      (journal.coordinates.get .advancedProjectionId).pyEq
        (journal.coordinates.get .desiredRealizedProjectionId) &&
      (journal.coordinates.get .advancedRevision).pyEq
        (journal.coordinates.get .desiredGraphRevision)))
    "operation journal advancement coordinates are invalid"
  match journal.pendingRequest with
  | some pending =>
    validatePending pending journal.phase journal.target journal.desired journal.coordinates
  | none => .ok ()
  require (decide (journal.requestHistory.length ≤ maximumRequestRecords))
    "operation journal request budget is exhausted"
  match journal.lastResult with
  | some result => validateResult result operationRef journal.target journal.coordinates
  | none => .ok ()

/-- `_encode_journal`: the bytes of a valid journal, within the journal's bound. -/
def encodeJournal (floatText : ℚ → List Char) (operationRef : OperationRef)
    (journal : Journal) : Except ClientError (List UInt8) := do
  validateJournal journal operationRef
  match journal.json.encode floatText with
  | none => .error (.journal "operation journal is invalid")
  | some raw =>
    if raw.length ≤ maximumJournalBytes then .ok (Json.asciiBytes raw)
    else .error (.journal "operation journal exceeds its bound")

theorem encodeJournal_valid {floatText : ℚ → List Char} {operationRef : OperationRef}
    {journal : Journal} {raw : List UInt8}
    (h : encodeJournal floatText operationRef journal = .ok raw) :
    validateJournal journal operationRef = .ok () := by
  unfold encodeJournal at h
  cases hv : validateJournal journal operationRef with
  | ok u => rfl
  | error e => simp [hv, bind, Except.bind] at h

end Client

end ControlPlaneKit
