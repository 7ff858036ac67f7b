import ControlPlaneKit.Client.Answers

/-!
# The topology client

`TopologyClient` with its four invocations `plan`, `resume_prepare`, `apply` and `status`, each
function under its name in the source. A function that changes the in-memory journal takes it as
an argument and returns the changed one; `apply` is cut at its own blocks, in their order. Where
every caller of a method returns its `ClientResult` unchanged, the method ends the invocation
itself (`returnNow`).
-/

namespace ControlPlaneKit

namespace Client

open Interaction

variable (rt : Runtime) (profile : ClientProfile)

/-! ### Transport calls -/

/-- `self.transport.call`. -/
def callTransport (operationRef : OperationRef) (route : Route) (path : PathParameters)
    (payload : Fields) (role : Role) : Block Fields :=
  .perform (.call ⟨operationRef, profile.endpoint, route, path, payload, role⟩) fun
    | .reply response => .pure response
    | .unresolved message => raise (.transport message)
    | .refused => raise .authorization
    | .unconfigured message => raise (.configuration message)

/-- `_read`. -/
def readPublic (operationRef : OperationRef) (route : ReadRoute) (path : PathParameters)
    (payload : Fields) : Block Fields :=
  callTransport profile operationRef (.read route) path payload .operator

/-- The path parameters of the workspace's own reads. -/
def workspacePath : PathParameters :=
  [("workspace_id", profile.workspaceId)]

/-- `_workspace`. -/
def readWorkspace (operationRef : OperationRef) : Block Fields := do
  let value ← readPublic profile operationRef .workspace (workspacePath profile) []
  lift (mapping value "workspace")

/-- `_plan_detail`. -/
def planDetail (operationRef : OperationRef) (planId : Coordinate) : Block Fields := do
  let value ← readPublic profile operationRef .planDetail
    [("workspace_id", profile.workspaceId), ("plan_id", planId)] []
  lift (mapping value "plan")

/-- `_approval_detail`. -/
def approvalDetail (operationRef : OperationRef) (approvalId : Coordinate) : Block Fields := do
  let value ← readPublic profile operationRef .approvalDetail
    [("workspace_id", profile.workspaceId), ("approval_id", approvalId)] []
  lift (mapping value "approval")

/-- `MAXIMUM_PAGE_ITEMS`. -/
def maximumPageItems : Nat := 100

/-- `MAXIMUM_PUBLIC_PAGES`. -/
def maximumPublicPages : Nat := 16

/-- `MAXIMUM_CURSOR_BYTES`. -/
def maximumCursorBytes : Nat := 16384

/-- The text that `_page` tells cursors apart by. -/
def cursorKey (cursor : Fields) : Except ClientError (List Char) :=
  if rt.depthLimit < (Json.obj cursor).depth then .error .recursionError
  else
    match (Json.obj cursor).encode rt.floatText with
    | none => .error (.input "public history cursor is invalid")
    | some key => .ok key

/-- The loop of `_page`, with the reads left, the items so far, the cursor and the keys seen. -/
def pageFrom (operationRef : OperationRef) (route : ReadRoute) (path : PathParameters) :
    Nat → List Json → Option Fields → List (List Char) → Block (List Json)
  | 0, _, _, _ => raise (.input "public history page budget is exhausted")
  | reads + 1, items, cursor, seen => do
    let page ← readPublic profile operationRef route path
      (("limit", natJson maximumPageItems) ::
        (cursor.map fun after => (("after" : Text), Json.obj after)).toList)
    match page.get "items" with
    | .arr batch =>
      if maximumPageItems < batch.length then raise (.input "public history page is invalid")
      else
        match page.get "next_cursor" with
        | .null => return items ++ batch
        | .obj next =>
          match cursorKey rt next with
          | .error e => raise e
          | .ok key =>
            if maximumCursorBytes < key.length || seen.contains key then
              raise (.input "public history cursor is invalid")
            else pageFrom operationRef route path reads (items ++ batch) (some next) (key :: seen)
        | _ => raise (.input "public history cursor is invalid")
    | _ => raise (.input "public history page is invalid")

/-- `_page`. -/
def readPages (operationRef : OperationRef) (route : ReadRoute) (path : PathParameters) :
    Block (List Json) :=
  pageFrom rt profile operationRef route path maximumPublicPages [] none []

/-- `_new_key`. -/
def newKey : Block OperationRef :=
  .perform .identity fun value => lift (canonicalOperationRef value)

/-- `_read_desired`. -/
def readDesired (path : Text) : Block (DesiredSource × Fields) :=
  .perform (.openDesired path) fun
    | .unavailable => raise (.input "desired graph file is unavailable")
    | .invalid => raise (.input "desired graph file is invalid")
    | .valueError => raise .valueError
    | .content absolute raw =>
      if maximumDesiredBytes < raw.length then
        raise (.input "desired graph exceeds the public request bound")
      else
        match rt.loadDesired raw with
        | none => raise (.input "desired graph document is invalid")
        | some (.obj value) => .pure (⟨absolute, raw.length, rt.sha256 raw⟩, value)
        | some _ => raise (.input "desired graph document must be an object")

/-! ### Results that end the invocation -/

/-- `_attention`. -/
def attention (journal : Journal) (execution : Execution) (advancement : Advancement)
    (nextPublicRead : ReadRoute) (persist : Bool) : Block ClientResult := do
  let result := projectJournal profile journal true (some execution) (some advancement)
    (some nextPublicRead) [] none
  if persist then
    writeJournal rt journal.operationRef { journal with lastResult := some result }
  return result

variable {α : Type}

/-- `return self._attention(...)`, persisting the result. -/
def stop (journal : Journal) (execution : Execution) (advancement : Advancement)
    (nextPublicRead : ReadRoute) : Block α := do
  let result ← attention rt profile journal execution advancement nextPublicRead true
  returnNow result

/-- `return self._attention(..., persist=False)`. -/
def stopUnpersisted (journal : Journal) (execution : Execution) (advancement : Advancement)
    (nextPublicRead : ReadRoute) : Block α := do
  let result ← attention rt profile journal execution advancement nextPublicRead false
  returnNow result

/-! ### Commands -/

/-- The attention result for a command whose outcome is not known. -/
def stopUnresolved (journal : Journal) (route : CommandRoute) : Block α :=
  stopUnpersisted rt profile journal
    (if route = .start ∨ route = .execute then .unverified else .notStarted)
    (if route = .advance then .unverified else .notAttempted) (nextRead journal)

/-- The journal after a response has been recorded. -/
def recorded (journal : Journal) (pending : Pending) (response : Fields)
    (projection : Projection) : Journal :=
  { journal with
    requestHistory := journal.requestHistory ++
      [⟨pending.routeId, pending.idempotencyKey, pending.bodySha256, projection⟩]
    coordinates := journal.coordinates.update projection
    pendingRequest := none
    phase := phaseAfter pending.routeId response }

/-- `_dispatch_pending`. -/
def dispatchPending (journal : Journal) (body : Fields) : Block (Fields × Journal) :=
  match journal.pendingRequest with
  | none => raise (.input "public pending_request is invalid")
  | some pending => do
    let response ← exceptTransport
      (callTransport profile journal.operationRef (.command pending.routeId)
        pending.pathParameters body pending.credentialRole)
      (stopUnresolved rt profile journal pending.routeId)
    let bound ← lift (responseIsBound pending.routeId response pending.pathParameters body
      journal.coordinates profile.workspaceId)
    if bound then
      let projection ← lift (responseCoordinates pending.routeId response)
      if maximumRequestRecords ≤ journal.requestHistory.length then
        stopUnpersisted rt profile journal .notStarted .notAttempted (nextRead journal)
      else
        let next := recorded journal pending response projection
        writeJournal rt journal.operationRef next
        return (response, next)
    else stopUnresolved rt profile journal pending.routeId

/-- `_mutate`. The body holds the key under `idempotency_key`. -/
def mutate (journal : Journal) (route : CommandRoute) (path : PathParameters) (body : Fields)
    (key : OperationRef) (role : Role) (desiredSource : Option DesiredSource) :
    Block (Fields × Journal) := do
  if maximumRequestRecords ≤ journal.requestHistory.length then
    stop rt profile journal .notStarted .notAttempted (nextRead journal)
  else
    let digest ← lift (canonicalDigest rt body)
    if route = .prepare ∧ desiredSource = none then
      raise (.journal "prepare source reference is missing")
    else
      let retained := if route = .prepare then body.pop "desired_graph" else body
      let next := { journal with
        pendingRequest := some ⟨route, path, role, key, retained, digest, desiredSource⟩ }
      writeJournal rt journal.operationRef next
      dispatchPending rt profile next body

/-- The body `_replay_pending` rebuilds: a preparation reads its desired graph again. -/
def replayBody (journal : Journal) (pending : Pending) : Block Fields :=
  if pending.routeId = .prepare then
    match pending.desiredSource with
    | none => raise (.input "public desired_source is invalid")
    | some source => do
      let path ← lift (textCoordinate (.str source.path))
      let (verified, desired) ← readDesired rt (.utf8 path.text)
      if verified ≠ source then
        stop rt profile journal .unverified .notAttempted .workspace
      else return pending.body.set "desired_graph" (.obj desired)
  else return pending.body

/-- `_replay_pending`. -/
def replayPending (journal : Journal) : Block (Fields × Journal) :=
  match journal.pendingRequest with
  | none => raise (.journal "operation has no pending request")
  | some pending => do
    let body ← replayBody rt profile journal pending
    let digest ← lift (canonicalDigest rt body)
    if digest ≠ pending.bodySha256 then
      stop rt profile journal .unverified .notAttempted (nextRead journal)
    else dispatchPending rt profile journal body

/-! ### Preparation -/

/-- `_plan_result`. -/
def planResult (journal : Journal) (plan : Fields) (approval : Option Fields)
    (preparationStatus : Coordinate) (changes : List Change) : Except ClientError ClientResult := do
  let scope ← match approval with
    | none => pure none
    | some approval => do
      let scope ← text approval "required_scope"
      let destructive ← boolean approval "destructive"
      pure (some (scope, destructive))
  let planId ← text plan "plan_id"
  let approvalRequestId ← match approval with
    | none => pure none
    | some approval => some <$> text approval "request_id"
  return {
    status :=
      if preparationStatus.text = "no-changes" then .noChanges
      else if preparationStatus.text = "review-blocked" then .attentionRequired
      else .planned
    operationRef := journal.operationRef
    workspaceId := journal.target.workspaceId
    planId := some planId
    approvalRequestId := approvalRequestId
    runId := none
    execution := .notStarted
    advancement := if preparationStatus.text = "no-changes" then .unchanged else .notAttempted
    requiredScope := scope.map (·.1)
    destructive := scope.map (·.2)
    changes := changes
    offersApply := preparationStatus.text == "approval-required"
    nextPublicRead := some .planDetail }

/-- The phase `_finish_prepare` records for a preparation status. -/
def preparedPhase (preparationStatus : Coordinate) : Phase :=
  if preparationStatus.text = "no-changes" then .noChanges
  else if preparationStatus.text = "review-blocked" then .attentionRequired
  else .prepared

/-- The coordinates `_finish_prepare` takes from the response again. -/
def preparedCoordinates (coordinates : Coordinates) (prepared : Fields) :
    Except ClientError Coordinates := do
  let planId ← text prepared "plan_id"
  if prepared.has "approval_request_id" then
    let approvalRequestId ← text prepared "approval_request_id"
    return { coordinates with
      planId := some planId, approvalRequestId := some approvalRequestId }
  else return { coordinates with planId := some planId }

/-- The plan read of `_finish_prepare`, with the changes it displays. -/
def preparedPlan (journal : Journal) (planId : Coordinate) : Block (Fields × List Change) :=
  exceptUnresolved
    (do
      let plan ← planDetail profile journal.operationRef planId
      lift (validatePlan journal plan)
      let changes ← lift (planChanges plan)
      return (plan, changes))
    (stop rt profile journal .unverified .notAttempted .planDetail)

/-- The approval read of `_finish_prepare`. -/
def preparedApproval (journal : Journal) (plan : Fields) : Block (Option Fields) :=
  match journal.coordinates.approvalRequestId with
  | none => return none
  | some approvalId =>
    exceptUnresolved
      (do
        let approval ← approvalDetail profile journal.operationRef approvalId
        lift (validateApproval plan approvalId approval)
        return some approval)
      (stop rt profile journal .unverified .notAttempted .approvalDetail)

/-- `_finish_prepare`. -/
def finishPrepare (journal : Journal) (prepared : Fields) : Block ClientResult := do
  let status ← lift (text prepared "status")
  if ["no-changes", "review-blocked", "approval-required"].contains status.text then
    let coordinates ← lift (preparedCoordinates journal.coordinates prepared)
    let journal := { journal with coordinates := coordinates }
    let planId ← lift (text prepared "plan_id")
    let (plan, changes) ← preparedPlan rt profile journal planId
    let coordinates ← lift (recordPlanCoordinates journal.coordinates plan)
    let journal := { journal with coordinates := coordinates }
    let approval ← preparedApproval rt profile journal plan
    let journal := { journal with phase := preparedPhase status }
    let result ← lift (planResult journal plan approval status changes)
    writeJournal rt journal.operationRef { journal with lastResult := some result }
    return result
  else stop rt profile journal .notStarted .notAttempted .workspace

/-- `_new_journal`. -/
def newJournal (operationRef : OperationRef) (desired : DesiredSource) : Journal where
  operationRef := operationRef
  target := profile.target rt
  desired := desired
  phase := .planning
  pendingRequest := none
  coordinates := {}
  requestHistory := []
  lastResult := none

/-- The body of the prepare request. -/
def prepareBody (desired : Fields) (current : Pointer) (expectedDesired : Option Pointer)
    (revision : Nat) (title : Coordinate) (key : OperationRef) : Fields :=
  [("desired_graph", .obj desired), ("expected_current", current.json),
    ("expected_desired", (expectedDesired.map Pointer.json).getD .null),
    ("expected_desired_graph_revision", natJson revision), ("title", title.json),
    ("idempotency_key", key.json)]

/-- `plan`. -/
def plan (desiredPath title : Text) : Invocation :=
  conclude do
    let (source, desired) ← readDesired rt desiredPath
    let reference ← .perform .identity fun value => .pure value
    let operationRef ← lift (canonicalOperationRef reference)
    let workspace ← readWorkspace profile operationRef
    let current ← lift (currentPointer workspace)
    match current with
    | none => raise (.input "workspace has no current graph")
    | some current => do
      let expectedDesired ← lift (desiredPointer workspace)
      let revision ← lift (integer workspace "desired_graph_revision" 0)
      let title ← lift (boundedTitle title)
      let key ← newKey
      let journal := newJournal rt profile operationRef source
      mutationLock operationRef
      createJournal rt operationRef journal
      let (prepared, journal) ← mutate rt profile journal .prepare (workspacePath profile)
        (prepareBody desired current expectedDesired revision title key) key .operator
        (some source)
      finishPrepare rt profile journal prepared

/-- `_load`. -/
def load (operationRef : OperationRef) : Block Journal := do
  let journal ← readJournal operationRef
  if journal.target ≠ profile.target rt then
    raise (.journal "operation target does not match the selected profile")
  else return journal

/-- `resume_prepare`. -/
def resumePrepare (reference : Text) : Invocation :=
  conclude do
    let operationRef ← lift (canonicalOperationRef reference)
    mutationLock operationRef
    let journal ← load rt profile operationRef
    if (journal.pendingRequest.map (·.routeId)) = some .prepare then
      let (prepared, journal) ← replayPending rt profile journal
      finishPrepare rt profile journal prepared
    else raise (.input "operation has no pending prepare request")

/-! ### Status -/

/-- What the reads of `_public_status` have shown so far. -/
structure Observed where
  execution : Option Execution := none
  advancement : Option Advancement := none
  changes : List Change := []
  approval : Option Fields := none

/-- A read of `_public_status`: where it stays unresolved, the result is built from what was seen
before it. -/
def observe (journal : Journal) (seen : Observed) (block : Block α) : Block α :=
  exceptUnresolved block do
    let result ← lift (statusFromJournal profile journal true
      (if journal.pendingRequest.isSome then some .unverified else seen.execution)
      (if journal.pendingRequest.isSome then some .unverified else seen.advancement)
      (some (nextRead journal)) seen.changes seen.approval)
    returnNow result

/-- The execution value of a public run status; the membership test raises on an unhashable
value. -/
def runExecution (status : Json) : Except ClientError Execution :=
  if status.pyEq (.str "succeeded") then .ok .succeeded
  else if status.pyEq (.str "failed") then .ok .failed
  else
    match status.memberOf ["queued", "claimed", "running"] with
    | none => .error .typeError
    | some true => .ok .running
    | some false => .ok .unverified

/-- The items of a run history that are about the journal's run. -/
def matchingRuns (runId : Coordinate) (items : List Json) : List Fields :=
  items.filterMap fun
    | .obj item => if (Fields.get item "run_id").pyEq runId.json then some item else none
    | _ => none

/-- The plan reads of `_public_status`. -/
def observePlan (journal : Journal) : Block (Option Fields × Observed) :=
  match journal.coordinates.planId with
  | none => return (none, {})
  | some planId => do
    let (plan, changes) ← observe profile journal {} do
      let plan ← planDetail profile journal.operationRef planId
      lift (validatePlan journal plan)
      let changes ← lift (planChanges plan)
      return (plan, changes)
    return (some plan, { changes := changes })

/-- The approval reads of `_public_status`, and whether the approval is a problem. -/
def observeApproval (journal : Journal) (plan : Option Fields) (seen : Observed) :
    Block (Bool × Observed) :=
  match journal.coordinates.approvalRequestId with
  | none => return (false, seen)
  | some approvalId => do
    let (plan, approval) ← observe profile journal seen do
      match plan with
      | none => raise (.input "public plan coordinates are invalid")
      | some plan => do
        let approval ← approvalDetail profile journal.operationRef approvalId
        return (plan, approval)
    let seen := { seen with approval := some approval }
    observe profile journal seen (lift (validateApproval plan approvalId approval))
    match (approval.get "state").memberOf ["pending", "approved"] with
    | none => raise .typeError
    | some known => return (!known, seen)

/-- The run reads of `_public_status`. -/
def observeRun (journal : Journal) (seen : Observed) : Block Observed :=
  match journal.coordinates.runId with
  | none => return seen
  | some runId => do
    let items ← observe profile journal seen do
      let planId ← lift (textCoordinate (journal.coordinates.get .planId))
      readPages rt profile journal.operationRef .planRuns
        [("workspace_id", profile.workspaceId), ("plan_id", planId)]
    match matchingRuns runId items with
    | [item] => do
      let execution ← lift (runExecution (item.get "status"))
      let seen := { seen with execution := some execution }
      let _ ← observe profile journal seen
        (readPages rt profile journal.operationRef .runEvents
          [("workspace_id", profile.workspaceId), ("run_id", runId)])
      return seen
    | _ =>
      returnNow (projectJournal profile journal true (some .unverified) (some .unverified)
        (some .planRuns) [] none)

/-- The current pointer of `_public_status`: read again once the desired graph is known. -/
def observeCurrent (journal : Journal) (current : Option Pointer) (seen : Observed) :
    Block (Option Pointer) :=
  match journal.coordinates.desiredGraphId with
  | none => return current
  | some _ =>
    observe profile journal seen do
      let observed ← readPublic profile journal.operationRef .currentGraph
        (workspacePath profile) []
      let graphId ← lift (text observed "graph_id")
      let projectionId ← lift (text observed "realized_projection_id")
      return some ⟨graphId, projectionId⟩

/-- Whether the current pointer is the recorded desired one. -/
def isDesired (coordinates : Coordinates) (current : Option Pointer) : Bool :=
  match current, coordinates.desiredGraphId, coordinates.desiredRealizedProjectionId with
  | some current, some graphId, some projectionId => current == ⟨graphId, projectionId⟩
  | _, _, _ => false

/-- The pointer comparison of `_public_status`. -/
def observePointer (journal : Journal) (current : Option Pointer) (seen : Observed) :
    Block Observed := do
  let current ← observeCurrent profile journal current seen
  return if isDesired journal.coordinates current then { seen with advancement := some .advanced }
    else seen

/-- The report of `_public_status` after all reads succeeded. -/
def observedStatus (journal : Journal) (approvalProblem : Bool) (seen : Observed) :
    Except ClientError ClientResult :=
  match journal.pendingRequest with
  | some pending =>
    statusFromJournal profile journal true
      (if pending.routeId = .start ∨ pending.routeId = .execute then some .unverified
        else seen.execution)
      (if pending.routeId = .advance then some .unverified else seen.advancement)
      (some (nextRead journal)) seen.changes seen.approval
  | none =>
    let attention := approvalProblem ||
      (seen.execution == some .failed || seen.execution == some .unverified) ||
      ((journal.phase == .advanced || journal.phase == .converged) &&
        seen.advancement != some .advanced)
    statusFromJournal profile journal attention seen.execution seen.advancement
      (if attention then some (nextRead journal) else none) seen.changes seen.approval

/-- `_public_status`. -/
def publicStatus (journal : Journal) : Block ClientResult :=
  returning do
    let current ← observe profile journal {} do
      let workspace ← readWorkspace profile journal.operationRef
      lift (currentPointer workspace)
    let (plan, seen) ← observePlan profile journal
    let (approvalProblem, seen) ← observeApproval profile journal plan seen
    let seen ← observeRun rt profile journal seen
    let seen ← observePointer profile journal current seen
    lift (observedStatus profile journal approvalProblem seen)

/-- `status`. -/
def status (reference : Text) : Invocation :=
  conclude do
    let operationRef ← lift (canonicalOperationRef reference)
    let journal ← load rt profile operationRef
    publicStatus rt profile journal

/-! ### Apply -/

/-- The arguments of `apply` after the operation reference. -/
structure ApplyArguments where
  executePlan : Text
  approvePlan : Option Text
  approveDestructivePlan : Option Text

/-- The plan read of `apply`. -/
def confirmPlan (journal : Journal) (planId : Coordinate) : Block Fields :=
  exceptUnresolved
    (do
      let plan ← planDetail profile journal.operationRef planId
      lift (validatePlan journal plan)
      return plan)
    (stop rt profile journal .unverified .notAttempted .planDetail)

/-- Plan coordinates that the preparation left out are recorded first. -/
def retainPlan (journal : Journal) (plan : Fields) : Block Journal :=
  if journal.coordinates.has .sessionId then return journal
  else do
    let coordinates ← lift (recordPlanCoordinates journal.coordinates plan)
    let journal := { journal with coordinates := coordinates }
    writeJournal rt journal.operationRef journal
    return journal

/-- The approval read of `apply`. -/
def confirmApproval (journal : Journal) (plan : Fields) (approvalId : Coordinate) : Block Fields :=
  exceptUnresolved
    (do
      let approval ← approvalDetail profile journal.operationRef approvalId
      lift (validateApproval plan approvalId approval)
      return approval)
    (stop rt profile journal .unverified .notAttempted .approvalDetail)

/-- The approval gate of `apply`: whether the approval is still pending. -/
def approvalGate (journal : Journal) (plan : Fields) (planId : Coordinate)
    (arguments : ApplyArguments) : Block Bool :=
  match journal.coordinates.approvalRequestId with
  | none => return false
  | some approvalId => do
    let approval ← confirmApproval rt profile journal plan approvalId
    if (approval.get "state").pyEq (.str "pending") then
      let destructive ← lift (boolean approval "destructive")
      let supplied :=
        if destructive then arguments.approveDestructivePlan else arguments.approvePlan
      let wrong :=
        if destructive then arguments.approvePlan else arguments.approveDestructivePlan
      if supplied ≠ some (.utf8 planId.text) then
        raise (.input "exact plan approval is required")
      else if wrong ≠ none then
        raise (.input "approval kind does not match the plan")
      else if journal.pendingRequest.isSome &&
          (journal.pendingRequest.map (·.routeId)) != some .decide then
        stop rt profile journal .notStarted .notAttempted .approvalDetail
      else return true
    else if (approval.get "state").pyEq (.str "approved") then return false
    else stop rt profile journal .notStarted .notAttempted .approvalDetail

/-- The progress gate of `apply`, once a run is known. -/
def progressGate (journal : Journal) : Block Unit :=
  if journal.coordinates.has .runId then do
    let observed ← publicStatus rt profile journal
    if journal.pendingRequest.isNone && observed.status == .attentionRequired then
      returnNow observed
    else if (journal.phase == .executed || journal.phase == .advanced ||
        journal.phase == .converged) && observed.execution != .succeeded then
      stop rt profile journal .unverified .notAttempted .planRuns
    else if (journal.phase == .advanced || journal.phase == .converged) &&
        observed.advancement != .advanced then
      stop rt profile journal .succeeded .unverified .currentGraph
    else return ()
  else return ()

/-- The replay of a pending request, if there is one. -/
def recoverPending (journal : Journal) : Block Journal :=
  if journal.pendingRequest.isSome then do
    let (_, journal) ← replayPending rt profile journal
    return journal
  else return journal

/-- The returns of `apply` in a phase that is over. -/
def stopIfOver (journal : Journal) : Block Unit :=
  if journal.phase = .noChanges then
    returnNow (projectJournal profile journal false none none none [] none)
  else if journal.phase = .attentionRequired then
    returnNow (projectJournal profile journal true none none none [] none)
  else return ()

/-- The approval decision. -/
def decideApproval (journal : Journal) (plan : Fields) : Block Journal :=
  match journal.coordinates.approvalRequestId with
  | none => raise (.journal "approval coordinate is missing")
  | some approvalId => do
    let sessionId ← lift (text plan "session_id")
    let key ← newKey
    let (decided, journal) ← mutate rt profile journal .decide
      [("workspace_id", profile.workspaceId), ("approval_id", approvalId)]
      [("session_id", sessionId.json), ("decision", .str "approved"),
        ("idempotency_key", key.json)] key .approver none
    if (decided.get "state").pyEq (.str "approved") then return journal
    else stop rt profile journal .notStarted .notAttempted .approvalDetail

/-- The admission. -/
def admitDeployment (journal : Journal) (plan : Fields) (planId : Coordinate) : Block Journal :=
  if journal.coordinates.has .executionRequestId then return journal
  else do
    let sessionId ← lift (text plan "session_id")
    let approvalId ← lift (textCoordinate (journal.coordinates.get .approvalRequestId))
    let key ← newKey
    let (_, journal) ← mutate rt profile journal .admission
      [("workspace_id", profile.workspaceId), ("plan_id", planId)]
      [("session_id", sessionId.json), ("approval_request_id", approvalId.json),
        ("readiness", .arr []), ("idempotency_key", key.json)] key .operator none
    return journal

/-- The claim. -/
def claimRun (journal : Journal) : Block Journal :=
  if journal.coordinates.has .runId then return journal
  else do
    let requestId ← lift (textCoordinate (journal.coordinates.get .executionRequestId))
    let key ← newKey
    let (_, journal) ← mutate rt profile journal .claim
      [("workspace_id", profile.workspaceId), ("run_id", requestId)]
      [("lease_duration_seconds", .int 1800), ("idempotency_key", key.json)] key .worker none
    return journal

/-- The start. -/
def startRun (journal : Journal) (runId : Coordinate) (generation : Nat) : Block Journal :=
  if [Phase.claimed, .prepared, .approved, .admitted].contains journal.phase then do
    let key ← newKey
    let (started, journal) ← mutate rt profile journal .start
      [("workspace_id", profile.workspaceId), ("run_id", runId)]
      [("claim_generation", natJson generation), ("idempotency_key", key.json)] key .worker none
    if (started.get "run_status").pyEq (.str "running") then return journal
    else stop rt profile journal .notStarted .notAttempted .planRuns
  else return journal

/-- The execution value reported for a coordinator status that is neither completed nor
progressed. -/
def stoppedExecution (status : Coordinate) : Execution :=
  match status.text with
  | "in-flight" => .running
  | "blocked" => .blocked
  | "failed" => .failed
  | "unsupported" => .unsupported
  | "uncertain" => .uncertain
  | _ => .unverified

/-- The execute loop, with the steps left. -/
def executeSteps (runId : Coordinate) (generation : Nat) : Nat → Journal → Block Journal
  | 0, journal => stop rt profile journal .running .notAttempted .runEvents
  | steps + 1, journal => do
    let key ← newKey
    let (executed, journal) ← mutate rt profile journal .execute
      [("workspace_id", profile.workspaceId), ("run_id", runId)]
      [("claim_generation", natJson generation), ("max_effects", .int 1),
        ("idempotency_key", key.json)] key .worker none
    let status ← lift (text executed "coordinator_status")
    if status.text = "completed" then
      if (executed.get "run_status").pyEq (.str "succeeded") then return journal
      else stop rt profile journal .notStarted .notAttempted .planRuns
    else if status.text = "progressed" then executeSteps runId generation steps journal
    else stop rt profile journal (stoppedExecution status) .notAttempted .runEvents

/-- The execution. -/
def executeRun (journal : Journal) (runId : Coordinate) (generation : Nat) : Block Journal :=
  if [Phase.executed, .advanced, .converged].contains journal.phase then return journal
  else executeSteps rt profile runId generation maximumRequestRecords journal

/-- The workspace read before the advancement. -/
def currentBeforeAdvance (journal : Journal) : Block (Option Pointer) :=
  exceptUnresolved
    (do
      let workspace ← readWorkspace profile journal.operationRef
      lift (currentPointer workspace))
    (stop rt profile journal .succeeded .unverified .currentGraph)

/-- The advancement. -/
def advanceCurrent (journal : Journal) (plan : Fields) (planId runId : Coordinate)
    (generation : Nat) : Block Journal :=
  if journal.phase = .advanced then return journal
  else do
    let current ← currentBeforeAdvance rt profile journal
    match current with
    | none => stop rt profile journal .notStarted .unverified .currentGraph
    | some current => do
      let baseGraphId ← lift (text plan "base_graph_id")
      let baseProjectionId ← lift (text plan "base_realized_projection_id")
      if current ≠ ⟨baseGraphId, baseProjectionId⟩ then
        stop rt profile journal .succeeded .unverified .currentGraph
      else
        let desiredGraphId ← lift (text plan "desired_graph_id")
        let desiredProjectionId ← lift (text plan "desired_realized_projection_id")
        let revision ← lift (integer plan "desired_graph_revision" 0)
        let key ← newKey
        let (_, journal) ← mutate rt profile journal .advance
          [("workspace_id", profile.workspaceId), ("run_id", runId)]
          [("plan_id", planId.json), ("claim_generation", natJson generation),
            ("expected_current_graph_id", current.authoredGraphId.json),
            ("expected_current_realized_projection_id", current.realizedProjectionId.json),
            ("desired_graph_id", desiredGraphId.json),
            ("desired_realized_projection_id", desiredProjectionId.json),
            ("expected_desired_graph_revision", natJson revision),
            ("idempotency_key", key.json)] key .worker none
        return journal

/-- The read-back that ends a converged `apply`. -/
def readBack (journal : Journal) (plan : Fields) : Block ClientResult := do
  let observed ← exceptUnresolved
    (readPublic profile journal.operationRef .currentGraph (workspacePath profile) [])
    (stop rt profile journal .succeeded .unverified .currentGraph)
  if (observed.get "graph_id").pyEq (plan.get "desired_graph_id") &&
      (observed.get "realized_projection_id").pyEq
        (plan.get "desired_realized_projection_id") then
    let journal := { journal with phase := .converged }
    let result := projectJournal profile journal false none none none [] none
    writeJournal rt journal.operationRef { journal with lastResult := some result }
    return result
  else stop rt profile journal .notStarted .unverified .currentGraph

/-- `_integer(coordinates, "claim_generation", minimum=1)`. -/
def claimGeneration (journal : Journal) : Except ClientError Nat :=
  match journal.coordinates.claimGeneration with
  | some generation =>
    if 1 ≤ generation then .ok generation
    else .error (.input "public claim_generation is invalid")
  | none => .error (.input "public claim_generation is invalid")

/-- `apply` from the admission on. -/
def applyFromAdmission (journal : Journal) (plan : Fields) (planId : Coordinate) :
    Block ClientResult := do
  let journal ← admitDeployment rt profile journal plan planId
  let journal ← claimRun rt profile journal
  let runId ← lift (textCoordinate (journal.coordinates.get .runId))
  let generation ← lift (claimGeneration journal)
  let journal ← startRun rt profile journal runId generation
  let journal ← executeRun rt profile journal runId generation
  let journal ← advanceCurrent rt profile journal plan planId runId generation
  readBack rt profile journal plan

/-- The decision, where the approval is pending and no request was. -/
def decideIf (decides : Bool) (journal : Journal) (plan : Fields) : Block Journal :=
  if decides then decideApproval rt profile journal plan else return journal

/-- `apply` after its gates: replay, early returns, decision, and the rest. -/
def applyCommands (journal : Journal) (plan : Fields) (planId : Coordinate)
    (approvalPending : Bool) : Block ClientResult := do
  let decides := approvalPending && journal.pendingRequest.isNone
  let journal ← recoverPending rt profile journal
  stopIfOver profile journal
  let journal ← decideIf rt profile decides journal plan
  applyFromAdmission rt profile journal plan planId

/-- `apply` inside the lock. -/
def applyLocked (operationRef : OperationRef) (arguments : ApplyArguments) :
    Block ClientResult := do
  let journal ← load rt profile operationRef
  if (journal.pendingRequest.map (·.routeId)) = some .prepare then
    raise (.input "pending preparation must be resumed with plan")
  else
    let planId ← lift (textCoordinate (journal.coordinates.get .planId))
    if arguments.executePlan ≠ .utf8 planId.text then
      raise (.input "execution confirmation does not match the prepared plan")
    else
      let plan ← confirmPlan rt profile journal planId
      let journal ← retainPlan rt journal plan
      let approvalPending ← approvalGate rt profile journal plan planId arguments
      progressGate rt profile journal
      applyCommands rt profile journal plan planId approvalPending

/-- `apply`. -/
def apply (reference : Text) (arguments : ApplyArguments) : Invocation :=
  conclude do
    let operationRef ← lift (canonicalOperationRef reference)
    if arguments.executePlan = .utf8 "" then
      raise (.input "exact plan execution confirmation is required")
    else
      mutationLock operationRef
      applyLocked rt profile operationRef arguments

end Client

end ControlPlaneKit
