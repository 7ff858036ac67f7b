import ControlPlaneKit.Client.Journal
import ControlPlaneKit.Server.Boundary

/-!
# Reading a journal

`JournalStore.read` decodes the bytes and runs `_validate_journal` on a value of which nothing is
known yet. The validator is followed here on arbitrary JSON values, with the exceptions it can raise:
membership in a set of texts hashes the value first, so a list or an object raises `TypeError` there,
and the decoder raises `RecursionError` on deeply nested documents. All other checks are safe on
every shape.
-/

namespace ControlPlaneKit

namespace Client

open Server (Loaded)

/-! ### Checks -/

/-- What `JournalStore.read` raises once the bytes are there. -/
inductive ReadFailure where
  /-- `JournalError`. -/
  | journal (message : String)
  | typeError
  | recursionError
deriving DecidableEq

/-- One check: `raise JournalError(message)` unless it holds. -/
def ensure (condition : Bool) (message : String) : Except ReadFailure Unit :=
  if condition then .ok () else .error (.journal message)

/-- `value in {names...}` as a check: it hashes the value. -/
def ensureMember (names : List String) (value : Json) (message : String) :
    Except ReadFailure Unit :=
  match value.memberOf names with
  | none => .error .typeError
  | some known => ensure known message

/-- `hash(value)` does not raise. -/
def hashable : Json → Bool
  | .arr _ => false
  | .obj _ => false
  | _ => true

/-- `set(value) <= {names...}`. -/
def keysWithin (members : Fields) (names : List String) : Bool :=
  members.all fun m => names.any fun n => m.1 == .utf8 n

/-- `value in {names...}` for a value that can be hashed. -/
def isOneOf (names : List String) (value : Json) : Bool :=
  names.any fun n => value.pyEq (.str n)

/-- A `dict` with exactly these keys. -/
def hasKeys (names : List String) : Json → Bool
  | .obj members => Fields.keysAre members names
  | _ => false

/-- A `dict`. -/
def isObject : Json → Bool
  | .obj _ => true
  | _ => false

/-- A `bool`. -/
def isFlag : Json → Bool
  | .bool _ => true
  | _ => false

/-- An `int` up to a bound. -/
def isIntegerTo (maximum : ℤ) : Json → Bool
  | .int n => decide (n ≤ maximum)
  | _ => false

/-- An absolute path. -/
def isPathText : Json → Bool
  | .str path => isAbsolutePath path
  | _ => false

/-- `_is_sha256`. -/
def isSha256Text : Json → Bool
  | .str (.utf8 s) => isSha256 s
  | _ => false

/-- `_is_uuid4`. -/
def isUuid4Text : Json → Bool
  | .str (.utf8 s) => isUuid4 s
  | _ => false

/-! ### The members of a document -/

/-- `_JOURNAL_KEYS`. -/
def journalKeys : List String :=
  ["schema", "operation_ref", "target", "desired", "phase", "pending_request", "coordinates",
    "request_history", "last_result"]

/-- `_PHASES`. -/
def phases : List String :=
  ["planning", "prepared", "no-changes", "approved", "admitted", "claimed", "started", "executing",
    "executed", "advanced", "converged", "attention-required"]

/-- The keys of `_MUTATION_ROLES`. -/
def commandRoutes : List CommandRoute :=
  [.prepare, .decide, .admission, .claim, .start, .execute, .advance]

/-- The phase of this text. -/
def phaseOf (value : Json) : Option Phase :=
  [Phase.planning, .prepared, .noChanges, .approved, .admitted, .claimed, .started, .executing,
    .executed, .advanced, .converged, .attentionRequired].find? fun p => value.pyEq (.str p.text)

/-- The route of this text. -/
def routeOf (value : Json) : Option CommandRoute :=
  commandRoutes.find? fun r => value.pyEq (.str r.routeId)

/-- The target's shape. -/
def isTarget : Json → Bool
  | .obj members =>
    Fields.keysAre members ["endpoint_sha256", "workspace_id"] &&
      isSha256Text (Fields.get members "endpoint_sha256") &&
      isTextCoordinate (Fields.get members "workspace_id")
  | _ => false

/-- The shape of the reference to the desired graph. -/
def isDesiredReference : Json → Bool
  | .obj members =>
    Fields.keysAre members ["path", "size", "sha256"] &&
      isPathText (Fields.get members "path") &&
      (isIntegerFrom 0 (Fields.get members "size") && isIntegerTo 65536 (Fields.get members "size")) &&
      isSha256Text (Fields.get members "sha256")
  | _ => false

/-- The members of an object. -/
def membersOf : Json → Fields
  | .obj members => members
  | _ => []

/-- The coordinates' shape. -/
def isCoordinates : Json → Bool
  | .obj members =>
    keysWithin members (Coordinates.names.map CoordinateName.key) && members.all fun m =>
      if (["desired_graph_revision", "claim_generation", "effects_attempted",
          "advanced_revision"] : List String).any fun n => m.1 == .utf8 n then
        isIntegerFrom 0 m.2
      else isTextCoordinate m.2
  | _ => false

/-- `_validate_journal` up to the phase. -/
def checkHead (value : Json) (ref : OperationRef) : Except ReadFailure Unit := do
  ensure (hasKeys journalKeys value) "operation journal is invalid"
  let members := membersOf value
  ensure ((members.get "schema").pyEq (.str "cpk.client-invocation.v1") &&
    (members.get "operation_ref").pyEq ref.json) "operation journal identity is invalid"
  ensure (isTarget (members.get "target")) "operation journal target is invalid"
  ensure (isDesiredReference (members.get "desired")) "operation journal desired reference is invalid"

/-- The check of the phase. -/
def checkPhase (members : Fields) : Except ReadFailure Unit :=
  ensureMember phases (members.get "phase") "operation journal phase is invalid"

/-- The checks of the coordinates, for a phase. -/
def checkCoordinates (phase : Phase) (value : Json) : Except ReadFailure Unit := do
  ensure (isCoordinates value) "operation journal coordinates are invalid"
  let coordinates := membersOf value
  let has := fun n : CoordinateName => coordinates.has n.key
  let is := fun (n : CoordinateName) (text : String) => (coordinates.get n.key).pyEq (.str text)
  ensure (phase != .planning || coordinates.isEmpty)
    "operation journal phase coordinates are invalid"
  ensure (phase == .planning || phase == .attentionRequired || has .planId)
    "operation journal phase coordinates are invalid"
  ensure (!needsPlanCoordinates phase || planCoordinates.all has)
    "operation journal phase coordinates are invalid"
  ensure ((requiredByPhase phase).all has) "operation journal phase coordinates are invalid"
  ensure (!([Phase.executed, .advanced, .converged].contains phase) ||
    (is .runStatus "succeeded" && is .coordinatorStatus "completed"))
    "operation journal terminal coordinates are invalid"
  ensure (phase != .started || is .runStatus "running")
    "operation journal run coordinates are invalid"
  ensure (phase != .executing || (is .runStatus "running" && is .coordinatorStatus "progressed"))
    "operation journal run coordinates are invalid"
  ensure (!([Phase.advanced, .converged].contains phase) ||
    ((coordinates.get "advanced_graph_id").pyEq (coordinates.get "desired_graph_id") &&
      (coordinates.get "advanced_projection_id").pyEq
        (coordinates.get "desired_realized_projection_id") &&
      (coordinates.get "advanced_revision").pyEq (coordinates.get "desired_graph_revision")))
    "operation journal advancement coordinates are invalid"

/-! ### The pending request -/

/-- The keys of a pending request. -/
def pendingKeys : List String :=
  ["route_id", "path_parameters", "credential_role", "idempotency_key", "body", "body_sha256",
    "desired_source"]

/-- The comparison of a request other than a preparation with the coordinates. -/
def matchesCoordinates (path body coordinates : Fields) : CommandRoute → Bool
  | .prepare => false
  | .decide =>
    (path.get "approval_id").pyEq (coordinates.get "approval_request_id") &&
      (body.get "session_id").pyEq (coordinates.get "session_id") &&
      (body.get "decision").pyEq (.str "approved")
  | .admission =>
    (path.get "plan_id").pyEq (coordinates.get "plan_id") &&
      (body.get "session_id").pyEq (coordinates.get "session_id") &&
      (body.get "approval_request_id").pyEq (coordinates.get "approval_request_id") &&
      (body.get "readiness").pyEq (.arr [])
  | .claim =>
    (path.get "run_id").pyEq (coordinates.get "execution_request_id") &&
      isIntegerFrom 1 (body.get "lease_duration_seconds") &&
      isIntegerTo 86400 (body.get "lease_duration_seconds")
  | .start =>
    (path.get "run_id").pyEq (coordinates.get "run_id") &&
      (body.get "claim_generation").pyEq (coordinates.get "claim_generation")
  | .execute =>
    (path.get "run_id").pyEq (coordinates.get "run_id") &&
      (body.get "claim_generation").pyEq (coordinates.get "claim_generation") &&
      (body.get "max_effects").pyEq (.int 1)
  | .advance =>
    (path.get "run_id").pyEq (coordinates.get "run_id") &&
      (body.get "plan_id").pyEq (coordinates.get "plan_id") &&
      (body.get "claim_generation").pyEq (coordinates.get "claim_generation") &&
      (body.get "expected_current_graph_id").pyEq (coordinates.get "base_graph_id") &&
      (body.get "expected_current_realized_projection_id").pyEq
        (coordinates.get "base_realized_projection_id") &&
      (body.get "desired_graph_id").pyEq (coordinates.get "desired_graph_id") &&
      (body.get "desired_realized_projection_id").pyEq
        (coordinates.get "desired_realized_projection_id") &&
      (body.get "expected_desired_graph_revision").pyEq (coordinates.get "desired_graph_revision")

/-- `_validate_pending` once the route is known. -/
def checkRequest (route : CommandRoute) (pending : Fields) (phase : Phase) (target : Fields)
    (desired : Json) (coordinates : Fields) : Except ReadFailure Unit := do
  ensure ((pending.get "credential_role").pyEq (.str (mutationRole route).text) &&
    (pendingPhases route).contains phase && isUuid4Text (pending.get "idempotency_key") &&
    isSha256Text (pending.get "body_sha256")) "operation journal pending request is invalid"
  ensure (isObject (pending.get "path_parameters") && isObject (pending.get "body"))
    "operation journal pending request is invalid"
  let path := membersOf (pending.get "path_parameters")
  let body := membersOf (pending.get "body")
  ensure ((body.get "idempotency_key").pyEq (pending.get "idempotency_key"))
    "operation journal pending request is invalid"
  ensure (body.keysAre (bodyKeys route) && path.keysAre (pathKeys route))
    "operation journal pending request is invalid"
  ensure ((path.get "workspace_id").pyEq (target.get "workspace_id"))
    "operation journal pending target is invalid"
  if route = .prepare then
    ensure ((pending.get "desired_source").pyEq desired && validPointer (body.get "expected_current") &&
      ((body.get "expected_desired").pyEq .null || validPointer (body.get "expected_desired")) &&
      isIntegerFrom 0 (body.get "expected_desired_graph_revision") &&
      isTextCoordinate (body.get "title")) "operation journal prepare request is invalid"
  else
    ensure ((pending.get "desired_source").pyEq .null) "operation journal pending request is invalid"
    ensure (matchesCoordinates path body coordinates route)
      "operation journal pending coordinates are invalid"

/-- `_validate_pending` up to the route. -/
def checkPendingKeys (pending : Json) : Except ReadFailure Unit :=
  ensure (hasKeys pendingKeys pending) "operation journal pending request is invalid"

/-- `_validate_pending`, for a request that is not `None`. -/
def checkPending (pending : Json) (phase : Phase) (target : Fields) (desired : Json)
    (coordinates : Fields) : Except ReadFailure Unit :=
  if pending.pyEq .null then .ok ()
  else do
    checkPendingKeys pending
    let members := membersOf pending
    ensureMember (commandRoutes.map CommandRoute.routeId) (members.get "route_id")
      "operation journal pending request is invalid"
    match routeOf (members.get "route_id") with
    | some route => checkRequest route members phase target desired coordinates
    | none => .error (.journal "operation journal pending request is invalid")

/-! ### The history -/

/-- The keys of a record are there. -/
def isRecord : Json → Bool :=
  hasKeys ["route_id", "idempotency_key", "body_sha256", "response"]

/-- The check of one record. -/
def checkRecord (record : Json) : Except ReadFailure Unit := do
  ensure (isRecord record) "operation journal request history is invalid"
  let members := membersOf record
  ensureMember (commandRoutes.map CommandRoute.routeId) (members.get "route_id")
    "operation journal request history is invalid"
  ensure (isUuid4Text (members.get "idempotency_key") && isSha256Text (members.get "body_sha256") &&
    isObject (members.get "response")) "operation journal request history is invalid"

/-- The loop over the records. -/
def checkRecords : List Json → Except ReadFailure Unit
  | [] => .ok ()
  | record :: records => do
    checkRecord record
    checkRecords records

/-- The items of a list. -/
def itemsOf : Json → List Json
  | .arr items => items
  | _ => []

/-- The checks of the history. -/
def checkHistory (history : Json) : Except ReadFailure Unit := do
  ensure (match history with
    | .arr items => decide (items.length ≤ maximumRequestRecords)
    | _ => false) "operation journal request budget is exhausted"
  checkRecords (itemsOf history)

/-! ### The last result -/

/-- The keys and the identity of a result. -/
def isResult (ref : OperationRef) (target : Fields) : Json → Bool
  | .obj members =>
    (["schema", "status", "operation_ref", "workspace_id", "execution", "advancement",
        "observation", "changes", "next"].all fun n => Fields.has members n) &&
      keysWithin members ["schema", "status", "operation_ref", "workspace_id", "execution",
        "advancement", "observation", "changes", "next", "plan_id", "approval_request_id", "run_id",
        "required_scope", "destructive"] &&
      (Fields.get members "schema").pyEq (.str "cpk.client-result.v1") &&
      (Fields.get members "operation_ref").pyEq ref.json &&
      (Fields.get members "workspace_id").pyEq (target.get "workspace_id")
  | _ => false

/-- `_valid_change_target`. -/
def isChangeTarget : Json → Bool
  | .obj members =>
    Fields.has members "kind" && keysWithin members ["kind", "node_id", "runtime_id", "edge_id"] &&
      members.all fun m => isTextCoordinate m.2
  | _ => false

/-- One change. -/
def isChange : Json → Bool
  | .obj members =>
    Fields.keysAre members ["activity_id", "operation", "target"] &&
      isTextCoordinate (Fields.get members "activity_id") &&
      isTextCoordinate (Fields.get members "operation") && isChangeTarget (Fields.get members "target")
  | _ => false

/-- The observation has its keys. -/
def isObservation : Json → Bool :=
  hasKeys ["health", "freshness"]

/-- The changes of a result. -/
def isChanges : Json → Bool
  | .arr items => decide (items.length ≤ maximumRequestRecords) && items.all isChange
  | _ => false

/-- The next steps of a result. -/
def isNext : Json → Bool
  | .obj next => keysWithin next ["command", "public_read"] && next.all fun m => isTextCoordinate m.2
  | _ => false

/-- The checks of a result after its enumerations. -/
def checkDetails (members coordinates : Fields) : Except ReadFailure Unit := do
  ensure (isChanges (members.get "changes")) "operation journal result is invalid"
  ensure (isNext (members.get "next")) "operation journal result is invalid"
  ensure (["plan_id", "approval_request_id", "run_id"].all fun n =>
    !members.has n || (members.get n).pyEq (coordinates.get n))
    "operation journal result coordinates are invalid"
  ensure (!members.has "required_scope" || isTextCoordinate (members.get "required_scope"))
    "operation journal result is invalid"
  ensure (!members.has "destructive" || isFlag (members.get "destructive"))
    "operation journal result is invalid"

/-- The statuses of a result. -/
def resultStatuses : List String :=
  ["planned", "running", "no-changes", "converged", "attention-required"]

/-- The executions of a result. -/
def resultExecutions : List String :=
  ["not-started", "running", "succeeded", "blocked", "failed", "unsupported", "uncertain",
    "unverified"]

/-- The advancements of a result. -/
def resultAdvancements : List String :=
  ["not-attempted", "advanced", "unchanged", "unverified"]

/-- The healths of an observation. -/
def observedHealths : List String :=
  ["healthy", "unhealthy", "unknown"]

/-- The enumerations of a result, in the order in which they are tested. -/
def checkEnumerations (members : Fields) : Except ReadFailure Unit := do
  ensureMember resultStatuses (members.get "status") "operation journal result is invalid"
  ensureMember resultExecutions (members.get "execution") "operation journal result is invalid"
  ensureMember resultAdvancements (members.get "advancement") "operation journal result is invalid"
  ensure (isObservation (members.get "observation")) "operation journal result is invalid"
  let observation := membersOf (members.get "observation")
  ensureMember observedHealths (observation.get "health") "operation journal result is invalid"
  ensureMember ["fresh", "stale", "unknown"] (observation.get "freshness")
    "operation journal result is invalid"

/-- `_validate_result`, for a result that is not `None`. -/
def checkResult (result : Json) (ref : OperationRef) (target coordinates : Fields) :
    Except ReadFailure Unit :=
  if result.pyEq .null then .ok ()
  else do
    ensure (isResult ref target result) "operation journal result is invalid"
    checkEnumerations (membersOf result)
    checkDetails (membersOf result) coordinates

/-! ### The document -/

/-- `_validate_journal`. -/
def checkDocument (value : Json) (ref : OperationRef) : Except ReadFailure Unit := do
  checkHead value ref
  let members := membersOf value
  checkPhase members
  match phaseOf (members.get "phase") with
  | none => .error (.journal "operation journal phase is invalid")
  | some phase =>
    checkCoordinates phase (members.get "coordinates")
    let target := membersOf (members.get "target")
    let coordinates := membersOf (members.get "coordinates")
    checkPending (members.get "pending_request") phase target (members.get "desired") coordinates
    checkHistory (members.get "request_history")
    checkResult (members.get "last_result") ref target coordinates

/-- `JournalStore.read` from the bytes on; `loads` is `json.loads` with the hook that rejects
duplicate members. -/
def readDocument (loads : List UInt8 → Loaded) (raw : List UInt8) (ref : OperationRef) :
    Except ReadFailure Json :=
  if maximumJournalBytes < raw.length then .error (.journal "operation journal is unsafe")
  else match loads raw with
  | .value value => do
    checkDocument value ref
    return value
  | .unicodeDecodeError => .error (.journal "operation journal is invalid")
  | .jsonDecodeError => .error (.journal "operation journal is invalid")
  | .valueError => .error (.journal "operation journal is invalid")
  | .recursionError => .error .recursionError

/-! ### Where the checks are safe -/

/-- It ends in a value or in a `JournalError`. -/
def Closed {α : Type} (x : Except ReadFailure α) : Prop :=
  (∃ a, x = .ok a) ∨ ∃ message, x = .error (.journal message)

section Closed

variable {α β : Type} {x : Except ReadFailure α} {f : α → Except ReadFailure β}

@[simp]
theorem closed_ok (a : α) : Closed (.ok a : Except ReadFailure α) :=
  .inl ⟨a, rfl⟩

@[simp]
theorem closed_pure (a : α) : Closed (pure a : Except ReadFailure α) :=
  .inl ⟨a, rfl⟩

@[simp]
theorem closed_journal (message : String) :
    Closed (.error (.journal message) : Except ReadFailure α) :=
  .inr ⟨message, rfl⟩

@[simp]
theorem not_closed_typeError : ¬ Closed (.error .typeError : Except ReadFailure α) := by
  rintro (⟨a, h⟩ | ⟨message, h⟩) <;> cases h

@[simp]
theorem not_closed_recursionError : ¬ Closed (.error .recursionError : Except ReadFailure α) := by
  rintro (⟨a, h⟩ | ⟨message, h⟩) <;> cases h

@[simp]
theorem closed_ensure (condition : Bool) (message : String) : Closed (ensure condition message) := by
  cases condition <;> simp [ensure]

/-- A membership test is safe exactly on what can be hashed. -/
@[simp]
theorem closed_ensureMember {names : List String} {value : Json} {message : String} :
    Closed (ensureMember names value message) ↔ hashable value = true := by
  cases value <;> simp [ensureMember, Json.memberOf, hashable]

@[simp]
theorem ensure_eq_ok {condition : Bool} {message : String} :
    ensure condition message = .ok () ↔ condition = true := by
  cases condition <;> simp [ensure]

@[simp]
theorem ensureMember_eq_ok {names : List String} {value : Json} {message : String} :
    ensureMember names value message = .ok () ↔ hashable value = true ∧ isOneOf names value = true := by
  cases value <;> simp [ensureMember, Json.memberOf, hashable, isOneOf]

/-- A sequence is safe if its first check is, and what follows is wherever that one passes. -/
theorem closed_bind : Closed (x >>= f) ↔ Closed x ∧ ∀ a, x = .ok a → Closed (f a) := by
  cases x with
  | ok a => simp [bind, Except.bind]
  | error e =>
    have hbind : ((Except.error e : Except ReadFailure α) >>= f) = .error e := rfl
    rw [hbind]
    constructor
    · rintro (⟨b, h⟩ | ⟨message, h⟩)
      · cases h
      · cases h
        exact ⟨closed_journal message, fun a ha => by cases ha⟩
    · rintro ⟨⟨a, h⟩ | ⟨message, h⟩, -⟩
      · cases h
      · cases h
        exact closed_journal message

@[simp]
theorem closed_check {x : Except ReadFailure Unit} {f : Unit → Except ReadFailure β} :
    Closed (x >>= f) ↔ Closed x ∧ (x = .ok () → Closed (f ())) := by
  rw [closed_bind]
  exact and_congr_right fun _ => ⟨fun h => h (), fun h _ => h⟩

end Closed

section Conditions

variable {value pending history result : Json} {ref : OperationRef} {phase : Phase}
  {target coordinates members : Fields} {desired : Json}

theorem checkHead_closed : Closed (checkHead value ref) := by
  simp [checkHead]

theorem checkCoordinates_closed : Closed (checkCoordinates phase value) := by
  simp [checkCoordinates]

theorem checkRequest_closed {route : CommandRoute} :
    Closed (checkRequest route members phase target desired coordinates) := by
  unfold checkRequest
  by_cases hroute : route = .prepare <;> simp [hroute]

theorem checkDetails_closed : Closed (checkDetails members coordinates) := by
  simp [checkDetails]

/-- The route of a request that is there is hashable. -/
def PendingHashes (pending : Json) : Prop :=
  pending ≠ .null → checkPendingKeys pending = .ok () →
    hashable ((membersOf pending).get "route_id") = true

theorem checkPending_closed :
    Closed (checkPending pending phase target desired coordinates) ↔ PendingHashes pending := by
  unfold checkPending PendingHashes
  by_cases hnull : pending = .null
  · simp [hnull, Json.pyEq, Json.same]
  · have hne : pending.pyEq .null = false := by
      rw [Bool.eq_false_iff]
      exact fun h => hnull (Json.pyEq_null.mp h)
    have hrest : Closed (match routeOf ((membersOf pending).get "route_id") with
        | some route => checkRequest route (membersOf pending) phase target desired coordinates
        | none => .error (.journal "operation journal pending request is invalid")) := by
      split
      · exact checkRequest_closed
      · exact closed_journal _
    simp [hne, hnull, hrest, checkPendingKeys]

/-- The route of every record that is reached is hashable. -/
def RecordsHash : List Json → Prop
  | [] => True
  | record :: records =>
    (isRecord record = true → hashable ((membersOf record).get "route_id") = true) ∧
      (checkRecord record = .ok () → RecordsHash records)

theorem checkRecord_closed {record : Json} : Closed (checkRecord record) ↔
    (isRecord record = true → hashable ((membersOf record).get "route_id") = true) := by
  simp [checkRecord, ensure_eq_ok]

theorem checkRecords_closed (records : List Json) :
    Closed (checkRecords records) ↔ RecordsHash records := by
  induction records with
  | nil => simp [checkRecords, RecordsHash]
  | cons record records ih =>
    simp [checkRecords, RecordsHash, checkRecord_closed, ih]

/-- The history is a list within the budget whose routes are hashable as far as they are reached. -/
def HistoryHashes (history : Json) : Prop :=
  ∀ items, history = .arr items → items.length ≤ maximumRequestRecords → RecordsHash items

theorem checkHistory_closed : Closed (checkHistory history) ↔ HistoryHashes history := by
  unfold checkHistory HistoryHashes
  cases history with
  | arr items => simp [ensure_eq_ok, itemsOf, checkRecords_closed]
  | _ => simp [ensure_eq_ok]

/-- The enumerated members of a result are hashable, each as far as the ones before it are listed. -/
def EnumerationsHash (members : Fields) : Prop :=
  hashable (members.get "status") = true ∧
    (isOneOf resultStatuses (members.get "status") = true →
      hashable (members.get "execution") = true ∧
        (isOneOf resultExecutions (members.get "execution") = true →
          hashable (members.get "advancement") = true ∧
            (isOneOf resultAdvancements (members.get "advancement") = true →
              isObservation (members.get "observation") = true →
              hashable ((membersOf (members.get "observation")).get "health") = true ∧
                (isOneOf observedHealths ((membersOf (members.get "observation")).get "health") = true →
                  hashable ((membersOf (members.get "observation")).get "freshness") = true))))

theorem checkEnumerations_closed :
    Closed (checkEnumerations members) ↔ EnumerationsHash members := by
  unfold checkEnumerations EnumerationsHash
  simp only [closed_check, closed_ensureMember, ensureMember_eq_ok, closed_ensure, ensure_eq_ok,
    true_and, and_imp]
  constructor
  · rintro ⟨hstatus, hrest⟩
    refine ⟨hstatus, fun hs => ?_⟩
    obtain ⟨hexecution, hrest⟩ := hrest hstatus hs
    refine ⟨hexecution, fun he => ?_⟩
    obtain ⟨hadvancement, hrest⟩ := hrest hexecution he
    refine ⟨hadvancement, fun ha ho => ?_⟩
    obtain ⟨hhealth, hrest⟩ := hrest hadvancement ha ho
    exact ⟨hhealth, hrest hhealth⟩
  · rintro ⟨hstatus, hrest⟩
    refine ⟨hstatus, fun _ hs => ?_⟩
    obtain ⟨hexecution, hrest⟩ := hrest hs
    refine ⟨hexecution, fun _ he => ?_⟩
    obtain ⟨hadvancement, hrest⟩ := hrest he
    refine ⟨hadvancement, fun _ ha ho => ?_⟩
    obtain ⟨hhealth, hrest⟩ := hrest ha ho
    exact ⟨hhealth, fun _ => hrest⟩

/-- The enumerations of a result that has its keys and its identity are hashable. -/
def ResultHashes (result : Json) (ref : OperationRef) (target : Fields) : Prop :=
  result ≠ .null → isResult ref target result = true → EnumerationsHash (membersOf result)

theorem checkResult_closed :
    Closed (checkResult result ref target coordinates) ↔ ResultHashes result ref target := by
  unfold checkResult ResultHashes
  by_cases hnull : result = .null
  · simp [hnull, Json.pyEq, Json.same]
  · have hne : result.pyEq .null = false := by
      rw [Bool.eq_false_iff]
      exact fun h => hnull (Json.pyEq_null.mp h)
    simp [hne, hnull, checkEnumerations_closed, checkDetails_closed]

/-- The enumerated members of a document are hashable, each as far as the checks before it pass. -/
def DocumentHashes (value : Json) (ref : OperationRef) : Prop :=
  let members := membersOf value
  let target := membersOf (members.get "target")
  let coordinates := membersOf (members.get "coordinates")
  checkHead value ref = .ok () → hashable (members.get "phase") = true ∧
    ∀ phase, phaseOf (members.get "phase") = some phase →
      checkCoordinates phase (members.get "coordinates") = .ok () →
      PendingHashes (members.get "pending_request") ∧
        (checkPending (members.get "pending_request") phase target (members.get "desired")
            coordinates = .ok () →
          HistoryHashes (members.get "request_history") ∧
            (checkHistory (members.get "request_history") = .ok () →
              ResultHashes (members.get "last_result") ref target))

/-- A text that is a phase is a member of `_PHASES`. -/
theorem checkPhase_eq_ok (h : phaseOf (members.get "phase") = some phase) :
    checkPhase members = .ok () := by
  have hp := List.find?_some h
  have hstr : members.get "phase" = .str phase.text := Json.pyEq_str.mp hp
  rw [checkPhase, ensureMember_eq_ok, hstr]
  cases phase <;> exact ⟨rfl, by decide⟩

theorem checkDocument_closed : Closed (checkDocument value ref) ↔ DocumentHashes value ref := by
  unfold checkDocument DocumentHashes
  dsimp only
  rw [closed_check]
  constructor
  · rintro ⟨-, h⟩ hhead
    have h := h hhead
    rw [closed_check] at h
    obtain ⟨hphase, h⟩ := h
    refine ⟨closed_ensureMember.mp hphase, fun phase hfind hcoordinates => ?_⟩
    have h := h (checkPhase_eq_ok hfind)
    rw [hfind] at h
    simpa [hcoordinates, checkCoordinates_closed, checkPending_closed, checkHistory_closed,
      checkResult_closed] using h
  · intro h
    refine ⟨checkHead_closed, fun hhead => ?_⟩
    obtain ⟨hphase, h⟩ := h hhead
    rw [closed_check]
    refine ⟨closed_ensureMember.mpr hphase, fun _ => ?_⟩
    split
    · exact closed_journal _
    · rename_i phase hfind
      have h := h phase hfind
      simpa [checkCoordinates_closed, checkPending_closed, checkHistory_closed,
        checkResult_closed] using h

end Conditions

/-! ### Totality -/

/-- `JournalStore.read` returns a document that passes every check, or raises `JournalError`. -/
def ReadsClosed (loads : List UInt8 → Loaded) (raw : List UInt8) (ref : OperationRef) : Prop :=
  (∃ value, readDocument loads raw ref = .ok value ∧ checkDocument value ref = .ok ()) ∨
    ∃ message, readDocument loads raw ref = .error (.journal message)

/-- A document is returned exactly when it passes every check. -/
theorem readDocument_value {loads : List UInt8 → Loaded} {raw : List UInt8} {ref : OperationRef}
    {value : Json} (hsize : raw.length ≤ maximumJournalBytes) (hloads : loads raw = .value value) :
    ReadsClosed loads raw ref ↔ Closed (checkDocument value ref) := by
  have hread : readDocument loads raw ref =
      (checkDocument value ref >>= fun _ => .ok value) := by
    rw [readDocument, if_neg (by omega), hloads]
    rfl
  unfold ReadsClosed
  rw [hread]
  cases hcheck : checkDocument value ref with
  | ok _ => exact iff_of_true (.inl ⟨value, rfl, hcheck⟩) (closed_ok _)
  | error e =>
    have hbind : ((Except.error e : Except ReadFailure Unit) >>= fun _ => .ok value) = .error e := rfl
    rw [hbind]
    constructor
    · rintro (⟨v, hv, -⟩ | ⟨message, hmessage⟩)
      · cases hv
      · cases hmessage
        exact closed_journal message
    · rintro (⟨a, ha⟩ | ⟨message, hmessage⟩)
      · cases ha
      · cases hmessage
        exact .inr ⟨message, rfl⟩

/-- The decoder's failures are wrapped, all but one. -/
theorem readDocument_invalid {loads : List UInt8 → Loaded} {raw : List UInt8} {ref : OperationRef}
    (hsize : raw.length ≤ maximumJournalBytes) (hloads : loads raw = .unicodeDecodeError ∨
      loads raw = .jsonDecodeError ∨ loads raw = .valueError) : ReadsClosed loads raw ref := by
  refine .inr ⟨"operation journal is invalid", ?_⟩
  rw [readDocument, if_neg (by omega)]
  rcases hloads with h | h | h <;> rw [h]

theorem readDocument_recursion {loads : List UInt8 → Loaded} {raw : List UInt8} {ref : OperationRef}
    (hsize : raw.length ≤ maximumJournalBytes) (hloads : loads raw = .recursionError) :
    ¬ ReadsClosed loads raw ref := by
  have hread : readDocument loads raw ref = .error .recursionError := by
    rw [readDocument, if_neg (by omega), hloads]
  rintro (⟨value, hvalue, -⟩ | ⟨message, hmessage⟩)
  · rw [hread] at hvalue
    cases hvalue
  · rw [hread] at hmessage
    cases hmessage

/-- Reading is total exactly on the documents that the decoder can nest and whose enumerated members
are hashable. -/
theorem readDocument_closed_iff (loads : List UInt8 → Loaded) (raw : List UInt8) (ref : OperationRef)
    (hsize : raw.length ≤ maximumJournalBytes) :
    ReadsClosed loads raw ref ↔
      loads raw ≠ .recursionError ∧ ∀ value, loads raw = .value value → DocumentHashes value ref := by
  cases hloads : loads raw with
  | value value =>
    rw [readDocument_value hsize hloads, checkDocument_closed]
    constructor
    · rintro h
      exact ⟨by simp, fun v hv => by cases hv; exact h⟩
    · rintro ⟨-, h⟩
      exact h value rfl
  | unicodeDecodeError =>
    exact iff_of_true (readDocument_invalid hsize (.inl hloads)) ⟨nofun, nofun⟩
  | jsonDecodeError =>
    exact iff_of_true (readDocument_invalid hsize (.inr (.inl hloads))) ⟨nofun, nofun⟩
  | valueError =>
    exact iff_of_true (readDocument_invalid hsize (.inr (.inr hloads))) ⟨nofun, nofun⟩
  | recursionError =>
    exact iff_of_false (readDocument_recursion hsize hloads) fun h => h.1 rfl

/-! ### A list in place of a phase -/

namespace Instance

/-- The reference of the document. -/
def listedRef : OperationRef :=
  ⟨"0b8e4f2a-6c1d-4e3f-9a5b-7d2c1e0f3a4b", by decide +kernel⟩

/-- A document that is a new journal, but for this phase. -/
def documentWith (phase : Json) : Json :=
  .obj [("schema", .str "cpk.client-invocation.v1"), ("operation_ref", listedRef.json),
    ("target", .obj [
      ("endpoint_sha256",
        .str "e3b0c44298fc1c149afbf4c8996fb92427ae41e4649b934ca495991b7852b855"),
      ("workspace_id", .str "main")]),
    ("desired", .obj [("path", .str "/graph.json"), ("size", .int 2),
      ("sha256", .str "44136fa355b3678a1146ad16f7e8649e94fb4fc21fe77e8310c060f61caaff8a")]),
    ("phase", phase), ("pending_request", .null), ("coordinates", .obj []),
    ("request_history", .arr []), ("last_result", .null)]

/-- The bytes of an ASCII text. -/
def literalBytes (text : String) : List UInt8 :=
  text.toList.map fun c => UInt8.ofNat c.toNat

/-- The lines of the document up to its phase. -/
def documentHead : List String :=
  ["\x7b\"schema\":\"cpk.client-invocation.v1\",",
    "\"operation_ref\":\"0b8e4f2a-6c1d-4e3f-9a5b-7d2c1e0f3a4b\",",
    "\"target\":\x7b\"endpoint_sha256\":\"e3b0c44298fc1c149afbf4c8996fb924",
    "27ae41e4649b934ca495991b7852b855\",\"workspace_id\":\"main\"\x7d,",
    "\"desired\":\x7b\"path\":\"/graph.json\",\"size\":2,",
    "\"sha256\":\"44136fa355b3678a1146ad16f7e8649e94fb4fc21fe77e8310c060f61caaff8a\"\x7d,",
    "\"phase\":"]

/-- The lines of the document after its phase. -/
def documentTail : List String :=
  [",\"pending_request\":null,\"coordinates\":\x7b\x7d,", "\"request_history\":[],\"last_result\":null\x7d"]

/-- The bytes of the document with this text for its phase. -/
def documentBytes (phase : String) : List UInt8 :=
  documentHead.flatMap literalBytes ++ (literalBytes phase ++ documentTail.flatMap literalBytes)

theorem length_documentBytes (phase : String) (h : (literalBytes phase).length ≤ 64) :
    (documentBytes phase).length ≤ maximumJournalBytes := by
  have hlength : ∀ texts : List String, (texts.flatMap literalBytes).length =
      (texts.map String.length).sum := fun texts => by
    simp only [literalBytes, List.length_flatMap, List.length_map, String.length_toList]
  have hhead : (documentHead.flatMap literalBytes).length ≤ 1024 := by
    rw [hlength]
    decide
  have htail : (documentTail.flatMap literalBytes).length ≤ 1024 := by
    rw [hlength]
    decide
  rw [documentBytes, List.length_append, List.length_append, maximumJournalBytes]
  omega

theorem documentBytes_ne : documentBytes "[]" ≠ documentBytes "\"planning\"" := by
  intro h
  have hrest := List.append_cancel_left h
  have hlist : literalBytes "[]" = 91 :: [93] := by simp [literalBytes]
  have hplanning : literalBytes "\"planning\"" = 34 :: literalBytes "planning\"" := by
    simp [literalBytes]
  rw [hlist, hplanning] at hrest
  exact absurd (List.cons.inj hrest).1 (by decide)

/-- A decoder that knows the document whose phase is `planning` and the one whose phase is a list. -/
def documentLoads (raw : List UInt8) : Loaded :=
  if raw = documentBytes "\"planning\"" then .value (documentWith (.str "planning"))
  else if raw = documentBytes "[]" then .value (documentWith (.arr []))
  else .jsonDecodeError

theorem documentLoads_planning :
    documentLoads (documentBytes "\"planning\"") = .value (documentWith (.str "planning")) := by
  rw [documentLoads, if_pos rfl]

theorem documentLoads_listed :
    documentLoads (documentBytes "[]") = .value (documentWith (.arr [])) := by
  rw [documentLoads, if_neg documentBytes_ne, if_pos rfl]

theorem length_planning : (documentBytes "\"planning\"").length ≤ maximumJournalBytes :=
  length_documentBytes "\"planning\"" (by simp [literalBytes])

theorem checkDocument_planning :
    checkDocument (documentWith (.str "planning")) listedRef = .ok () :=
  rfl

/-- A new journal is read. -/
theorem readDocument_planning :
    (documentBytes "\"planning\"").length ≤ maximumJournalBytes ∧
      ReadsClosed documentLoads (documentBytes "\"planning\"") listedRef ∧
      (ReadsClosed documentLoads (documentBytes "\"planning\"") listedRef ↔
        documentLoads (documentBytes "\"planning\"") ≠ .recursionError ∧
          ∀ value, documentLoads (documentBytes "\"planning\"") = .value value →
            DocumentHashes value listedRef) := by
  have hsize := length_planning
  have hread : ReadsClosed documentLoads (documentBytes "\"planning\"") listedRef := by
    rw [readDocument_value hsize documentLoads_planning, checkDocument_planning]
    exact closed_ok ()
  exact ⟨hsize, hread,
    readDocument_closed_iff documentLoads (documentBytes "\"planning\"") listedRef hsize⟩

/-- **A list as the phase** ends the read with a `TypeError`. -/
theorem readDocument_listed :
    (documentBytes "[]").length ≤ maximumJournalBytes ∧
      readDocument documentLoads (documentBytes "[]") listedRef = .error .typeError ∧
      ¬ ReadsClosed documentLoads (documentBytes "[]") listedRef := by
  have hsize := length_documentBytes "[]" (by simp [literalBytes])
  have hcheck : checkDocument (documentWith (.arr [])) listedRef = .error .typeError := rfl
  have hread : readDocument documentLoads (documentBytes "[]") listedRef = .error .typeError := by
    rw [readDocument, if_neg (by omega), documentLoads_listed]
    simp only [hcheck]
    rfl
  refine ⟨hsize, hread, ?_⟩
  rw [readDocument_value hsize documentLoads_listed, hcheck]
  exact not_closed_typeError

end Instance

end Client

end ControlPlaneKit
