import ControlPlaneKit.Python.Encode

/-!
# The client's vocabulary

The bounded texts, digests and references that the client stores, the routes and roles of its
public commands, the phases of an operation, and the accessors through which every untyped
server answer passes. Texts that an accessor has checked are kept in types that carry the check
(`Coordinate`, `Digest`, `OperationRef`), so a journal built from them cannot hold a text the
journal validator would refuse.
-/

namespace ControlPlaneKit

namespace Client

/-- The exceptions a client invocation can end with. The last four are not among the client's own
classes: Python raises them when a lone surrogate is encoded, when a list or an object is hashed,
when a path that the file system cannot take is opened, and when a value is nested too deep. -/
inductive ClientError where
  | input (message : String)
  | configuration (message : String)
  | transport (message : String)
  | authorization
  | journal (message : String)
  | unicodeEncode
  | typeError
  | valueError
  | recursionError
deriving DecidableEq

/-- What `except (ClientInputError, ClientTransportError)` catches once authorization failures
have been raised again. -/
def ClientError.isUnresolved : ClientError → Bool
  | .input _ => true
  | .transport _ => true
  | _ => false

/-! ### Bounded texts -/

/-- A text coordinate: encodable, nonempty and at most 512 bytes. -/
structure Coordinate where
  /-- The text itself. -/
  text : String
  /-- It is nonempty. -/
  nonempty : 0 < text.utf8ByteSize
  /-- It is at most 512 bytes long. -/
  bounded : text.utf8ByteSize ≤ 512
deriving DecidableEq

/-- The JSON string of a coordinate. -/
def Coordinate.json (c : Coordinate) : Json :=
  .str (.utf8 c.text)

@[simp]
theorem Coordinate.depth_json (c : Coordinate) : c.json.depth = 0 := by
  simp [json, Json.depth]

@[ext]
theorem Coordinate.ext {a b : Coordinate} (h : a.text = b.text) : a = b := by
  cases a; cases b; simp_all

theorem Coordinate.json_injective {a b : Coordinate} (h : a.json = b.json) : a = b := by
  simp only [Coordinate.json, Json.str.injEq, Text.utf8.injEq] at h
  exact Coordinate.ext h

/-- A lowercase hexadecimal character. -/
def isHexCharacter (c : Char) : Bool :=
  ('0' ≤ c && c ≤ '9') || ('a' ≤ c && c ≤ 'f')

/-- `_is_sha256`: sixty-four lowercase hexadecimal characters. -/
def isSha256 (s : String) : Bool :=
  s.toList.length == 64 && s.toList.all isHexCharacter

/-- A SHA-256 digest in hexadecimal. -/
structure Digest where
  /-- The hexadecimal text. -/
  hex : String
  /-- It has the form of a digest. -/
  valid : isSha256 hex = true
deriving DecidableEq

/-- The JSON string of a digest. -/
def Digest.json (d : Digest) : Json :=
  .str (.utf8 d.hex)

/-- The canonical text of a version 4 UUID: `str(UUID(value)) == value` and version 4. -/
def isUuid4 (s : String) : Bool :=
  s.toList.length == 36 &&
    s.toList.zipIdx.all fun (c, i) =>
      if i == 8 || i == 13 || i == 18 || i == 23 then c == '-'
      else if i == 14 then c == '4'
      else if i == 19 then c == '8' || c == '9' || c == 'a' || c == 'b'
      else isHexCharacter c

/-- An operation reference or an idempotency key. -/
structure OperationRef where
  /-- The text of the reference. -/
  text : String
  /-- It is a canonical version 4 UUID. -/
  valid : isUuid4 text = true
deriving DecidableEq

/-- The JSON string of a reference. -/
def OperationRef.json (r : OperationRef) : Json :=
  .str (.utf8 r.text)

@[simp]
theorem OperationRef.depth_json (r : OperationRef) : r.json.depth = 0 := by
  simp [json, Json.depth]

theorem OperationRef.json_injective {a b : OperationRef} (h : a.json = b.json) : a = b := by
  cases a; cases b; simp_all [OperationRef.json]

/-- `canonical_operation_ref`. -/
def canonicalOperationRef (value : Text) : Except ClientError OperationRef :=
  match value with
  | .utf8 s =>
    if h : isUuid4 s = true then .ok ⟨s, h⟩
    else .error (.journal "operation reference is invalid")
  | .surrogate _ => .error (.journal "operation reference is invalid")

/-! ### Accessors for server answers -/

/-- `_text_coordinate`. A nonempty string with a lone surrogate fails in the encoder, before
its length is compared. -/
def textCoordinate : Json → Except ClientError Coordinate
  | .str (.utf8 s) =>
    if h : 0 < s.utf8ByteSize ∧ s.utf8ByteSize ≤ 512 then .ok ⟨s, h.1, h.2⟩
    else .error (.input "public coordinate is invalid")
  | .str (.surrogate _) => .error .unicodeEncode
  | _ => .error (.input "public coordinate is invalid")

/-- `_is_text_coordinate` and the journal's `_is_text`. -/
def isTextCoordinate : Json → Bool
  | .str (.utf8 s) => decide (0 < s.utf8ByteSize ∧ s.utf8ByteSize ≤ 512)
  | _ => false

/-- `_text` and `_coordinate`. -/
def text (value : Fields) (name : String) : Except ClientError Coordinate :=
  textCoordinate (value.get name)

/-- `_mapping`. -/
def mapping (value : Fields) (name : String) : Except ClientError Fields :=
  match value.get name with
  | .obj members => .ok members
  | _ => .error (.input s!"public {name} is invalid")

/-- `_integer`: an `int` that is no `bool`, at least `minimum`. -/
def integer (value : Fields) (name : String) (minimum : Nat) : Except ClientError Nat :=
  match value.get name with
  | .int n =>
    if (minimum : Int) ≤ n then .ok n.toNat
    else .error (.input s!"public {name} is invalid")
  | _ => .error (.input s!"public {name} is invalid")

/-- `_boolean`. -/
def boolean (value : Fields) (name : String) : Except ClientError Bool :=
  match value.get name with
  | .bool b => .ok b
  | _ => .error (.input s!"public {name} is invalid")

/-- `_is_positive_integer`. -/
def isPositiveInteger : Json → Bool
  | .int n => decide (0 < n)
  | _ => false

/-- `_bounded_text(value, "title", 512)`. -/
def boundedTitle : Text → Except ClientError Coordinate
  | .utf8 s =>
    if h : 0 < s.utf8ByteSize ∧ s.utf8ByteSize ≤ 512 then .ok ⟨s, h.1, h.2⟩
    else .error (.input "title is invalid")
  | .surrogate _ => .error .unicodeEncode

/-- A graph pointer of a workspace. -/
structure Pointer where
  /-- The authored graph. -/
  authoredGraphId : Coordinate
  /-- Its realized projection. -/
  realizedProjectionId : Coordinate
deriving DecidableEq

/-- The JSON object of a pointer. -/
def Pointer.json (p : Pointer) : Json :=
  .obj [("authored_graph_id", p.authoredGraphId.json),
    ("realized_projection_id", p.realizedProjectionId.json)]

@[simp]
theorem Pointer.depth_json (p : Pointer) : p.json.depth = 1 := by
  simp [json, Json.depth, Json.depthMembers]

/-- `_pointer(workspace, prefix)`, with the two member names it reads. -/
def pointer (workspace : Fields) (graphName projectionName : String) :
    Except ClientError (Option Pointer) :=
  match workspace.get graphName with
  | .null =>
    match workspace.get projectionName with
    | .null => .ok none
    | _ => .error (.input "workspace graph pointer is invalid")
  | graph => do
    let authored ← textCoordinate graph
    let realized ← textCoordinate (workspace.get projectionName)
    return some ⟨authored, realized⟩

/-- `_pointer(workspace, "current")`. -/
def currentPointer (workspace : Fields) : Except ClientError (Option Pointer) :=
  pointer workspace "current_graph_id" "current_realized_projection_id"

/-- `_pointer(workspace, "desired")`. -/
def desiredPointer (workspace : Fields) : Except ClientError (Option Pointer) :=
  pointer workspace "desired_graph_id" "desired_realized_projection_id"

/-- What the accessor returns is the text that was read. -/
theorem textCoordinate_ok {v : Json} {c : Coordinate} (h : textCoordinate v = .ok c) :
    v = c.json := by
  unfold textCoordinate at h
  split at h
  · split at h
    · cases h; rfl
    · cases h
  · cases h
  · cases h

@[simp]
theorem textCoordinate_json (c : Coordinate) : textCoordinate c.json = .ok c := by
  simp [textCoordinate, Coordinate.json, c.nonempty, c.bounded]

theorem isTextCoordinate_iff {v : Json} : isTextCoordinate v = true ↔ ∃ c, textCoordinate v = .ok c := by
  constructor
  · intro h
    unfold isTextCoordinate at h
    split at h
    · exact ⟨⟨_, (of_decide_eq_true h).1, (of_decide_eq_true h).2⟩,
        textCoordinate_json ⟨_, (of_decide_eq_true h).1, (of_decide_eq_true h).2⟩⟩
    · cases h
  · rintro ⟨c, hc⟩
    rw [textCoordinate_ok hc]
    simp [isTextCoordinate, Coordinate.json, c.nonempty, c.bounded]

theorem text_ok {value : Fields} {name : String} {c : Coordinate} (h : text value name = .ok c) :
    value.get name = c.json :=
  textCoordinate_ok h

theorem integer_ok {value : Fields} {name : String} {minimum n : Nat}
    (h : integer value name minimum = .ok n) : value.get name = .int n ∧ minimum ≤ n := by
  unfold integer at h
  split at h
  · rename_i m hm
    split at h
    · rename_i hle
      cases h
      refine ⟨?_, by omega⟩
      rw [hm, Int.toNat_of_nonneg (by omega)]
    · cases h
  · cases h

/-! ### Routes, roles and phases -/

/-- The public commands the client issues. -/
inductive CommandRoute where
  | prepare
  | decide
  | admission
  | claim
  | start
  | execute
  | advance
deriving DecidableEq

/-- The public reads the client issues. -/
inductive ReadRoute where
  | workspace
  | planDetail
  | approvalDetail
  | planRuns
  | runEvents
  | currentGraph
deriving DecidableEq

/-- The route texts of the commands. -/
def CommandRoute.routeId : CommandRoute → String
  | .prepare => "command.deployment.prepare"
  | .decide => "command.approval.decide"
  | .admission => "command.deployment.admit"
  | .claim => "command.run.claim"
  | .start => "command.run.start"
  | .execute => "command.deployment.execute"
  | .advance => "command.graph.advance-current"

/-- The route texts of the reads. -/
def ReadRoute.routeId : ReadRoute → String
  | .workspace => "read.workspace"
  | .planDetail => "read.plan-detail"
  | .approvalDetail => "read.approval-detail"
  | .planRuns => "read.plan-runs"
  | .runEvents => "read.run-events"
  | .currentGraph => "read.current-graph"

/-- The credential roles of a profile. -/
inductive Role where
  | operator
  | approver
  | worker
deriving DecidableEq

/-- The text of a role. -/
def Role.text : Role → String
  | .operator => "operator"
  | .approver => "approver"
  | .worker => "worker"

/-- `_MUTATION_ROLES`. -/
def mutationRole : CommandRoute → Role
  | .prepare => .operator
  | .decide => .approver
  | .admission => .operator
  | .claim => .worker
  | .start => .worker
  | .execute => .worker
  | .advance => .worker

/-- `_PHASES`. -/
inductive Phase where
  | planning
  | prepared
  | noChanges
  | approved
  | admitted
  | claimed
  | started
  | executing
  | executed
  | advanced
  | converged
  | attentionRequired
deriving DecidableEq

/-- The text of a phase. -/
def Phase.text : Phase → String
  | .planning => "planning"
  | .prepared => "prepared"
  | .noChanges => "no-changes"
  | .approved => "approved"
  | .admitted => "admitted"
  | .claimed => "claimed"
  | .started => "started"
  | .executing => "executing"
  | .executed => "executed"
  | .advanced => "advanced"
  | .converged => "converged"
  | .attentionRequired => "attention-required"

/-- `_PENDING_PHASES`: the phases in which a request of this route may be pending. -/
def pendingPhases : CommandRoute → List Phase
  | .prepare => [.planning]
  | .decide => [.prepared]
  | .admission => [.prepared, .approved]
  | .claim => [.admitted]
  | .start => [.claimed]
  | .execute => [.started, .executing]
  | .advance => [.executed]

/-! ### Results -/

/-- The statuses of a client result. -/
inductive Status where
  | planned
  | running
  | noChanges
  | converged
  | attentionRequired
deriving DecidableEq

/-- The text of a status. -/
def Status.text : Status → String
  | .planned => "planned"
  | .running => "running"
  | .noChanges => "no-changes"
  | .converged => "converged"
  | .attentionRequired => "attention-required"

/-- The execution values of a client result. -/
inductive Execution where
  | notStarted
  | running
  | succeeded
  | blocked
  | failed
  | unsupported
  | uncertain
  | unverified
deriving DecidableEq

/-- The text of an execution value. -/
def Execution.text : Execution → String
  | .notStarted => "not-started"
  | .running => "running"
  | .succeeded => "succeeded"
  | .blocked => "blocked"
  | .failed => "failed"
  | .unsupported => "unsupported"
  | .uncertain => "uncertain"
  | .unverified => "unverified"

/-- The advancement values of a client result. -/
inductive Advancement where
  | notAttempted
  | advanced
  | unchanged
  | unverified
deriving DecidableEq

/-- The text of an advancement value. -/
def Advancement.text : Advancement → String
  | .notAttempted => "not-attempted"
  | .advanced => "advanced"
  | .unchanged => "unchanged"
  | .unverified => "unverified"

/-- The members of a change's target that the client projects. -/
inductive TargetKey where
  | kind
  | nodeId
  | runtimeId
  | edgeId
deriving DecidableEq

/-- The member names of a change's target. -/
def TargetKey.text : TargetKey → String
  | .kind => "kind"
  | .nodeId => "node_id"
  | .runtimeId => "runtime_id"
  | .edgeId => "edge_id"

/-- One planned activity as the client displays it. -/
structure Change where
  /-- The activity. -/
  activityId : Coordinate
  /-- Its operation kind. -/
  operation : Coordinate
  /-- The projected target. -/
  target : List (TargetKey × Coordinate)
deriving DecidableEq

/-- `ClientResult`. The observation is always unknown and the schema constant. -/
structure ClientResult where
  status : Status
  operationRef : OperationRef
  workspaceId : Coordinate
  planId : Option Coordinate
  approvalRequestId : Option Coordinate
  runId : Option Coordinate
  execution : Execution
  advancement : Advancement
  requiredScope : Option Coordinate
  destructive : Option Bool
  changes : List Change
  /-- `next_command`: the command `cpk apply` is offered. -/
  offersApply : Bool
  nextPublicRead : Option ReadRoute
deriving DecidableEq

end Client

end ControlPlaneKit
