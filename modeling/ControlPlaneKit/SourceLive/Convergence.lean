import Mathlib.Algebra.Group.Int.Defs
import ControlPlaneKit.Interaction.Logic
import ControlPlaneKit.Python.Dumps
import ControlPlaneKit.Python.Raise

/-!
# The public convergence driver

`run_public_graph_convergence`: one invocation prepares, approves, executes and advances the phases
of a scenario through the public API. Every call is an operation (`Call`) that is answered by a
value or by an exception. The report is the state of the driver, since it outlives an exception, and the
handler of all exceptions is `runPublicGraphConvergence` itself.

The clock, the product documents, the graph builder and the parser of secret references are
parameters (`Surroundings`).
-/

namespace ControlPlaneKit

namespace SourceLive

namespace Convergence

open Interaction Program

/-! ### Exceptions and accesses -/

/-- What the handler keeps of an exception. -/
structure Doubt where
  category : String
  httpStatus : Option ℕ
deriving DecidableEq

/-- An exception that is no `PublicConvergenceError`. -/
def unknown : Doubt :=
  ⟨"unknown", none⟩

/-- `PublicConvergenceError()`. -/
def invalid : Doubt :=
  ⟨"validation-failed", none⟩

/-- `_require`. -/
def require (condition : Bool) : Except Doubt Unit :=
  if condition then .ok () else .error invalid

/-- `value[key]`. -/
def item (value : Json) (key : String) : Except Doubt Json :=
  match value with
  | .obj members =>
    match List.lookup (Text.utf8 key) members with
    | some v => .ok v
    | none => .error unknown
  | _ => .error unknown

/-- `value.get(key, default)`. -/
def getD (value : Json) (key : String) (default : Json) : Except Doubt Json :=
  match value with
  | .obj members => .ok ((List.lookup (Text.utf8 key) members).getD default)
  | _ => .error unknown

/-- `value[key₁] == value₁ and value[key₂] == value₂ and …`. -/
def agrees (value : Json) : List (String × Json) → Except Doubt Bool
  | [] => .ok true
  | (key, expected) :: rest => do
    if (← item value key).pyEq expected then agrees value rest else return false

/-- `{key: value[key] for key in keys}`. -/
def items (value : Json) (keys : List String) : Except Doubt Json := do
  return .obj (← keys.mapM fun key => do return (Text.utf8 key, ← item value key))

/-- `{key: value[key] for key in keys if key in value}`, for an object. -/
def present (value : Json) (keys : List String) : Json :=
  match value with
  | .obj members => .obj (keys.filterMap fun key =>
      (List.lookup (Text.utf8 key) members).map fun v => (Text.utf8 key, v))
  | _ => .obj []

/-- The members of a value that is iterated over, each of which is then asked for a key: a string or
an object without members has none, and those of the others have no keys. -/
def asList : Json → Except Doubt (List Json)
  | .arr xs => .ok xs
  | .obj [] => .ok []
  | .str t => if t.codes.isEmpty then .ok [] else .error unknown
  | _ => .error unknown

/-- The truth of a value. -/
def truthy : Json → Bool
  | .null => false
  | .bool b => b
  | .int n => n != 0
  | .float (.finite q) => q != 0
  | .float _ => true
  | .str t => !t.codes.isEmpty
  | .arr xs => !xs.isEmpty
  | .obj members => !members.isEmpty

/-- `_coordinate`. -/
def coordinate (value : Json) : Except Doubt Text :=
  match value with
  | .str t => if 0 < t.codes.length ∧ t.codes.length ≤ 256 then .ok t else .error invalid
  | _ => .error invalid

/-- `_revision`. -/
def revision (value : Json) : Except Doubt ℤ :=
  match value with
  | .int n => if 0 ≤ n ∧ n < 2 ^ 63 then .ok n else .error invalid
  | _ => .error invalid

/-- `value == text`. -/
def isText (value : Json) (t : Text) : Bool :=
  value.pyEq (.str t)

/-- A graph and its projection. -/
structure Pointer where
  authoredGraphId : Text
  realizedProjectionId : Text
deriving DecidableEq

/-- `_pointer`. -/
def pointer (workspace : Json) (side : String) : Except Doubt (Option Pointer) := do
  let graph ← item workspace (side ++ "_graph_id")
  match graph with
  | .null => do
    let projection ← item workspace (side ++ "_realized_projection_id")
    require (projection.same .null)
    return none
  | graph => do
    let graph ← coordinate graph
    let projection ← coordinate (← item workspace (side ++ "_realized_projection_id"))
    return some ⟨graph, projection⟩

/-- A pointer as an argument. -/
def Pointer.json (p : Pointer) : Json :=
  .obj [(.utf8 "authored_graph_id", .str p.authoredGraphId),
    (.utf8 "realized_projection_id", .str p.realizedProjectionId)]

/-! ### Calls -/

/-- The phases of a scenario. -/
inductive Phase where
  | application
  | initial
  | multiAdd
  | rewire
  | subsetRemoval
  | noOp
  | teardown
deriving DecidableEq

/-- The phase as the report names it. -/
def Phase.name : Phase → String
  | .application => "application"
  | .initial => "initial"
  | .multiAdd => "multi-add"
  | .rewire => "rewire"
  | .subsetRemoval => "subset-removal"
  | .noOp => "no-op"
  | .teardown => "teardown"

/-- The product documents. -/
inductive Product where
  | helloServer
  | httpActiveRouter
  | cloudflaredConnector
deriving DecidableEq

def Product.name : Product → String
  | .helloServer => "hello_server"
  | .httpActiveRouter => "http_active_router"
  | .cloudflaredConnector => "cloudflared_connector"

/-- The commands of a phase. -/
inductive Step where
  | prepare
  | approve
  | admission
  | claim
  | start
  | execute (ordinal : ℕ)
  | advance
deriving DecidableEq

/-- The keys of the commands. -/
inductive Key where
  | workspace
  | product (product : Product)
  | secretProvider
  | tunnelReference
  | authority
  | delivery
  | pullAuthority (product : Product)
  | phase (phase : Phase) (step : Step)
deriving DecidableEq

/-- The key of a step behind the name of its phase. -/
def Step.segments : Step → List String
  | .prepare => ["prepare"]
  | .approve => ["approve"]
  | .admission => ["admit"]
  | .claim => ["claim"]
  | .start => ["start"]
  | .execute ordinal => ["execute", toString ordinal]
  | .advance => ["advance"]

/-- The parts of a key between its colons. -/
def Key.segments : Key → List String
  | .workspace => ["workspace"]
  | .product document => ["import", document.name]
  | .secretProvider => ["secret-provider"]
  | .tunnelReference => ["tunnel-reference"]
  | .authority => ["authority"]
  | .delivery => ["delivery"]
  | .pullAuthority document => ["pull-authority", document.name]
  | .phase name step => name.name :: step.segments

/-- A call of `invoke`; a command has a key. -/
structure Call where
  route : String
  key : Option Key
  arguments : Fields
  authorization : Text

/-- How a call ends: it returns a value or raises. -/
inductive Answer where
  | returned (value : Json)
  | raised (doubt : Doubt)

/-- A call and how it ended. -/
abbrev Invoked :=
  Event Call fun _ => Answer

/-- `WORKER_ROUTES`. -/
def workerRoutes : List String :=
  ["command.run.claim", "command.run.start", "command.deployment.execute",
    "command.graph.advance-current"]

/-! ### The report -/

/-- The status of a row. -/
inductive Status where
  | attentionRequired
  | noChanges
  | converged
deriving DecidableEq

/-- A row of the report. What it says beyond its coordinates is evidence. -/
structure Row where
  phase : Phase
  planId : Text
  status : Status
  graphId : Option Text
  evidence : Fields

/-- The report. -/
structure Report where
  converged : Bool
  transitions : List Row
  phase : Option String
  lastObservedGraphId : Option Text
  finalGraphId : Option Text
  coordinatorStatus : Option Json
  bootstrapStep : Option String
  failure : Option Doubt

/-- The state of the driver: its report, the phase it is in, and how many calls it has made. -/
structure State where
  report : Report
  phase : String
  bootstrapStep : Option String
  calls : ℕ

/-- Programs of the driver. -/
abbrev Drive (α : Type) :=
  StateT State (Program Call (fun _ => Answer) (State × Doubt)) α

/-- An exception. -/
def raise {α : Type} (doubt : Doubt) : Drive α :=
  fun s => .raise (s, doubt)

/-- A computation that may raise. -/
def check {α : Type} (x : Except Doubt α) : Drive α :=
  match x with
  | .ok a => pure a
  | .error doubt => raise doubt

/-- A part of the driver that is left out unless a condition holds. -/
def whenever (condition : Bool) (p : Drive Unit) : Drive Unit :=
  if condition then p else pure ()

/-- A change of the last row. -/
def onRow (f : Row → Row) : Drive Unit :=
  modify fun s => { s with report := { s.report with
    transitions := s.report.transitions.dropLast ++ (s.report.transitions.getLast?.map f).toList } }

/-- `row[key] = value` for evidence. -/
def evidence (key : String) (value : Json) : Drive Unit :=
  onRow fun row => { row with evidence := row.evidence.set key value }

/-! ### Scenarios -/

/-- A hello node. -/
structure Node where
  nodeId : Text
  name : Text
  color : Text
  message : Text
deriving DecidableEq

/-- The arguments of `run_public_graph_convergence`. -/
structure Scenario where
  workspaceId : Text
  routerId : Text
  helloNodes : List Node
  initialNodeId : Text
  rewireNodeId : Text
  retainedNodeIds : List Text
  authorization : Text
  workerAuthorization : Text
  approverAuthorization : Text
  capacity : ℤ
  maxSteps : ℤ
  registerPullAuthority : Bool
  connectorTokenReference : Option Text
  connectorId : Text
  createWorkspace : Bool
  destructiveApproved : Bool

/-- `retained_application`. -/
def Scenario.retained (scenario : Scenario) : Bool :=
  scenario.connectorTokenReference.isSome

/-- What the driver gets from elsewhere. -/
structure Surroundings where
  /-- The prefix of the keys. -/
  invocation : String
  /-- Whether the deadline is ahead when the call with this number is made. -/
  inTime : ℕ → Bool
  /-- The clock when the command with this key is sent. -/
  clock : Key → Text
  /-- The content of a product document; decoding it may raise. -/
  document : Product → Except Doubt Json
  /-- `_graph` for the nodes of a phase. -/
  graph : List Node → Text → Except Doubt Json
  /-- `SecretReference(value)` accepts. -/
  isSecretReference : Text → Bool
  /-- `json.dumps(value, sort_keys=True, …)` of a cursor. -/
  dumps : Json → Except Doubt Text

/-- A phase with its nodes, the selected one, and the graph that is desired. -/
structure Plan where
  phase : Phase
  nodes : List Node
  selected : Text
  desired : Json

/-! ### The driver -/

section Driver

variable (around : Surroundings) (scenario : Scenario)

/-- A member of the arguments. -/
def argument (key : String) (value : Json) : Text × Json :=
  (.utf8 key, value)

/-- The text of a key. -/
def keyText (key : Key) : String :=
  around.invocation ++ ":" ++ ":".intercalate key.segments

/-- The arguments as they are handed to `invoke`. -/
def sent (key : Option Key) (arguments : Fields) : Fields :=
  argument "workspace_id" (.str scenario.workspaceId) ::
    ((key.map fun k => argument "idempotency_key" (.str (keyText around k))).toList ++ arguments)

/-- The authorization that `call` chooses for a route. -/
def authorizationOf (route : String) : Text :=
  if route = "command.approval.decide" then scenario.approverAuthorization
  else if route ∈ workerRoutes then scenario.workerAuthorization
  else scenario.authorization

/-- `invoke`. -/
def invoke (call : Call) : Drive Answer :=
  fun s => .perform call fun a => .pure (a, { s with calls := s.calls + 1 })

/-- `call` and `command`: a call before the deadline that returns an object. -/
def send (route : String) (key : Option Key) (arguments : Fields) : Drive Json := do
  let s ← get
  check (require (around.inTime s.calls))
  let arguments := sent around scenario key arguments
  match ← invoke ⟨route, key, arguments, authorizationOf scenario route⟩ with
  | .raised doubt => raise doubt
  | .returned (.obj members) => return .obj members
  | .returned _ => raise invalid

/-- `call`. -/
def call (route : String) (arguments : Fields) : Drive Json :=
  send around scenario route none arguments

/-- `command`. -/
def command (route : String) (key : Key) (arguments : Fields) : Drive Json :=
  send around scenario route (some key) arguments

/-- The loop of `page`, with the pages that are left. -/
def pages (route : String) (arguments : Fields) :
    ℕ → Option Json → List Text → List Json → Drive (List Json)
  | 0, _, _, _ => raise invalid
  | fuel + 1, cursor, seen, read => do
    let value ← call around scenario route (argument "limit" (.int 100) ::
      (arguments ++ (cursor.map (argument "after")).toList))
    let batch ← check (item value "items")
    match batch with
    | .arr batch => do
      check (require (decide (batch.length ≤ 100)))
      match ← check (getD value "next_cursor" .null) with
      | .null => return read ++ batch
      | .obj members => do
        let key ← check (around.dumps (.obj members))
        check (require (decide (key.codes.length ≤ 16384 ∧ key ∉ seen)))
        pages route arguments fuel (some (.obj members)) (key :: seen) (read ++ batch)
      | _ => raise invalid
    | _ => raise invalid

/-- `page`. -/
def page (route : String) (arguments : Fields) : Drive (List Json) :=
  pages around scenario route arguments 16 none [] []

/-! ### Admission -/

/-- `[a-z][a-z0-9-]{0,62}`. -/
def isIdentity (t : Text) : Bool :=
  t.codes.head?.any (fun n => decide (97 ≤ n ∧ n ≤ 122)) && decide (t.codes.length ≤ 63) &&
    t.codes.all fun n => decide (97 ≤ n ∧ n ≤ 122) || decide (48 ≤ n ∧ n ≤ 57) || n == 45

/-- `0 < len(value.encode()) <= bound`. -/
def isShort (bound : ℕ) : Text → Except Doubt Bool
  | .utf8 s => .ok (decide (0 < s.utf8ByteSize ∧ s.utf8ByteSize ≤ bound))
  | .surrogate _ => .error unknown

/-- The documents of a scenario. -/
def Scenario.products : List Product :=
  if scenario.retained then [.helloServer, .httpActiveRouter, .cloudflaredConnector]
  else [.helloServer, .httpActiveRouter]

/-- The phases of a scenario with their nodes. -/
def Scenario.phases : List (Phase × List Node × Text) :=
  let initial := scenario.helloNodes.filter fun node => node.nodeId = scenario.initialNodeId
  let retained := scenario.helloNodes.filter fun node => node.nodeId ∈ scenario.retainedNodeIds
  if scenario.retained then [(.application, scenario.helloNodes, scenario.initialNodeId)]
  else [(.initial, initial, scenario.initialNodeId),
    (.multiAdd, scenario.helloNodes, scenario.initialNodeId),
    (.rewire, scenario.helloNodes, scenario.rewireNodeId),
    (.subsetRemoval, retained, scenario.rewireNodeId), (.noOp, retained, scenario.rewireNodeId),
    (.teardown, [], scenario.rewireNodeId)]

/-- The checks of the two modes. -/
def admitMode (ids : List Text) : Except Doubt Unit :=
  match scenario.connectorTokenReference with
  | some reference => do
    require (decide (scenario.connectorId ∉ ids ∧ scenario.connectorId ≠ scenario.routerId) &&
      !scenario.registerPullAuthority)
    if around.isSecretReference reference then return () else .error unknown
  | none => do
    require (decide (scenario.rewireNodeId ∈ ids ∧
      scenario.initialNodeId ≠ scenario.rewireNodeId))
    require (decide (0 < scenario.retainedNodeIds.length ∧
      scenario.retainedNodeIds.length < ids.length ∧ scenario.retainedNodeIds.Nodup))
    require (decide ((∀ id ∈ scenario.retainedNodeIds, id ∈ ids) ∧
      scenario.rewireNodeId ∈ scenario.retainedNodeIds))

/-- The checks before the first call: the content of the documents, and the phases. -/
def admission : Except Doubt (List (Product × Json) × List Plan) := do
  let minimum : ℤ := if scenario.retained then 1 else 3
  require (decide (minimum ≤ scenario.capacity ∧ scenario.capacity ≤ 128))
  require (decide (minimum ≤ scenario.helloNodes.length ∧
    scenario.helloNodes.length ≤ scenario.capacity ∧ 1 ≤ scenario.maxSteps ∧
    scenario.maxSteps ≤ 4096))
  let authorizations :=
    [scenario.authorization, scenario.workerAuthorization, scenario.approverAuthorization]
  require (decide authorizations.Nodup && authorizations.all fun t => !t.codes.isEmpty)
  let ids := scenario.helloNodes.map (·.nodeId)
  require (decide (ids.Nodup ∧ scenario.routerId ∉ ids))
  require ((scenario.workspaceId :: scenario.routerId :: ids ++
    if scenario.retained then [scenario.connectorId] else []).all isIdentity)
  scenario.helloNodes.forM fun node => do
    require (← isShort 64 node.name)
    require (← isShort 64 node.color)
    require (← isShort 512 node.message)
  require (decide (scenario.initialNodeId ∈ ids))
  admitMode around scenario ids
  let documents ← scenario.products.mapM fun product => do
    return (product, ← around.document product)
  let plans ← scenario.phases.mapM fun (phase, nodes, selected) => do
    return ⟨phase, nodes, selected, ← around.graph nodes selected⟩
  return (documents, plans)

/-! ### The bootstrap of the workspace -/

/-- The pointers and the revision of a workspace. -/
structure Admitted where
  current : Option Pointer
  desired : Option Pointer
  revision : Json

/-- What the driver compares of a workspace. -/
def admitted (workspace : Json) : Except Doubt Admitted := do
  let current ← pointer workspace "current"
  let desired ← pointer workspace "desired"
  return ⟨current, desired, ← item workspace "desired_graph_revision"⟩

/-- Equality of what is compared. -/
def Admitted.same (a b : Admitted) : Bool :=
  decide (a.current = b.current) && decide (a.desired = b.desired) && a.revision.same b.revision

/-- The step that a failure of the bootstrap names. -/
def setStep (name : String) : Drive Unit :=
  modify fun s => { s with bootstrapStep := some name }

/-- The phase that a failure names. -/
def setPhase (name : String) : Drive Unit :=
  modify fun s => { s with phase := name }

/-- The plans of a session that prepared what is desired. -/
def matchingPlans (desired : Pointer) (revision : Json) :
    List Json → List Json → Drive (List Json)
  | [], found => return found
  | session :: sessions, found => do
    let sessionId ← check (do coordinate (← item session "session_id"))
    let plans ← page around scenario "read.session-plans"
      [argument "session_id" (.str sessionId)]
    let found' ← check (plans.filterM fun plan => agrees plan
      [("desired_graph_id", .str desired.authoredGraphId),
        ("desired_realized_projection_id", .str desired.realizedProjectionId),
        ("desired_graph_revision", revision)])
    matchingPlans desired revision sessions (found ++ found')

/-- What the routes of the retained mode must observe. -/
def observeGraph (route : String) (p : Pointer) : Drive Unit := do
  let observed ← call around scenario route []
  check (do require (← agrees observed [("graph_id", .str p.authoredGraphId),
    ("realized_projection_id", .str p.realizedProjectionId)]))

/-- The checks of the retained mode on what was desired before. -/
def admitRetained (workspace : Admitted) : Drive Unit :=
  match workspace.desired, workspace.current with
  | none, _ => return ()
  | some _, none => raise unknown
  | some desired, some current => do
    let sessions ← page around scenario "read.activity" []
    check (require (decide (sessions.length ≤ 64)))
    let found ← matchingPlans around scenario desired workspace.revision sessions []
    match found with
    | [found] => do
      let planId ← check (do coordinate (← item found "plan_id"))
      let detail ← call around scenario "read.plan-detail" [argument "plan_id" (.str planId)]
      let prior ← check (item detail "plan")
      check (do require (isText (← item prior "status") "planned"))
      let priorId ← check (item prior "plan_id")
      let runs ← page around scenario "read.plan-runs" [argument "plan_id" priorId]
      let activities ← check (do item (← item prior "payload") "activities")
      if truthy activities then
        check (do
          require (decide (desired = current) && !runs.isEmpty)
          runs.forM fun run => do require (isText (← item run "status") "succeeded"))
      else
        check (do
          require runs.isEmpty
          require (← agrees prior [("base_graph_id", .str current.authoredGraphId),
            ("base_realized_projection_id", .str current.realizedProjectionId)]))
        observeGraph around scenario "read.desired-graph" desired
        observeGraph around scenario "read.current-graph" current
    | _ => raise invalid

/-- The step of an import. -/
def Product.importStep : Product → String
  | .helloServer => "hello-product-import"
  | .httpActiveRouter => "router-product-import"
  | .cloudflaredConnector => "connector-product-import"

/-- The step of a pull authority. -/
def Product.pullStep : Product → Option String
  | .helloServer => some "hello-pull-authority-register"
  | .httpActiveRouter => some "router-pull-authority-register"
  | .cloudflaredConnector => none

/-- The clock as an argument. -/
def clock (name : String) (key : Key) : Text × Json :=
  argument name (.str (around.clock key))

/-- The imports of the products. -/
def importProducts (documents : List (Product × Json)) : Drive Unit :=
  documents.forM fun (product, content) => do
    setStep product.importStep
    let _ ← command around scenario "command.product.import" (.product product)
      [argument "descriptor_document" content, clock around "imported_at" (.product product)]

/-- The secret provider of the retained mode. -/
def registerSecrets (reference : Text) : Drive Unit := do
  setStep "secret-provider-registration"
  let intents : Json := .arr [.str "cloudflare.tunnel-token"]
  let provider ← command around scenario "command.secret-provider.register" .secretProvider
    [argument "provider_id" (.str "persistent-demo-secrets"),
      argument "provider_kind" (.str "control-plane-kit-secrets"),
      argument "display_name" (.str "Persistent application custody"),
      argument "endpoint_reference" (.str "persistent-demo-secrets"),
      argument "credential_reference" (.str "secret://bootstrap/provider/demo-client-token"),
      argument "allowed_reference_prefixes" (.arr [.str reference]),
      argument "allowed_intents" intents, clock around "admitted_at" .secretProvider,
      argument "metadata" (.obj [])]
  let registration ← check (do coordinate (← item provider "registration_id"))
  let _ ← command around scenario "command.secret-reference.register" .tunnelReference
    [argument "reference" (.str reference),
      argument "provider_registration_id" (.str registration), argument "allowed_intents" intents,
      clock around "admitted_at" .tunnelReference, argument "metadata" (.obj [])]

/-- The custody of the token, where the retained mode creates its workspace. -/
def registerCustody : Drive Unit :=
  match scenario.connectorTokenReference with
  | some reference => whenever scenario.createWorkspace (registerSecrets around scenario reference)
  | none => pure ()

/-- The runtime authority and its delivery. -/
def registerAuthority : Drive Unit := do
  setStep "runtime-authority-register"
  let _ ← command around scenario "command.runtime-authority.register" .authority
    [argument "authority_ref" (.str "local-docker"), argument "runtime_kind" (.str "docker"),
      argument "authority" (.obj [argument "kind" (.str "local-docker-socket")]),
      clock around "admitted_at" .authority]
  setStep "runtime-authority-delivery-register"
  let _ ← command around scenario "command.runtime-authority-delivery.register" .delivery
    [argument "delivery" (.obj
        [argument "authority_ref" (.obj [argument "reference_id" (.str "local-docker")]),
          argument "delivery_kind" (.str "local-docker-socket-mount"),
          argument "secret_references" (.arr [])]),
      clock around "admitted_at" .delivery]

/-- The step of a pull authority is set; there is none for the connector. -/
def setPullStep (product : Product) : Drive Unit :=
  match product.pullStep with
  | some step => setStep step
  | none => raise unknown

/-- The pull authorities of the products. -/
def registerPullAuthorities (documents : List (Product × Json)) : Drive Unit :=
  documents.forM fun (product, content) => do
    setPullStep product
    let image ← check (do item (← item content "product") "image")
    let registry ← check (item image "registry")
    check (require (isText registry "ghcr.io"))
    let repository ← check (item image "repository")
    let _ ← command around scenario "command.image-pull-authority.register"
      (.pullAuthority product) [argument "registry" registry, argument "repository" repository,
        argument "credential_reference" (.str "secret://docker-config/ghcr.io"),
        clock around "admitted_at" (.pullAuthority product)]

/-- The workspace that the scenario starts from. -/
def startWorkspace : Drive Json := do
  setStep "workspace-create"
  let value ← (if scenario.createWorkspace then
      command around scenario "command.workspace.create" .workspace
        [argument "name" (.str scenario.workspaceId)]
    else call around scenario "read.workspace" [] : Drive Json)
  check (item value "workspace")

/-- The bootstrap of the workspace. -/
def bootstrap (documents : List (Product × Json)) : Drive Admitted := do
  setPhase "workspace-bootstrap"
  let workspace ← startWorkspace around scenario
  setStep "workspace-current-pointer"
  check (do
    require (isText (← item workspace "workspace_id") scenario.workspaceId)
    require (← pointer workspace "current").isSome)
  let start ← check (admitted workspace)
  whenever scenario.retained (admitRetained around scenario start)
  importProducts around scenario documents
  registerCustody around scenario
  registerAuthority around scenario
  whenever scenario.registerPullAuthority (registerPullAuthorities around scenario documents)
  return start

end Driver

/-! ### The phases -/

/-- What `_plan_evidence` keeps of an activity. -/
structure Activity where
  operation : Json
  target : Json
  rest : Json

/-- One activity of `_plan_evidence`. -/
def activityEvidence (activity : Json) : Except Doubt Activity := do
  let identity ← items activity ["activity_id"]
  let operation ← item activity "operation"
  let kind ← item operation "kind"
  match ← item operation "target" with
  | .obj target => do
    let rest ← items activity ["dependencies", "risk", "impact"]
    let names := ["kind", "node_id", "runtime_id", "edge_id"].map Text.utf8
    return ⟨kind, .obj (target.filter fun m => decide (m.1 ∈ names)), .arr [identity, rest]⟩
  | _ => .error unknown

/-- `_plan_evidence`: the coordinates of the plan and its activities. -/
def planEvidence (plan : Json) : Except Doubt (Json × List Activity) := do
  let coordinates ← items plan ["plan_id", "session_id", "base_graph_id", "desired_graph_id",
    "base_realized_projection_id", "desired_realized_projection_id", "desired_graph_revision"]
  let activities ← asList (← item (← item plan "payload") "activities")
  return (coordinates, ← activities.mapM activityEvidence)

/-- The first check with the identity `root-response`. -/
def firstRoot : List Json → Except Doubt Json
  | [] => .error unknown
  | check :: checks => do
    let identity ← item check "check_id"
    if isText identity (.utf8 "root-response") then return check else firstRoot checks

/-- The check on the router in the desired graph. -/
def rootCheck (desired : Json) (routerId : Text) : Except Doubt Json := do
  let .obj nodes ← item desired "nodes" | .error unknown
  match nodes.lookup routerId with
  | none => .error unknown
  | some node => do
    let contract ← item (← item node "block_spec") "verification"
    let checks ← asList (← item contract "checks")
    firstRoot checks

/-- Whether a size is within the bound of a check. -/
def fits (check size : Json) : Except Doubt Bool :=
  match size with
  | .int n => do
    if n < 0 then return false
    match Json.atLeast n (← item (← item check "policy") "maximum_evidence_bytes") with
    | some b => return b
    | none => .error unknown
  | _ => return false

/-- Whether an observation of the router counts; `none` where it is skipped. -/
def observedMatch (check : Json) (graphId runId routerId : Text) (previous : Option Json)
    (observation : Json) : Except Doubt (Option Json) := do
  let checkId ← item check "check_id"
  let proof ← getD (← getD observation "payload" (.obj [])) "http_verification" (.obj [])
  if !(isText (← getD proof "node_id" .null) routerId) then return none
  if !((← getD proof "check_id" .null).pyEq checkId) then return none
  let expectedGraph ← match previous with
    | none => .ok (.str graphId)
    | some previous => item previous "graph_id"
  let expectedRun ← match previous with
    | none => .ok (.str runId)
    | some previous => item previous "run_id"
  if !((← getD observation "graph_id" .null).pyEq expectedGraph) then return none
  if !((← getD proof "run_id" .null).pyEq expectedRun) then return none
  if !(isText (← getD observation "status" .null) "verified") then return none
  match previous with
  | none => if !(isText (← getD observation "freshness" .null) "fresh") then return none
  | some previous =>
    if !((← getD observation "observation_id" .null).pyEq (← item previous "observation_id")) ||
        !(isText (← getD observation "freshness" .null) "stale") ||
        !(isText (← getD observation "stale_reason" .null) "graph-changed") then return none
  if !((← getD proof "path" .null).pyEq (← item check "path")) then return none
  let statuses ← asList (← item check "expected_statuses")
  let status ← getD proof "http_status" .null
  if !(statuses.any fun expected => expected.pyEq status) then return none
  let size ← getD proof "response_bytes" .null
  if !(← fits check size) then return none
  let body ← item check "expected_body_sha256"
  if !((← getD proof "expected_body_sha256" .null).pyEq body) then return none
  match ← getD proof "body_sha256_matches" .null with
  | .bool true => do
    let identity ← coordinate (← item observation "observation_id")
    let basis := if previous.isSome then "historical-unchanged-router" else "current-run"
    return some (.obj [argument "observation_id" (.str identity),
      argument "graph_id" expectedGraph, argument "run_id" expectedRun,
      argument "observed_at" (← item observation "observed_at"),
      argument "freshness" (← item observation "freshness"),
      argument "stale_reason" (← getD observation "stale_reason" .null),
      argument "basis" (.str (.utf8 basis)), argument "node_id" (.str routerId),
      argument "check_id" checkId, argument "http_status" (← item proof "http_status"),
      argument "response_bytes" size, argument "expected_body_sha256" body,
      argument "body_sha256_matches" (.bool true)])
  | _ => return none

/-- `_observed_response`. -/
def observedResponse (observations : List Json) (desired : Json) (graphId runId routerId : Text)
    (previous : Option Json) : Except Doubt Json := do
  let check ← rootCheck desired routerId
  let found ← observations.mapM (observedMatch check graphId runId routerId previous)
  match found.reduceOption with
  | [response] => return response
  | _ => .error invalid

section Phases

variable (around : Surroundings) (scenario : Scenario)

/-- `command` with the key of a step. -/
def stepCommand (phase : Phase) (route : String) (step : Step) (arguments : Fields) : Drive Json :=
  command around scenario route (.phase phase step) arguments

/-- A phase that has been prepared. -/
structure Prepared where
  current : Pointer
  planId : Text
  prepared : Json
  plan : Json
  activities : List Activity

/-- The retained mode goes on from the workspace that it has admitted. -/
def checkStart (start : Admitted) (workspace : Json) : Except Doubt Unit := do
  if scenario.retained then require ((← admitted workspace).same start)

/-- The preparation of a phase, up to its plan. -/
def prepare (start : Admitted) (plan : Plan) : Drive Prepared := do
  let workspace ← check (item (← call around scenario "read.workspace" []) "workspace")
  check (checkStart scenario start workspace)
  match ← check (pointer workspace "current") with
  | none => raise invalid
  | some current => do
    modify fun s => { s with report := { s.report with
      lastObservedGraphId := some current.authoredGraphId } }
    let desired ← check (pointer workspace "desired")
    let revision ← check (do revision (← item workspace "desired_graph_revision"))
    let prepared ← stepCommand around scenario plan.phase "command.deployment.prepare" .prepare
      [argument "desired_graph" plan.desired, argument "expected_current" current.json,
        argument "expected_desired" ((desired.map Pointer.json).getD .null),
        argument "expected_desired_graph_revision" (.int revision),
        argument "title" (.str (.utf8 ("Public convergence " ++ plan.phase.name)))]
    let planId ← check (do coordinate (← item prepared "plan_id"))
    modify fun s => { s with report := { s.report with transitions := s.report.transitions ++
      [⟨plan.phase, planId, .attentionRequired, none, []⟩] } }
    evidence "preparation" (present prepared ["status", "plan_id", "approval_request_id"])
    let detail ← check (item (← call around scenario "read.plan-detail"
      [argument "plan_id" (.str planId)]) "plan")
    let (coordinates, activities) ← check (planEvidence detail)
    evidence "plan" coordinates
    return ⟨current, planId, prepared, detail, activities⟩

/-- The approval and the session of a phase. -/
structure Approved where
  approvalId : Text
  sessionId : Text

/-- Whether an approval is for a destructive plan. -/
def isDestructive (approval : Json) : Except Doubt Bool := do
  if truthy (← item approval "destructive") then return true
  return isText (← item approval "required_scope") "plan:approve-destructive"

/-- The scope of an approval is one of two. -/
def checkScope (approval : Json) : Except Doubt Unit := do
  match Json.memberOf ["plan:approve", "plan:approve-destructive"]
      (← item approval "required_scope") with
  | none => .error unknown
  | some closed => require closed

/-- The retained mode approves a destructive plan only if it may. -/
def checkDestructive (approval : Json) : Except Doubt Unit := do
  if scenario.retained then
    if ← isDestructive approval then require scenario.destructiveApproved

/-- A phase that removes nodes must be known as destructive. -/
def checkRemoval (phase : Phase) (approval : Json) : Except Doubt Unit := do
  if phase = .subsetRemoval ∨ phase = .teardown then
    match ← item approval "destructive" with
    | .bool true => require (isText (← item approval "required_scope") "plan:approve-destructive")
    | _ => .error invalid

/-- The checks on a pending approval. -/
def checkApproval (phase : Phase) (p : Prepared) (approvalId sessionId : Text) (approval : Json) :
    Except Doubt Unit := do
  require (← agrees p.plan [("plan_id", .str p.planId)])
  require (← agrees approval [("request_id", .str approvalId)])
  require (← agrees approval [("session_id", .str sessionId), ("state", .str "pending")])
  require (← agrees p.plan [("base_graph_id", .str p.current.authoredGraphId)])
  require (← agrees p.plan [("base_realized_projection_id", .str p.current.realizedProjectionId)])
  checkScope approval
  checkDestructive scenario approval
  checkRemoval phase approval

/-- The approval is read back: approved, by another actor than the requester. -/
def checkApproved (approvalId : Text) (approved : Json) : Except Doubt Unit := do
  require (← agrees approved [("state", .str "approved"), ("request_id", .str approvalId)])
  let actor ← item (← item approved "decision") "actor_id"
  require (!(actor.pyEq (← item approved "requested_by")))

/-- The approval of a phase. -/
def approve (phase : Phase) (p : Prepared) : Drive Approved := do
  let approvalId ← check (do coordinate (← item p.prepared "approval_request_id"))
  let approval ← check (item (← call around scenario "read.approval-detail"
    [argument "approval_id" (.str approvalId)]) "approval")
  evidence "approval" (← check (items approval
    ["request_id", "session_id", "required_scope", "destructive", "state"]))
  let sessionId ← check (do coordinate (← item p.plan "session_id"))
  check (checkApproval scenario phase p approvalId sessionId approval)
  let decided ← stepCommand around scenario phase "command.approval.decide" .approve
    [argument "approval_id" (.str approvalId), argument "session_id" (.str sessionId),
      argument "decision" (.str "approved")]
  check (do require (← agrees decided [("state", .str "approved")]))
  let approved ← check (item (← call around scenario "read.approval-detail"
    [argument "approval_id" (.str approvalId)]) "approval")
  check (checkApproved approvalId approved)
  let decision ← check (item approved "decision")
  evidence "decision" (← check (items decision
    ["decision_id", "actor_id", "decision", "scope", "decided_at"]))
  return ⟨approvalId, sessionId⟩

/-- A run and the generation of its claim. -/
structure Run where
  runId : Text
  generation : ℤ

/-- The admission, the claim and the start of a run. -/
def launch (phase : Phase) (p : Prepared) (a : Approved) : Drive Run := do
  evidence "outcomes" (.arr [])
  let admitted ← stepCommand around scenario phase "command.deployment.admit" .admission
    [argument "plan_id" (.str p.planId), argument "session_id" (.str a.sessionId),
      argument "approval_request_id" (.str a.approvalId), argument "readiness" (.arr [])]
  let requestId ← check (do coordinate (← item admitted "execution_request_id"))
  let claimed ← stepCommand around scenario phase "command.run.claim" .claim
    [argument "run_id" (.str requestId), argument "lease_duration_seconds" (.int 1800)]
  let runId ← check (do coordinate (← item claimed "run_id"))
  let generation ← check (do revision (← item claimed "claim_generation"))
  check (require (decide (0 < generation)))
  evidence "run_id" (.str runId)
  evidence "approval_request_id" (.str a.approvalId)
  let started ← stepCommand around scenario phase "command.run.start" .start
    [argument "run_id" (.str runId), argument "claim_generation" (.int generation)]
  check (do require (← agrees started [("run_status", .str "running")]))
  return ⟨runId, generation⟩

/-- The driver stops in a phase without an exception. -/
def stopAt (phase : Phase) (status : Json) : Drive Unit :=
  modify fun s => { s with report := { s.report with
    phase := some phase.name, coordinatorStatus := some status } }

/-- The status of a coordinator as the report has it. -/
def attention (status : Json) : Except Doubt Json :=
  match Json.memberOf ["in-flight", "uncertain", "blocked", "failed", "unsupported"] status with
  | none => .error unknown
  | some true => .ok status
  | some false => .ok (.str "unknown")

/-- The executions of a run, with the steps that are left: whether it has completed. -/
def execute (phase : Phase) (run : Run) : ℕ → ℕ → List Json → Drive Bool
  | 0, _, _ => do
    stopAt phase (.str "execution-budget-exhausted")
    return false
  | fuel + 1, ordinal, outcomes => do
    let executed ← stepCommand around scenario phase "command.deployment.execute" (.execute ordinal)
      [argument "run_id" (.str run.runId), argument "claim_generation" (.int run.generation),
        argument "max_effects" (.int 1)]
    check (do require (← agrees executed [("run_id", .str run.runId)]))
    let outcome ← check (items executed
      ["run_id", "run_status", "coordinator_status", "effects_attempted", "activity_id"])
    evidence "outcomes" (.arr (outcomes ++ [outcome]))
    let status ← check (item executed "coordinator_status")
    if isText status "completed" then
      check (do require (← agrees executed [("run_status", .str "succeeded")]))
      return true
    else if isText status "progressed" then
      execute phase run fuel (ordinal + 1) (outcomes ++ [outcome])
    else
      stopAt phase (← check (attention status))
      return false

/-- The graph that a phase has advanced to. -/
structure Advanced where
  graphId : Text
  projectionId : Text
  observed : Json

/-- The advancement of the current graph, read back. -/
def advance (phase : Phase) (p : Prepared) (run : Run) : Drive Advanced := do
  let graphId ← check (do coordinate (← item p.plan "desired_graph_id"))
  let projectionId ← check (do coordinate (← item p.plan "desired_realized_projection_id"))
  let revision ← check (do revision (← item p.plan "desired_graph_revision"))
  let advanced ← stepCommand around scenario phase "command.graph.advance-current" .advance
    [argument "run_id" (.str run.runId), argument "plan_id" (.str p.planId),
      argument "claim_generation" (.int run.generation),
      argument "expected_current_graph_id" (.str p.current.authoredGraphId),
      argument "expected_current_realized_projection_id" (.str p.current.realizedProjectionId),
      argument "desired_graph_id" (.str graphId),
      argument "desired_realized_projection_id" (.str projectionId),
      argument "expected_desired_graph_revision" (.int revision)]
  check (do require (← agrees advanced [("to_graph_id", .str graphId),
    ("to_realized_projection_id", .str projectionId)]))
  check (do require (← agrees advanced [("desired_graph_revision", .int revision)]))
  evidence "advancement" (← check (items advanced
    ["to_graph_id", "to_realized_projection_id", "desired_graph_revision"]))
  let observed ← call around scenario "read.current-graph" []
  check (do require (← agrees observed [("graph_id", .str graphId)]))
  check (do require (← agrees observed [("realized_projection_id", .str projectionId)]))
  modify fun s => { s with report := { s.report with lastObservedGraphId := some graphId } }
  onRow fun row => { row with graphId := some graphId }
  return ⟨graphId, projectionId, observed⟩

/-- The response and the desired graph of the phase before. -/
structure Previous where
  response : Json
  desired : Json

/-- The activities that concern the router, and whether it is checked. -/
def routerActivities (p : Prepared) : List Activity :=
  p.activities.filter fun activity => activity.target.pyEq (.obj
    [argument "kind" (.str "node"), argument "node_id" (.str scenario.routerId)])

/-- The router is the one that the phase before has observed. -/
def checkUnchanged (plan : Plan) (p : Prepared) (previous : Option Previous) :
    Except Doubt Previous :=
  match previous with
  | none => .error invalid
  | some previous => do
    require (routerActivities scenario p).isEmpty
    let .obj nodes ← item plan.desired "nodes" | .error unknown
    let .obj before ← item previous.desired "nodes" | .error unknown
    match nodes.lookup scenario.routerId, before.lookup scenario.routerId with
    | some node, some node' => require (node.pyEq node')
    | _, _ => .error unknown
    require ((← item plan.desired "edges").pyEq (← item previous.desired "edges"))
    require (decide (plan.phase ≠ .initial ∧ plan.phase ≠ .rewire))
    return previous

/-- The response of the router after a phase with nodes. -/
def observeRouter (plan : Plan) (p : Prepared) (run : Run) (a : Advanced)
    (previous : Option Previous) : Drive Previous := do
  let checksRouter := (routerActivities scenario p).any fun activity =>
    isText activity.operation "wait-for-healthy"
  if checksRouter then
    let observations ← page around scenario "read.observed-state" []
    let response ← check (observedResponse observations plan.desired a.graphId run.runId
      scenario.routerId none)
    evidence "response" response
    return ⟨response, plan.desired⟩
  else if scenario.retained then
    let response : Json := .obj [argument "basis" (.str "not-observed"),
      argument "freshness" (.str "unknown")]
    evidence "response" response
    return ⟨response, plan.desired⟩
  else
    let previous ← check (checkUnchanged scenario plan p previous)
    let observations ← page around scenario "read.observed-state" []
    let response ← check (observedResponse observations plan.desired a.graphId run.runId
      scenario.routerId (some previous.response))
    evidence "response" response
    return ⟨response, plan.desired⟩

/-- The evidence after the advancement. -/
def observe (plan : Plan) (p : Prepared) (run : Run) (a : Advanced) (previous : Option Previous) :
    Drive (Option Previous) := do
  let runs ← page around scenario "read.plan-runs" [argument "plan_id" (.str p.planId)]
  check (do require (← runs.anyM fun item => agrees item
    [("run_id", .str run.runId), ("status", .str "succeeded")]))
  let events ← page around scenario "read.run-events" [argument "run_id" (.str run.runId)]
  check (require (!events.isEmpty))
  evidence "runs" (.arr (← check (runs.mapM fun item => items item ["run_id", "status"])))
  evidence "events" (.arr (← check (events.mapM fun item => items item
    ["event_id", "run_id", "ordinal", "event_type", "occurred_at", "activity_id"])))
  let nodes ← check (item plan.desired "nodes")
  if truthy nodes then
    return some (← observeRouter around scenario plan p run a previous)
  else
    check (do require (!truthy (← item (← item a.observed "graph_descriptor") "nodes")))
    return previous

/-- A phase whose plan needs an approval: whether the driver goes on, and what it has observed. -/
def converge (plan : Plan) (p : Prepared) (previous : Option Previous) :
    Drive (Option (Option Previous)) := do
  check (require (decide (plan.phase ≠ .noOp)))
  let approved ← approve around scenario plan.phase p
  let run ← launch around scenario plan.phase p approved
  if ← execute around scenario plan.phase run scenario.maxSteps.toNat 0 [] then
    let advanced ← advance around scenario plan.phase p run
    let previous ← observe around scenario plan p run advanced previous
    onRow fun row => { row with status := .converged, graphId := some advanced.graphId }
    return some previous
  else return none

/-- A phase; `none` where the driver returns its report. -/
def runPhase (start : Admitted) (plan : Plan) (previous : Option Previous) :
    Drive (Option (Option Previous)) := do
  setPhase plan.phase.name
  let p ← prepare around scenario start plan
  let status ← check (item p.prepared "status")
  if isText status "no-changes" then
    check (require (decide (plan.phase = .noOp) || scenario.retained))
    onRow fun row => { row with status := .noChanges }
    return some previous
  else if isText status "approval-required" then converge around scenario plan p previous
  else
    modify fun s => { s with report := { s.report with phase := some plan.phase.name } }
    return none

/-- The phases one after the other; whether all of them were gone through. -/
def runPhases (start : Admitted) : List Plan → Option Previous → Drive Bool
  | [], _ => return true
  | plan :: plans, previous => do
    match ← runPhase around scenario start plan previous with
    | some previous => runPhases start plans previous
    | none => return false

/-- The body of the driver. -/
def drive : Drive Unit := do
  let (documents, plans) ← check (admission around scenario)
  let start ← bootstrap around scenario documents
  if ← runPhases around scenario start plans none then
    modify fun s => { s with report := { s.report with
      converged := true, finalGraphId := s.report.lastObservedGraphId } }

/-- The state before the first call. -/
def State.initial : State where
  report := ⟨false, [], none, none, none, none, none, none⟩
  phase := "admission"
  bootstrapStep := none
  calls := 0

/-- The report of a failed invocation. -/
def failed (s : State) (doubt : Doubt) : Report :=
  { s.report with
    converged := false
    phase := some s.phase
    bootstrapStep := if s.phase = "workspace-bootstrap" then s.bootstrapStep else none
    failure := some doubt }

/-- `run_public_graph_convergence`. -/
def runPublicGraphConvergence : Program Call (fun _ => Answer) Empty Report :=
  ((drive around scenario).run .initial >>= fun r => .pure r.2.report).handle fun e =>
    .pure (failed e.1 e.2)

end Phases

end Convergence

end SourceLive

end ControlPlaneKit
