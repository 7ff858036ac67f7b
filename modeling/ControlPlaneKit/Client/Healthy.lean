import ControlPlaneKit.Client.Discipline
import ControlPlaneKit.Client.Documents

/-!
# An operation that goes well

The runs in which nothing is lost: every read is answered, every journal write is stored, and
every command is answered with a response that is bound to it. `Returns` is the forward
counterpart of `Abides`, with one rule for each block of the client; the last section follows
`plan` and one `apply` to convergence, for any plan, any coordinates and any keys.
-/

namespace ControlPlaneKit

namespace Client

open Interaction

/-! ### Blocks that return -/

section Returns

variable {rt : Runtime} {profile : ClientProfile} {docs : Set (List UInt8)} {ref : OperationRef}
  {w w' w'' : World} {tr tr' : Trace} {α β : Type}

/-- The block returns this value, after these events. -/
abbrev Returns (docs : Set (List UInt8)) (ref : OperationRef) (w : World) (p : Block α) (tr : Trace)
    (w' : World) (a : α) : Prop :=
  Exec (answers docs ref) w p tr w' (some (.ok a))

theorem Returns.pure (a : α) : Returns docs ref w (Pure.pure a) [] w a :=
  .returned w a

theorem Returns.lift {x : Except ClientError α} {a : α} (h : x = .ok a) :
    Returns docs ref w (Client.lift x) [] w a := by
  subst h
  exact .returned w a

theorem Returns.bind {p : Block α} {f : α → Block β} {t u : Trace} {a : α} {b : β}
    (hp : Returns docs ref w p t w' a) (hf : Returns docs ref w' (f a) u w'' b) :
    Returns docs ref w (p >>= f) (t ++ u) w'' b :=
  Exec.bind hp hf

theorem Returns.lift_bind {x : Except ClientError α} {f : α → Block β} {a : α} {b : β}
    (h : x = .ok a) (hf : Returns docs ref w (f a) tr w' b) :
    Returns docs ref w (Client.lift x >>= f) tr w' b := by
  subst h
  exact hf

theorem Returns.exceptUnresolved {block handler : Block α} {a : α}
    (h : Returns docs ref w block tr w' a) :
    Returns docs ref w (Client.exceptUnresolved block handler) tr w' a :=
  Exec.handle_ok h

theorem Returns.exceptTransport {block handler : Block α} {a : α}
    (h : Returns docs ref w block tr w' a) :
    Returns docs ref w (Client.exceptTransport block handler) tr w' a :=
  Exec.handle_ok h

/-- A first part that returned is followed by the rest of the invocation. -/
theorem Exec.then_conclude {α : Type} {p : Block α} {f : α → Block ClientResult} {t u : Trace}
    {w₁ : World} {b : α} {out : Option (Except ClientError ClientResult)}
    (hp : Exec (answers docs ref) w p t w₁ (some (.ok b)))
    (hf : Exec (answers docs ref) w₁ (conclude (f b)) u w' out) :
    Exec (answers docs ref) w (conclude (p >>= f)) (t ++ u) w' out := by
  induction p generalizing w t with
  | pure b' =>
    cases hp
    exact hf
  | raise e => cases hp
  | perform op next ih =>
    cases hp with
    | performed hstep hrest => exact .performed hstep (ih _ hrest)

/-- An answered read. -/
def answered (profile : ClientProfile) (ref : OperationRef) (route : ReadRoute)
    (path : PathParameters) (response : Fields) : Event Op Op.Answer :=
  ⟨.call (readCall profile ref route path []), .reply response⟩

theorem returns_readPublic (route : ReadRoute) (path : PathParameters) (response : Fields) :
    Returns docs ref w (readPublic profile ref route path [])
      [answered profile ref route path response] w response := by
  refine .performed ?_ (.returned w response)
  simp [answers, Route.isRead]

theorem mapping_of_get {value members : Fields} {name : String} (h : value.get name = .obj members) :
    mapping value name = .ok members := by
  rw [mapping, h]

theorem returns_readWorkspace {response workspace : Fields}
    (h : response.get "workspace" = .obj workspace) :
    Returns docs ref w (readWorkspace profile ref)
      [answered profile ref .workspace (workspacePath profile) response] w workspace :=
  (returns_readPublic _ _ _).bind (.lift (mapping_of_get h))

/-- The path of the plan detail. -/
def planPath (profile : ClientProfile) (planId : Coordinate) : PathParameters :=
  [("workspace_id", profile.workspaceId), ("plan_id", planId)]

/-- The path of the approval detail. -/
def approvalPath (profile : ClientProfile) (approvalId : Coordinate) : PathParameters :=
  [("workspace_id", profile.workspaceId), ("approval_id", approvalId)]

theorem returns_planDetail {planId : Coordinate} {response plan : Fields}
    (h : response.get "plan" = .obj plan) :
    Returns docs ref w (planDetail profile ref planId)
      [answered profile ref .planDetail (planPath profile planId) response] w plan :=
  (returns_readPublic _ _ _).bind (.lift (mapping_of_get h))

theorem returns_approvalDetail {approvalId : Coordinate} {response approval : Fields}
    (h : response.get "approval" = .obj approval) :
    Returns docs ref w (approvalDetail profile ref approvalId)
      [answered profile ref .approvalDetail (approvalPath profile approvalId) response] w approval :=
  (returns_readPublic _ _ _).bind (.lift (mapping_of_get h))

/-- A key that no journal and no call of the operation has used is drawn. -/
theorem returns_newKey {key : OperationRef} (hfresh : w.Fresh (.utf8 key.text)) :
    Returns docs ref w newKey [⟨.identity, .utf8 key.text⟩] w key := by
  refine .performed ⟨hfresh, rfl⟩ (Returns.lift ?_)
  simp [canonicalOperationRef, key.valid]

theorem returns_encoded {j : Journal} (hw : w.journal.isSome)
    (hencodes : j.Encodes rt.floatText ref) :
    Returns docs ref w (writeJournal rt ref j) [wrote ref j] (w.store j) () := by
  obtain ⟨raw, hraw⟩ := hencodes
  refine Returns.lift_bind hraw (.performed ?_ (.returned _ ()))
  simp only [answers, StoreAnswer.published, and_self, if_true]
  exact ⟨hw, trivial⟩

theorem returns_write {j : Journal} (hw : w.journal.isSome) (hvalid : j.Valid ref)
    (hmodest : j.Modest rt.floatText) :
    Returns docs ref w (writeJournal rt ref j) [wrote ref j] (w.store j) () :=
  returns_encoded hw (hmodest.encodes hvalid)

theorem returns_create {j : Journal} (hw : w.journal = none) (hvalid : j.Valid ref)
    (hmodest : j.Modest rt.floatText) :
    Returns docs ref w (createJournal rt ref j) [⟨.create ref j, .stored⟩] (w.store j) () := by
  obtain ⟨raw, hraw⟩ := hmodest.encodes hvalid
  refine Returns.lift_bind hraw (.performed ?_ (.returned _ ()))
  simp only [answers, StoreAnswer.published, and_self, if_true]
  exact ⟨hw, trivial⟩

theorem returns_load {j : Journal} (hj : w.journal = some j) (hvalid : j.Valid ref)
    (htarget : j.target = profile.target rt) :
    Returns docs ref w (load rt profile ref) [⟨.read ref, .found j⟩] w j := by
  have hread : Returns docs ref w (readJournal ref) [⟨.read ref, .found j⟩] w j := by
    refine .performed ⟨rfl, ?_⟩ (Returns.lift_bind (validateJournal_eq_ok.mpr hvalid) (.pure j))
    rintro - k hk
    cases hk
    exact hj
  refine hread.bind ?_
  rw [if_neg (by simpa using htarget)]
  exact .pure j

/-- A pending request whose response is accepted. -/
theorem returns_dispatch {j : Journal} {p : Pending} {body response : Fields}
    {projection : Projection} (hw : w.journal.isSome) (hid : j.operationRef = ref)
    (hp : j.pendingRequest = some p) (hroom : j.requestHistory.length < maximumRequestRecords)
    (hbound : responseIsBound p.routeId response p.pathParameters body j.coordinates
      profile.workspaceId = .ok true)
    (hproj : responseCoordinates p.routeId response = .ok projection)
    (hencodes : (recorded j p response projection).Encodes rt.floatText ref) :
    Returns docs ref w (dispatchPending rt profile j body)
      [⟨.call (commandCall profile j p.routeId p.pathParameters body p.credentialRole),
        .reply response⟩, wrote ref (recorded j p response projection)]
      ⟨some (recorded j p response projection), w.dispatched ++
        [commandCall profile j p.routeId p.pathParameters body p.credentialRole]⟩
      (response, recorded j p response projection) := by
  subst hid
  have hcall : Returns docs j.operationRef w
      (callTransport profile j.operationRef (.command p.routeId) p.pathParameters body
        p.credentialRole)
      [⟨.call (commandCall profile j p.routeId p.pathParameters body p.credentialRole),
        .reply response⟩]
      (w.dispatch (commandCall profile j p.routeId p.pathParameters body p.credentialRole))
      response := by
    refine .performed ?_ (.returned _ response)
    simp [answers, Route.isRead, commandCall]
  unfold dispatchPending
  rw [hp]
  refine Returns.bind (t := [_]) (u := [_]) (Returns.exceptTransport hcall) ?_
  refine Returns.lift_bind hbound ?_
  rw [if_pos rfl]
  refine Returns.lift_bind hproj ?_
  rw [if_neg (Nat.not_le.mpr hroom)]
  refine Returns.bind (u := []) (returns_encoded ?_ hencodes) (.pure _)
  exact hw

/-- A command whose response is accepted. -/
theorem returns_mutate {j : Journal} {route : CommandRoute} {path : PathParameters} {body : Fields}
    {key : OperationRef} {role : Role} {digest : Digest} {source : Option DesiredSource}
    {response : Fields} {projection : Projection} (hj : w.journal = some j)
    (hid : j.operationRef = ref) (hroom : j.requestHistory.length < maximumRequestRecords)
    (hdigest : canonicalDigest rt body = .ok digest) (hsource : route = .prepare → source ≠ none)
    {p : Pending} (hp : p = intended route path body key role digest source)
    (hintends : Journal.Encodes rt.floatText ref { j with pendingRequest := some p })
    (hbound : responseIsBound route response path body j.coordinates profile.workspaceId = .ok true)
    (hproj : responseCoordinates route response = .ok projection)
    (hrecords : (recorded j p response projection).Encodes rt.floatText ref) :
    Returns docs ref w (mutate rt profile j route path body key role source)
      [wrote ref { j with pendingRequest := some p },
        ⟨.call (commandCall profile j route path body role), .reply response⟩,
        wrote ref (recorded j p response projection)]
      ⟨some (recorded j p response projection),
        w.dispatched ++ [commandCall profile j route path body role]⟩
      (response, recorded j p response projection) := by
  subst hp hid
  unfold mutate
  rw [if_neg (by omega)]
  refine Returns.lift_bind hdigest ?_
  rw [if_neg (fun h => hsource h.1 h.2)]
  refine (returns_encoded (by rw [hj]; rfl) hintends).bind ?_
  exact returns_dispatch (j := { j with pendingRequest := some _ }) rfl rfl rfl hroom hbound hproj
    hrecords

end Returns

/-! ### Journals that stay valid -/

section Journals

variable {rt : Runtime} {ref : OperationRef} {j : Journal} {p : Pending}
  {floatText : ℚ → List Char}

/-- What the validator asks of the coordinates in a phase. -/
structure Coordinates.Suits (c : Coordinates) (phase : Phase) : Prop where
  planning : phase = .planning → ∀ n, c.has n = false
  planId : phase ≠ .planning → phase ≠ .attentionRequired → c.has .planId = true
  plan : needsPlanCoordinates phase = true → ∀ n ∈ planCoordinates, c.has n = true
  required : ∀ n ∈ requiredByPhase phase, c.has n = true
  terminal : phase ∈ [Phase.executed, .advanced, .converged] →
    c.get .runStatus = .str "succeeded" ∧ c.get .coordinatorStatus = .str "completed"
  started : phase = .started → c.get .runStatus = .str "running"
  executing : phase = .executing →
    c.get .runStatus = .str "running" ∧ c.get .coordinatorStatus = .str "progressed"
  advancement : phase ∈ [Phase.advanced, .converged] →
    c.advancedGraphId = c.desiredGraphId ∧
      c.advancedProjectionId = c.desiredRealizedProjectionId ∧
        c.advancedRevision = c.desiredGraphRevision

/-- The coordinates of a valid journal suit its phase. -/
theorem Journal.Valid.suits (h : j.Valid ref) : j.coordinates.Suits j.phase :=
  ⟨h.planning, h.planId, h.plan, h.required, h.terminal, h.started, h.executing, h.advancement⟩

/-- A valid journal moves to another phase, if nothing is pending there. -/
theorem Journal.Valid.move (h : j.Valid ref) {c : Coordinates} {phase : Phase}
    {history : List Record} {result : Option ClientResult} (hc : c.Suits phase)
    (hroom : history.length ≤ maximumRequestRecords)
    (hresult : ∀ r, result = some r → validateResult r ref j.target c = .ok ()) :
    Journal.Valid { j with
      coordinates := c, phase := phase, pendingRequest := none, requestHistory := history,
      lastResult := result } ref where
  identity := h.identity
  desired := h.desired
  planning := hc.planning
  planId := hc.planId
  plan := hc.plan
  required := hc.required
  terminal := hc.terminal
  started := hc.started
  executing := hc.executing
  advancement := hc.advancement
  pending := by simp
  budget := hroom
  result := hresult

/-- A valid request may become pending. -/
theorem Journal.Valid.intend (h : j.Valid ref)
    (hp : p.Valid j.phase j.target j.desired j.coordinates) :
    Journal.Valid { j with pendingRequest := some p } ref :=
  { h with
    pending := by
      intro q hq
      cases hq
      exact hp }

theorem Coordinates.Brief.update {c : Coordinates} (h : c.Brief) {projection : Projection}
    (hp : projection.Brief) : (c.update projection).Brief := by
  cases projection with
  | claim runId generation =>
    refine ⟨h.revision, ?_, h.effects, h.advanced⟩
    rintro n ⟨⟩
    exact hp
  | execute runId runStatus status effects activityId =>
    refine ⟨h.revision, h.generation, ?_, h.advanced⟩
    rintro n ⟨⟩
    exact hp
  | advance graphId projectionId revision =>
    refine ⟨h.revision, h.generation, h.effects, ?_⟩
    rintro n ⟨⟩
    exact hp
  | _ => exact ⟨h.revision, h.generation, h.effects, h.advanced⟩

theorem Journal.Modest.intend (h : j.Modest floatText) (hp : p.Brief floatText) :
    Journal.Modest floatText { j with pendingRequest := some p } :=
  { h with
    pending := by
      intro q hq
      cases hq
      exact hp }

/-- A modest journal moves on, with another record. -/
theorem Journal.Modest.recorded (h : j.Modest floatText) {response : Fields}
    {projection : Projection} (hp : projection.Brief) (hroom : j.requestHistory.length < 16) :
    (recorded j p response projection).Modest floatText where
  desired := h.desired
  coordinates := h.coordinates.update hp
  pending := by simp [Client.recorded]
  few := by
    simp only [Client.recorded, List.length_append, List.length_singleton]
    omega
  records := by
    intro r hr
    rcases List.mem_append.mp hr with hr | hr
    · exact h.records r hr
    · rw [List.mem_singleton.mp hr]
      exact hp
  result := h.result

end Journals

/-! ### The scenario -/

theorem Coordinate.literal_nonempty (s : String) (h : 0 < s.utf8ByteSize ∧ s.utf8ByteSize ≤ 512) :
    0 < s.utf8ByteSize :=
  h.1

theorem Coordinate.literal_bounded (s : String) (h : 0 < s.utf8ByteSize ∧ s.utf8ByteSize ≤ 512) :
    s.utf8ByteSize ≤ 512 :=
  h.2

/-- A literal text coordinate. -/
def Coordinate.literal (s : String) (h : 0 < s.utf8ByteSize ∧ s.utf8ByteSize ≤ 512 := by decide) :
    Coordinate :=
  ⟨s, Coordinate.literal_nonempty s h, Coordinate.literal_bounded s h⟩

/-- The sizes of the literals that later scenarios share with this one. -/
theorem running_size : 0 < "running".utf8ByteSize ∧ "running".utf8ByteSize ≤ 512 := by
  decide

theorem approve_size : 0 < "plan:approve".utf8ByteSize ∧ "plan:approve".utf8ByteSize ≤ 512 := by
  decide

theorem required_size :
    0 < "approval-required".utf8ByteSize ∧ "approval-required".utf8ByteSize ≤ 512 := by
  decide

theorem Coordinate.literal_json (s : String) (h : 0 < s.utf8ByteSize ∧ s.utf8ByteSize ≤ 512) :
    (Coordinate.literal s h).json = .str (.utf8 s) :=
  rfl

@[simp]
theorem isTextCoordinate_json (c : Coordinate) : isTextCoordinate c.json = true :=
  isTextCoordinate_iff.mpr ⟨c, textCoordinate_json c⟩

@[simp]
theorem PathParameters.get_cons (key name : String) (c : Coordinate) (path : PathParameters) :
    PathParameters.get ((key, c) :: path) name = if name = key then c.json else path.get name := by
  by_cases h : name = key
  · simp [PathParameters.get, h]
  · have hne : (name == key) = false := by simpa using h
    simp [PathParameters.get, List.lookup_cons, hne, h]

@[simp]
theorem Json.int_pyEq_self (n : ℤ) : (Json.int n).pyEq (.int n) = true :=
  Json.pyEq_int.mpr rfl

/-- The texts and numbers of one operation: what the server calls its resources, the keys that
are drawn, and the desired graph. -/
structure Scenario where
  ref : OperationRef
  key : CommandRoute → OperationRef
  file : String
  raw : List UInt8
  desired : Fields
  title : Coordinate
  planId : Coordinate
  sessionId : Coordinate
  approvalId : Coordinate
  requestId : Coordinate
  runId : Coordinate
  base : Pointer
  goal : Pointer
  revision : ℕ
  generation : ℕ

namespace Scenario

variable (rt : Runtime) (profile : ClientProfile) (docs : Set (List UInt8)) (s : Scenario)

/-- The keys differ, the desired graph is readable, and the texts whose size the types leave open
are of ordinary size. -/
structure Fair : Prop where
  keys : Function.Injective s.key
  found : s.raw ∈ docs
  loads : rt.loadDesired s.raw = some (.obj s.desired)
  size : s.raw.length ≤ maximumDesiredBytes
  absolute : isAbsolutePath (.utf8 s.file) = true
  file : s.file.utf8ByteSize ≤ 512
  openable : (Text.utf8 s.file).Openable
  length : Brief s.raw.length
  document : Json.Fits rt.floatText 20000 (.obj s.desired)
  shallow : (Json.obj s.desired).depth < rt.depthLimit
  revision : Brief s.revision
  generation : Brief s.generation
  claimed : 1 ≤ s.generation

/-- The reference to the desired graph. -/
def source : DesiredSource :=
  ⟨.utf8 s.file, s.raw.length, rt.sha256 s.raw⟩

/-- The workspace as the server shows it. -/
def workspace : Fields :=
  [("current_graph_id", s.base.authoredGraphId.json),
    ("current_realized_projection_id", s.base.realizedProjectionId.json),
    ("desired_graph_revision", natJson s.revision)]

/-- The plan as the server shows it. -/
def plan : Fields :=
  [("plan_id", s.planId.json), ("session_id", s.sessionId.json),
    ("base_graph_id", s.base.authoredGraphId.json),
    ("base_realized_projection_id", s.base.realizedProjectionId.json),
    ("desired_graph_id", s.goal.authoredGraphId.json),
    ("desired_realized_projection_id", s.goal.realizedProjectionId.json),
    ("desired_graph_revision", natJson s.revision), ("payload", .obj [])]

/-- The approval as the server shows it, in a state. -/
def approval (state : String) : Fields :=
  [("request_id", s.approvalId.json), ("session_id", s.sessionId.json),
    ("required_scope", .str "plan:approve"), ("destructive", .bool false), ("state", .str state)]

/-- The path of a command. -/
def path : CommandRoute → PathParameters
  | .prepare => workspacePath profile
  | .decide => approvalPath profile s.approvalId
  | .admission => planPath profile s.planId
  | .claim => [("workspace_id", profile.workspaceId), ("run_id", s.requestId)]
  | _ => [("workspace_id", profile.workspaceId), ("run_id", s.runId)]

/-- The body of a command. -/
def body : CommandRoute → Fields
  | .prepare => prepareBody s.desired s.base none s.revision s.title (s.key .prepare)
  | .decide =>
    [("session_id", s.sessionId.json), ("decision", .str "approved"),
      ("idempotency_key", (s.key .decide).json)]
  | .admission =>
    [("session_id", s.sessionId.json), ("approval_request_id", s.approvalId.json),
      ("readiness", .arr []), ("idempotency_key", (s.key .admission).json)]
  | .claim => [("lease_duration_seconds", .int 1800), ("idempotency_key", (s.key .claim).json)]
  | .start =>
    [("claim_generation", natJson s.generation), ("idempotency_key", (s.key .start).json)]
  | .execute =>
    [("claim_generation", natJson s.generation), ("max_effects", .int 1),
      ("idempotency_key", (s.key .execute).json)]
  | .advance =>
    [("plan_id", s.planId.json), ("claim_generation", natJson s.generation),
      ("expected_current_graph_id", s.base.authoredGraphId.json),
      ("expected_current_realized_projection_id", s.base.realizedProjectionId.json),
      ("desired_graph_id", s.goal.authoredGraphId.json),
      ("desired_realized_projection_id", s.goal.realizedProjectionId.json),
      ("expected_desired_graph_revision", natJson s.revision),
      ("idempotency_key", (s.key .advance).json)]

/-- The response to a command. -/
def response : CommandRoute → Fields
  | .prepare =>
    [("workspace_id", profile.workspaceId.json), ("status", (Coordinate.literal "approval-required").json),
      ("plan_id", s.planId.json), ("approval_request_id", s.approvalId.json)]
  | .decide => [("request_id", s.approvalId.json), ("state", (Coordinate.literal "approved").json)]
  | .admission => [("execution_request_id", s.requestId.json)]
  | .claim =>
    [("execution_request_id", s.requestId.json), ("run_id", s.runId.json),
      ("run_status", (Coordinate.literal "claimed").json), ("claim_generation", natJson s.generation)]
  | .start =>
    [("execution_request_id", s.requestId.json), ("run_id", s.runId.json),
      ("run_status", (Coordinate.literal "running").json), ("claim_generation", natJson s.generation)]
  | .execute =>
    [("run_id", s.runId.json), ("run_status", (Coordinate.literal "succeeded").json),
      ("coordinator_status", (Coordinate.literal "completed").json), ("effects_attempted", .int 0)]
  | .advance =>
    [("from_graph_id", s.base.authoredGraphId.json),
      ("from_realized_projection_id", s.base.realizedProjectionId.json),
      ("to_graph_id", s.goal.authoredGraphId.json),
      ("to_realized_projection_id", s.goal.realizedProjectionId.json),
      ("desired_graph_revision", natJson s.revision)]

/-- What is recorded of a response. -/
def projection : CommandRoute → Projection
  | .prepare => .prepare s.planId (some s.approvalId)
  | .decide => .decide (.literal "approved")
  | .admission => .admission s.requestId
  | .claim => .claim s.runId s.generation
  | .start => .start (.literal "running")
  | .execute => .execute s.runId (.literal "succeeded") (.literal "completed") 0 none
  | .advance => .advance s.goal.authoredGraphId s.goal.realizedProjectionId s.revision

theorem responseCoordinates_response (route : CommandRoute) (hclaimed : 1 ≤ s.generation) :
    responseCoordinates route (s.response profile route) = .ok (s.projection route) := by
  have hgeneration : (1 : ℤ) ≤ s.generation := by omega
  cases route <;>
    simp [responseCoordinates, response, projection, text, integer, bind, Except.bind, pure,
      Except.pure, natJson, hgeneration]

theorem responseIsBound_response (route : CommandRoute) (hclaimed : 1 ≤ s.generation)
    {c : Coordinates} (hrequest : route = .start → c.executionRequestId = some s.requestId) :
    responseIsBound route (s.response profile route) (s.path profile route) (s.body route) c
      profile.workspaceId = .ok true := by
  have hgeneration : 0 < s.generation := hclaimed
  have hmost : Json.atLeast 0 (.int 1) = some true := by
    simp only [Json.atLeast, Json.number?]
    decide
  have hnull : Json.null.pyEq .null = true := Json.pyEq_null.mpr rfl
  cases route <;>
    simp [responseIsBound, response, path, body, approvalPath, isPositiveInteger, natJson,
      Coordinate.literal_json, Json.pyEq_str, executeIsBound, pure, Except.pure, hmost, hnull, hgeneration]
  · simp [Coordinates.get, Coordinates.value?, hrequest rfl]

/-! ### The journals of the scenario -/

/-- The coordinates once the plan is known. -/
def planned : Coordinates where
  planId := some s.planId
  sessionId := some s.sessionId
  baseGraphId := some s.base.authoredGraphId
  baseRealizedProjectionId := some s.base.realizedProjectionId
  desiredGraphId := some s.goal.authoredGraphId
  desiredRealizedProjectionId := some s.goal.realizedProjectionId
  desiredGraphRevision := some s.revision
  approvalRequestId := some s.approvalId

/-- The coordinates after these commands. -/
def coordinates (done : List CommandRoute) : Coordinates :=
  done.foldl (fun c route => c.update (s.projection route)) s.planned

/-- The commands between the preparation and this one. -/
def before : CommandRoute → List CommandRoute
  | .prepare => []
  | .decide => []
  | .admission => []
  | .claim => [.admission]
  | .start => [.admission, .claim]
  | .execute => [.admission, .claim, .start]
  | .advance => [.admission, .claim, .start, .execute]

/-- The phase a command is issued in. -/
def phaseBefore : CommandRoute → Phase
  | .prepare => .planning
  | .decide => .prepared
  | .admission => .prepared
  | .claim => .admitted
  | .start => .claimed
  | .execute => .started
  | .advance => .executed

/-- The reference to a command's body. -/
def digest (route : CommandRoute) : Digest :=
  match canonicalDigest rt (s.body route) with
  | .ok digest => digest
  | .error _ => rt.sha256 []

/-- The pending request of a command. -/
def request (route : CommandRoute) : Pending :=
  intended route (s.path profile route) (s.body route) (s.key route) (mutationRole route)
    (s.digest rt route) (if route = .prepare then some (s.source rt) else none)

/-- The record of a command. -/
def record (route : CommandRoute) : Record :=
  ⟨route, s.key route, s.digest rt route, s.projection route⟩

/-- The result of the preparation. -/
def prepared : ClientResult where
  status := .planned
  operationRef := s.ref
  workspaceId := profile.workspaceId
  planId := some s.planId
  approvalRequestId := some s.approvalId
  runId := none
  execution := .notStarted
  advancement := .notAttempted
  requiredScope := some (.literal "plan:approve")
  destructive := some false
  changes := []
  offersApply := true
  nextPublicRead := some .planDetail

/-- The journal after the preparation and these commands. -/
def journal (done : List CommandRoute) (phase : Phase) : Journal where
  operationRef := s.ref
  target := profile.target rt
  desired := s.source rt
  phase := phase
  pendingRequest := none
  coordinates := s.coordinates done
  requestHistory := (.prepare :: done).map (s.record rt)
  lastResult := some (s.prepared profile)

variable {rt profile docs s}

theorem coordinates_brief (hs : s.Fair rt docs) (done : List CommandRoute) :
    (s.coordinates done).Brief := by
  have hprojection : ∀ route, (s.projection route).Brief := by
    intro route
    cases route with
    | claim => exact hs.generation
    | execute => exact show Brief 0 by unfold Brief; decide
    | advance => exact hs.revision
    | _ => trivial
  have hfold : ∀ (c : Coordinates), c.Brief →
      (done.foldl (fun c route => c.update (s.projection route)) c).Brief := by
    induction done with
    | nil => exact fun c hc => hc
    | cons route done ih => exact fun c hc => ih _ (hc.update (hprojection route))
  refine hfold _ ⟨?_, ?_, ?_, ?_⟩
  · rintro n ⟨⟩
    exact hs.revision
  · rintro n ⟨⟩
  · rintro n ⟨⟩
  · rintro n ⟨⟩

/-- The coordinates before a command suit its phase. -/
theorem suits_before (route : CommandRoute) (hroute : route.isEffect = true) :
    (s.coordinates (before route)).Suits (phaseBefore route) := by
  cases route with
  | prepare => cases hroute
  | decide => cases hroute
  | _ =>
    constructor <;>
      simp [before, phaseBefore, coordinates, planned, Coordinates.update, projection,
        requiredByPhase, planCoordinates, needsPlanCoordinates, Coordinates.has, Coordinates.get,
        Coordinates.value?, Coordinate.literal_json]

/-- The coordinates after the advancement suit both phases that follow it. -/
theorem suits_advanced {phase : Phase} (hphase : phase ∈ [Phase.advanced, .converged]) :
    (s.coordinates (before .advance ++ [.advance])).Suits phase := by
  simp only [List.mem_cons, List.not_mem_nil, or_false] at hphase
  rcases hphase with rfl | rfl <;> constructor <;>
    simp [before, coordinates, planned, Coordinates.update, projection, requiredByPhase,
      planCoordinates, needsPlanCoordinates, Coordinates.has, Coordinates.get, Coordinates.value?,
      Coordinate.literal_json]

theorem source_brief (hs : s.Fair rt docs) : (s.source rt).Brief where
  path := by
    have := Json.length_codes_le s.file
    have := hs.file
    simp only [source]
    omega
  size := hs.length

/-- The bodies are within the bound of a request, and of what a journal retains. -/
theorem body_fits (hs : s.Fair rt docs) (route : CommandRoute) :
    Json.Fits rt.floatText maximumDesiredBytes (.obj (s.body route)) ∧
      (s.request rt profile route).Brief rt.floatText := by
  have hkey : Json.Fits rt.floatText 434 (s.key route).json := fits_reference _
  have htext : ∀ c : Coordinate, Json.Fits rt.floatText 6146 c.json := fits_coordinate
  have hgeneration : Json.Fits rt.floatText 64 (natJson s.generation) := fits_number hs.generation
  have hrevision : Json.Fits rt.floatText 64 (natJson s.revision) := fits_number hs.revision
  have hone : ∀ n : ℕ, Brief n → Json.Fits rt.floatText 64 (.int n) := fun n hn => fits_number hn
  have hlast := Json.FitsMembers.nil.member "idempotency_key" hkey
  have hpath : (s.path profile route).Brief := by
    cases route <;>
      simp [PathParameters.Brief, path, workspacePath, approvalPath, planPath] <;> decide
  have hsource : ∀ d, (if route = .prepare then some (s.source rt) else none) = some d → d.Brief := by
    intro d hd
    split at hd
    · cases hd
      exact source_brief hs
    · cases hd
  cases route with
  | prepare =>
    have hpointer := (Json.FitsMembers.nil.member "realized_projection_id"
      (htext s.base.realizedProjectionId)).member "authored_graph_id" (htext s.base.authoredGraphId)
    have hretained := (((hlast.member "title" (htext s.title)).member
      "expected_desired_graph_revision" hrevision).member "expected_desired" Json.fits_null).member
      "expected_current" (Json.fits_obj hpointer)
    refine ⟨(Json.fits_obj (hretained.member "desired_graph" hs.document)).mono (by decide), hpath,
      ?_, hsource⟩
    exact (Json.fits_obj hretained).mono (by decide)
  | decide =>
    have hbody := (Json.fits_obj ((hlast.member "decision"
      (htext (.literal "approved"))).member "session_id" (htext s.sessionId)))
    exact ⟨hbody.mono (by decide), hpath, hbody.mono (by decide), hsource⟩
  | admission =>
    have hreadiness : Json.Fits rt.floatText 2 (.arr []) := Json.fits_arr (n := 0) (by simp)
    have hbody := Json.fits_obj (((hlast.member "readiness" hreadiness).member
      "approval_request_id" (htext s.approvalId)).member "session_id" (htext s.sessionId))
    exact ⟨hbody.mono (by decide), hpath, hbody.mono (by decide), hsource⟩
  | claim =>
    have hbody := Json.fits_obj (hlast.member "lease_duration_seconds"
      (hone 1800 (by unfold Brief; decide)))
    exact ⟨hbody.mono (by decide), hpath, hbody.mono (by decide), hsource⟩
  | start =>
    have hbody := Json.fits_obj (hlast.member "claim_generation" hgeneration)
    exact ⟨hbody.mono (by decide), hpath, hbody.mono (by decide), hsource⟩
  | execute =>
    have hbody := Json.fits_obj ((hlast.member "max_effects"
      (hone 1 (by unfold Brief; decide))).member "claim_generation" hgeneration)
    exact ⟨hbody.mono (by decide), hpath, hbody.mono (by decide), hsource⟩
  | advance =>
    have hbody := Json.fits_obj (((((((hlast.member "expected_desired_graph_revision" hrevision).member
      "desired_realized_projection_id" (htext s.goal.realizedProjectionId)).member
      "desired_graph_id" (htext s.goal.authoredGraphId)).member
      "expected_current_realized_projection_id" (htext s.base.realizedProjectionId)).member
      "expected_current_graph_id" (htext s.base.authoredGraphId)).member
      "claim_generation" hgeneration).member "plan_id" (htext s.planId))
    exact ⟨hbody.mono (by decide), hpath, hbody.mono (by decide), hsource⟩

theorem body_shallow (hs : s.Fair rt docs) (route : CommandRoute) :
    (Json.obj (s.body route)).depth ≤ rt.depthLimit := by
  cases route with
  | prepare => exact prepareBody_shallow hs.shallow
  | _ => exact shallow_of_members (by simp [body, Json.depth, Json.depthItems])

theorem canonicalDigest_body (profile : ClientProfile) (hs : s.Fair rt docs)
    (route : CommandRoute) : canonicalDigest rt (s.body route) = .ok (s.digest rt route) := by
  have hbody : s.Fair rt docs → Json.Fits rt.floatText maximumDesiredBytes (.obj (s.body route)) ∧
      (s.request rt profile route).Brief rt.floatText := fun hs => body_fits hs route
  obtain ⟨digest, hdigest⟩ := canonicalDigest_ok (hbody hs).1 (body_shallow hs route)
  rw [Scenario.digest, hdigest]

/-- The request of a command is valid where it is issued. -/
theorem request_valid (route : CommandRoute) :
    (s.request rt profile route).Valid (phaseBefore route) (profile.target rt) (s.source rt)
      (s.coordinates (before route)) where
  role := rfl
  phase := by
    simp only [request, intended]
    cases route <;> decide
  key := by cases route <;> simp [request, intended, body, prepareBody, Fields.pop]
  bodyKeys := by
    cases route <;> simp [request, intended, body, prepareBody, Fields.pop, bodyKeys, Fields.keysAre]
  pathKeys := by
    cases route <;> simp [request, intended, path, workspacePath, approvalPath, planPath, pathKeys,
      PathParameters.keysAre]
  workspace := by
    cases route <;> simp [request, intended, path, workspacePath, approvalPath, planPath,
      ClientProfile.target]
  prepare := by
    intro h
    obtain rfl : route = .prepare := h
    simp [request, intended, body, prepareBody, Fields.pop, validPointer, Pointer.json,
      Fields.keysAre, isIntegerFrom, natJson]
  other := by
    intro h
    have hnone : (Json.arr []).pyEq (.arr []) = true := rfl
    cases route <;> simp [request, intended, path, approvalPath, planPath, body, before, coordinates,
      planned, pendingMatches, Coordinates.update, projection, Coordinates.get, Coordinates.value?,
      isIntegerFrom, Json.pyEq_str, natJson, hnone] at h ⊢

end Scenario

end Client

end ControlPlaneKit
