import ControlPlaneKit.Client.Reading
import ControlPlaneKit.Client.Validity
import ControlPlaneKit.Client.Healthy

/-!
# The stored journal

The workflow keeps a journal as a structure, the store reads a document of which nothing is known.
The validator of the one and the checks of the other agree on the document of a journal: they pass
together, and where they fail they fail with the same message (`checkDocument_json`).
-/

namespace ControlPlaneKit

namespace Client

/-! ### Outcomes of checks -/

/-- The outcome of a check, as the store sees it. -/
def stored : Except ClientError Unit → Except ReadFailure Unit
  | .ok _ => .ok ()
  | .error (.journal message) => .error (.journal message)
  | .error _ => .error .typeError

section Stored

variable {condition : Bool} {message : String} {x : Except ClientError Unit}
  {f : Unit → Except ClientError Unit}

theorem stored_ok : stored (.ok ()) = .ok () :=
  rfl

theorem stored_require : stored (require condition message) = ensure condition message := by
  cases condition <;> rfl

theorem stored_bind : stored (x >>= f) = (stored x >>= fun _ => stored (f ())) := by
  cases x with
  | ok _ => rfl
  | error e => cases e <;> rfl

theorem ensure_true_bind {g : Unit → Except ReadFailure Unit} :
    (ensure true message >>= g) = g () :=
  rfl

theorem ok_bind {g : Unit → Except ReadFailure Unit} : (Except.ok () >>= g) = g () :=
  rfl

/-- Two checks in a row with one message are one. -/
theorem ensure_ensure {condition' : Bool} {g : Unit → Except ReadFailure Unit} :
    (ensure condition message >>= fun _ => ensure condition' message >>= g) =
      (ensure (condition && condition') message >>= g) := by
  cases condition <;> rfl

end Stored

/-! ### The parts of a document -/

section Parts

variable (j : Journal) (ref : OperationRef)

/-- The target of a journal, as stored. -/
def Target.members (target : Target) : Fields :=
  [("endpoint_sha256", target.endpointSha256.json), ("workspace_id", target.workspaceId.json)]

/-- The members of the document. -/
def Journal.members : Fields :=
  [("schema", .str "cpk.client-invocation.v1"), ("operation_ref", j.operationRef.json),
    ("target", .obj j.target.members), ("desired", j.desired.json), ("phase", .str j.phase.text),
    ("pending_request", (j.pendingRequest.map Pending.json).getD .null),
    ("coordinates", j.coordinates.json),
    ("request_history", .arr (j.requestHistory.map Record.json)),
    ("last_result", (j.lastResult.map ClientResult.descriptor).getD .null)]

theorem Journal.json_eq : j.json = .obj j.members :=
  rfl

theorem isSha256Text_json (d : Digest) : isSha256Text d.json = true :=
  d.valid

theorem isUuid4Text_json (r : OperationRef) : isUuid4Text r.json = true :=
  r.valid

theorem isTarget_members (target : Target) : isTarget (.obj target.members) = true := by
  simp [isTarget, Target.members, Fields.keysAre, isSha256Text_json]

theorem isDesiredReference_json (d : DesiredSource) : isDesiredReference d.json =
    (isAbsolutePath d.path && decide (d.size ≤ maximumDesiredBytes)) := by
  have hlower : isIntegerFrom 0 (natJson d.size) = true := by
    simp [natJson, isIntegerFrom]
  have hupper : isIntegerTo 65536 (natJson d.size) = decide (d.size ≤ maximumDesiredBytes) := by
    rw [natJson, isIntegerTo, decide_eq_decide, maximumDesiredBytes]
    omega
  simp [isDesiredReference, DesiredSource.json, Fields.keysAre, isPathText, isSha256Text_json, hlower,
    hupper]

theorem checkHead_json : checkHead j.json ref = (do
    ensure (j.operationRef == ref) "operation journal identity is invalid"
    ensure (isAbsolutePath j.desired.path && decide (j.desired.size ≤ maximumDesiredBytes))
      "operation journal desired reference is invalid") := by
  have hkeys : hasKeys journalKeys j.json = true := by
    simp [hasKeys, journalKeys, Journal.json, Fields.keysAre]
  have href : ((j.members.get "schema").pyEq (.str "cpk.client-invocation.v1") &&
      (j.members.get "operation_ref").pyEq ref.json) = (j.operationRef == ref) := by
    rw [Bool.eq_iff_iff, Bool.and_eq_true, beq_iff_eq]
    simp [Journal.members, Json.pyEq_str]
  have htarget : isTarget (j.members.get "target") = true := by
    simpa [Journal.members] using isTarget_members j.target
  have hdesired : j.members.get "desired" = j.desired.json := by
    simp [Journal.members]
  rw [checkHead, hkeys, ensure_true_bind]
  dsimp only
  rw [Journal.json_eq, membersOf, href, htarget, hdesired, isDesiredReference_json]
  rfl

/-! ### Phase and coordinates -/

theorem phaseOf_text (phase : Phase) : phaseOf (.str phase.text) = some phase := by
  cases phase <;> rfl

theorem checkPhase_json : checkPhase j.members = .ok () := by
  have hphase : phaseOf (j.members.get "phase") = some j.phase := by
    have hget : j.members.get "phase" = .str j.phase.text := by
      simp [Journal.members]
    rw [hget, phaseOf_text]
  exact checkPhase_eq_ok hphase

end Parts

section Coordinates

variable (c : Coordinates)

/-- The members of the coordinates. -/
def Coordinates.members : Fields :=
  Coordinates.names.filterMap fun n => (c.value? n).map fun v => (Text.utf8 n.key, v)

theorem Coordinates.json_eq : c.json = .obj c.members :=
  rfl

/-- The names of the coordinates differ. -/
theorem key_injective : Function.Injective CoordinateName.key := by
  have hnodup : (Coordinates.names.map CoordinateName.key).Nodup := by
    decide
  intro a b h
  exact List.inj_on_of_nodup_map hnodup (Coordinates.mem_names a) (Coordinates.mem_names b) h

theorem Coordinates.lookup_members (n : CoordinateName) :
    List.lookup (.utf8 n.key) c.members = c.value? n := by
  have hlookup : ∀ ns : List CoordinateName, List.lookup (Text.utf8 n.key)
      (ns.filterMap fun n => (c.value? n).map fun v => (Text.utf8 n.key, v)) =
        if n ∈ ns then c.value? n else none := by
    intro ns
    induction ns with
    | nil => rfl
    | cons m ns ih =>
      by_cases hm : n = m
      · subst hm
        cases hvalue : c.value? n with
        | none => simp [hvalue, ih]
        | some v => simp [hvalue]
      · have hkey : (Text.utf8 n.key == Text.utf8 m.key) = false := by
          simpa using fun h => hm (key_injective h)
        cases hvalue : c.value? m with
        | none => simp [hvalue, ih, hm]
        | some v => simp [hvalue, ih, hm, List.lookup_cons, hkey]
  rw [members, hlookup, if_pos (mem_names n)]

theorem Coordinates.get_members (n : CoordinateName) : c.members.get n.key = c.get n := by
  rw [Fields.get, lookup_members, Coordinates.get]

theorem Coordinates.has_members (n : CoordinateName) : c.members.has n.key = c.has n := by
  rw [Fields.has, lookup_members, Coordinates.has]

theorem Coordinates.isEmpty_members : c.members.isEmpty = names.all fun n => !c.has n := by
  rw [Bool.eq_iff_iff, List.isEmpty_iff, List.all_eq_true, members, List.filterMap_eq_nil_iff]
  refine forall_congr' fun n => forall_congr' fun _ => ?_
  rw [Coordinates.has]
  cases c.value? n <;> simp

/-- The stored names of the numbers. -/
theorem isNumber_key (n : CoordinateName) : ((["desired_graph_revision", "claim_generation",
    "effects_attempted", "advanced_revision"] : List String).any fun name =>
      Text.utf8 n.key == .utf8 name) = Coordinates.isNumber n := by
  cases n <;> rfl

theorem isCoordinates_json : isCoordinates c.json = true := by
  have hvalue : ∀ n v, c.value? n = some v →
      (if Coordinates.isNumber n then isIntegerFrom 0 v else isTextCoordinate v) = true := by
    have htext : ∀ (a : Option Coordinate) v, a.map Coordinate.json = some v →
        isTextCoordinate v = true := by
      intro a v hv
      obtain ⟨b, -, rfl⟩ := Option.map_eq_some_iff.mp hv
      exact isTextCoordinate_json b
    have hnumber : ∀ (a : Option ℕ) v, a.map natJson = some v → isIntegerFrom 0 v = true := by
      intro a v hv
      obtain ⟨b, -, rfl⟩ := Option.map_eq_some_iff.mp hv
      simp [natJson, isIntegerFrom]
    intro n v hv
    cases n <;> first | exact htext _ v hv | exact hnumber _ v hv
  rw [Coordinates.json_eq, isCoordinates, Bool.and_eq_true, keysWithin, List.all_eq_true,
    List.all_eq_true]
  refine ⟨fun m hm => ?_, fun m hm => ?_⟩
  · obtain ⟨n, hn, hm⟩ := List.mem_filterMap.mp hm
    obtain ⟨v, -, rfl⟩ := Option.map_eq_some_iff.mp hm
    exact List.any_eq_true.mpr ⟨n.key, List.mem_map_of_mem hn, beq_self_eq_true _⟩
  · obtain ⟨n, hn, hm⟩ := List.mem_filterMap.mp hm
    obtain ⟨v, hv, rfl⟩ := Option.map_eq_some_iff.mp hm
    dsimp only
    rw [isNumber_key]
    exact hvalue n v hv

/-- The checks of the coordinates, on the structure. -/
theorem checkCoordinates_json (phase : Phase) : checkCoordinates phase c.json = (do
    ensure (phase != .planning || Coordinates.names.all fun n => !c.has n)
      "operation journal phase coordinates are invalid"
    ensure (phase == .planning || phase == .attentionRequired || c.has .planId)
      "operation journal phase coordinates are invalid"
    ensure (!needsPlanCoordinates phase || planCoordinates.all c.has)
      "operation journal phase coordinates are invalid"
    ensure ((requiredByPhase phase).all c.has) "operation journal phase coordinates are invalid"
    ensure (!([Phase.executed, .advanced, .converged].contains phase) ||
      (c.textIs .runStatus "succeeded" && c.textIs .coordinatorStatus "completed"))
      "operation journal terminal coordinates are invalid"
    ensure (phase != .started || c.textIs .runStatus "running")
      "operation journal run coordinates are invalid"
    ensure (phase != .executing ||
      (c.textIs .runStatus "running" && c.textIs .coordinatorStatus "progressed"))
      "operation journal run coordinates are invalid"
    ensure (!([Phase.advanced, .converged].contains phase) ||
      ((c.get .advancedGraphId).pyEq (c.get .desiredGraphId) &&
        (c.get .advancedProjectionId).pyEq (c.get .desiredRealizedProjectionId) &&
        (c.get .advancedRevision).pyEq (c.get .desiredGraphRevision)))
      "operation journal advancement coordinates are invalid") := by
  have hget : ∀ name n, CoordinateName.key n = name → c.members.get name = c.get n := by
    rintro _ n rfl
    exact c.get_members n
  rw [checkCoordinates, isCoordinates_json, ensure_true_bind]
  simp only [Coordinates.json_eq, membersOf, c.isEmpty_members, Coordinates.textIs,
    Coordinates.get_members, Coordinates.has_members,
    hget "advanced_graph_id" .advancedGraphId rfl, hget "desired_graph_id" .desiredGraphId rfl,
    hget "advanced_projection_id" .advancedProjectionId rfl,
    hget "desired_realized_projection_id" .desiredRealizedProjectionId rfl,
    hget "advanced_revision" .advancedRevision rfl,
    hget "desired_graph_revision" .desiredGraphRevision rfl]

end Coordinates

/-! ### The pending request -/

section Pending

variable (p : Pending) (c : Coordinates)

/-- The members of a pending request. -/
def Pending.members : Fields :=
  [("route_id", .str p.routeId.routeId),
    ("path_parameters", .obj (p.pathParameters.map fun m => ((m.1 : Text), m.2.json))),
    ("credential_role", .str p.credentialRole.text),
    ("idempotency_key", p.idempotencyKey.json), ("body", .obj p.body),
    ("body_sha256", p.bodySha256.json),
    ("desired_source", (p.desiredSource.map DesiredSource.json).getD .null)]

theorem Pending.json_eq : p.json = .obj p.members :=
  rfl

/-- The members of a path. -/
def PathParameters.members (path : PathParameters) : Fields :=
  path.map fun m => ((m.1 : Text), m.2.json)

theorem PathParameters.lookup_members (path : PathParameters) (name : String) :
    List.lookup (.utf8 name) path.members = (path.lookup name).map Coordinate.json := by
  induction path with
  | nil => rfl
  | cons m path ih =>
    obtain ⟨key, v⟩ := m
    have hkey : (Text.utf8 name == Text.utf8 key) = (name == key) := by
      rw [Bool.eq_iff_iff, beq_iff_eq, beq_iff_eq, Text.utf8.injEq]
    rw [members, List.map_cons, List.lookup_cons, List.lookup_cons, hkey]
    cases name == key
    · exact ih
    · rfl

theorem PathParameters.get_members (path : PathParameters) (name : String) :
    path.members.get name = path.get name := by
  rw [Fields.get, lookup_members]
  rfl

theorem PathParameters.keysAre_members (path : PathParameters) (names : List String) :
    path.members.keysAre names = path.keysAre names := by
  have hkey : ∀ key : String, (names.any fun n => Text.utf8 key == .utf8 n) =
      names.contains key := by
    intro key
    rw [Bool.eq_iff_iff, List.any_eq_true, List.contains_iff_mem]
    simp
  have hhas : ∀ name, path.members.has name = (path.lookup name).isSome := by
    intro name
    rw [Fields.has, lookup_members, Option.isSome_map]
  rw [Fields.keysAre, PathParameters.keysAre]
  simp only [hhas]
  simp only [members, List.all_map, Function.comp_def, hkey]

theorem matchesCoordinates_members (path : PathParameters) (body : Fields) {route : CommandRoute}
    (hroute : route ≠ .prepare) :
    matchesCoordinates path.members body c.members route = pendingMatches path body c route := by
  have hget : ∀ name n, CoordinateName.key n = name → c.members.get name = c.get n := by
    rintro _ n rfl
    exact c.get_members n
  cases route with
  | prepare => exact absurd rfl hroute
  | claim =>
    rw [matchesCoordinates, pendingMatches, PathParameters.get_members,
      hget "execution_request_id" .executionRequestId rfl]
    cases body.get "lease_duration_seconds" <;> rfl
  | _ =>
    simp only [matchesCoordinates, pendingMatches, PathParameters.get_members,
      hget "approval_request_id" .approvalRequestId rfl, hget "session_id" .sessionId rfl,
      hget "plan_id" .planId rfl, hget "run_id" .runId rfl, hget "claim_generation" .claimGeneration rfl,
      hget "base_graph_id" .baseGraphId rfl,
      hget "base_realized_projection_id" .baseRealizedProjectionId rfl,
      hget "desired_graph_id" .desiredGraphId rfl,
      hget "desired_realized_projection_id" .desiredRealizedProjectionId rfl,
      hget "desired_graph_revision" .desiredGraphRevision rfl]

/-- The reference to the desired graph is known by its document. -/
theorem DesiredSource.json_pyEq (d e : DesiredSource) : d.json.pyEq e.json = (d == e) := by
  rw [Bool.eq_iff_iff, beq_iff_eq]
  obtain ⟨path, size, sha⟩ := d
  obtain ⟨path', size', sha'⟩ := e
  obtain ⟨hex, hvalid⟩ := sha
  obtain ⟨hex', hvalid'⟩ := sha'
  have hsize : (Text.utf8 "size" == Text.utf8 "path") = false := by decide
  have hsha : (Text.utf8 "sha256" == Text.utf8 "path") = false := by decide
  have hsha' : (Text.utf8 "sha256" == Text.utf8 "size") = false := by decide
  simp [DesiredSource.json, Json.pyEq, Json.same, Json.sameMembers, List.lookup_cons, natJson,
    Digest.json, Json.number?, Rat.intCast_inj, Int.ofNat_inj, hsize, hsha, hsha']

/-- The source of a pending request, as stored. -/
theorem desiredSource_pyEq (source : Option DesiredSource) (d : DesiredSource) :
    ((source.map DesiredSource.json).getD .null).pyEq d.json = (source == some d) := by
  cases source with
  | none => rfl
  | some e => exact DesiredSource.json_pyEq e d

theorem desiredSource_null (source : Option DesiredSource) :
    ((source.map DesiredSource.json).getD .null).pyEq .null = (source == none) := by
  cases source with
  | none => rfl
  | some e => rfl

/-- The checks of a pending request, on the structure. -/
theorem checkRequest_members (phase : Phase) (target : Target) (desired : DesiredSource) :
    checkRequest p.routeId p.members phase target.members desired.json c.members =
      stored (validatePending p phase target desired c) := by
  have hrole : (Json.str (.utf8 p.credentialRole.text)).pyEq
      (.str (mutationRole p.routeId).text) = (p.credentialRole == mutationRole p.routeId) := by
    rw [Bool.eq_iff_iff, Json.pyEq_str, beq_iff_eq]
    constructor
    · intro h
      cases hp : p.credentialRole <;> cases hm : mutationRole p.routeId <;>
        rw [hp, hm] at h <;> first | rfl | simp [Role.text] at h
    · intro h
      rw [h]
  have hpath : (Json.obj (p.pathParameters.map fun m => ((m.1 : Text), m.2.json))) =
      .obj p.pathParameters.members := rfl
  have hworkspace : target.members.get "workspace_id" = target.workspaceId.json := by
    simp [Target.members]
  have hmembers : p.members.get "credential_role" = .str p.credentialRole.text ∧
      p.members.get "idempotency_key" = p.idempotencyKey.json ∧
      p.members.get "body_sha256" = p.bodySha256.json ∧
      p.members.get "path_parameters" = .obj p.pathParameters.members ∧
      p.members.get "body" = .obj p.body ∧
      p.members.get "desired_source" = (p.desiredSource.map DesiredSource.json).getD .null := by
    simp [Pending.members, PathParameters.members]
  obtain ⟨hcredential, hkey, hsha, hparameters, hbody, hsource⟩ := hmembers
  unfold checkRequest validatePending
  simp only [hcredential, hkey, hsha, hparameters, hbody, hsource, hrole, isUuid4Text_json,
    isSha256Text_json, Bool.and_true, isObject, membersOf, ensure_true_bind, hworkspace,
    PathParameters.get_members, PathParameters.keysAre_members, stored_bind, stored_require]
  by_cases hroute : p.routeId = .prepare
  · simp only [hroute, if_true, desiredSource_pyEq, stored_require]
  · rw [if_neg hroute, matchesCoordinates_members c p.pathParameters p.body hroute,
      desiredSource_null]
    cases hp : p.routeId with
    | prepare => exact absurd hp hroute
    | _ => simp only [stored_bind, stored_require]

theorem routeOf_routeId (route : CommandRoute) : routeOf (.str route.routeId) = some route := by
  cases route <;> rfl

theorem ensureMember_route (route : CommandRoute) (message : String) :
    ensureMember (commandRoutes.map CommandRoute.routeId) (.str route.routeId) message =
      .ok () := by
  rw [ensureMember_eq_ok]
  cases route <;> exact ⟨rfl, by decide⟩

theorem checkPending_json (phase : Phase) (target : Target) (desired : DesiredSource) :
    checkPending p.json phase target.members desired.json c.members =
      stored (validatePending p phase target desired c) := by
  have hkeys : checkPendingKeys p.json = .ok () := by
    rw [checkPendingKeys, ensure_eq_ok]
    simp [hasKeys, pendingKeys, Pending.json, Fields.keysAre]
  have hroute : p.members.get "route_id" = .str p.routeId.routeId := by
    simp [Pending.members]
  rw [checkPending, if_neg (by rw [Pending.json_eq]; exact Bool.false_ne_true), hkeys,
    ← checkRequest_members, Pending.json_eq, membersOf]
  dsimp only
  rw [hroute, ensureMember_route, routeOf_routeId]
  rfl

end Pending

/-! ### History and result -/

section Result

variable (ref : OperationRef) (target : Target) (c : Coordinates) (result : ClientResult)

theorem checkRecord_json (r : Record) : checkRecord r.json = .ok () := by
  have hkeys : isRecord r.json = true := by
    simp [isRecord, hasKeys, Record.json, Fields.keysAre]
  have hmembers : (membersOf r.json).get "route_id" = .str r.routeId.routeId ∧
      (membersOf r.json).get "idempotency_key" = r.idempotencyKey.json ∧
      (membersOf r.json).get "body_sha256" = r.bodySha256.json ∧
      (membersOf r.json).get "response" = r.response.json := by
    simp [membersOf, Record.json]
  obtain ⟨hroute, hkey, hsha, hresponse⟩ := hmembers
  have hobject : isObject r.response.json = true := by
    cases r.response <;> rfl
  rw [checkRecord, hkeys, ensure_true_bind]
  dsimp only
  rw [hroute, hkey, hsha, hresponse, ensureMember_route, isUuid4Text_json, isSha256Text_json,
    hobject]
  rfl

theorem checkHistory_json (history : List Record) :
    checkHistory (.arr (history.map Record.json)) =
      ensure (decide (history.length ≤ maximumRequestRecords))
        "operation journal request budget is exhausted" := by
  have hrecords : ∀ history : List Record, checkRecords (history.map Record.json) = .ok () := by
    intro history
    induction history with
    | nil => rfl
    | cons r history ih =>
      rw [List.map_cons, checkRecords, checkRecord_json]
      exact ih
  rw [checkHistory, itemsOf, hrecords, List.length_map]
  cases decide (history.length ≤ maximumRequestRecords) <;> rfl

theorem isChange_json (change : Change) : isChange change.json = validChangeTarget change.target := by
  have hkey : ∀ a b : TargetKey, (Text.utf8 a.text == Text.utf8 b.text) = (a == b) := by
    intro a b
    cases a <;> cases b <;> decide
  have hlookup : ∀ (target : List (TargetKey × Coordinate)) (key : TargetKey),
      List.lookup (.utf8 key.text) (target.map fun m => ((m.1.text : Text), m.2.json)) =
        (target.lookup key).map Coordinate.json := by
    intro target key
    induction target with
    | nil => rfl
    | cons m target ih =>
      obtain ⟨name, v⟩ := m
      rw [List.map_cons, List.lookup_cons, List.lookup_cons, hkey]
      cases key == name
      · exact ih
      · rfl
  have hnames : ∀ key : TargetKey, (["kind", "node_id", "runtime_id", "edge_id"].any fun n =>
      Text.utf8 key.text == .utf8 n) = true := by
    intro key
    cases key <;> decide
  have htarget : isChangeTarget (.obj (change.target.map fun m => ((m.1.text : Text), m.2.json))) =
      validChangeTarget change.target := by
    have hhas : Fields.has (change.target.map fun m => ((m.1.text : Text), m.2.json)) "kind" =
        (change.target.lookup .kind).isSome := by
      rw [Fields.has, show ("kind" : String) = TargetKey.kind.text from rfl, hlookup,
        Option.isSome_map]
    have hwithin : keysWithin (change.target.map fun m => ((m.1.text : Text), m.2.json))
        ["kind", "node_id", "runtime_id", "edge_id"] = true := by
      rw [keysWithin, List.all_eq_true, List.forall_mem_map]
      exact fun m _ => hnames m.1
    have htexts : (List.all (change.target.map fun m => ((m.1.text : Text), m.2.json))
        fun m => isTextCoordinate m.2) = true := by
      rw [List.all_eq_true, List.forall_mem_map]
      exact fun m _ => isTextCoordinate_json m.2
    rw [isChangeTarget, hhas, hwithin, htexts, Bool.and_true, Bool.and_true, validChangeTarget]
  simp [isChange, Change.json, Fields.keysAre, htarget]

theorem lookup_optional (key name : String) (v : Option Json) (rest : Fields) :
    List.lookup (.utf8 name) (optionalMember key v ++ rest) =
      if name = key then v <|> List.lookup (.utf8 name) rest else List.lookup (.utf8 name) rest := by
  cases v with
  | none => simp [optionalMember]
  | some v =>
    by_cases hname : name = key
    · simp [optionalMember, hname]
    · have hkey : (Text.utf8 name == Text.utf8 key) = false := by simpa using hname
      simp [optionalMember, List.lookup_cons, hkey, hname]

theorem get_optional (key name : String) (v : Option Json) (rest : Fields) :
    Fields.get (optionalMember key v ++ rest) name =
      if name = key then v.getD (rest.get name) else rest.get name := by
  rw [Fields.get, lookup_optional]
  split
  · cases v <;> rfl
  · rfl

theorem has_optional (key name : String) (v : Option Json) (rest : Fields) :
    Fields.has (optionalMember key v ++ rest) name = (name == key && v.isSome || rest.has name) := by
  rw [Fields.has, lookup_optional]
  split
  · next hname =>
    subst hname
    cases v <;> simp [Fields.has]
  · next hname =>
    have hkey : (name == key) = false := by simpa using hname
    rw [hkey]
    rfl

theorem get_optional_last (key name : String) (v : Option Json) :
    Fields.get (optionalMember key v) name = if name = key then v.getD .null else .null := by
  have hget := get_optional key name v []
  rwa [List.append_nil] at hget

theorem has_optional_last (key name : String) (v : Option Json) :
    Fields.has (optionalMember key v) name = (name == key && v.isSome) := by
  have hhas := has_optional key name v []
  rwa [List.append_nil, Fields.has_nil, Bool.or_false] at hhas

theorem all_optional (key : String) (v : Option Json) (f : Text × Json → Bool) :
    (optionalMember key v).all f = match v with
      | some v => f (.utf8 key, v)
      | none => true := by
  cases v <;> simp [optionalMember]

/-- The members of a result that are not always there. -/
def ClientResult.optional : Fields :=
  optionalMember "plan_id" (result.planId.map Coordinate.json) ++
    (optionalMember "approval_request_id" (result.approvalRequestId.map Coordinate.json) ++
      (optionalMember "run_id" (result.runId.map Coordinate.json) ++
        (optionalMember "required_scope" (result.requiredScope.map Coordinate.json) ++
          optionalMember "destructive" (result.destructive.map Json.bool))))

/-- The next steps of a result. -/
def ClientResult.next : Fields :=
  optionalMember "command" (if result.offersApply then some (.str "cpk apply") else none) ++
    optionalMember "public_read" (result.nextPublicRead.map fun r => .str r.routeId)

/-- The members of a result. -/
def ClientResult.members : Fields :=
  ("schema", .str "cpk.client-result.v1") :: ("status", .str result.status.text) ::
    ("operation_ref", result.operationRef.json) :: ("workspace_id", result.workspaceId.json) ::
    ("execution", .str result.execution.text) :: ("advancement", .str result.advancement.text) ::
    ("observation", .obj [("health", .str "unknown"), ("freshness", .str "unknown")]) ::
    ("changes", .arr (result.changes.map Change.json)) :: ("next", .obj result.next) ::
    result.optional

theorem ClientResult.descriptor_eq : result.descriptor = .obj result.members := by
  simp [ClientResult.descriptor, ClientResult.members, ClientResult.next, ClientResult.optional]

theorem isNext_json : isNext (.obj result.next) = true := by
  have hread : ∀ r : ReadRoute, isTextCoordinate (.str r.routeId) = true := by
    intro r
    cases r <;> rfl
  have happly : isTextCoordinate (.str "cpk apply") = true := rfl
  rw [isNext, ClientResult.next]
  cases result.offersApply <;> cases result.nextPublicRead <;>
    simp [optionalMember, keysWithin, hread, happly]

theorem isResult_members : isResult ref target.members (.obj result.members) =
    (result.operationRef == ref && result.workspaceId == target.workspaceId) := by
  have hkeys : (["schema", "status", "operation_ref", "workspace_id", "execution", "advancement",
      "observation", "changes", "next"].all fun n => Fields.has result.members n) = true := by
    simp [ClientResult.members]
  have hwithin : keysWithin result.members ["schema", "status", "operation_ref", "workspace_id",
      "execution", "advancement", "observation", "changes", "next", "plan_id",
      "approval_request_id", "run_id", "required_scope", "destructive"] = true := by
    simp only [keysWithin, ClientResult.members, ClientResult.optional, List.all_cons,
      List.all_append, all_optional]
    cases result.planId <;> cases result.approvalRequestId <;> cases result.runId <;>
      cases result.requiredScope <;> cases result.destructive <;> simp
  have hmembers : Fields.get result.members "schema" = .str "cpk.client-result.v1" ∧
      Fields.get result.members "operation_ref" = result.operationRef.json ∧
      Fields.get result.members "workspace_id" = result.workspaceId.json := by
    simp [ClientResult.members]
  have hworkspace : target.members.get "workspace_id" = target.workspaceId.json := by
    simp [Target.members]
  obtain ⟨hschema, href, hid⟩ := hmembers
  rw [isResult, hkeys, hwithin, hschema, href, hid, hworkspace, Bool.eq_iff_iff]
  simp [Json.pyEq_str]

theorem isOneOf_str {names : List String} {s : String} (h : s ∈ names) :
    isOneOf names (.str s) = true :=
  List.any_eq_true.mpr ⟨s, h, Json.pyEq_str.mpr rfl⟩

theorem ensureMember_str {names : List String} {s message : String} (h : s ∈ names) :
    ensureMember names (.str s) message = .ok () :=
  ensureMember_eq_ok.mpr ⟨rfl, isOneOf_str h⟩

theorem checkEnumerations_members : checkEnumerations result.members = .ok () := by
  have hmembers : Fields.get result.members "status" = .str result.status.text ∧
      Fields.get result.members "execution" = .str result.execution.text ∧
      Fields.get result.members "advancement" = .str result.advancement.text ∧
      Fields.get result.members "observation" =
        .obj [("health", .str "unknown"), ("freshness", .str "unknown")] := by
    simp [ClientResult.members]
  obtain ⟨hstatus, hexecution, hadvancement, hobservation⟩ := hmembers
  have hstatus' : result.status.text ∈ resultStatuses := by
    cases result.status <;> decide
  have hexecution' : result.execution.text ∈ resultExecutions := by
    cases result.execution <;> decide
  have hadvancement' : result.advancement.text ∈ resultAdvancements := by
    cases result.advancement <;> decide
  rw [checkEnumerations, hstatus, hexecution, hadvancement, hobservation,
    ensureMember_str hstatus', ensureMember_str hexecution', ensureMember_str hadvancement']
  rfl

/-- The coordinates that a result repeats. -/
theorem repeats_members : (["plan_id", "approval_request_id", "run_id"].all fun n =>
    !result.members.has n || (result.members.get n).pyEq (c.members.get n)) =
      ((result.planId.isNone || result.planId == c.planId) &&
        (result.approvalRequestId.isNone || result.approvalRequestId == c.approvalRequestId) &&
        (result.runId.isNone || result.runId == c.runId)) := by
  have hget : ∀ name n, CoordinateName.key n = name → c.members.get name = c.get n := by
    rintro _ n rfl
    exact c.get_members n
  have hone : ∀ (a b : Option Coordinate), (!a.isSome || (textJson a).pyEq (textJson b)) =
      (a.isNone || a == b) := by
    intro a b
    have hequal : (textJson a).pyEq (textJson b) = (a == b) := by
      rw [Bool.eq_iff_iff, pyEq_textJson, beq_iff_eq]
      exact ⟨textJson_injective, congrArg _⟩
    rw [hequal]
    cases a <;> rfl
  have hplan : result.members.has "plan_id" = result.planId.isSome ∧
      result.members.get "plan_id" = textJson result.planId := by
    simp [ClientResult.members, ClientResult.optional, has_optional, get_optional,
      has_optional_last, get_optional_last, textJson]
  have happroval : result.members.has "approval_request_id" = result.approvalRequestId.isSome ∧
      result.members.get "approval_request_id" = textJson result.approvalRequestId := by
    simp [ClientResult.members, ClientResult.optional, has_optional, get_optional,
      has_optional_last, get_optional_last, textJson]
  have hrun : result.members.has "run_id" = result.runId.isSome ∧
      result.members.get "run_id" = textJson result.runId := by
    simp [ClientResult.members, ClientResult.optional, has_optional, get_optional,
      has_optional_last, get_optional_last, textJson]
  simp only [List.all_cons, List.all_nil, Bool.and_true, hplan, happroval, hrun,
    hget "plan_id" .planId rfl, hget "approval_request_id" .approvalRequestId rfl,
    hget "run_id" .runId rfl, ← Bool.and_assoc]
  exact congrArg₂ _ (congrArg₂ _ (hone _ _) (hone _ _)) (hone _ _)

theorem checkDetails_members : checkDetails result.members c.members = (do
    ensure (decide (result.changes.length ≤ maximumRequestRecords) &&
      result.changes.all fun change => validChangeTarget change.target)
      "operation journal result is invalid"
    ensure ((result.planId.isNone || result.planId == c.planId) &&
      (result.approvalRequestId.isNone || result.approvalRequestId == c.approvalRequestId) &&
      (result.runId.isNone || result.runId == c.runId))
      "operation journal result coordinates are invalid") := by
  have hmembers : result.members.get "changes" = .arr (result.changes.map Change.json) ∧
      result.members.get "next" = .obj result.next := by
    simp [ClientResult.members]
  have hscope : (!result.members.has "required_scope" ||
      isTextCoordinate (result.members.get "required_scope")) = true := by
    cases hscope : result.requiredScope <;>
      simp [ClientResult.members, ClientResult.optional, has_optional, get_optional,
        has_optional_last, get_optional_last, hscope]
  have hdestructive : (!result.members.has "destructive" ||
      isFlag (result.members.get "destructive")) = true := by
    cases hdestructive : result.destructive <;>
      simp [ClientResult.members, ClientResult.optional, has_optional, get_optional,
        has_optional_last, get_optional_last, hdestructive, isFlag]
  have hchanges : isChanges (.arr (result.changes.map Change.json)) =
      (decide (result.changes.length ≤ maximumRequestRecords) &&
        result.changes.all fun change => validChangeTarget change.target) := by
    simp only [isChanges, List.length_map, List.all_map, Function.comp_def, isChange_json]
  obtain ⟨hlist, hnext⟩ := hmembers
  rw [checkDetails, hlist, hnext, hchanges, isNext_json, ensure_true_bind, repeats_members, hscope,
    hdestructive]
  cases decide (result.changes.length ≤ maximumRequestRecords) &&
    result.changes.all fun change => validChangeTarget change.target with
  | false => rfl
  | true =>
    cases (result.planId.isNone || result.planId == c.planId) &&
      (result.approvalRequestId.isNone || result.approvalRequestId == c.approvalRequestId) &&
      (result.runId.isNone || result.runId == c.runId) <;> rfl

theorem checkResult_json : checkResult result.descriptor ref target.members c.members =
    stored (validateResult result ref target c) := by
  have hsome : ((Json.obj result.members).pyEq .null) = false := rfl
  rw [checkResult, ClientResult.descriptor_eq, hsome, if_neg Bool.false_ne_true, isResult_members,
    membersOf, checkEnumerations_members, checkDetails_members]
  simp only [validateResult, stored_bind, stored_require, ok_bind, ensure_ensure, Bool.and_assoc]

end Result

/-- **The checks of a document are those of the journal**: they pass together, and where they fail
they fail with one message. -/
theorem checkDocument_json (j : Journal) (ref : OperationRef) :
    checkDocument j.json ref = stored (validateJournal j ref) := by
  have hmembers : j.members.get "phase" = .str j.phase.text ∧
      j.members.get "coordinates" = j.coordinates.json ∧
      j.members.get "target" = .obj j.target.members ∧
      j.members.get "desired" = j.desired.json ∧
      j.members.get "pending_request" = (j.pendingRequest.map Pending.json).getD .null ∧
      j.members.get "request_history" = .arr (j.requestHistory.map Record.json) ∧
      j.members.get "last_result" = (j.lastResult.map ClientResult.descriptor).getD .null := by
    simp [Journal.members]
  obtain ⟨hphase, hcoordinates, htarget, hdesired, hpending, hhistory, hresult⟩ := hmembers
  unfold checkDocument validateJournal
  rw [checkHead_json]
  dsimp only
  rw [Journal.json_eq, membersOf, checkPhase_json, hphase, phaseOf_text, hcoordinates, htarget,
    hdesired, hpending, hhistory, hresult]
  dsimp only
  have hnone : ∀ phase target desired coordinates,
      checkPending .null phase target desired coordinates = .ok () := fun _ _ _ _ => rfl
  have hnone' : ∀ target coordinates, checkResult .null ref target coordinates = .ok () :=
    fun _ _ => rfl
  rw [checkCoordinates_json, checkHistory_json]
  cases j.pendingRequest <;> cases j.lastResult <;>
    simp only [stored_bind, stored_require, bind_assoc, ok_bind, Option.map_none, Option.map_some,
      Option.getD_none, Option.getD_some, hnone, hnone', checkPending_json, checkResult_json,
      Coordinates.json_eq, membersOf, stored_ok]

end Client

end ControlPlaneKit
