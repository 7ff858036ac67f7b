import ControlPlaneKit.Client.Recording

/-!
# What the accessors raise

An accessor that meets a lone surrogate fails in the encoder, and a membership test fails on a list
or an object. Neither exception is one of the client's own. `Route.Readable` says of an answer that
neither can happen, and `Owns` of a computation that it raises the client's own exceptions only.
-/

namespace ControlPlaneKit

/-- A value that is no string with a lone surrogate. -/
def Json.Encodable (v : Json) : Prop :=
  ∀ codes, v ≠ .str (.surrogate codes)

/-- A value that can be hashed. -/
def Json.Hashable (v : Json) : Prop :=
  (∀ items, v ≠ .arr items) ∧ ∀ members, v ≠ .obj members

namespace Client

open Interaction

/-- One of the exceptions that `main` turns into an exit code. -/
def ClientError.IsOwn : ClientError → Prop
  | .unicodeEncode => False
  | .typeError => False
  | .valueError => False
  | .recursionError => False
  | _ => True

/-! ### What an answer must hold -/

/-- The texts of a plan that are read. -/
def planTexts : List String :=
  ["plan_id", "session_id", "base_graph_id", "base_realized_projection_id", "desired_graph_id",
    "desired_realized_projection_id"]

/-- The texts of one activity. -/
structure ActivityReadable (activity : Fields) : Prop where
  activityId : (activity.get "activity_id").Encodable
  kind : ∀ operation : Fields, activity.get "operation" = .obj operation →
    (operation.get "kind").Encodable
  target : ∀ operation target : Fields, activity.get "operation" = .obj operation →
    operation.get "target" = .obj target → ∀ m ∈ target,
      m.1 ∈ [Text.utf8 "kind", .utf8 "node_id", .utf8 "runtime_id", .utf8 "edge_id"] → m.2.Encodable

/-- The texts of a plan. -/
structure PlanReadable (plan : Fields) : Prop where
  texts : ∀ name ∈ planTexts, (plan.get name).Encodable
  activities : ∀ (payload : Fields) activities activity, plan.get "payload" = .obj payload →
    payload.get "activities" = .arr activities → .obj activity ∈ activities → ActivityReadable activity

/-- The texts and the set members of an approval. -/
structure ApprovalReadable (approval : Fields) : Prop where
  scope : (approval.get "required_scope").Encodable
  hashable : (approval.get "required_scope").Hashable
  state : (approval.get "state").Hashable

/-- The members of an answer that are read as texts are no lone surrogates, and those that are
looked up in a set can be hashed. -/
def Route.Readable (response : Fields) : Route → Prop
  | .read .workspace => ∀ workspace, response.get "workspace" = .obj workspace →
      ∀ name ∈ ["current_graph_id", "current_realized_projection_id", "desired_graph_id",
        "desired_realized_projection_id"], (Fields.get workspace name).Encodable
  | .read .planDetail => ∀ plan, response.get "plan" = .obj plan → PlanReadable plan
  | .read .approvalDetail => ∀ approval, response.get "approval" = .obj approval →
      ApprovalReadable approval
  | .read .planRuns => ∀ items item, response.get "items" = .arr items → .obj item ∈ items →
      (Fields.get item "status").Hashable
  | .read .currentGraph => (response.get "graph_id").Encodable ∧
      (response.get "realized_projection_id").Encodable
  | .command .prepare => (response.get "plan_id").Encodable ∧
      (response.get "approval_request_id").Encodable ∧ (response.get "status").Encodable
  | .command .execute => (response.get "coordinator_status").Hashable ∧
      (response.get "run_status").Hashable ∧ (response.get "activity_id").Encodable
  | _ => True

/-- The reads that are paged. -/
def pagedRoutes : List Route :=
  [.read .planRuns, .read .runEvents]

/-- The cursor of a page nests no deeper than `json.dumps` follows. -/
def Route.Turns (rt : Runtime) (response : Fields) (route : Route) : Prop :=
  route ∈ pagedRoutes → ∀ next, response.get "next_cursor" = .obj next →
    (Json.obj next).depth ≤ rt.depthLimit

/-- A request that was found pending can be sent again: its body nests no deeper than `json.dumps`
follows, and the path of its desired graph can be encoded and opened. -/
structure Pending.Resendable (rt : Runtime) (p : Pending) : Prop where
  shallow : (Json.obj p.body).depth ≤ rt.depthLimit
  path : ∀ source, p.desiredSource = some source →
    (Json.str source.path).Encodable ∧ source.path.Openable

/-- An answer of the server is readable and its page can be turned, what was found pending can be
sent again, and the desired graph nests so little that `json.dumps` follows it one level further
down. -/
def Digestible (rt : Runtime) (e : Event Op Op.Answer) : Prop :=
  match e with
  | ⟨.call call, .reply response⟩ => call.route.Readable response ∧ call.route.Turns rt response
  | ⟨.read _, .found j⟩ => ∀ p, j.pendingRequest = some p → p.Resendable rt
  | ⟨.openDesired _, .content _ raw⟩ => ∀ desired, rt.loadDesired raw = some (.obj desired) →
      (Json.obj desired).depth < rt.depthLimit
  | _ => True

/-- A path that was not opened for a `ValueError` is not one that the file system takes. -/
def Opened (e : Event Op Op.Answer) : Prop :=
  match e with
  | ⟨.openDesired path, .valueError⟩ => ¬ path.Openable
  | _ => True

theorem opened_of_answers {docs : Set (List UInt8)} {ref : OperationRef} {w w' : World} {op : Op}
    {a : op.Answer} (h : answers docs ref w op a w') : Opened ⟨op, a⟩ := by
  cases op with
  | openDesired path =>
    cases a with
    | valueError => exact h.2.2.mp rfl
    | _ => trivial
  | _ => trivial

/-! ### Pure computations -/

/-- The computation raises nothing but the client's own exceptions. -/
def Owns {α : Type} (x : Except ClientError α) : Prop :=
  ∀ e, x = .error e → e.IsOwn

section Owns

variable {α β : Type} {x : Except ClientError α} {v : Json} {value : Fields} {name : String}

theorem Owns.ok (a : α) : Owns (.ok a : Except ClientError α) := by
  rintro e ⟨⟩

theorem Owns.error {e : ClientError} (he : e.IsOwn) : Owns (.error e : Except ClientError α) := by
  rintro _ ⟨⟩
  exact he

theorem Owns.bind {f : α → Except ClientError β} (hx : Owns x) (hf : ∀ a, x = .ok a → Owns (f a)) :
    Owns (x >>= f) := by
  cases x with
  | ok a => exact hf a rfl
  | error e => exact .error (hx e rfl)

theorem encodable_str {t : String} : (Json.str (.utf8 t)).Encodable := by
  rintro codes ⟨⟩

theorem Coordinate.encodable (c : Coordinate) : c.json.Encodable :=
  encodable_str

theorem encodable_null : Json.null.Encodable := by
  rintro codes ⟨⟩

/-- What equals an encodable value is encodable. -/
theorem encodable_of_pyEq {w : Json} (h : v.pyEq w = true) (hw : w.Encodable) : v.Encodable := by
  rintro codes rfl
  exact hw codes (Json.str_pyEq.mp h)

theorem encodable_of_isTextCoordinate (h : isTextCoordinate v = true) : v.Encodable := by
  rintro codes rfl
  cases h

theorem owns_textCoordinate (hv : v.Encodable) : Owns (textCoordinate v) := by
  unfold textCoordinate
  split
  · split
    · exact .ok _
    · exact .error trivial
  · exact absurd rfl (hv _)
  · exact .error trivial

theorem owns_text (h : (value.get name).Encodable) : Owns (text value name) :=
  owns_textCoordinate h

theorem owns_mapping : Owns (mapping value name) := by
  unfold mapping
  split
  · exact .ok _
  · exact .error trivial

theorem owns_integer {minimum : ℕ} : Owns (integer value name minimum) := by
  unfold integer
  split
  · split
    · exact .ok _
    · exact .error trivial
  · exact .error trivial

theorem owns_boolean : Owns (boolean value name) := by
  unfold boolean
  split
  · exact .ok _
  · exact .error trivial

theorem owns_require {condition : Bool} {message : String} : Owns (require condition message) := by
  unfold require
  split
  · exact .ok _
  · exact .error trivial

theorem owns_canonicalOperationRef {t : Text} : Owns (canonicalOperationRef t) := by
  unfold canonicalOperationRef
  split
  · split
    · exact .ok _
    · exact .error trivial
  · exact .error trivial

theorem owns_canonicalDigest {rt : Runtime} (hshallow : (Json.obj value).depth ≤ rt.depthLimit) :
    Owns (canonicalDigest rt value) := by
  unfold canonicalDigest
  rw [if_neg (Nat.not_lt.mpr hshallow)]
  split
  · exact .error trivial
  · split
    · exact .ok _
    · exact .error trivial

theorem owns_cursorKey {rt : Runtime} {cursor : Fields}
    (hshallow : (Json.obj cursor).depth ≤ rt.depthLimit) : Owns (cursorKey rt cursor) := by
  unfold cursorKey
  rw [if_neg (Nat.not_lt.mpr hshallow)]
  split
  · exact .error trivial
  · exact .ok _

/-- A body with a value that nests little. -/
theorem shallow_set {rt : Runtime} {body desired : Fields} {name : String}
    (hbody : (Json.obj body).depth ≤ rt.depthLimit) (hdesired : (Json.obj desired).depth < rt.depthLimit) :
    (Json.obj (body.set name (.obj desired))).depth ≤ rt.depthLimit := by
  obtain ⟨limit, hlimit⟩ : ∃ limit, rt.depthLimit = limit + 1 :=
    ⟨rt.depthLimit - 1, by have := rt.nests; omega⟩
  rw [hlimit] at hbody hdesired ⊢
  rw [Json.depth_obj_le] at hbody ⊢
  intro m hm
  rcases List.mem_append.mp hm with hm | hm
  · exact hbody m (List.mem_of_mem_filter hm)
  · rw [List.mem_singleton.mp hm]
    exact Nat.le_of_lt_succ hdesired

theorem memberOf_of_hashable {names : List String} (hv : v.Hashable) :
    ∃ known, v.memberOf names = some known := by
  unfold Json.memberOf
  split
  · exact absurd rfl (hv.1 _)
  · exact absurd rfl (hv.2 _)
  · exact ⟨_, rfl⟩

end Owns

section Journals

variable {journal : Journal} {ref : OperationRef}

theorem owns_validateResult {result : ClientResult} {target : Target} {coordinates : Coordinates} :
    Owns (validateResult result ref target coordinates) :=
  .bind owns_require fun _ _ => .bind owns_require fun _ _ => .bind owns_require fun _ _ => owns_require

theorem owns_validatePending {p : Pending} {phase : Phase} {target : Target}
    {desired : DesiredSource} {coordinates : Coordinates} :
    Owns (validatePending p phase target desired coordinates) := by
  unfold validatePending
  refine .bind owns_require fun _ _ => .bind owns_require fun _ _ => .bind owns_require fun _ _ =>
    .bind owns_require fun _ _ => ?_
  split
  · exact owns_require
  · exact .bind owns_require fun _ _ => owns_require

theorem owns_validateJournal : Owns (validateJournal journal ref) := by
  unfold validateJournal
  dsimp only
  refine .bind owns_require fun _ _ => .bind owns_require fun _ _ => .bind owns_require fun _ _ =>
    .bind owns_require fun _ _ => .bind owns_require fun _ _ => .bind owns_require fun _ _ =>
    .bind owns_require fun _ _ => .bind owns_require fun _ _ => .bind owns_require fun _ _ =>
    .bind owns_require fun _ _ => ?_
  split
  · refine .bind owns_validatePending fun _ _ => .bind owns_require fun _ _ => ?_
    split
    · exact owns_validateResult
    · exact .ok _
  · refine .bind (.ok _) fun _ _ => .bind owns_require fun _ _ => ?_
    split
    · exact owns_validateResult
    · exact .ok _

theorem owns_encodeJournal {floatText : ℚ → List Char} :
    Owns (encodeJournal floatText ref journal) := by
  unfold encodeJournal
  refine .bind owns_validateJournal fun _ _ => ?_
  split
  · exact .error trivial
  · split
    · exact .ok _
    · exact .error trivial

end Journals

section Answers

variable {plan approval response body : Fields} {coordinates : Coordinates} {path : PathParameters}
  {workspaceId : Coordinate}

theorem owns_validatePlan {journal : Journal} : Owns (validatePlan journal plan) := by
  unfold validatePlan
  split
  · exact .ok _
  · exact .error trivial

theorem owns_validateApproval {approvalId : Coordinate} (h : ApprovalReadable approval) :
    Owns (validateApproval plan approvalId approval) := by
  obtain ⟨known, hknown⟩ : ∃ known, (approval.get "required_scope").memberOf
      ["plan:approve", "plan:approve-destructive"] = some known := memberOf_of_hashable h.hashable
  unfold validateApproval
  dsimp only
  rw [hknown]
  split
  · exact .error trivial
  · split
    · rename_i hnone
      cases hnone
    · exact .error trivial
    · split
      · split
        · exact .ok _
        · exact .error trivial
      · exact .error trivial

theorem PlanReadable.text (h : PlanReadable plan) {name : String} (hname : name ∈ planTexts) :
    Owns (text plan name) :=
  owns_text (h.texts name hname)

theorem owns_recordPlanCoordinates (h : PlanReadable plan) :
    Owns (recordPlanCoordinates coordinates plan) :=
  .bind (h.text (by decide)) fun _ _ => .bind (h.text (by decide)) fun _ _ =>
    .bind (h.text (by decide)) fun _ _ => .bind (h.text (by decide)) fun _ _ =>
    .bind (h.text (by decide)) fun _ _ => .bind (h.text (by decide)) fun _ _ =>
    .bind owns_integer fun _ _ => .ok _

theorem owns_projectedTarget {target : Fields}
    (h : ∀ m ∈ target, m.1 ∈ [Text.utf8 "kind", .utf8 "node_id", .utf8 "runtime_id", .utf8 "edge_id"] →
      m.2.Encodable) : Owns (projectedTarget target) := by
  induction target with
  | nil => exact .ok _
  | cons m target ih =>
    obtain ⟨key, value⟩ := m
    rw [List.forall_mem_cons] at h
    have hrest := ih h.2
    unfold projectedTarget
    split
    · rename_i name hfound
      have hkey : key = .utf8 name.text := by simpa using List.find?_some hfound
      have hmem : ∀ k : TargetKey, Text.utf8 k.text ∈
          [Text.utf8 "kind", .utf8 "node_id", .utf8 "runtime_id", .utf8 "edge_id"] := by
        intro k
        cases k <;> decide
      exact .bind (owns_textCoordinate (h.1 (hkey ▸ hmem name))) fun _ _ => .bind hrest fun _ _ => .ok _
    · exact hrest

theorem owns_planChange {value : Json} (h : ∀ activity, value = .obj activity → ActivityReadable activity) :
    Owns (planChange value) := by
  unfold planChange
  split
  · rename_i activity
    have hactivity := h activity rfl
    refine .bind owns_mapping fun operation hoperation => .bind owns_mapping fun target htarget => ?_
    have hoperation' := mapping_ok hoperation
    refine .bind (owns_projectedTarget (hactivity.target operation target hoperation'
      (mapping_ok htarget))) fun projected _ => ?_
    split
    · exact .bind (.error trivial) fun _ herror => by cases herror
    · exact .bind (owns_text hactivity.activityId) fun _ _ =>
        .bind (owns_text (hactivity.kind operation hoperation')) fun _ _ => .ok _
  · exact .error trivial

theorem owns_planChanges (h : PlanReadable plan) : Owns (planChanges plan) := by
  unfold planChanges
  refine .bind owns_mapping fun payload hpayload => ?_
  split
  · split
    · rename_i activities hactivities
      have hreadable : ∀ value ∈ activities, ∀ activity, value = .obj activity →
          ActivityReadable activity := by
        rintro value hvalue activity rfl
        exact h.activities payload activities activity (mapping_ok hpayload) hactivities hvalue
      clear hactivities
      induction activities with
      | nil => exact .ok _
      | cons value activities ih =>
        rw [List.forall_mem_cons] at hreadable
        rw [List.mapM_cons]
        exact .bind (owns_planChange hreadable.1) fun _ _ => .bind (ih hreadable.2) fun _ _ => .ok _
    · exact .error trivial
  · exact .ok _

theorem owns_runExecution {status : Json} (h : status.Hashable) : Owns (runExecution status) := by
  obtain ⟨known, hknown⟩ : ∃ known, status.memberOf ["queued", "claimed", "running"] = some known :=
    memberOf_of_hashable h
  unfold runExecution
  rw [hknown]
  split
  · exact .ok _
  · split
    · exact .ok _
    · cases known with
      | true => exact .ok _
      | false => exact .ok _

theorem owns_pointer {workspace : Fields} {graphName projectionName : String}
    (hgraph : (workspace.get graphName).Encodable)
    (hprojection : (workspace.get projectionName).Encodable) :
    Owns (pointer workspace graphName projectionName) := by
  unfold pointer
  split
  · split
    · exact .ok _
    · exact .error trivial
  · exact .bind (owns_textCoordinate hgraph) fun _ _ =>
      .bind (owns_textCoordinate hprojection) fun _ _ => .ok _

theorem owns_statusFromJournal {profile : ClientProfile} {journal : Journal} {attention : Bool}
    {execution : Option Execution} {advancement : Option Advancement} {next : Option ReadRoute}
    {changes : List Change} {approval : Option Fields}
    (h : ∀ members, approval = some members → ApprovalReadable members) :
    Owns (statusFromJournal profile journal attention execution advancement next changes approval) := by
  unfold statusFromJournal
  split
  · exact .ok _
  · exact .bind (owns_text (h _ rfl).scope) fun _ _ => .bind owns_boolean fun _ _ => .ok _

theorem encodable_coordinate {c : Coordinates} (name : CoordinateName) : (c.get name).Encodable := by
  have hgetD : ∀ v : Option Coordinate, ((v.map Coordinate.json).getD .null).Encodable := by
    intro v
    cases v with
    | none => exact encodable_null
    | some v => exact v.encodable
  have hnumber : ∀ v : Option ℕ, ((v.map natJson).getD .null).Encodable := by
    intro v
    cases v with
    | none => exact encodable_null
    | some v => rintro codes ⟨⟩
  cases name <;> first | exact hgetD _ | exact hnumber _

theorem encodable_path {path : PathParameters} (name : String) : (path.get name).Encodable := by
  unfold PathParameters.get
  cases path.lookup name with
  | none => exact encodable_null
  | some v => exact v.encodable

end Answers

/-! ### Responses -/

/-- The request is one whose answer can be compared with it. -/
def Comparable (body : Fields) : CommandRoute → Prop
  | .execute => ∀ n, (if body.has "max_effects" then body.get "max_effects" else .int (-1)).atLeast n ≠ none
  | .advance => (body.get "desired_graph_id").Encodable ∧
      (body.get "desired_realized_projection_id").Encodable
  | _ => True

section Responses

variable {response body : Fields} {path : PathParameters} {coordinates : Coordinates}
  {workspaceId : Coordinate} {route : CommandRoute}

theorem owns_executeIsBound {status runStatus activity : Json} {effects : ℤ} (hs : status.Hashable)
    (hr : runStatus.Hashable) : Owns (executeIsBound status runStatus activity effects) := by
  obtain ⟨moving, hmoving⟩ : ∃ known, status.memberOf ["progressed", "in-flight"] = some known :=
    memberOf_of_hashable hs
  obtain ⟨stopped, hstopped⟩ : ∃ known, status.memberOf ["uncertain", "blocked"] = some known :=
    memberOf_of_hashable hs
  obtain ⟨known, hknown⟩ : ∃ known, runStatus.memberOf ["running", "failed"] = some known :=
    memberOf_of_hashable hr
  unfold executeIsBound
  rw [hmoving, hstopped, hknown]
  split
  · exact .ok _
  dsimp only
  split
  · exact .ok _
  split
  · exact .ok _
  split
  · exact .ok _
  split
  · exact .ok _
  · exact .ok _

theorem owns_responseIsBound (hreadable : (Route.command route).Readable response)
    (hbody : Comparable body route) :
    Owns (responseIsBound route response path body coordinates workspaceId) := by
  cases route with
  | execute =>
    obtain ⟨hs, hr, -⟩ := hreadable
    simp only [responseIsBound]
    split
    · split
      · split
        · split
          · rename_i hnone
            exact absurd hnone (hbody _)
          · exact .ok _
          · exact owns_executeIsBound hs hr
        · exact .ok _
      · exact .ok _
    · exact .ok _
  | _ => exact .ok _

/-- The coordinates of a bound response are read without an exception of the encoder. -/
theorem owns_responseCoordinates (hreadable : (Route.command route).Readable response)
    (hbody : Comparable body route)
    (hbound : responseIsBound route response path body coordinates workspaceId = .ok true) :
    Owns (responseCoordinates route response) := by
  cases route with
  | prepare =>
    refine .bind (owns_text hreadable.1) fun _ _ => ?_
    split
    · exact .bind (owns_text hreadable.2.1) fun _ _ => .ok _
    · exact .ok _
  | decide =>
    have hstate := bound_decide hbound
    exact .bind (owns_text (hstate ▸ encodable_str)) fun _ _ => .ok _
  | admission =>
    have hid : isTextCoordinate (response.get "execution_request_id") = true := Except.ok.inj hbound
    exact .bind (owns_text (encodable_of_isTextCoordinate hid)) fun _ _ => .ok _
  | claim =>
    simp only [responseIsBound, Except.ok.injEq, Bool.and_eq_true] at hbound
    exact .bind (owns_text (encodable_of_isTextCoordinate hbound.1.1.2)) fun _ _ =>
      .bind owns_integer fun _ _ => .ok _
  | start =>
    have hstatus := bound_start hbound
    exact .bind (owns_text (hstatus ▸ encodable_str)) fun _ _ => .ok _
  | execute =>
    obtain ⟨hrun, -, haccepted⟩ := bound_step hbound
    obtain ⟨status, runStatus, hstatus, hrunStatus, -, -⟩ := haccepted.texts
    refine .bind (owns_text (hrun ▸ encodable_path _)) fun _ _ =>
      .bind (owns_text (hrunStatus ▸ runStatus.encodable)) fun _ _ =>
      .bind (owns_text (hstatus ▸ status.encodable)) fun _ _ => .bind owns_integer fun _ _ => ?_
    split
    · exact .ok _
    · exact .bind (owns_text hreadable.2.2) fun _ _ => .ok _
  | advance =>
    simp only [responseIsBound, Except.ok.injEq, Bool.and_eq_true] at hbound
    exact .bind (owns_text (encodable_of_pyEq hbound.1.1.2 hbody.1)) fun _ _ =>
      .bind (owns_text (encodable_of_pyEq hbound.1.2 hbody.2)) fun _ _ =>
      .bind owns_integer fun _ _ => .ok _

/-- The answer to a valid pending request can be compared with its body. -/
theorem Pending.Valid.comparable {p : Pending} {phase : Phase} {target : Target}
    {desired : DesiredSource} (hp : p.Valid phase target desired coordinates) :
    Comparable p.body p.routeId := by
  by_cases hprepare : p.routeId = .prepare
  · rw [hprepare]
    trivial
  have hmatches := (hp.other hprepare).2
  cases hroute : p.routeId with
  | execute =>
    rw [hroute] at hmatches
    simp only [pendingMatches, Bool.and_eq_true] at hmatches
    intro n
    split
    · have hmost := hmatches.2
      generalize Fields.get p.body "max_effects" = v at hmost
      unfold Json.atLeast
      cases v with
      | int m => simp [Json.number?]
      | bool b => simp [Json.number?]
      | float x => cases x <;> simp [Json.number?]
      | _ => simp [Json.pyEq, Json.same, Json.number?] at hmost
    · simp [Json.atLeast, Json.number?]
  | advance =>
    rw [hroute] at hmatches
    simp only [pendingMatches, Bool.and_eq_true] at hmatches
    exact ⟨encodable_of_pyEq hmatches.1.1.2 (encodable_coordinate _),
      encodable_of_pyEq hmatches.1.2 (encodable_coordinate _)⟩
  | _ => trivial

end Responses

end Client

end ControlPlaneKit
