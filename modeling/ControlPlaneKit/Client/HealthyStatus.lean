import ControlPlaneKit.Client.Guarantees

/-!
# The public status of an operation that goes well

The six reads of `_public_status` when all of them are answered, for the journals of a scenario
that know their run: what the server shows of the run and of the current graph is a parameter.
-/

namespace ControlPlaneKit

namespace Client

open Interaction

section Reads

variable {rt : Runtime} {profile : ClientProfile} {docs : Set (List UInt8)} {ref : OperationRef}
  {w w' : World} {tr : Trace} {α : Type}

theorem Returns.returning {block : Block ClientResult} {result : ClientResult}
    (h : Returns docs ref w block tr w' result) : Returns docs ref w (Client.returning block) tr w' result :=
  Exec.handle_ok h

theorem Returns.observe {j : Journal} {seen : Observed} {block : Block α} {a : α}
    (h : Returns docs ref w block tr w' a) :
    Returns docs ref w (Client.observe profile j seen block) tr w' a :=
  h.exceptUnresolved

/-- The block ends the invocation with this result, after these events. -/
abbrev Quits (docs : Set (List UInt8)) (ref : OperationRef) (w : World) (p : Block α) (tr : Trace)
    (w' : World) (result : ClientResult) : Prop :=
  Exec (answers docs ref) w p tr w' (some (.error (.returned result)))

theorem Returns.quits {β : Type} {p : Block α} {f : α → Block β} {w'' : World} {t u : Trace} {a : α}
    {result : ClientResult} (hp : Returns docs ref w p t w' a)
    (hf : Quits docs ref w' (f a) u w'' result) : Quits docs ref w (p >>= f) (t ++ u) w'' result :=
  Exec.bind hp hf

theorem Quits.bind {β : Type} {p : Block α} {f : α → Block β} {result : ClientResult}
    (hp : Quits docs ref w p tr w' result) : Quits docs ref w (p >>= f) tr w' result :=
  Exec.bind_error hp

theorem Quits.conclude {p : Block ClientResult} {result : ClientResult}
    (hp : Quits docs ref w p tr w' result) :
    Exec (answers docs ref) w (Client.conclude p) tr w' (some (.ok result)) := by
  rw [← List.append_nil tr]
  exact Exec.handle_error hp (.returned w' result)

/-- An attention result is written and ends the invocation. -/
theorem quits_stop {j : Journal} {execution : Execution} {advancement : Advancement}
    {next : ReadRoute} (hid : j.operationRef = ref) (hw : w.journal.isSome)
    (hvalid : Journal.Valid { j with
      lastResult := some (attentionResult profile j execution advancement next) } ref)
    (hmodest : Journal.Modest rt.floatText { j with
      lastResult := some (attentionResult profile j execution advancement next) }) :
    Quits docs ref w (Client.stop rt profile j execution advancement next : Block α)
      [wrote ref { j with
        lastResult := some (attentionResult profile j execution advancement next) }]
      (w.store { j with lastResult := some (attentionResult profile j execution advancement next) })
      (attentionResult profile j execution advancement next) := by
  subst hid
  have hattention : Returns docs j.operationRef w
      (attention rt profile j execution advancement next true) _ _ _ :=
    Returns.bind (t := [_]) (u := []) (returns_write hw hvalid hmodest) (.pure _)
  exact Returns.quits (t := [_]) (u := []) hattention (.raised _ _)

/-- An answered page. -/
def answeredPage (profile : ClientProfile) (ref : OperationRef) (route : ReadRoute)
    (path : PathParameters) (response : Fields) : Event Op Op.Answer :=
  ⟨.call (readCall profile ref route path [("limit", natJson maximumPageItems)]), .reply response⟩

/-- A history of one page is read at once. -/
theorem returns_readPages {route : ReadRoute} {path : PathParameters} {response : Fields}
    {items : List Json} (hitems : response.get "items" = .arr items)
    (hfew : items.length ≤ maximumPageItems) (hlast : response.get "next_cursor" = .null) :
    Returns docs ref w (readPages rt profile ref route path)
      [answeredPage profile ref route path response] w items := by
  have hread : Returns docs ref w
      (readPublic profile ref route path [("limit", natJson maximumPageItems)])
      [answeredPage profile ref route path response] w response := by
    refine .performed ?_ (.returned w response)
    simp [answers, Route.isRead]
  show Returns docs ref w (pageFrom rt profile ref route path (15 + 1) [] none []) _ _ _
  unfold pageFrom
  refine Returns.bind (t := [_]) (u := []) hread ?_
  simp only [hitems, if_neg (Nat.not_lt.mpr hfew), hlast]
  exact .pure _

end Reads

namespace Scenario

variable {rt : Runtime} {profile : ClientProfile} {docs : Set (List UInt8)} {s : Scenario}
  {w : World} {j : Journal}

/-- What a journal of the scenario knows once it has claimed its run. -/
structure Knows (s : Scenario) (j : Journal) : Prop where
  reference : j.operationRef = s.ref
  idle : j.pendingRequest = none
  plan : j.coordinates.planId = some s.planId
  approval : j.coordinates.approvalRequestId = some s.approvalId
  run : j.coordinates.runId = some s.runId
  planned : ∀ n ∈ planCoordinates, j.coordinates.get n = s.planned.get n

/-- What a journal of the scenario says of its run, whatever is pending. -/
structure Follows (s : Scenario) (j : Journal) : Prop where
  reference : j.operationRef = s.ref
  plan : j.coordinates.planId = some s.planId
  approval : j.coordinates.approvalRequestId = some s.approvalId
  run : j.coordinates.runId = some s.runId
  planned : ∀ n ∈ planCoordinates, j.coordinates.get n = s.planned.get n

theorem Knows.follows (hj : s.Knows j) : s.Follows j :=
  ⟨hj.reference, hj.plan, hj.approval, hj.run, hj.planned⟩

/-- The run as the server lists it. -/
def listedRun (s : Scenario) (status : String) : Fields :=
  [("run_id", s.runId.json), ("status", .str status)]

/-- The runs of the plan as the server lists them. -/
def listed (s : Scenario) (status : String) : Fields :=
  [("items", .arr [.obj (s.listedRun status)])]

/-- A pointer as the server shows the current graph. -/
def shownCurrent (p : Pointer) : Fields :=
  [("graph_id", p.authoredGraphId.json), ("realized_projection_id", p.realizedProjectionId.json)]

/-- The workspace with another current pointer. -/
def workspaceAt (s : Scenario) (p : Pointer) : Fields :=
  [("current_graph_id", p.authoredGraphId.json),
    ("current_realized_projection_id", p.realizedProjectionId.json),
    ("desired_graph_revision", natJson s.revision)]

/-- The path of a run. -/
def runPath (s : Scenario) (profile : ClientProfile) : PathParameters :=
  [("workspace_id", profile.workspaceId), ("run_id", s.runId)]

/-- The reads of the status, with the run in a state and a current pointer. -/
def statusEvents (profile : ClientProfile) (s : Scenario) (status : String) (p : Pointer) : Trace :=
  [answered profile s.ref .workspace (workspacePath profile) [("workspace", .obj (s.workspaceAt p))],
    answered profile s.ref .planDetail (planPath profile s.planId) [("plan", .obj s.plan)],
    answered profile s.ref .approvalDetail (approvalPath profile s.approvalId)
      [("approval", .obj (s.approval "approved"))],
    answeredPage profile s.ref .planRuns (planPath profile s.planId) (s.listed status),
    answeredPage profile s.ref .runEvents (s.runPath profile) [("items", .arr [])],
    answered profile s.ref .currentGraph (workspacePath profile) (shownCurrent p)]

/-- Whether the status calls for attention. -/
def attends (j : Journal) (execution : Execution) (shown : Bool) : Bool :=
  needsAttention j false (some execution) shown

/-- The report. -/
def statusResult (profile : ClientProfile) (j : Journal) (execution : Execution)
    (shown : Bool) : ClientResult :=
  projectJournal profile j (attends j execution shown) (some execution)
    (if shown then some .advanced else none)
    (if attends j execution shown then some (nextRead j) else none) []
    (some (.literal "plan:approve" approve_size, false))

theorem currentPointer_workspaceAt (s : Scenario) (p : Pointer) :
    currentPointer (s.workspaceAt p) = .ok (some p) :=
  pointer_of_get (by simp [workspaceAt]) (by simp [workspaceAt])

theorem returns_observeWorkspace (hid : j.operationRef = s.ref) (p : Pointer) :
    Returns docs s.ref w (observe profile j {} do
        let workspace ← readWorkspace profile j.operationRef
        lift (currentPointer workspace))
      [answered profile s.ref .workspace (workspacePath profile) [("workspace", .obj (s.workspaceAt p))]]
      w (some p) := by
  rw [hid]
  have hget : Fields.get [("workspace", .obj (s.workspaceAt p))] "workspace" =
      .obj (s.workspaceAt p) := by simp
  refine .observe (Returns.bind (t := [_]) (u := []) (returns_readWorkspace hget) ?_)
  exact .lift (s.currentPointer_workspaceAt p)

/-- The plan is shown to every journal whose plan coordinates are those of the scenario. -/
theorem returns_observePlan (hid : j.operationRef = s.ref)
    (hplan : j.coordinates.planId = some s.planId)
    (hagrees : ∀ n ∈ planCoordinates, j.coordinates.has n = true →
      j.coordinates.get n = s.planned.get n) :
    Returns docs s.ref w (observePlan profile j)
      [answered profile s.ref .planDetail (planPath profile s.planId) [("plan", .obj s.plan)]] w
      (some s.plan, {}) := by
  have hget : Fields.get [("plan", .obj s.plan)] "plan" = .obj s.plan := by simp
  have hread : Returns docs s.ref w (observe profile j {} do
      let plan ← planDetail profile j.operationRef s.planId
      lift (validatePlan j plan)
      let changes ← lift (planChanges plan)
      return (plan, changes))
      [answered profile s.ref .planDetail (planPath profile s.planId) [("plan", .obj s.plan)]] w
      (s.plan, []) := by
    rw [hid]
    refine .observe (Returns.bind (t := [_]) (u := []) (returns_planDetail hget) ?_)
    exact .lift_bind (validatePlan_plan hagrees) (.lift_bind planChanges_plan (.pure _))
  unfold observePlan
  rw [hplan]
  exact Returns.bind (t := [_]) (u := []) hread (.pure _)

/-- An approval that is pending or given is no problem. -/
theorem returns_observeApproval (hid : j.operationRef = s.ref)
    (happroval : j.coordinates.approvalRequestId = some s.approvalId) {state : String}
    (hstate : (Json.str (.utf8 state)).memberOf ["pending", "approved"] = some true) :
    Returns docs s.ref w (observeApproval profile j (some s.plan) {})
      [answered profile s.ref .approvalDetail (approvalPath profile s.approvalId)
        [("approval", .obj (s.approval state))]] w
      (false, { approval := some (s.approval state) }) := by
  have hget : Fields.get [("approval", .obj (s.approval state))] "approval" =
      .obj (s.approval state) := by simp
  have hread : Returns docs s.ref w (observe profile j {} do
      let approval ← approvalDetail profile j.operationRef s.approvalId
      return (s.plan, approval))
      [answered profile s.ref .approvalDetail (approvalPath profile s.approvalId)
        [("approval", .obj (s.approval state))]] w (s.plan, s.approval state) := by
    rw [hid]
    exact .observe (Returns.bind (t := [_]) (u := []) (returns_approvalDetail hget) (.pure _))
  have hvalid : Returns docs s.ref w (observe profile j { approval := some (s.approval state) }
      (lift (validateApproval s.plan s.approvalId (s.approval state)))) [] w () :=
    .observe (.lift (validateApproval_approval _))
  have hmember : ((s.approval state).get "state").memberOf ["pending", "approved"] = some true := by
    simp only [approval, Fields.get_cons]
    exact hstate
  unfold observeApproval
  rw [happroval]
  refine Returns.bind (t := [_]) (u := []) hread (Returns.bind (t := []) (u := []) hvalid ?_)
  simp only [hmember]
  exact .pure _

theorem returns_observeRun (hj : s.Follows j) {status : String} {execution : Execution}
    (hstatus : runExecution (.str status) = .ok execution) {seen : Observed} :
    Returns docs s.ref w (observeRun rt profile j seen)
      [answeredPage profile s.ref .planRuns (planPath profile s.planId) (s.listed status),
        answeredPage profile s.ref .runEvents (s.runPath profile) [("items", .arr [])]] w
      { seen with execution := some execution } := by
  have hplan : textCoordinate (j.coordinates.get .planId) = .ok s.planId := by
    rw [Coordinates.get, Coordinates.value?, hj.plan]
    exact textCoordinate_json _
  have hruns : Returns docs s.ref w (observe profile j seen do
      let planId ← lift (textCoordinate (j.coordinates.get .planId))
      readPages rt profile j.operationRef .planRuns
        [("workspace_id", profile.workspaceId), ("plan_id", planId)])
      [answeredPage profile s.ref .planRuns (planPath profile s.planId) (s.listed status)] w
      [.obj (s.listedRun status)] := by
    rw [hj.reference]
    refine .observe (.lift_bind hplan (returns_readPages ?_ ?_ ?_))
    · simp [listed]
    · simp [maximumPageItems]
    · simp [listed]
  have hevents : ∀ seen, Returns docs s.ref w (observe profile j seen
      (readPages rt profile j.operationRef .runEvents
        [("workspace_id", profile.workspaceId), ("run_id", s.runId)]))
      [answeredPage profile s.ref .runEvents (s.runPath profile) [("items", .arr [])]] w [] := by
    intro seen
    rw [hj.reference]
    exact .observe (returns_readPages (by simp) (by decide) (by simp))
  have hmatch : matchingRuns s.runId [.obj (s.listedRun status)] = [s.listedRun status] := by
    simp [matchingRuns, listedRun]
  have hexecution : runExecution ((s.listedRun status).get "status") = .ok execution := by
    simpa [listedRun] using hstatus
  unfold observeRun
  rw [hj.run]
  refine Returns.bind (t := [_]) (u := [_]) hruns ?_
  simp only [hmatch]
  refine Returns.lift_bind hexecution ?_
  exact Returns.bind (t := [_]) (u := []) (hevents _) (.pure _)

theorem returns_observePointer (hj : s.Follows j) (current : Option Pointer) (p : Pointer)
    {seen : Observed} (hseen : seen.advancement = none) :
    Returns docs s.ref w (observePointer profile j current seen)
      [answered profile s.ref .currentGraph (workspacePath profile) (shownCurrent p)] w
      { seen with advancement := if p = s.goal then some .advanced else none } := by
  have hgraph : j.coordinates.desiredGraphId = some s.goal.authoredGraphId :=
    textJson_injective (hj.planned .desiredGraphId (by decide))
  have hprojection : j.coordinates.desiredRealizedProjectionId = some s.goal.realizedProjectionId :=
    textJson_injective (hj.planned .desiredRealizedProjectionId (by decide))
  have htext : ∀ name (c : Coordinate), (shownCurrent p).get name = c.json →
      text (shownCurrent p) name = .ok c := by
    intro name c h
    rw [text, h, textCoordinate_json]
  have hread : Returns docs s.ref w (observeCurrent profile j current seen)
      [answered profile s.ref .currentGraph (workspacePath profile) (shownCurrent p)] w (some p) := by
    unfold observeCurrent
    rw [hgraph, hj.reference]
    refine .observe (Returns.bind (t := [_]) (u := []) (returns_readPublic _ _ _) ?_)
    exact .lift_bind (htext "graph_id" _ (by simp [shownCurrent]))
      (.lift_bind (htext "realized_projection_id" _ (by simp [shownCurrent])) (.pure _))
  have hdesired : isDesired j.coordinates (some p) = decide (p = s.goal) := by
    simp only [isDesired, hgraph, hprojection]
    exact beq_eq_decide p s.goal
  unfold observePointer
  refine Returns.bind (t := [_]) (u := []) hread ?_
  rw [hdesired]
  by_cases hp : p = s.goal
  · simp only [hp, decide_true, if_true]
    exact .pure _
  · simp only [hp, decide_false, if_false, Bool.false_eq_true]
    have hsame : seen = { seen with advancement := none } := by rw [← hseen]
    rw [← hsame]
    exact .pure _

/-- What is reported once everything has been read. -/
theorem observedStatus_seen (hj : s.Knows j) (execution : Execution) (shown : Bool) :
    observedStatus profile j false {
        execution := some execution
        advancement := if shown then some .advanced else none
        approval := some (s.approval "approved") } =
      .ok (statusResult profile j execution shown) := by
  have hscope : text (s.approval "approved") "required_scope" = .ok (.literal "plan:approve") := by
    rw [text]
    simp only [approval, Fields.get_cons]
    exact textCoordinate_json (.literal "plan:approve")
  have hkind : boolean (s.approval "approved") "destructive" = .ok false := by
    simp [boolean, approval]
  have hattends : (false || (some execution == some Execution.failed ||
      some execution == some .unverified) || ((j.phase == .advanced || j.phase == .converged) &&
        (if shown then some Advancement.advanced else none) != some .advanced)) =
      attends j execution shown := by
    cases shown <;> rfl
  simp only [observedStatus, hj.idle, statusFromJournal, hscope, hkind, hattends]
  rfl

/-- The reads of the status of a run, as the server shows it. -/
theorem returns_observed (hj : s.Follows j) {status : String} {execution : Execution}
    (hstatus : runExecution (.str status) = .ok execution) (p : Pointer) {result : ClientResult}
    (hreport : observedStatus profile j false {
      execution := some execution
      advancement := if p = s.goal then some .advanced else none
      approval := some (s.approval "approved") } = .ok result) :
    Returns docs s.ref w (publicStatus rt profile j) (s.statusEvents profile status p) w result := by
  refine .returning ?_
  refine Returns.bind (t := [_]) (u := [_, _, _, _, _]) (returns_observeWorkspace hj.reference p) ?_
  refine Returns.bind (t := [_]) (u := [_, _, _, _])
    (returns_observePlan hj.reference hj.plan fun n hn _ => hj.planned n hn) ?_
  refine Returns.bind (t := [_]) (u := [_, _, _]) (returns_observeApproval hj.reference hj.approval rfl) ?_
  refine Returns.bind (t := [_, _]) (u := [_]) (returns_observeRun hj hstatus) ?_
  refine Returns.bind (t := [_]) (u := []) (returns_observePointer hj _ p rfl) ?_
  exact .lift hreport

/-- **The status of a known run**, as the server shows it. -/
theorem returns_publicStatus (hj : s.Knows j) {status : String} {execution : Execution}
    (hstatus : runExecution (.str status) = .ok execution) (p : Pointer) :
    Returns docs s.ref w (publicStatus rt profile j) (s.statusEvents profile status p) w
      (statusResult profile j execution (decide (p = s.goal))) := by
  refine returns_observed hj.follows hstatus p ?_
  rw [← observedStatus_seen hj]
  simp only [decide_eq_true_eq]

/-! ### The gates of `apply` -/

theorem returns_lock : Returns docs s.ref w (mutationLock s.ref) [⟨.lock s.ref, .acquired⟩] w () :=
  .performed rfl (.returned _ _)

theorem returns_confirmPlan (hj : s.Follows j) :
    Returns docs s.ref w (confirmPlan rt profile j s.planId)
      [answered profile s.ref .planDetail (planPath profile s.planId) [("plan", .obj s.plan)]] w
      s.plan := by
  have hget : Fields.get [("plan", .obj s.plan)] "plan" = .obj s.plan := by simp
  unfold confirmPlan
  rw [hj.reference]
  refine .exceptUnresolved (Returns.bind (u := []) (returns_planDetail hget) ?_)
  exact .lift_bind (validatePlan_plan fun n hn _ => hj.planned n hn) (.pure _)

/-- An approved approval passes the gate. -/
theorem returns_approvalGate (hj : s.Follows j) :
    Returns docs s.ref w (approvalGate rt profile j s.plan s.planId s.arguments)
      [answered profile s.ref .approvalDetail (approvalPath profile s.approvalId)
        [("approval", .obj (s.approval "approved"))]] w false := by
  have happroval : Returns docs s.ref w (confirmApproval rt profile j s.plan s.approvalId)
      [answered profile s.ref .approvalDetail (approvalPath profile s.approvalId)
        [("approval", .obj (s.approval "approved"))]] w (s.approval "approved") := by
    have hget : Fields.get [("approval", .obj (s.approval "approved"))] "approval" =
        .obj (s.approval "approved") := by simp
    unfold confirmApproval
    rw [hj.reference]
    refine .exceptUnresolved (Returns.bind (u := []) (returns_approvalDetail hget) ?_)
    exact .lift_bind (validateApproval_approval _) (.pure _)
  have hpending : ((s.approval "approved").get "state").pyEq (.str "pending") = false := rfl
  have happroved : ((s.approval "approved").get "state").pyEq (.str "approved") = true := rfl
  unfold approvalGate
  rw [hj.approval]
  refine Returns.bind (u := []) happroval ?_
  rw [hpending, happroved]
  exact .pure _

/-- A status that calls for no attention and shows what the phase says passes the gate. -/
theorem returns_progressGate (hj : s.Knows j) {status : String} {execution : Execution}
    (hstatus : runExecution (.str status) = .ok execution) (p : Pointer)
    (hcalm : attends j execution (decide (p = s.goal)) = false ∧ j.phase ≠ .attentionRequired)
    (hexecuted : j.phase ∈ [Phase.executed, .advanced, .converged] → execution = .succeeded) :
    Returns docs s.ref w (progressGate rt profile j) (s.statusEvents profile status p) w () := by
  have hread : Returns docs s.ref w (publicStatus rt profile j) (s.statusEvents profile status p) w
      (statusResult profile j execution (decide (p = s.goal))) := returns_publicStatus hj hstatus p
  have hrun : j.coordinates.has .runId = true := by
    simp [Coordinates.has, Coordinates.value?, hj.run]
  have hquiet : (statusResult profile j execution (decide (p = s.goal))).status ≠
      .attentionRequired := by
    rw [statusResult, hcalm.1]
    have hphase := hcalm.2
    simp only [projectJournal]
    generalize j.phase = phase at hphase
    revert hphase
    cases phase <;> decide
  have hshown : j.phase = .advanced ∨ j.phase = .converged → p = s.goal := by
    intro hphase
    have hneeds := hcalm.1
    by_contra hne
    simp only [attends, needsAttention, hne, decide_false] at hneeds
    rcases hphase with h | h <;> simp [h] at hneeds
  unfold progressGate
  rw [if_pos hrun]
  refine Returns.bind (t := [_, _, _, _, _, _]) (u := []) hread ?_
  rw [if_neg (by simp [hquiet]), if_neg, if_neg]
  · exact .pure _
  · simp only [Bool.and_eq_true, Bool.or_eq_true, beq_iff_eq, bne_iff_ne, not_and, not_not]
    intro hphase
    rw [statusResult, if_pos (by simpa using hshown hphase)]
    rfl
  · simp only [Bool.and_eq_true, Bool.or_eq_true, beq_iff_eq, bne_iff_ne, not_and, not_not]
    intro hphase
    refine hexecuted ?_
    simpa [or_assoc] using hphase

/-- The events of `apply` up to its first command, once the run is known. -/
def againEvents (profile : ClientProfile) (s : Scenario) (j : Journal) (status : String)
    (p : Pointer) : Trace :=
  [⟨.lock s.ref, .acquired⟩, ⟨.read s.ref, .found j⟩,
    answered profile s.ref .planDetail (planPath profile s.planId) [("plan", .obj s.plan)],
    answered profile s.ref .approvalDetail (approvalPath profile s.approvalId)
      [("approval", .obj (s.approval "approved"))]] ++ s.statusEvents profile status p

/-- An `apply` that passes its gates ends as its commands do. -/
theorem exec_again {tr : Trace} {w' : World} {result : ClientResult} {status : String} {p : Pointer}
    (hfollows : s.Follows j) (hpending : j.pendingRequest.map (·.routeId) ≠ some .prepare)
    (hj : w.journal = some j) (hvalid : j.Valid s.ref) (htarget : j.target = profile.target rt)
    (hprogress : Returns docs s.ref w (progressGate rt profile j) (s.statusEvents profile status p) w ())
    (hrest : Quits docs s.ref w (applyCommands rt profile j s.plan s.planId false) tr w' result) :
    Exec (answers docs s.ref) w (Client.apply rt profile (.utf8 s.ref.text) s.arguments)
      (s.againEvents profile j status p ++ tr) w' (some (.ok result)) := by
  have hload : Returns docs s.ref w (load rt profile s.ref) [⟨.read s.ref, .found j⟩] w j :=
    returns_load hj hvalid htarget
  have hplanId : textCoordinate (j.coordinates.get .planId) = .ok s.planId := by
    rw [Coordinates.get, Coordinates.value?, hfollows.plan]
    exact textCoordinate_json _
  have hretain : retainPlan rt j s.plan = Pure.pure j := by
    have hsession := hfollows.planned .sessionId (by decide)
    refine if_pos ?_
    rw [Coordinates.has, Option.isSome_iff_ne_none]
    intro hnone
    rw [Coordinates.get, hnone] at hsession
    cases hsession
  have hnonempty : s.arguments.executePlan ≠ .utf8 "" := by
    intro h
    have hsize := s.planId.nonempty
    rw [show s.planId.text = "" by simpa [arguments] using h] at hsize
    cases hsize
  rw [againEvents, List.append_assoc]
  refine Quits.conclude (Returns.quits (t := []) (.lift (canonicalOperationRef_text s.ref)) ?_)
  rw [if_neg hnonempty]
  refine Returns.quits (t := [_]) returns_lock (Returns.quits (t := [_]) hload ?_)
  rw [if_neg hpending]
  refine Returns.quits (t := []) (.lift hplanId) ?_
  rw [if_neg (by simp [arguments])]
  refine Returns.quits (t := [_]) (returns_confirmPlan hfollows) ?_
  rw [hretain]
  refine Returns.quits (t := []) (.pure j) (Returns.quits (t := [_]) (returns_approvalGate hfollows) ?_)
  exact Returns.quits hprogress hrest

end Scenario

end Client

end ControlPlaneKit
