import ControlPlaneKit.Client.Healthy
import ControlPlaneKit.Interaction.Alone
import ControlPlaneKit.Python.Sha256

/-!
# From the preparation to convergence

The scenario of an operation that goes well, followed through the client: `plan` leaves the
prepared journal, and one `apply` admits, claims, starts, executes and advances. Each command is
one instance of `Scenario.returns_command`; the runs at the end are runs of the whole directory,
in which no other process takes a step.
-/

namespace ControlPlaneKit

namespace Client

open Interaction

namespace Scenario

variable {rt : Runtime} {profile : ClientProfile} {docs : Set (List UInt8)} {s : Scenario}
  {w : World}

/-! ### Journals -/

theorem coordinates_concat (s : Scenario) (done : List CommandRoute) (route : CommandRoute) :
    s.coordinates (done ++ [route]) = (s.coordinates done).update (s.projection route) := by
  simp [coordinates]

/-- No later command changes the plan or the approval. -/
theorem coordinates_ids (s : Scenario) (done : List CommandRoute) :
    (s.coordinates done).planId = some s.planId ∧
      (s.coordinates done).approvalRequestId = some s.approvalId := by
  induction done using List.reverseRecOn with
  | nil => exact ⟨rfl, rfl⟩
  | append_singleton done route ih =>
    rw [coordinates_concat]
    cases route <;> simp [Coordinates.update, projection, ih]

/-- The result of the preparation suits every later journal. -/
theorem validateResult_prepared {c : Coordinates}
    (hids : c.planId = some s.planId ∧ c.approvalRequestId = some s.approvalId) :
    validateResult (s.prepared profile) s.ref (profile.target rt) c = .ok () := by
  obtain ⟨hplan, happroval⟩ := hids
  simp [validateResult, prepared, ClientProfile.target, hplan, happroval]

theorem journal_valid (hs : s.Fair rt docs) {done : List CommandRoute} {phase : Phase}
    (hsuits : (s.coordinates done).Suits phase) (hfew : done.length ≤ 15) :
    (s.journal rt profile done phase).Valid s.ref where
  identity := rfl
  desired := ⟨hs.absolute, hs.size⟩
  planning := hsuits.planning
  planId := hsuits.planId
  plan := hsuits.plan
  required := hsuits.required
  terminal := hsuits.terminal
  started := hsuits.started
  executing := hsuits.executing
  advancement := hsuits.advancement
  pending := by simp [journal]
  budget := by
    have : ((s.journal rt profile done phase).requestHistory).length = done.length + 1 := by
      simp [journal]
    have hmax : maximumRequestRecords = 128 := rfl
    omega
  result := by
    intro result hresult
    cases hresult
    exact validateResult_prepared (s.coordinates_ids done)

theorem projection_brief (hs : s.Fair rt docs) (route : CommandRoute) :
    (s.projection route).Brief := by
  cases route with
  | claim => exact hs.generation
  | execute => exact show Brief 0 by unfold Brief; decide
  | advance => exact hs.revision
  | _ => trivial

theorem journal_modest (hs : s.Fair rt docs) {done : List CommandRoute} {phase : Phase}
    (hfew : done.length ≤ 15) : (s.journal rt profile done phase).Modest rt.floatText where
  desired := source_brief hs
  coordinates := coordinates_brief hs done
  pending := by simp [journal]
  few := by
    simp only [journal, List.length_map, List.length_cons]
    omega
  records := by
    intro r hr
    obtain ⟨route, -, rfl⟩ := List.mem_map.mp hr
    exact projection_brief hs route
  result := by
    rintro result ⟨⟩
    rfl

/-- The phase a command leads to. -/
def phaseNext (s : Scenario) (profile : ClientProfile) (route : CommandRoute) : Phase :=
  phaseAfter route (s.response profile route)

/-- Recording the response of a command moves on to the next journal. -/
theorem recorded_journal (done : List CommandRoute) (phase : Phase) (route : CommandRoute) :
    recorded (s.journal rt profile done phase) (s.request rt profile route)
      (s.response profile route) (s.projection route) =
        s.journal rt profile (done ++ [route]) (s.phaseNext profile route) := by
  simp [recorded, journal, coordinates_concat, request, intended, record, phaseNext]

theorem before_length (route : CommandRoute) : (before route).length ≤ 4 := by
  cases route <;> decide

/-- The coordinates after a command suit the phase it leads to. -/
theorem suits_next (route : CommandRoute) (hroute : route.isEffect = true) :
    (s.coordinates (before route ++ [route])).Suits (s.phaseNext profile route) := by
  have hstatus : s.phaseNext profile .execute = .executed := by
    simp [phaseNext, phaseAfter, response, Coordinate.literal_json, Json.pyEq_str]
  cases route with
  | prepare => cases hroute
  | decide => cases hroute
  | admission => exact suits_before .claim rfl
  | claim => exact suits_before .start rfl
  | start => exact suits_before .execute rfl
  | execute =>
    rw [hstatus]
    exact suits_before .advance rfl
  | advance => exact suits_advanced (List.mem_cons_self ..)

/-- A command after the preparation, and its events. -/
def commandEvents (rt : Runtime) (profile : ClientProfile) (s : Scenario) (route : CommandRoute) :
    Trace :=
  [wrote s.ref { s.journal rt profile (before route) (phaseBefore route) with
      pendingRequest := some (s.request rt profile route) },
    ⟨.call ⟨s.ref, profile.endpoint, .command route, s.path profile route, s.body route,
      mutationRole route⟩, .reply (s.response profile route)⟩,
    wrote s.ref (s.journal rt profile (before route ++ [route]) (s.phaseNext profile route))]

/-- The call of a command. -/
def commandOf (profile : ClientProfile) (s : Scenario) (route : CommandRoute) : Call :=
  ⟨s.ref, profile.endpoint, .command route, s.path profile route, s.body route, mutationRole route⟩

/-- **A command is intended, dispatched and recorded.** -/
theorem returns_command (hs : s.Fair rt docs) (route : CommandRoute)
    (hroute : route.isEffect = true)
    (hw : w.journal = some (s.journal rt profile (before route) (phaseBefore route))) :
    Returns docs s.ref w
      (mutate rt profile (s.journal rt profile (before route) (phaseBefore route)) route
        (s.path profile route) (s.body route) (s.key route) (mutationRole route) none)
      (s.commandEvents rt profile route)
      ⟨some (s.journal rt profile (before route ++ [route]) (s.phaseNext profile route)),
        w.dispatched ++ [s.commandOf profile route]⟩
      (s.response profile route,
        s.journal rt profile (before route ++ [route]) (s.phaseNext profile route)) := by
  have hlength := before_length route
  have hnone : (if route = .prepare then some (s.source rt) else none) = none := by
    cases route <;> first | rfl | cases hroute
  have hvalid : (s.journal rt profile (before route) (phaseBefore route)).Valid s.ref :=
    journal_valid hs (suits_before route hroute) (by omega)
  have hmodest : (s.journal rt profile (before route) (phaseBefore route)).Modest rt.floatText :=
    journal_modest hs (by omega)
  have hrequest : responseIsBound route (s.response profile route) (s.path profile route)
      (s.body route) (s.coordinates (before route)) profile.workspaceId = .ok true := by
    refine s.responseIsBound_response profile route hs.claimed ?_
    rintro rfl
    rfl
  have h : Returns docs s.ref w _ _ _ _ := returns_mutate hw rfl
    (by
      have hmax : maximumRequestRecords = 128 := rfl
      simp only [journal, List.length_map, List.length_cons]
      omega)
    (canonicalDigest_body profile hs route)
    (by
      rintro rfl
      cases hroute)
    (show s.request rt profile route = _ by rw [request, hnone])
    ((hmodest.intend (body_fits hs route).2).encodes (hvalid.intend (request_valid route))) hrequest
    (s.responseCoordinates_response profile route hs.claimed)
    (by
      have hfew : (before route ++ [route]).length ≤ 15 := by
        rw [List.length_append, List.length_singleton]
        omega
      rw [recorded_journal]
      exact (journal_modest hs hfew).encodes (journal_valid hs (suits_next route hroute) hfew))
  rw [recorded_journal] at h
  exact h

/-! ### The preparation -/

/-- The journal after the response to the preparation. -/
def preparedFirst (rt : Runtime) (profile : ClientProfile) (s : Scenario) : Journal where
  operationRef := s.ref
  target := profile.target rt
  desired := s.source rt
  phase := .prepared
  pendingRequest := none
  coordinates := { planId := some s.planId, approvalRequestId := some s.approvalId }
  requestHistory := [s.record rt .prepare]
  lastResult := none

/-- The commands and answers of the preparation. -/
def planEvents (rt : Runtime) (profile : ClientProfile) (s : Scenario) : Trace :=
  [⟨.openDesired (.utf8 s.file), .content (.utf8 s.file) s.raw⟩, ⟨.identity, .utf8 s.ref.text⟩,
    answered profile s.ref .workspace (workspacePath profile) [("workspace", .obj s.workspace)],
    ⟨.identity, .utf8 (s.key .prepare).text⟩, ⟨.lock s.ref, .acquired⟩,
    ⟨.create s.ref (newJournal rt profile s.ref (s.source rt)), .stored⟩,
    wrote s.ref { newJournal rt profile s.ref (s.source rt) with
      pendingRequest := some (s.request rt profile .prepare) },
    ⟨.call (s.commandOf profile .prepare), .reply (s.response profile .prepare)⟩,
    wrote s.ref (s.preparedFirst rt profile),
    answered profile s.ref .planDetail (planPath profile s.planId) [("plan", .obj s.plan)],
    answered profile s.ref .approvalDetail (approvalPath profile s.approvalId)
      [("approval", .obj (s.approval "pending"))],
    wrote s.ref (s.journal rt profile [] .prepared)]

theorem new_valid (habsolute : isAbsolutePath (.utf8 s.file) = true)
    (hsize : s.raw.length ≤ maximumDesiredBytes) :
    (newJournal rt profile s.ref (s.source rt)).Valid s.ref where
  identity := rfl
  desired := ⟨habsolute, hsize⟩
  planning := by
    intro _ n
    cases n <;> rfl
  planId := fun h => absurd rfl h
  plan := by simp [newJournal, needsPlanCoordinates]
  required := by simp [newJournal, requiredByPhase]
  terminal := by simp [newJournal]
  started := by simp [newJournal]
  executing := by simp [newJournal]
  advancement := by simp [newJournal]
  pending := by simp [newJournal]
  budget := by simp [newJournal]
  result := by simp [newJournal]

theorem new_modest (hsource : (s.source rt).Brief) :
    (newJournal rt profile s.ref (s.source rt)).Modest rt.floatText where
  desired := hsource
  coordinates := by
    constructor <;> simp [newJournal]
  pending := by simp [newJournal]
  few := by simp [newJournal]
  records := by simp [newJournal]
  result := by simp [newJournal]

theorem preparedFirst_valid (hs : s.Fair rt docs) :
    (s.preparedFirst rt profile).Valid s.ref where
  identity := rfl
  desired := ⟨hs.absolute, hs.size⟩
  planning := by simp [preparedFirst]
  planId := fun _ _ => rfl
  plan := by simp [preparedFirst, needsPlanCoordinates]
  required := by simp [preparedFirst, requiredByPhase]
  terminal := by simp [preparedFirst]
  started := by simp [preparedFirst]
  executing := by simp [preparedFirst]
  advancement := by simp [preparedFirst]
  pending := by simp [preparedFirst]
  budget := by simp [preparedFirst, maximumRequestRecords]
  result := by simp [preparedFirst]

theorem preparedFirst_modest (hs : s.Fair rt docs) :
    (s.preparedFirst rt profile).Modest rt.floatText where
  desired := source_brief hs
  coordinates := by
    constructor <;> simp [preparedFirst]
  pending := by simp [preparedFirst]
  few := by simp [preparedFirst]
  records := by
    intro r hr
    rw [List.mem_singleton.mp hr]
    exact projection_brief hs .prepare
  result := by simp [preparedFirst]

/-- The response to the preparation is recorded. -/
theorem recorded_new :
    recorded (newJournal rt profile s.ref (s.source rt)) (s.request rt profile .prepare)
      (s.response profile .prepare) (s.projection .prepare) = s.preparedFirst rt profile := by
  simp [recorded, newJournal, preparedFirst, request, intended, record, phaseAfter, projection,
    Coordinates.update]

/-- No later command changes a plan coordinate. -/
theorem coordinates_plan (s : Scenario) (done : List CommandRoute) {n : CoordinateName}
    (hn : n ∈ planCoordinates) : (s.coordinates done).get n = s.planned.get n := by
  induction done using List.reverseRecOn with
  | nil => rfl
  | append_singleton done route ih =>
    have hplan := (s.coordinates_ids done).1
    rw [coordinates_concat, ← ih]
    cases route <;> cases n <;> first
      | rfl
      | exact absurd hn (by decide)
      | simp [Coordinates.update, projection, Coordinates.get, Coordinates.value?, hplan]

/-- The plan that is read has the coordinates that are recorded. -/
theorem validatePlan_plan {j : Journal}
    (hj : ∀ n ∈ planCoordinates, j.coordinates.has n = true →
      j.coordinates.get n = s.planned.get n) : validatePlan j s.plan = .ok () := by
  have hshown : ∀ n ∈ planCoordinates, (s.plan.get n.key).pyEq (s.planned.get n) = true := by
    intro n hn
    cases n <;> first
      | exact absurd hn (by decide)
      | simp [plan, CoordinateName.key, planned, Coordinates.get, Coordinates.value?, natJson]
  rw [validatePlan, if_pos]
  rw [List.all_eq_true]
  intro n hn
  cases hhas : j.coordinates.has n with
  | false => rfl
  | true =>
    rw [hj n hn hhas]
    exact hshown n hn

/-- The approval that is read belongs to the plan. -/
theorem validateApproval_approval (state : String) :
    validateApproval s.plan s.approvalId (s.approval state) = .ok () := by
  have hscope : (Json.str "plan:approve").memberOf ["plan:approve", "plan:approve-destructive"] =
      some true := rfl
  have hkind : (Json.str "plan:approve").pyEq (.str "plan:approve-destructive") = false := rfl
  simp [validateApproval, approval, plan, hscope, hkind]

theorem planChanges_plan : planChanges s.plan = .ok [] := by
  simp [planChanges, mapping, plan, bind, Except.bind, pure, Except.pure]

theorem recordPlanCoordinates_plan (c : Coordinates) :
    recordPlanCoordinates c s.plan = .ok { c with
      planId := some s.planId
      sessionId := some s.sessionId
      baseGraphId := some s.base.authoredGraphId
      baseRealizedProjectionId := some s.base.realizedProjectionId
      desiredGraphId := some s.goal.authoredGraphId
      desiredRealizedProjectionId := some s.goal.realizedProjectionId
      desiredGraphRevision := some s.revision } := by
  simp [recordPlanCoordinates, text, integer, plan, bind, Except.bind, pure, Except.pure, natJson]

theorem pointer_of_get {workspace : Fields} {graphName projectionName : String} {p : Pointer}
    (hgraph : workspace.get graphName = p.authoredGraphId.json)
    (hprojection : workspace.get projectionName = p.realizedProjectionId.json) :
    pointer workspace graphName projectionName = .ok (some p) := by
  unfold pointer
  rw [hgraph, hprojection]
  simp only [Coordinate.json]
  have hg : textCoordinate (.str (.utf8 p.authoredGraphId.text)) = .ok p.authoredGraphId :=
    textCoordinate_json _
  have hp : textCoordinate (.str (.utf8 p.realizedProjectionId.text)) = .ok p.realizedProjectionId :=
    textCoordinate_json _
  rw [hg, hp]
  rfl

theorem currentPointer_workspace : currentPointer s.workspace = .ok (some s.base) :=
  pointer_of_get (by simp [workspace]) (by simp [workspace])

theorem desiredPointer_workspace : desiredPointer s.workspace = .ok none := by
  simp [desiredPointer, pointer, workspace]

/-- The prepare request is valid before any coordinate is known. -/
theorem prepare_valid : (s.request rt profile .prepare).Valid .planning (profile.target rt)
    (s.source rt) {} := by
  have h : (s.request rt profile .prepare).Valid _ _ _ _ := request_valid .prepare
  exact ⟨h.role, h.phase, h.key, h.bodyKeys, h.pathKeys, h.workspace, h.prepare,
    fun hne => absurd rfl hne⟩

/-- The journal of a preparation is intended, dispatched and recorded. -/
theorem returns_prepare (hs : s.Fair rt docs)
    (hw : w.journal = some (newJournal rt profile s.ref (s.source rt))) :
    Returns docs s.ref w
      (mutate rt profile (newJournal rt profile s.ref (s.source rt)) .prepare
        (workspacePath profile) (s.body .prepare) (s.key .prepare) .operator (some (s.source rt)))
      [wrote s.ref { newJournal rt profile s.ref (s.source rt) with
          pendingRequest := some (s.request rt profile .prepare) },
        ⟨.call (s.commandOf profile .prepare), .reply (s.response profile .prepare)⟩,
        wrote s.ref (s.preparedFirst rt profile)]
      ⟨some (s.preparedFirst rt profile), w.dispatched ++ [s.commandOf profile .prepare]⟩
      (s.response profile .prepare, s.preparedFirst rt profile) := by
  have hbound : responseIsBound .prepare (s.response profile .prepare) (s.path profile .prepare)
      (s.body .prepare) {} profile.workspaceId = .ok true :=
    s.responseIsBound_response profile .prepare hs.claimed (by simp)
  have hvalid : (s.request rt profile .prepare).Valid .planning (profile.target rt) (s.source rt)
      {} := prepare_valid
  have h : Returns docs s.ref w _ _ _ _ := returns_mutate hw rfl
    (Nat.succ_le_of_lt (Nat.succ_pos 127)) (canonicalDigest_body profile hs .prepare) (by simp)
    (show s.request rt profile .prepare = _ from rfl)
    (((new_modest (source_brief hs)).intend (body_fits hs .prepare).2).encodes
      ((new_valid hs.absolute hs.size).intend hvalid)) hbound
    (s.responseCoordinates_response profile .prepare hs.claimed)
    (by
      rw [recorded_new]
      exact (preparedFirst_modest hs).encodes (preparedFirst_valid hs))
  rw [recorded_new] at h
  exact h

/-- The plan is displayed and its coordinates are kept. -/
theorem returns_finishPrepare (hs : s.Fair rt docs)
    (hw : w.journal = some (s.preparedFirst rt profile)) :
    Returns docs s.ref w
      (finishPrepare rt profile (s.preparedFirst rt profile) (s.response profile .prepare))
      [answered profile s.ref .planDetail (planPath profile s.planId) [("plan", .obj s.plan)],
        answered profile s.ref .approvalDetail (approvalPath profile s.approvalId)
          [("approval", .obj (s.approval "pending"))],
        wrote s.ref (s.journal rt profile [] .prepared)]
      (w.store (s.journal rt profile [] .prepared)) (s.prepared profile) := by
  have hstatus : text (s.response profile .prepare) "status" =
      .ok (.literal "approval-required") := by simp [text, response]
  have hcoordinates : preparedCoordinates (s.preparedFirst rt profile).coordinates
      (s.response profile .prepare) = .ok (s.preparedFirst rt profile).coordinates := by
    simp [preparedCoordinates, text, response, preparedFirst, bind, Except.bind, pure, Except.pure]
  have hplanId : text (s.response profile .prepare) "plan_id" = .ok s.planId := by
    simp [text, response]
  have hplan : validatePlan (s.preparedFirst rt profile) s.plan = .ok () := by
    refine validatePlan_plan fun n hn hhas => ?_
    cases n <;> first
      | rfl
      | exact absurd hn (by decide)
      | cases hhas
  have hread : Returns docs s.ref w
      (preparedPlan rt profile (s.preparedFirst rt profile) s.planId)
      [answered profile s.ref .planDetail (planPath profile s.planId) [("plan", .obj s.plan)]] w
      (s.plan, []) := by
    refine .exceptUnresolved ?_
    have hget : Fields.get [("plan", .obj s.plan)] "plan" = .obj s.plan := by simp
    refine Returns.bind (u := []) (returns_planDetail hget) ?_
    exact .lift_bind hplan (.lift_bind planChanges_plan (.pure _))
  have happroval : Returns docs s.ref w
      (preparedApproval rt profile { s.preparedFirst rt profile with coordinates := s.planned }
        s.plan)
      [answered profile s.ref .approvalDetail (approvalPath profile s.approvalId)
        [("approval", .obj (s.approval "pending"))]] w (some (s.approval "pending")) := by
    refine .exceptUnresolved ?_
    have hget : Fields.get [("approval", .obj (s.approval "pending"))] "approval" =
        .obj (s.approval "pending") := by simp
    refine Returns.bind (u := []) (returns_approvalDetail hget) ?_
    exact .lift_bind (validateApproval_approval _) (.pure _)
  have hresult : planResult { s.preparedFirst rt profile with
      coordinates := s.planned, phase := preparedPhase (.literal "approval-required") } s.plan
      (some (s.approval "pending")) (.literal "approval-required") [] = .ok (s.prepared profile) := by
    have hscope : textCoordinate (.str (.utf8 "plan:approve")) = .ok (.literal "plan:approve") :=
      textCoordinate_json (.literal "plan:approve")
    simp [planResult, text, boolean, approval, plan, prepared, bind, Except.bind, pure, Except.pure,
      hscope, preparedFirst, ClientProfile.target]
    exact ⟨by decide, by decide⟩
  have hwrite : Returns docs s.ref w (writeJournal rt s.ref (s.journal rt profile [] .prepared))
      [wrote s.ref (s.journal rt profile [] .prepared)]
      (w.store (s.journal rt profile [] .prepared)) () :=
    returns_write (by rw [hw]; rfl) (journal_valid hs (suits_before .admission rfl) (by decide))
      (journal_modest hs (by decide))
  -- the steps of the method, in their order
  refine Returns.lift_bind hstatus ?_
  rw [if_pos (by rfl)]
  refine Returns.lift_bind hcoordinates (.lift_bind hplanId ?_)
  refine Returns.bind (t := [_]) (u := [_, _]) hread ?_
  refine Returns.lift_bind (recordPlanCoordinates_plan _) ?_
  refine Returns.bind (t := [_]) (u := [_]) happroval ?_
  refine Returns.lift_bind hresult ?_
  exact Returns.bind (t := [_]) (u := []) hwrite (.pure _)

/-- What the preparation needs of the world. -/
structure Untouched (s : Scenario) (w : World) : Prop where
  journal : w.journal = none
  reference : w.Fresh (.utf8 s.ref.text)
  key : w.Fresh (.utf8 (s.key .prepare).text)

/-- **The preparation leaves the prepared journal.** -/
theorem exec_plan (hs : s.Fair rt docs) (hw : s.Untouched w) :
    Exec (answers docs s.ref) w (Client.plan rt profile (.utf8 s.file) (.utf8 s.title.text))
      (s.planEvents rt profile)
      ⟨some (s.journal rt profile [] .prepared), w.dispatched ++ [s.commandOf profile .prepare]⟩
      (some (.ok (s.prepared profile))) := by
  have hread : Returns docs s.ref w (readDesired rt (.utf8 s.file))
      [⟨.openDesired (.utf8 s.file), .content (.utf8 s.file) s.raw⟩] w (s.source rt, s.desired) := by
    refine .performed ⟨rfl, opens hs.found hs.openable⟩ ?_
    simp only [Nat.not_lt.mpr hs.size, if_false, hs.loads]
    exact .returned _ _
  have hreference : Returns docs s.ref w (.perform .identity fun value => .pure value)
      [⟨.identity, .utf8 s.ref.text⟩] w (.utf8 s.ref.text) :=
    .performed ⟨hw.reference, rfl⟩ (.returned _ _)
  have hcanonical : canonicalOperationRef (.utf8 s.ref.text) = .ok s.ref := by
    simp [canonicalOperationRef, s.ref.valid]
  have hworkspace : Returns docs s.ref w (readWorkspace profile s.ref)
      [answered profile s.ref .workspace (workspacePath profile) [("workspace", .obj s.workspace)]] w
      s.workspace := returns_readWorkspace (by simp)
  have hrevision : integer s.workspace "desired_graph_revision" 0 = .ok s.revision := by
    simp [integer, workspace, natJson]
  have htitle : boundedTitle (.utf8 s.title.text) = .ok s.title := by
    simp [boundedTitle, s.title.nonempty, s.title.bounded]
  have hlock : Returns docs s.ref w (mutationLock s.ref) [⟨.lock s.ref, .acquired⟩] w () :=
    .performed rfl (.returned _ _)
  have hkey : Returns docs s.ref w newKey [⟨.identity, .utf8 (s.key .prepare).text⟩] w
      (s.key .prepare) := returns_newKey hw.key
  have hcreate : Returns docs s.ref w
      (createJournal rt s.ref (newJournal rt profile s.ref (s.source rt))) _ _ _ :=
    returns_create hw.journal (new_valid hs.absolute hs.size) (new_modest (source_brief hs))
  have hmutate : Returns docs s.ref (w.store (newJournal rt profile s.ref (s.source rt))) _ _ _ _ :=
    returns_prepare hs rfl
  have hfinish : Returns docs s.ref
      ⟨some (s.preparedFirst rt profile), w.dispatched ++ [s.commandOf profile .prepare]⟩ _ _ _ _ :=
    returns_finishPrepare hs rfl
  refine Exec.handle_ok (Returns.bind (t := [_]) hread (Returns.bind (t := [_]) hreference ?_))
  refine Returns.lift_bind hcanonical (Returns.bind (t := [_]) hworkspace ?_)
  refine Returns.lift_bind currentPointer_workspace ?_
  refine Returns.lift_bind desiredPointer_workspace (.lift_bind hrevision (.lift_bind htitle ?_))
  refine Returns.bind (t := [_]) hkey (Returns.bind (t := [_]) hlock ?_)
  exact Returns.bind (t := [_]) hcreate (Returns.bind (t := [_, _, _]) hmutate hfinish)

/-! ### The commands after the preparation -/

/-- The world after the preparation and these commands. -/
def world (rt : Runtime) (profile : ClientProfile) (s : Scenario) (done : List CommandRoute)
    (phase : Phase) : World :=
  ⟨some (s.journal rt profile done phase), (.prepare :: done).map (s.commandOf profile)⟩

/-- The world a command is issued in. -/
def worldBefore (rt : Runtime) (profile : ClientProfile) (s : Scenario) (route : CommandRoute) :
    World :=
  s.world rt profile (before route) (phaseBefore route)

/-- The world a command leads to. -/
def worldNext (rt : Runtime) (profile : ClientProfile) (s : Scenario) (route : CommandRoute) :
    World :=
  s.world rt profile (before route ++ [route]) (s.phaseNext profile route)

theorem commandOf_key (profile : ClientProfile) (s : Scenario) (route : CommandRoute) :
    (s.commandOf profile route).key = (s.key route).json := by
  cases route <;> simp [Call.key, commandOf, body, prepareBody]

/-- The key of a command that is still to come is fresh. -/
theorem fresh_key (hs : s.Fair rt docs) {done : List CommandRoute} {phase : Phase}
    {route : CommandRoute} (hroute : route ∉ .prepare :: done) :
    (s.world rt profile done phase).Fresh (.utf8 (s.key route).text) := by
  have hne : ∀ r ∈ CommandRoute.prepare :: done, s.key route ≠ s.key r := by
    intro r hr hsame
    exact hroute (hs.keys hsame ▸ hr)
  have htext : ∀ a b : OperationRef, Text.utf8 a.text = .utf8 b.text → a = b := by
    intro a b h
    exact OperationRef.json_injective (congrArg Json.str h)
  refine ⟨?_, ?_⟩
  · rintro j ⟨⟩
    refine ⟨?_, ?_⟩
    · intro key hkey hsame
      simp only [Journal.recordedKeys, journal, List.map_map] at hkey
      obtain ⟨r, hr, rfl⟩ := List.mem_map.mp hkey
      exact hne r hr (htext _ _ hsame)
    · rintro key ⟨⟩
  · intro call hcall hkey
    obtain ⟨r, hr, rfl⟩ := List.mem_map.mp hcall
    rw [commandOf_key] at hkey
    exact hne r hr (OperationRef.json_injective hkey.symm)

theorem returns_key (hs : s.Fair rt docs) {done : List CommandRoute} {phase : Phase}
    {route : CommandRoute} (hroute : route ∉ .prepare :: done) :
    Returns docs s.ref (s.world rt profile done phase) newKey
      [⟨.identity, .utf8 (s.key route).text⟩] (s.world rt profile done phase) (s.key route) :=
  returns_newKey (fresh_key hs hroute)

/-- The events of a command, with the drawing of its key. -/
def stepEvents (rt : Runtime) (profile : ClientProfile) (s : Scenario) (route : CommandRoute) :
    Trace :=
  ⟨.identity, .utf8 (s.key route).text⟩ :: s.commandEvents rt profile route

theorem notMem_before {route : CommandRoute} (hroute : route.isEffect = true) :
    route ∉ .prepare :: before route := by
  revert hroute
  cases route <;> decide

theorem returns_world (hs : s.Fair rt docs) {route : CommandRoute} (hroute : route.isEffect = true) :
    Returns docs s.ref (s.worldBefore rt profile route)
      (mutate rt profile (s.journal rt profile (before route) (phaseBefore route)) route
        (s.path profile route) (s.body route) (s.key route) (mutationRole route) none)
      (s.commandEvents rt profile route) (s.worldNext rt profile route)
      (s.response profile route,
        s.journal rt profile (before route ++ [route]) (s.phaseNext profile route)) := by
  have h : Returns docs s.ref (s.worldBefore rt profile route) _ _ _ _ :=
    returns_command hs route hroute rfl
  have hworld : (⟨some (s.journal rt profile (before route ++ [route]) (s.phaseNext profile route)),
      (s.worldBefore rt profile route).dispatched ++ [s.commandOf profile route]⟩ : World) =
        s.worldNext rt profile route := by
    simp [worldNext, worldBefore, world]
  rwa [hworld] at h

theorem text_plan_session : text s.plan "session_id" = .ok s.sessionId := by
  simp [text, plan]

theorem returns_admission (hs : s.Fair rt docs) :
    Returns docs s.ref (s.worldBefore rt profile .admission)
      (admitDeployment rt profile (s.journal rt profile [] .prepared) s.plan s.planId)
      (s.stepEvents rt profile .admission) (s.worldBefore rt profile .claim)
      (s.journal rt profile [.admission] .admitted) := by
  have happroval : textCoordinate ((s.journal rt profile [] .prepared).coordinates.get
      .approvalRequestId) = .ok s.approvalId := textCoordinate_json _
  unfold admitDeployment
  rw [if_neg (by simp [journal, coordinates, planned, Coordinates.has, Coordinates.value?])]
  refine Returns.lift_bind text_plan_session (.lift_bind happroval ?_)
  refine Returns.bind (t := [_]) (returns_key hs (notMem_before rfl)) ?_
  exact Returns.bind (t := [_, _, _]) (u := []) (returns_world hs rfl) (.pure _)

theorem returns_claim (hs : s.Fair rt docs) :
    Returns docs s.ref (s.worldBefore rt profile .claim)
      (claimRun rt profile (s.journal rt profile [.admission] .admitted))
      (s.stepEvents rt profile .claim) (s.worldBefore rt profile .start)
      (s.journal rt profile [.admission, .claim] .claimed) := by
  have hrequest : textCoordinate ((s.journal rt profile [.admission] .admitted).coordinates.get
      .executionRequestId) = .ok s.requestId := textCoordinate_json _
  unfold claimRun
  rw [if_neg (by
    simp [journal, coordinates, planned, Coordinates.has, Coordinates.value?, Coordinates.update,
      projection])]
  refine Returns.lift_bind hrequest ?_
  refine Returns.bind (t := [_]) (returns_key hs (notMem_before rfl)) ?_
  exact Returns.bind (t := [_, _, _]) (u := []) (returns_world hs rfl) (.pure _)

theorem returns_start (hs : s.Fair rt docs) :
    Returns docs s.ref (s.worldBefore rt profile .start)
      (startRun rt profile (s.journal rt profile [.admission, .claim] .claimed) s.runId
        s.generation)
      (s.stepEvents rt profile .start) (s.worldBefore rt profile .execute)
      (s.journal rt profile [.admission, .claim, .start] .started) := by
  have hstatus : ((s.response profile .start).get "run_status").pyEq (.str "running") = true := by
    simp [response, Coordinate.literal_json, Json.pyEq_str]
  unfold startRun
  rw [if_pos (by rfl)]
  refine Returns.bind (t := [_]) (returns_key hs (notMem_before rfl)) ?_
  refine Returns.bind (t := [_, _, _]) (u := []) (returns_world hs rfl) ?_
  simp only [hstatus, if_true]
  exact .pure _

theorem phaseNext_execute (s : Scenario) (profile : ClientProfile) :
    s.phaseNext profile .execute = .executed := by
  simp [phaseNext, phaseAfter, response, Coordinate.literal_json, Json.pyEq_str]

theorem worldNext_execute (s : Scenario) (rt : Runtime) (profile : ClientProfile) :
    s.worldNext rt profile .execute = s.worldBefore rt profile .advance := by
  rw [worldNext, phaseNext_execute]
  rfl

theorem returns_execute (hs : s.Fair rt docs) :
    Returns docs s.ref (s.worldBefore rt profile .execute)
      (executeRun rt profile (s.journal rt profile [.admission, .claim, .start] .started) s.runId
        s.generation)
      (s.stepEvents rt profile .execute) (s.worldBefore rt profile .advance)
      (s.journal rt profile [.admission, .claim, .start, .execute] .executed) := by
  have hcoordinator : text (s.response profile .execute) "coordinator_status" =
      .ok (.literal "completed") := by simp [text, response]
  have hstatus : ((s.response profile .execute).get "run_status").pyEq (.str "succeeded") = true := by
    simp [response, Coordinate.literal_json, Json.pyEq_str]
  unfold executeRun
  rw [if_neg (by simp [journal])]
  show Returns docs s.ref _ (executeSteps rt profile s.runId s.generation (127 + 1) _) _ _ _
  unfold executeSteps
  refine Returns.bind (t := [_]) (returns_key hs (notMem_before rfl)) ?_
  refine Returns.bind (t := [_, _, _]) (u := []) (returns_world hs rfl) ?_
  rw [worldNext_execute, phaseNext_execute]
  refine Returns.lift_bind hcoordinator ?_
  rw [if_pos (by rfl)]
  simp only [hstatus, if_true]
  exact .pure _

/-- The read of the workspace before the advancement, and the advancement. -/
def advanceEvents (rt : Runtime) (profile : ClientProfile) (s : Scenario) : Trace :=
  answered profile s.ref .workspace (workspacePath profile) [("workspace", .obj s.workspace)] ::
    s.stepEvents rt profile .advance

theorem returns_advance (hs : s.Fair rt docs) :
    Returns docs s.ref (s.worldBefore rt profile .advance)
      (advanceCurrent rt profile (s.journal rt profile [.admission, .claim, .start, .execute]
        .executed) s.plan s.planId s.runId s.generation)
      (s.advanceEvents rt profile) (s.worldNext rt profile .advance)
      (s.journal rt profile [.admission, .claim, .start, .execute, .advance] .advanced) := by
  have hcurrent : Returns docs s.ref (s.worldBefore rt profile .advance)
      (currentBeforeAdvance rt profile (s.journal rt profile
        [.admission, .claim, .start, .execute] .executed))
      [answered profile s.ref .workspace (workspacePath profile) [("workspace", .obj s.workspace)]]
      (s.worldBefore rt profile .advance) (some s.base) := by
    have hget : Fields.get [("workspace", .obj s.workspace)] "workspace" = .obj s.workspace := by
      simp
    refine .exceptUnresolved ?_
    refine Returns.bind (t := [_]) (u := []) (returns_readWorkspace hget) ?_
    exact .lift currentPointer_workspace
  have htext : ∀ name (c : Coordinate), s.plan.get name = c.json → text s.plan name = .ok c := by
    intro name c h
    rw [text, h, textCoordinate_json]
  have hrevision : integer s.plan "desired_graph_revision" 0 = .ok s.revision := by
    simp [integer, plan, natJson]
  unfold advanceCurrent
  rw [if_neg (by simp [journal])]
  refine Returns.bind (t := [_]) hcurrent ?_
  refine Returns.lift_bind (htext "base_graph_id" s.base.authoredGraphId (by simp [plan])) ?_
  refine Returns.lift_bind (htext "base_realized_projection_id" s.base.realizedProjectionId
    (by simp [plan])) ?_
  rw [if_neg (by simp)]
  refine Returns.lift_bind (htext "desired_graph_id" s.goal.authoredGraphId (by simp [plan])) ?_
  refine Returns.lift_bind (htext "desired_realized_projection_id" s.goal.realizedProjectionId
    (by simp [plan])) ?_
  refine Returns.lift_bind hrevision ?_
  refine Returns.bind (t := [_]) (returns_key hs (notMem_before rfl)) ?_
  exact Returns.bind (t := [_, _, _]) (u := []) (returns_world hs rfl) (.pure _)

/-- The commands of a whole deployment. -/
def allCommands : List CommandRoute :=
  [.admission, .claim, .start, .execute, .advance]

/-- The current graph, as the server shows it in the end. -/
def currentGraph (s : Scenario) : Fields :=
  [("graph_id", s.goal.authoredGraphId.json),
    ("realized_projection_id", s.goal.realizedProjectionId.json)]

/-- The result of the deployment. -/
def convergedResult (rt : Runtime) (profile : ClientProfile) (s : Scenario) : ClientResult :=
  projectJournal profile (s.journal rt profile allCommands .converged) false none none none [] none

/-- The journal in the end. -/
def convergedJournal (rt : Runtime) (profile : ClientProfile) (s : Scenario) : Journal :=
  { s.journal rt profile allCommands .converged with
    lastResult := some (s.convergedResult rt profile) }

/-- The events of the read-back. -/
def readBackEvents (rt : Runtime) (profile : ClientProfile) (s : Scenario) : Trace :=
  [answered profile s.ref .currentGraph (workspacePath profile) s.currentGraph,
    wrote s.ref (s.convergedJournal rt profile)]

theorem convergedJournal_valid (hs : s.Fair rt docs) :
    (s.convergedJournal rt profile).Valid s.ref := by
  have h : (s.journal rt profile allCommands .converged).Valid s.ref :=
    journal_valid hs (suits_advanced (List.mem_cons_of_mem _ (List.mem_singleton_self _))) (by decide)
  refine { h with result := ?_ }
  rintro result ⟨⟩
  simp [validateResult, convergedResult, convergedJournal, projectJournal, journal,
    ClientProfile.target]

theorem convergedJournal_modest (hs : s.Fair rt docs) :
    (s.convergedJournal rt profile).Modest rt.floatText := by
  have h : (s.journal rt profile allCommands .converged).Modest rt.floatText :=
    journal_modest hs (by decide)
  refine { h with result := ?_ }
  rintro result ⟨⟩
  rfl

theorem returns_readBack (hs : s.Fair rt docs) :
    Returns docs s.ref (s.worldNext rt profile .advance)
      (readBack rt profile (s.journal rt profile allCommands .advanced) s.plan)
      (s.readBackEvents rt profile)
      ((s.worldNext rt profile .advance).store (s.convergedJournal rt profile))
      (s.convergedResult rt profile) := by
  have hgraph : (s.currentGraph.get "graph_id").pyEq (s.plan.get "desired_graph_id") = true := by
    simp [currentGraph, plan]
  have hprojection : (s.currentGraph.get "realized_projection_id").pyEq
      (s.plan.get "desired_realized_projection_id") = true := by
    simp [currentGraph, plan]
  have hvalid : (s.convergedJournal rt profile).Valid s.ref := convergedJournal_valid hs
  have hwrite : Returns docs s.ref (s.worldNext rt profile .advance) _ _ _ _ :=
    returns_write rfl hvalid (convergedJournal_modest hs)
  refine Returns.bind (t := [_]) (.exceptUnresolved (returns_readPublic _ _ s.currentGraph)) ?_
  simp only [hgraph, hprojection, Bool.and_self, if_true]
  exact Returns.bind (t := [_]) (u := []) hwrite (.pure _)

/-! ### The deployment -/

/-- The arguments of the deployment. -/
def arguments (s : Scenario) : ApplyArguments :=
  ⟨.utf8 s.planId.text, none, none⟩

/-- The events of `apply` up to its first command. -/
def gateEvents (rt : Runtime) (profile : ClientProfile) (s : Scenario) : Trace :=
  [⟨.lock s.ref, .acquired⟩, ⟨.read s.ref, .found (s.journal rt profile [] .prepared)⟩,
    answered profile s.ref .planDetail (planPath profile s.planId) [("plan", .obj s.plan)],
    answered profile s.ref .approvalDetail (approvalPath profile s.approvalId)
      [("approval", .obj (s.approval "approved"))]]

/-- The events of the commands of `apply`. -/
def deploymentEvents (rt : Runtime) (profile : ClientProfile) (s : Scenario) : Trace :=
  s.stepEvents rt profile .admission ++ (s.stepEvents rt profile .claim ++
    (s.stepEvents rt profile .start ++ (s.stepEvents rt profile .execute ++
      (s.advanceEvents rt profile ++ s.readBackEvents rt profile))))

/-- The claimed journal knows its run. -/
theorem textCoordinate_claimed : textCoordinate
    ((s.journal rt profile [.admission, .claim] .claimed).coordinates.get .runId) = .ok s.runId :=
  textCoordinate_json _

/-- The claimed journal knows the generation of its claim. -/
theorem claimGeneration_claimed (hs : s.Fair rt docs) :
    claimGeneration (s.journal rt profile [.admission, .claim] .claimed) = .ok s.generation := by
  simp [claimGeneration, journal, coordinates, Coordinates.update, projection, hs.claimed]

theorem returns_deployment (hs : s.Fair rt docs) :
    Returns docs s.ref (s.worldBefore rt profile .admission)
      (applyFromAdmission rt profile (s.journal rt profile [] .prepared) s.plan s.planId)
      (s.deploymentEvents rt profile)
      ((s.worldNext rt profile .advance).store (s.convergedJournal rt profile))
      (s.convergedResult rt profile) := by
  unfold applyFromAdmission
  refine (returns_admission hs).bind ((returns_claim hs).bind ?_)
  refine Returns.lift_bind textCoordinate_claimed (.lift_bind (claimGeneration_claimed hs) ?_)
  exact (returns_start hs).bind ((returns_execute hs).bind ((returns_advance hs).bind
    (returns_readBack hs)))

/-- An approved `apply` passes its gates, and goes on as its commands do. -/
theorem exec_gates (hs : s.Fair rt docs) {tr : Trace} {w' : World}
    {out : Option (Except ClientError ClientResult)}
    (hrest : Exec (answers docs s.ref) (s.world rt profile [] .prepared)
      (conclude (applyFromAdmission rt profile (s.journal rt profile [] .prepared) s.plan s.planId))
      tr w' out) :
    Exec (answers docs s.ref) (s.world rt profile [] .prepared)
      (Client.apply rt profile (.utf8 s.ref.text) s.arguments) (s.gateEvents rt profile ++ tr) w'
      out := by
  have hcanonical : canonicalOperationRef (.utf8 s.ref.text) = .ok s.ref := by
    simp [canonicalOperationRef, s.ref.valid]
  have hlock : Returns docs s.ref (s.world rt profile [] .prepared) (mutationLock s.ref)
      [⟨.lock s.ref, .acquired⟩] (s.world rt profile [] .prepared) () :=
    .performed rfl (.returned _ _)
  have hload : Returns docs s.ref (s.world rt profile [] .prepared) (load rt profile s.ref)
      [⟨.read s.ref, .found (s.journal rt profile [] .prepared)⟩] _ _ :=
    returns_load rfl (journal_valid hs (suits_before .admission rfl) (by decide)) rfl
  have hplanId : textCoordinate ((s.journal rt profile [] .prepared).coordinates.get .planId) =
      .ok s.planId := textCoordinate_json _
  have hplan : Returns docs s.ref (s.world rt profile [] .prepared)
      (confirmPlan rt profile (s.journal rt profile [] .prepared) s.planId)
      [answered profile s.ref .planDetail (planPath profile s.planId) [("plan", .obj s.plan)]]
      (s.world rt profile [] .prepared) s.plan := by
    have hget : Fields.get [("plan", .obj s.plan)] "plan" = .obj s.plan := by simp
    refine .exceptUnresolved (Returns.bind (u := []) (returns_planDetail hget) ?_)
    exact .lift_bind (validatePlan_plan fun n hn _ => s.coordinates_plan [] hn) (.pure _)
  have happroval : Returns docs s.ref (s.world rt profile [] .prepared)
      (confirmApproval rt profile (s.journal rt profile [] .prepared) s.plan s.approvalId)
      [answered profile s.ref .approvalDetail (approvalPath profile s.approvalId)
        [("approval", .obj (s.approval "approved"))]] (s.world rt profile [] .prepared)
      (s.approval "approved") := by
    have hget : Fields.get [("approval", .obj (s.approval "approved"))] "approval" =
        .obj (s.approval "approved") := by simp
    refine .exceptUnresolved (Returns.bind (u := []) (returns_approvalDetail hget) ?_)
    exact .lift_bind (validateApproval_approval _) (.pure _)
  have hstate : ∀ t : String, ((s.approval "approved").get "state").pyEq (.str t) =
      decide (t = "approved") := by
    intro t
    rw [Bool.eq_iff_iff, decide_eq_true_iff, Json.pyEq_str]
    simp [approval, eq_comm]
  -- the steps of apply, in their order
  refine Exec.then_conclude (t := []) (Returns.lift hcanonical) ?_
  rw [if_neg (by
    intro h
    have hnonempty := s.planId.nonempty
    rw [show s.planId.text = "" by simpa [arguments] using h] at hnonempty
    cases hnonempty)]
  refine Exec.then_conclude (t := [_]) hlock (Exec.then_conclude (t := [_]) hload ?_)
  rw [if_neg (by simp [journal])]
  refine Exec.then_conclude (t := []) (Returns.lift hplanId) ?_
  rw [if_neg (by simp [arguments])]
  refine Exec.then_conclude (t := [_]) hplan ?_
  -- the plan coordinates are there since the preparation, and no run is known yet
  have hretained : retainPlan rt (s.journal rt profile [] .prepared) s.plan =
      Pure.pure (s.journal rt profile [] .prepared) := if_pos rfl
  rw [hretained]
  refine Exec.then_conclude (t := []) (Returns.pure _) ?_
  have hgate : Returns docs s.ref (s.world rt profile [] .prepared)
      (approvalGate rt profile (s.journal rt profile [] .prepared) s.plan s.planId s.arguments)
      [answered profile s.ref .approvalDetail (approvalPath profile s.approvalId)
        [("approval", .obj (s.approval "approved"))]] (s.world rt profile [] .prepared) false := by
    refine Returns.bind (u := []) happroval ?_
    simp only [hstate]
    exact .pure _
  refine Exec.then_conclude (t := [_]) hgate ?_
  have hprogress : progressGate rt profile (s.journal rt profile [] .prepared) = Pure.pure () :=
    if_neg (by simp [journal, coordinates, planned, Coordinates.has, Coordinates.value?])
  rw [hprogress]
  refine Exec.then_conclude (t := []) (Returns.pure _) ?_
  refine Exec.then_conclude (t := []) (Returns.pure (s.journal rt profile [] .prepared)) ?_
  have hover : stopIfOver profile (s.journal rt profile [] .prepared) = Pure.pure () := rfl
  rw [hover]
  exact Exec.then_conclude (t := []) (Returns.pure ())
    (Exec.then_conclude (t := []) (Returns.pure _) hrest)

/-- **The deployment converges.** -/
theorem exec_apply (hs : s.Fair rt docs) :
    Exec (answers docs s.ref) (s.world rt profile [] .prepared)
      (Client.apply rt profile (.utf8 s.ref.text) s.arguments)
      (s.gateEvents rt profile ++ s.deploymentEvents rt profile)
      ((s.worldNext rt profile .advance).store (s.convergedJournal rt profile))
      (some (.ok (s.convergedResult rt profile))) :=
  exec_gates hs (Exec.handle_ok (returns_deployment hs))

/-- Up to the start of the run, the commands go on as the execution does. -/
theorem exec_started (hs : s.Fair rt docs) {tr : Trace} {w' : World}
    {out : Option (Except ClientError ClientResult)}
    (hrest : Exec (answers docs s.ref) (s.worldBefore rt profile .execute)
      (conclude (executeRun rt profile (s.journal rt profile [.admission, .claim, .start] .started)
          s.runId s.generation >>= fun j =>
        advanceCurrent rt profile j s.plan s.planId s.runId s.generation >>= fun j =>
          readBack rt profile j s.plan)) tr w' out) :
    Exec (answers docs s.ref) (s.world rt profile [] .prepared)
      (conclude (applyFromAdmission rt profile (s.journal rt profile [] .prepared) s.plan s.planId))
      (s.stepEvents rt profile .admission ++ (s.stepEvents rt profile .claim ++
        (s.stepEvents rt profile .start ++ tr))) w' out := by
  unfold applyFromAdmission
  refine Exec.then_conclude (returns_admission hs) (Exec.then_conclude (returns_claim hs) ?_)
  refine Exec.then_conclude (t := []) (Returns.lift textCoordinate_claimed) ?_
  refine Exec.then_conclude (t := []) (Returns.lift (claimGeneration_claimed hs)) ?_
  exact Exec.then_conclude (returns_start hs) hrest

end Scenario

/-! ### Runs of the directory -/

/-- An event that is about one operation alone. -/
inductive OfOnly (docs : Set (List UInt8)) (ref : OperationRef) : Event Op Op.Answer → Prop where
  | identity (value : Text) : OfOnly docs ref ⟨.identity, value⟩
  | lock (a : LockAnswer) : OfOnly docs ref ⟨.lock ref, a⟩
  | read (a : ReadAnswer) : OfOnly docs ref ⟨.read ref, a⟩
  | create (j : Journal) (a : StoreAnswer) : OfOnly docs ref ⟨.create ref j, a⟩
  | write (j : Journal) (a : StoreAnswer) : OfOnly docs ref ⟨.write ref j, a⟩
  | openDesired (path : Text) (a : DesiredAnswer)
      (h : (∀ p raw, a = .content p raw → raw ∈ docs) ∧ (a = .valueError ↔ ¬ path.Openable)) :
      OfOnly docs ref ⟨.openDesired path, a⟩
  | call (call : Call) (a : CallAnswer) (h : call.operationRef = ref) :
      OfOnly docs ref ⟨.call call, a⟩

/-- The directory in which one operation has this world and no other one exists. -/
def Directory.only (ref : OperationRef) (w : World) : Directory :=
  Pool.idle (Function.update (fun _ => World.empty) ref w)

section Only

variable {rt : Runtime} {docs : Set (List UInt8)} {ref : OperationRef} {w w' : World}

theorem OfOnly.local {e : Event Op Op.Answer} (h : OfOnly docs ref e) :
    Local (answers docs) grants ref (Function.update (fun _ => World.empty) ref w) e := by
  have hempty : ∀ k', k' ≠ ref →
      Function.update (fun _ => World.empty) ref w k' = World.empty := fun k' hk' => by
    rw [Function.update_of_ne hk']
  refine ⟨fun k' hk' => ?_, fun k' hk' => ?_⟩
  · rw [hempty k' hk']
    cases h with
    | identity value =>
      refine ⟨⟨?_, ?_⟩, rfl⟩
      · rintro j ⟨⟩
      · rintro call hcall
        cases hcall
    | lock => rfl
    | read => exact ⟨rfl, fun h => absurd h.symm hk'⟩
    | create j a =>
      have hne : ¬ (ref = k' ∧ a.published = true) := fun h => hk' h.1.symm
      simp only [answers, if_neg hne]
    | write j a =>
      have hne : ¬ (ref = k' ∧ a.published = true) := fun h => hk' h.1.symm
      simp only [answers, if_neg hne]
    | openDesired path a h => exact ⟨rfl, h⟩
    | call call a h =>
      have hne : ¬ (call.operationRef = k' ∧ !call.route.isRead) := fun h' =>
        hk' (h'.1.symm.trans h)
      simp only [answers, if_neg hne]
  · cases h with
    | lock a =>
      cases a with
      | acquired => exact (Option.some.inj hk').symm
      | refused => cases hk'
    | _ => cases hk'

theorem Directory.initial_eq_only (ref : OperationRef) :
    Directory.initial = Directory.only ref World.empty := by
  rw [Directory.only, Function.update_eq_self_iff.mpr rfl]
  rfl

/-- **One invocation alone leads from one idle directory to the next.** -/
theorem Directory.Reaches.run {p : Invocation} (hp : IsInvocation rt p) {tr : Trace}
    {out : Option (Except ClientError ClientResult)} (h : Exec (answers docs ref) w p tr w' out)
    (htr : ∀ e ∈ tr, OfOnly docs ref e) (hlock : granted grants tr ≤ 1) :
    Directory.Reaches rt docs (.only ref w) (.only ref w') := by
  have hstep : Directory.Reaches rt docs (.only ref w) (.idle (Function.update
      (Function.update (fun _ => World.empty) ref w) ref w')) := by
    have hself : Exec (answers docs ref) (Function.update (fun _ => World.empty) ref w ref) p tr w'
        out := by rwa [Function.update_self]
    exact Pool.Reaches.alone .refl hp hself (fun e he => (htr e he).local) hlock
  rwa [Function.update_idem] at hstep

/-- An invocation alone can be stopped in front of each of its operations. -/
theorem Directory.Reachable.midway (hw : Directory.Reachable rt docs (.only ref w)) {p : Invocation}
    (hp : IsInvocation rt p) {tr tr' : Trace} {e : Event Op Op.Answer}
    {out : Option (Except ClientError ClientResult)}
    (h : Exec (answers docs ref) w p (tr ++ e :: tr') w' out)
    (htr : ∀ e' ∈ tr ++ e :: tr', OfOnly docs ref e') (hlock : granted grants tr ≤ 1)
    (hnone : grants e.op e.answer = none) :
    ∃ c d, Directory.Reachable rt docs c ∧ Directory.Step rt docs c 0 (some e) d := by
  have hself : Exec (answers docs ref) (Function.update (fun _ => World.empty) ref w ref) p
      (tr ++ e :: tr') w' out := by rwa [Function.update_self]
  refine Pool.Reaches.midway hw hp hself (fun e' he' => (htr e' ?_).local) hlock hnone
  rw [List.append_cons]
  exact List.mem_append_left _ he'

/-- A journal that has just been written is the durable one. -/
theorem journal_of_wrote {p : Invocation} {tr : Trace} {j : Journal}
    {out : Option (Except ClientError ClientResult)}
    (h : Exec (answers docs ref) w p (tr ++ [wrote ref j]) w' out) : w'.journal = some j := by
  obtain ⟨w₁, q, -, hlast⟩ := h.split
  cases hlast with
  | @performed _ w₂ _ _ _ _ _ _ hstep hrest =>
    have hdone : ∀ {q : Invocation}, Exec (answers docs ref) w₂ q [] w' out → w' = w₂ := by
      intro q h
      cases h <;> rfl
    have hsame : w' = w₂ := hdone hrest
    have hstored : w₂ = w₁.store j := by
      simp only [answers, StoreAnswer.published, and_self, if_true] at hstep
      exact hstep.2
    rw [hsame, hstored]
    rfl

/-- An invocation alone can be abandoned after each journal it writes. -/
theorem Directory.Reachable.abandoned (hw : Directory.Reachable rt docs (.only ref w))
    {p : Invocation} (hp : IsInvocation rt p) {tr tr' : Trace} {j : Journal}
    {out : Option (Except ClientError ClientResult)}
    (h : Exec (answers docs ref) w p ((tr ++ [wrote ref j]) ++ tr') w' out)
    (htr : ∀ e ∈ (tr ++ [wrote ref j]) ++ tr', OfOnly docs ref e)
    (hlock : granted grants (tr ++ [wrote ref j]) ≤ 1) :
    ∃ w₁, Directory.Reachable rt docs (.only ref w₁) ∧ w₁.journal = some j := by
  obtain ⟨w₁, hexec⟩ := h.abandon
  exact ⟨w₁, hw.trans (Directory.Reaches.run hp hexec
    (fun e he => htr e (List.mem_append_left _ he)) hlock), journal_of_wrote hexec⟩

theorem Directory.only_state : (Directory.only ref w).state ref = w := by
  simp only [Directory.only, Pool.idle, Function.update_self]

/-- The state of the only operation of a reachable directory is reachable. -/
theorem Directory.Reachable.only (hw : Directory.Reachable rt docs (.only ref w)) :
    Client.Reachable rt docs ref w :=
  ⟨_, hw, Directory.only_state⟩

theorem canonicalOperationRef_text (ref : OperationRef) :
    canonicalOperationRef (.utf8 ref.text) = .ok ref := by
  simp [canonicalOperationRef, ref.valid]

end Only

namespace Scenario

variable {rt : Runtime} {profile : ClientProfile} {docs : Set (List UInt8)} {s : Scenario}

theorem planEvents_ofOnly (hs : s.Fair rt docs) :
    ∀ e ∈ s.planEvents rt profile, OfOnly docs s.ref e := by
  intro e he
  simp only [planEvents, List.mem_cons, List.not_mem_nil, or_false] at he
  rcases he with rfl | rfl | rfl | rfl | rfl | rfl | rfl | rfl | rfl | rfl | rfl | rfl
  · exact .openDesired _ _ (opens hs.found hs.openable)
  · exact .identity _
  · exact .call _ _ rfl
  · exact .identity _
  · exact .lock _
  · exact .create _ _
  · exact .write _ _
  · exact .call _ _ rfl
  · exact .write _ _
  · exact .call _ _ rfl
  · exact .call _ _ rfl
  · exact .write _ _

theorem stepEvents_ofOnly (route : CommandRoute) :
    ∀ e ∈ s.stepEvents rt profile route, OfOnly docs s.ref e := by
  intro e he
  simp only [stepEvents, commandEvents, List.mem_cons, List.not_mem_nil, or_false] at he
  rcases he with rfl | rfl | rfl | rfl
  · exact .identity _
  · exact .write _ _
  · exact .call _ _ rfl
  · exact .write _ _

theorem gateEvents_ofOnly : ∀ e ∈ s.gateEvents rt profile, OfOnly docs s.ref e := by
  intro e he
  simp only [gateEvents, List.mem_cons, List.not_mem_nil, or_false] at he
  rcases he with rfl | rfl | rfl | rfl
  · exact .lock _
  · exact .read _
  · exact .call _ _ rfl
  · exact .call _ _ rfl

theorem deploymentEvents_ofOnly : ∀ e ∈ s.deploymentEvents rt profile, OfOnly docs s.ref e := by
  intro e he
  simp only [deploymentEvents, advanceEvents, readBackEvents, List.mem_append, List.mem_cons,
    List.not_mem_nil, or_false] at he
  rcases he with he | he | he | he | (rfl | he) | rfl | rfl
  · exact stepEvents_ofOnly _ e he
  · exact stepEvents_ofOnly _ e he
  · exact stepEvents_ofOnly _ e he
  · exact stepEvents_ofOnly _ e he
  · exact .call _ _ rfl
  · exact stepEvents_ofOnly _ e he
  · exact .call _ _ rfl
  · exact .write _ _

/-- The directory in which nothing was done is reachable. -/
theorem reachable_empty : Directory.Reachable rt docs (.only s.ref World.empty) := by
  rw [← Directory.initial_eq_only]
  exact .refl

/-- Nothing has been used before anything was done. -/
theorem untouched_empty : s.Untouched World.empty := by
  have hfresh : ∀ value, World.empty.Fresh value := by
    intro value
    refine ⟨?_, ?_⟩
    · rintro j ⟨⟩
    · intro call hcall
      cases hcall
  exact ⟨rfl, hfresh _, hfresh _⟩

/-- **The prepared operation is reachable.** -/
theorem reachable_prepared (hs : s.Fair rt docs) :
    Directory.Reachable rt docs (.only s.ref (s.world rt profile [] .prepared)) := by
  exact reachable_empty.trans (Directory.Reaches.run (.plan profile (.utf8 s.file) (.utf8 s.title.text))
    (exec_plan hs untouched_empty) (planEvents_ofOnly hs) (by
      simp [granted, planEvents, grants, answered, wrote]))

/-- The operation in the end. -/
def worldConverged (rt : Runtime) (profile : ClientProfile) (s : Scenario) : World :=
  (s.worldNext rt profile .advance).store (s.convergedJournal rt profile)

theorem applyEvents_ofOnly :
    ∀ e ∈ s.gateEvents rt profile ++ s.deploymentEvents rt profile, OfOnly docs s.ref e := by
  intro e he
  rcases List.mem_append.mp he with he | he
  · exact gateEvents_ofOnly e he
  · exact deploymentEvents_ofOnly e he

/-- The deployment leads from the prepared operation to the converged one. -/
theorem reaches_converged (hs : s.Fair rt docs) :
    Directory.Reaches rt docs (.only s.ref (s.world rt profile [] .prepared))
      (.only s.ref (s.worldConverged rt profile)) :=
  Directory.Reaches.run (.apply profile (.utf8 s.ref.text) s.arguments) (exec_apply hs)
    applyEvents_ofOnly (by
      simp [granted, gateEvents, deploymentEvents, stepEvents, commandEvents, advanceEvents,
        readBackEvents, grants, answered, wrote])

/-- **The converged operation is reachable.** -/
theorem reachable_converged (hs : s.Fair rt docs) :
    Directory.Reachable rt docs (.only s.ref (s.worldConverged rt profile)) :=
  (reachable_prepared hs).trans (reaches_converged hs)

end Scenario

/-! ### An instance -/

theorem isHexCharacter_hexDigit (n : UInt32) : isHexCharacter (Sha256.hexDigit n) = true := by
  have hdigit : ∀ m < 16,
      isHexCharacter (if m < 10 then Char.ofNat (48 + m) else Char.ofNat (87 + m)) = true := by
    decide
  exact hdigit _ (Nat.mod_lt _ (by decide))

theorem isSha256_hexDigest (message : List UInt8) :
    isSha256 (String.ofList (Sha256.hexDigest message)) = true := by
  have hword : ∀ w, ∀ c ∈ Sha256.hexWord w, isHexCharacter c = true := by
    intro w c hc
    obtain ⟨n, rfl⟩ : ∃ n, c = Sha256.hexDigit n := by
      simp only [Sha256.hexWord, List.mem_cons, List.not_mem_nil, or_false] at hc
      rcases hc with h | h | h | h | h | h | h | h <;> exact ⟨_, h⟩
    exact isHexCharacter_hexDigit n
  have hall : ∀ c ∈ Sha256.hexDigest message, isHexCharacter c = true := by
    intro c hc
    simp only [Sha256.hexDigest, List.mem_append] at hc
    rcases hc with (((((((h | h) | h) | h) | h) | h) | h) | h) <;> exact hword _ _ h
  rw [isSha256, String.toList_ofList, Sha256.length_hexDigest, Bool.and_eq_true]
  exact ⟨rfl, List.all_eq_true.mpr hall⟩

namespace Instance

theorem nests_runtime : 3 ≤ 1000 := by decide

/-- The interpreter, for documents that are the empty object. -/
def runtime : Runtime where
  sha256 message := ⟨String.ofList (Sha256.hexDigest message), isSha256_hexDigest message⟩
  loadDesired raw := if raw = [123, 125] then some (.obj []) else none
  floatText _ := "0.0".toList
  depthLimit := 1000
  nests := nests_runtime

/-- A profile. -/
def profile : ClientProfile :=
  ⟨"https://127.0.0.1:8080", .literal "workspace-1"⟩

/-- The documents: the empty object. -/
def docs : Set (List UInt8) :=
  {[123, 125]}

/-- An operation. -/
def scenario : Scenario where
  ref := ⟨"00000000-0000-4000-8000-000000000000", by decide⟩
  key
    | .prepare => ⟨"00000000-0000-4000-8000-000000000001", by decide⟩
    | .decide => ⟨"00000000-0000-4000-8000-000000000002", by decide⟩
    | .admission => ⟨"00000000-0000-4000-8000-000000000003", by decide⟩
    | .claim => ⟨"00000000-0000-4000-8000-000000000004", by decide⟩
    | .start => ⟨"00000000-0000-4000-8000-000000000005", by decide⟩
    | .execute => ⟨"00000000-0000-4000-8000-000000000006", by decide⟩
    | .advance => ⟨"00000000-0000-4000-8000-000000000007", by decide⟩
  file := "/graph.json"
  raw := [123, 125]
  desired := []
  title := .literal "title"
  planId := .literal "plan-1"
  sessionId := .literal "session-1"
  approvalId := .literal "approval-1"
  requestId := .literal "request-1"
  runId := .literal "run-1"
  base := ⟨.literal "graph-1", .literal "projection-1"⟩
  goal := ⟨.literal "graph-2", .literal "projection-2"⟩
  revision := 2
  generation := 1

theorem fair : scenario.Fair runtime docs where
  keys := by
    intro a b h
    cases a <;> cases b <;> first | rfl | exact absurd h (by decide)
  found := rfl
  loads := rfl
  size := by decide
  absolute := by decide
  file := by decide
  openable := Text.openable_utf8 (by simp [scenario])
  length := by unfold Brief; decide
  document := (Json.fits_obj .nil).mono (by decide)
  shallow := by decide
  revision := by unfold Brief; decide
  generation := by unfold Brief; decide
  claimed := by decide

end Instance

end Client

end ControlPlaneKit
