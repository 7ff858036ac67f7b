import ControlPlaneKit.Client.StatusRun

/-!
# What the public status reports

`publicStatus_ends` lists how a call of `_public_status` can end with a result: a read stayed
unresolved, the run was not listed once, or every read succeeded. Each case names the reads the
result rests on and the values it reports, so nothing about the status needs its code again.
-/

namespace ControlPlaneKit

namespace Client

open Interaction

/-! ### What the reads have shown -/

/-- The history of the plan's runs was read to the end and lists the journal's run once, with a
status that reads as this execution value. -/
def RunListed (c : Coordinates) (h : Trace) (execution : Execution) : Prop :=
  ∃ runId item, c.runId = some runId ∧ RunsRead h ∧ matchingRuns runId (runItems h) = [item] ∧
    runExecution (item.get "status") = .ok execution

/-- The history of the plan's runs was read to the end and does not list the journal's run once. -/
def RunUnlisted (c : Coordinates) (h : Trace) : Prop :=
  ∃ runId, c.runId = some runId ∧ RunsRead h ∧ ∀ item, matchingRuns runId (runItems h) ≠ [item]

/-- What the reads have shown of the journal's run. -/
def RunSeen (c : Coordinates) (h : Trace) : Option Execution → Prop
  | none => c.runId = none ∨ ¬ RunsRead h
  | some execution => RunListed c h execution

/-- What the read of the approval has shown, and whether it is a problem. -/
def ApprovalSeen (c : Coordinates) (h : Trace) (problem : Bool) : Prop :=
  ∀ approvalId, c.approvalRequestId = some approvalId → ∃ e approval,
    Sole .approvalDetail e h ∧ ShowsApproval approvalId approval e ∧
      (approval.get "state").memberOf ["pending", "approved"] = some !problem

/-- What the reads of the current pointer have shown, and whether it is the desired one. -/
def CurrentSeen (c : Coordinates) (h : Trace) (shown : Bool) : Prop :=
  if c.desiredGraphId.isSome then
    ∃ e pointer, Sole .currentGraph e h ∧ ShowsCurrent pointer e ∧ shown = isDesired c (some pointer)
  else shown = false

/-! ### What is reported -/

/-- The report after a read that stayed unresolved. -/
structure Unread (j : Journal) (execution : Option Execution) (result : ClientResult) : Prop where
  status : result.status = .attentionRequired
  execution : result.execution =
    if j.pendingRequest.isSome then .unverified else execution.getD (executionOf j.phase)
  advancement : result.advancement =
    if j.pendingRequest.isSome then .unverified else advancementOf j.phase

/-- The report after all reads succeeded, while a request is pending. -/
structure ReportedPending (j : Journal) (p : Pending) (execution : Option Execution) (shown : Bool)
    (result : ClientResult) : Prop where
  status : result.status = .attentionRequired
  execution : result.execution =
    if p.routeId = .start ∨ p.routeId = .execute then .unverified
    else execution.getD (executionOf j.phase)
  advancement : result.advancement =
    if p.routeId = .advance then .unverified
    else if shown then .advanced else advancementOf j.phase

/-- Whether the report asks for attention while no request is pending. -/
def needsAttention (j : Journal) (problem : Bool) (execution : Option Execution) (shown : Bool) :
    Bool :=
  problem || (execution == some .failed || execution == some .unverified) ||
    ((j.phase == .advanced || j.phase == .converged) && !shown)

/-- The report after all reads succeeded, while no request is pending. -/
structure ReportedIdle (j : Journal) (problem : Bool) (execution : Option Execution) (shown : Bool)
    (result : ClientResult) : Prop where
  status : result.status = statusOf (needsAttention j problem execution shown) j.phase
  execution : result.execution = execution.getD (executionOf j.phase)
  advancement : result.advancement = if shown then .advanced else advancementOf j.phase

/-- The report after all reads succeeded. -/
def Reported (j : Journal) (problem : Bool) (execution : Option Execution) (shown : Bool)
    (result : ClientResult) : Prop :=
  (∀ p, j.pendingRequest = some p → ReportedPending j p execution shown result) ∧
    (j.pendingRequest = none → ReportedIdle j problem execution shown result)

/-- How a call of `_public_status` ends with a result. -/
inductive StatusEnd (j : Journal) (h : Trace) (result : ClientResult) : Prop where
  | unread (execution : Option Execution) (hrun : RunSeen j.coordinates h execution)
      (hcurrent : ∀ pointer, ∀ e ∈ h, ¬ ShowsCurrent pointer e)
      (hresult : Unread j execution result)
  | unlisted (hrun : RunUnlisted j.coordinates h) (hstatus : result.status = .attentionRequired)
      (hexecution : result.execution = .unverified) (hadvancement : result.advancement = .unverified)
  | complete (problem shown : Bool) (execution : Option Execution)
      (hrun : RunSeen j.coordinates h execution)
      (hnone : execution = none → j.coordinates.runId = none)
      (happroval : ApprovalSeen j.coordinates h problem)
      (hcurrent : CurrentSeen j.coordinates h shown)
      (hresult : Reported j problem execution shown result)

section Reports

variable {profile : ClientProfile} {j : Journal}

theorem statusFromJournal_ok {attention : Bool} {execution : Option Execution}
    {advancement : Option Advancement} {next : Option ReadRoute} {changes : List Change}
    {approval : Option Fields} {result : ClientResult}
    (h : statusFromJournal profile j attention execution advancement next changes approval =
      .ok result) :
    result.status = statusOf attention j.phase ∧
      result.execution = execution.getD (executionOf j.phase) ∧
        result.advancement = advancement.getD (advancementOf j.phase) := by
  unfold statusFromJournal at h
  split at h
  · cases h
    exact ⟨rfl, rfl, rfl⟩
  · obtain ⟨scope, -, h⟩ := Raise.bind_eq_ok.mp h
    obtain ⟨destructive, -, h⟩ := Raise.bind_eq_ok.mp h
    cases h
    exact ⟨rfl, rfl, rfl⟩

/-- The report of a read that stayed unresolved, before the pointer was compared. -/
theorem unread_of_ok {seen : Observed} {result : ClientResult} (hseen : seen.advancement = none)
    (h : statusFromJournal profile j true
      (if j.pendingRequest.isSome then some .unverified else seen.execution)
      (if j.pendingRequest.isSome then some .unverified else seen.advancement)
      (some (nextRead j)) seen.changes seen.approval = .ok result) :
    Unread j seen.execution result := by
  obtain ⟨hstatus, hexecution, hadvancement⟩ := statusFromJournal_ok h
  rw [hseen] at hadvancement
  cases hp : j.pendingRequest.isSome <;> rw [hp] at hexecution hadvancement
  · exact ⟨hstatus, by simpa [hp] using hexecution, by simpa [hp] using hadvancement⟩
  · exact ⟨hstatus, by simpa [hp] using hexecution, by simpa [hp] using hadvancement⟩

theorem observedStatus_ok {problem shown : Bool} {seen : Observed} {result : ClientResult}
    (hseen : seen.advancement = if shown then some .advanced else none)
    (h : observedStatus profile j problem seen = .ok result) :
    Reported j problem seen.execution shown result := by
  have hgetD : ∀ other : Advancement, (if shown then some Advancement.advanced else none).getD other =
      if shown then .advanced else other := by
    intro other
    cases shown <;> rfl
  unfold observedStatus at h
  split at h
  · rename_i p hp
    obtain ⟨hstatus, hexecution, hadvancement⟩ := statusFromJournal_ok h
    refine ⟨fun q hq => ?_, fun hnone => by cases hp.symm.trans hnone⟩
    obtain rfl : p = q := Option.some.inj (hp.symm.trans hq)
    refine ⟨hstatus, ?_, ?_⟩
    · rw [hexecution]
      split <;> rfl
    · rw [hadvancement, hseen]
      split
      · rfl
      · exact hgetD _
  · rename_i hnone
    refine ⟨fun p hp => (by cases hnone.symm.trans hp), fun _ => ?_⟩
    obtain ⟨hstatus, hexecution, hadvancement⟩ := statusFromJournal_ok h
    refine ⟨?_, hexecution, ?_⟩
    · rw [hstatus, hseen]
      unfold needsAttention
      cases shown <;> rfl
    · rw [hadvancement, hseen]
      exact hgetD _

end Reports

/-! ### The reads of the status -/

section Observe

variable {rt : Runtime} {profile : ClientProfile} {j : Journal} {seen : Observed} {h : Trace}
  {α : Type}

/-- The rule for one guarded read: what the block showed where it succeeded, or the report where
it stayed unresolved. -/
theorem Ends.observe {E : Trace → ClientResult → Prop} {block : Block α} {R : Trace → α → Prop}
    (hblock : Reads block) (hseen : seen.advancement = none)
    (hok : ∀ tr a, block.Runs tr (.ok a) → R (h ++ tr) a)
    (hunread : ∀ tr e result, block.Runs tr (.error (.error e)) → Unread j seen.execution result →
      E (h ++ tr) result) :
    Ends E (observe profile j seen block) R h := by
  intro tr r hr
  unfold Client.observe exceptUnresolved at hr
  rcases hr.handle_cases with ⟨a, h₁, rfl⟩ | ⟨e, tr₁, tr₂, rfl, h₁, h₂⟩
  · exact hok tr a h₁
  cases e with
  | returned result => exact absurd h₁ (hblock.stays tr₁ result)
  | error e =>
    simp only at h₂
    split at h₂
    · have : Ends E (do
          let result ← Client.lift (statusFromJournal profile j true
            (if j.pendingRequest.isSome then some .unverified else seen.execution)
            (if j.pendingRequest.isSome then some .unverified else seen.advancement)
            (some (nextRead j)) seen.changes seen.approval)
          Client.returnNow result) R (h ++ tr₁) :=
        .bind (.lift fun result hresult =>
          .returnNow (hunread tr₁ e result h₁ (unread_of_ok hseen hresult)))
      simpa using this tr₂ r h₂
    · obtain ⟨-, rfl⟩ := runs_raise.mp h₂
      trivial

/-- Nothing has been asked about the approval, the runs and the current graph. -/
structure Unasked (h : Trace) : Prop where
  approval : Quiet .approvalDetail h
  runs : Quiet .planRuns h
  current : Quiet .currentGraph h

theorem Unasked.nil : Unasked [] :=
  ⟨by simp [Quiet], by simp [Quiet], by simp [Quiet]⟩

theorem Unasked.append {h' : Trace} (hh : Unasked h) (hh' : Unasked h') : Unasked (h ++ h') :=
  ⟨hh.approval.append hh'.approval, hh.runs.append hh'.runs, hh.current.append hh'.current⟩

theorem Quiet.runSeen {c : Coordinates} (hh : Quiet .planRuns h) : RunSeen c h none :=
  .inr hh.not_runsRead

theorem Quiet.unread {result : ClientResult} (hruns : Quiet .planRuns h)
    (hcurrent : Quiet .currentGraph h) (hresult : Unread j none result) : StatusEnd j h result :=
  .unread none hruns.runSeen (fun _ _ he => hcurrent.not_showsCurrent he) hresult

theorem RunSeen.append_quiet {c : Coordinates} {h' : Trace} {execution : Option Execution}
    (hh : RunSeen c h execution) (hh' : Quiet .planRuns h') : RunSeen c (h ++ h') execution := by
  have hread : RunsRead (h ++ h') ↔ RunsRead h := by
    rw [runsRead_append]
    exact or_iff_left hh'.not_runsRead
  have hitems : runItems (h ++ h') = runItems h := by rw [runItems_append, hh'.runItems, List.append_nil]
  cases execution with
  | none => exact hh.imp_right fun hn hr => hn (hread.mp hr)
  | some e =>
    obtain ⟨runId, item, hid, hr, hmatch, he⟩ := hh
    exact ⟨runId, item, hid, hread.mpr hr, hitems ▸ hmatch, he⟩

theorem Quiet.after {route route' : ReadRoute} (hh : Quiet route h) {p : Block α}
    (hp : p.Uses (ReadsRoute route')) (hne : route' ≠ route) {tr : Trace} {r : Except Exit α}
    (hr : p.Runs tr r) : Quiet route (h ++ tr) :=
  hh.append (quiet_of_uses hp hr hne)

/-- The reads of the workspace and of the plan ask nothing else. -/
theorem Unasked.after {route : ReadRoute} (hh : Unasked h) {p : Block α}
    (hp : p.Uses (ReadsRoute route)) (happroval : route ≠ .approvalDetail)
    (hruns : route ≠ .planRuns) (hcurrent : route ≠ .currentGraph) {tr : Trace}
    {r : Except Exit α} (hr : p.Runs tr r) : Unasked (h ++ tr) :=
  ⟨hh.approval.after hp happroval hr, hh.runs.after hp hruns hr, hh.current.after hp hcurrent hr⟩

theorem observeWorkspace_ends (hh : Unasked h) :
    Ends (StatusEnd j) (observe profile j {} do
      let workspace ← readWorkspace profile j.operationRef
      lift (currentPointer workspace)) (fun h _ => Unasked h) h := by
  have huses : (do
      let workspace ← readWorkspace profile j.operationRef
      lift (currentPointer workspace)).Uses (ReadsRoute .workspace) :=
    ((uses_readPublic _ _).bind fun _ => uses_lift _).bind fun _ => uses_lift _
  refine .observe ((reads_readWorkspace profile _).bind fun _ => .lift _) rfl
    (fun tr a hr => hh.after huses (by decide) (by decide) (by decide) hr)
    fun tr e result hr hresult => ?_
  have hnew := hh.after huses (by decide) (by decide) (by decide) hr
  exact hnew.runs.unread hnew.current hresult

theorem observePlan_ends (hh : Unasked h) :
    Ends (StatusEnd j) (observePlan profile j)
      (fun h planned => Unasked h ∧ planned.2.execution = none ∧ planned.2.advancement = none) h := by
  unfold observePlan
  split
  · exact .pure ⟨hh, rfl, rfl⟩
  rename_i planId _
  have huses : (do
      let plan ← planDetail profile j.operationRef planId
      lift (validatePlan j plan)
      let changes ← lift (planChanges plan)
      return (plan, changes)).Uses (ReadsRoute .planDetail) :=
    ((uses_readPublic _ _).bind fun _ => uses_lift _).bind fun _ =>
      (uses_lift _).bind fun _ => (uses_lift _).bind fun _ => trivial
  refine .bind (.observe ?_ rfl (fun tr a hr => ?_) fun tr e result hr hresult => ?_)
  · exact (reads_planDetail profile _ _).bind fun _ => (Reads.lift _).bind fun _ =>
      (Reads.lift _).bind fun _ => .pure _
  · exact .pure ⟨hh.after huses (by decide) (by decide) (by decide) hr, rfl, rfl⟩
  · have hnew := hh.after huses (by decide) (by decide) (by decide) hr
    exact hnew.runs.unread hnew.current hresult

/-- What has been shown after the approval was read. -/
structure ApprovalAsked (j : Journal) (h : Trace) (problem : Bool) (seen : Observed) : Prop where
  runs : Quiet .planRuns h
  current : Quiet .currentGraph h
  approval : ApprovalSeen j.coordinates h problem
  execution : seen.execution = none
  advancement : seen.advancement = none

theorem observeApproval_ends (hh : Unasked h) (plan : Option Fields)
    (hexecution : seen.execution = none) (hadvancement : seen.advancement = none) :
    Ends (StatusEnd j) (observeApproval profile j plan seen)
      (fun h asked => ApprovalAsked j h asked.1 asked.2) h := by
  unfold observeApproval
  split
  · rename_i hnone
    exact .pure ⟨hh.runs, hh.current, fun id hid => by simp [hnone] at hid, hexecution, hadvancement⟩
  rename_i approvalId hid
  cases plan with
  | none =>
    refine .bind (.observe (.raise _) hadvancement (fun tr a hr => ?_) fun tr e result hr hresult => ?_)
    · cases (runs_raise.mp hr).2
    · rw [(runs_raise.mp hr).1, List.append_nil]
      exact hh.runs.unread hh.current (hexecution ▸ hresult)
  | some plan =>
  have huses : (do
      let approval ← approvalDetail profile j.operationRef approvalId
      return (plan, approval) : Block (Fields × Fields)).Uses (ReadsRoute .approvalDetail) :=
    ((uses_readPublic _ _).bind fun _ => uses_lift _).bind fun _ => trivial
  refine .bind (.observe ?_ hadvancement (fun tr a hr => ?_) fun tr e result hr hresult => ?_)
  · exact (reads_approvalDetail profile _ _).bind fun _ => .pure _
  · -- The approval was answered; its one event is the sole read of the route.
    have hruns := hh.runs.after huses (by decide) hr
    have hcurrent := hh.current.after huses (by decide) hr
    obtain ⟨approval, tr₁, tr₂, rfl, h₁, h₂⟩ := hr.bind_ok
    obtain ⟨rfl, rfl⟩ := runs_pure_ok.mp h₂
    obtain ⟨e, rfl, hshown⟩ := runs_approvalDetail_ok h₁
    rw [List.append_nil] at hruns hcurrent ⊢
    refine .bind (.observe (.lift _) hadvancement (fun tr _ hr => ?_) fun tr e result hr hresult => ?_)
    · obtain ⟨rfl, -⟩ := runs_lift_ok.mp hr
      split
      · exact .raise
      · rename_i known hknown
        refine .pure ⟨by simpa using hruns, by simpa using hcurrent, ?_, hexecution, hadvancement⟩
        intro id hid'
        obtain rfl : approvalId = id := Option.some.inj (hid.symm.trans hid')
        exact ⟨e, approval, by simpa using hh.approval.concat e, hshown, by simpa using hknown⟩
    · rw [show seen.execution = none from hexecution] at hresult
      have huses : (lift (validateApproval plan approvalId approval)).Uses
          (ReadsRoute .approvalDetail) := uses_lift _
      exact (hruns.after huses (by decide) hr).unread (hcurrent.after huses (by decide) hr) hresult
  · rw [hexecution] at hresult
    exact (hh.runs.after huses (by decide) hr).unread (hh.current.after huses (by decide) hr) hresult

theorem ApprovalSeen.append {c : Coordinates} {h' : Trace} {problem : Bool}
    (hh : ApprovalSeen c h problem) (hh' : Quiet .approvalDetail h') :
    ApprovalSeen c (h ++ h') problem := by
  intro approvalId hid
  obtain ⟨e, approval, hsole, hrest⟩ := hh approvalId hid
  exact ⟨e, approval, hsole.append hh', hrest⟩

/-- What has been shown after the runs were read. -/
structure RunAsked (j : Journal) (h : Trace) (problem : Bool) (seen : Observed) : Prop where
  current : Quiet .currentGraph h
  approval : ApprovalSeen j.coordinates h problem
  run : RunSeen j.coordinates h seen.execution
  known : seen.execution = none → j.coordinates.runId = none
  advancement : seen.advancement = none

theorem observeRun_ends {problem : Bool} (hh : ApprovalAsked j h problem seen) :
    Ends (StatusEnd j) (observeRun rt profile j seen) (fun h seen => RunAsked j h problem seen) h := by
  unfold observeRun
  split
  · rename_i hnone
    exact .pure ⟨hh.current, hh.approval, by rw [hh.execution]; exact .inl hnone, fun _ => hnone,
      hh.advancement⟩
  rename_i runId hid
  have huses : (do
      let planId ← lift (textCoordinate (j.coordinates.get .planId))
      readPages rt profile j.operationRef .planRuns
        [("workspace_id", profile.workspaceId), ("plan_id", planId)]).Uses
      (ReadsRoute .planRuns) :=
    (uses_lift _).bind fun _ => uses_pageFrom _ _ _ _ _
  refine .bind (.observe ((Reads.lift _).bind fun _ => reads_readPages _ _ _ _ _) hh.advancement
    (fun tr items hr => ?_) fun tr e result hr hresult => ?_)
  · obtain ⟨planId, tr₁, tr₂, rfl, h₁, h₂⟩ := hr.bind_ok
    obtain ⟨rfl, -⟩ := runs_lift_ok.mp h₁
    obtain ⟨hread, hitems⟩ | ⟨-, e, he⟩ := runs_readPages h₂
    swap
    · cases he
    cases hitems
    have hread' : RunsRead (h ++ ([] ++ tr₂)) := runsRead_append.mpr (.inr hread)
    have hitems : runItems (h ++ ([] ++ tr₂)) = runItems tr₂ := by
      rw [runItems_append, hh.runs.runItems]
      rfl
    have hcurrent := hh.current.after huses (by decide) hr
    -- the run of the journal is among those listed, or the block returns here
    split
    · rename_i item hmatch
      refine .bind (.lift fun execution hexecution => .bind ?_)
      have hrun : RunSeen j.coordinates (h ++ ([] ++ tr₂)) (some execution) :=
        ⟨runId, item, hid, hread', hitems ▸ hmatch, hexecution⟩
      have hevents : (readPages rt profile j.operationRef .runEvents
          [("workspace_id", profile.workspaceId), ("run_id", runId)]).Uses
          (ReadsRoute .runEvents) :=
        uses_pageFrom _ _ _ _ _
      refine .observe (reads_readPages _ _ _ _ _) hh.advancement (fun tr _ hr' => .pure ?_)
        fun tr e result hr' hresult => ?_
      · exact ⟨hcurrent.after hevents (by decide) hr',
          (hh.approval.append (quiet_of_uses huses hr (by decide))).append
            (quiet_of_uses hevents hr' (by decide)),
          hrun.append_quiet (quiet_of_uses hevents hr' (by decide)),
          fun hnone => (by cases hnone), hh.advancement⟩
      · exact .unread _ (hrun.append_quiet (quiet_of_uses hevents hr' (by decide)))
          (fun _ _ he => (hcurrent.after hevents (by decide) hr').not_showsCurrent he) hresult
    · rename_i hmatch
      exact .returnNow (.unlisted ⟨runId, hid, hread', fun item h => hmatch item (hitems ▸ h)⟩
        rfl rfl rfl)
  -- a listing that failed has not been read to its end
  · have hunread : ¬ RunsRead tr := by
      rcases hr.bind_cases with ⟨e', h₁, -⟩ | ⟨planId, tr₁, tr₂, rfl, h₁, h₂⟩
      · have hquiet : Quiet .planRuns tr :=
          quiet_of_uses (uses_lift (P := ReadsRoute .workspace) _) h₁ (by decide)
        exact hquiet.not_runsRead
      · obtain ⟨rfl, -⟩ := runs_lift_ok.mp h₁
        obtain ⟨-, hok⟩ | ⟨hunread, -⟩ := runs_readPages h₂
        · cases hok
        · exact hunread
    refine .unread none (.inr fun hread => ?_)
      (fun _ _ he => (hh.current.after huses (by decide) hr).not_showsCurrent he)
      (hh.execution ▸ hresult)
    exact (runsRead_append.mp hread).elim hh.runs.not_runsRead hunread

/-- The block that reads the current graph again: it shows a pointer exactly where it returns
one. -/
theorem runs_currentGraph {tr : Trace} {r : Except Exit (Option Pointer)}
    (hr : (do
      let observed ← readPublic profile j.operationRef .currentGraph (workspacePath profile) []
      let graphId ← lift (text observed "graph_id")
      let projectionId ← lift (text observed "realized_projection_id")
      return some (⟨graphId, projectionId⟩ : Pointer)).Runs tr r) :
    ∃ e, tr = [e] ∧ ((∃ pointer, ShowsCurrent pointer e ∧ r = .ok (some pointer)) ∨
      (∀ pointer, ¬ ShowsCurrent pointer e) ∧ ∃ e', r = .error (.error e')) := by
  rcases hr.bind_cases with ⟨e', h₁, rfl⟩ | ⟨observed, tr₁, tr₂, rfl, h₁, h₂⟩
  · obtain ⟨a, rfl, ⟨response', -, hok⟩ | ⟨hne, e', he⟩⟩ := runs_readPublic h₁
    · cases hok
    · cases he
      refine ⟨_, rfl, .inr ⟨?_, _, rfl⟩⟩
      rintro pointer ⟨path, response, ⟨call, heq, -⟩, -⟩
      cases heq
      exact hne _ rfl
  obtain rfl := runs_readPublic_ok h₁
  have hshown : ∀ pointer, ShowsCurrent pointer ⟨.call (readCall profile j.operationRef
      .currentGraph (workspacePath profile) []), .reply observed⟩ →
      text observed "graph_id" = .ok pointer.authoredGraphId ∧
        text observed "realized_projection_id" = .ok pointer.realizedProjectionId := by
    rintro pointer ⟨path, response, ⟨call, heq, -⟩, hgraphId, hprojectionId⟩
    cases heq
    exact ⟨by rw [text, hgraphId, textCoordinate_json], by rw [text, hprojectionId, textCoordinate_json]⟩
  cases hgraph : text observed "graph_id" with
  | error e =>
    rw [hgraph] at h₂ hshown
    obtain ⟨rfl, rfl⟩ := runs_raise.mp h₂
    exact ⟨_, rfl, .inr ⟨fun pointer h => (by cases (hshown pointer h).1), _, rfl⟩⟩
  | ok graph =>
    cases hprojection : text observed "realized_projection_id" with
    | error e =>
      rw [hgraph, hprojection] at h₂
      rw [hprojection] at hshown
      obtain ⟨rfl, rfl⟩ := runs_raise.mp h₂
      exact ⟨_, rfl, .inr ⟨fun pointer h => (by cases (hshown pointer h).2), _, rfl⟩⟩
    | ok projection =>
      rw [hgraph, hprojection] at h₂
      obtain ⟨rfl, rfl⟩ := runs_pure.mp h₂
      refine ⟨_, rfl, .inl ⟨⟨graph, projection⟩, ⟨_, observed, ⟨_, rfl, rfl, rfl⟩, ?_, ?_⟩, rfl⟩⟩
      · exact text_ok hgraph
      · exact text_ok hprojection

theorem observePointer_ends {problem : Bool} (hh : RunAsked j h problem seen)
    (current : Option Pointer) :
    Ends (StatusEnd j) (observePointer profile j current seen) (fun h seen' =>
      ∃ shown, ApprovalSeen j.coordinates h problem ∧ RunSeen j.coordinates h seen'.execution ∧
        (seen'.execution = none → j.coordinates.runId = none) ∧
          CurrentSeen j.coordinates h shown ∧
            seen'.advancement = if shown then some .advanced else none) h := by
  unfold observePointer observeCurrent
  refine .bind ?_
  -- The comparison sets the advancement, and nothing else.
  have hpointer : ∀ {h' : Trace} {current'}, ApprovalSeen j.coordinates h' problem →
      RunSeen j.coordinates h' seen.execution →
      CurrentSeen j.coordinates h' (isDesired j.coordinates current') →
      Ends (StatusEnd j) (Pure.pure (if isDesired j.coordinates current' then
        { seen with advancement := some .advanced } else seen) : Block Observed) (fun h seen' =>
      ∃ shown, ApprovalSeen j.coordinates h problem ∧ RunSeen j.coordinates h seen'.execution ∧
        (seen'.execution = none → j.coordinates.runId = none) ∧
          CurrentSeen j.coordinates h shown ∧
            seen'.advancement = if shown then some .advanced else none) h' := by
    intro h' current' happroval hrun hcurrent
    refine .pure ⟨_, happroval, ?_, ?_, hcurrent, ?_⟩
    · split <;> exact hrun
    · split <;> exact hh.known
    · split
      · rfl
      · exact hh.advancement
  split
  · rename_i hnone
    refine .pure (hpointer hh.approval hh.run ?_)
    unfold CurrentSeen
    rw [hnone]
    cases current <;> simp [isDesired, hnone]
  rename_i graphId hgraph
  have huses : (do
      let observed ← readPublic profile j.operationRef .currentGraph (workspacePath profile) []
      let graphId ← lift (text observed "graph_id")
      let projectionId ← lift (text observed "realized_projection_id")
      return some (⟨graphId, projectionId⟩ : Pointer)).Uses (ReadsRoute .currentGraph) :=
    (uses_readPublic _ _).bind fun _ => (uses_lift _).bind fun _ => (uses_lift _).bind fun _ => trivial
  refine .observe ?_ hh.advancement (fun tr a hr => ?_) fun tr e result hr hresult => ?_
  · exact (reads_readPublic profile _ _ _ _).bind fun _ => (Reads.lift _).bind fun _ =>
      (Reads.lift _).bind fun _ => .pure _
  · have hruns := quiet_of_uses huses hr (show ReadRoute.currentGraph ≠ .planRuns by decide)
    have happroval := quiet_of_uses huses hr (show ReadRoute.currentGraph ≠ .approvalDetail by decide)
    refine hpointer (hh.approval.append happroval) (hh.run.append_quiet hruns) ?_
    obtain ⟨e, rfl, ⟨pointer, hshown, hok⟩ | ⟨-, e', he⟩⟩ := runs_currentGraph hr
    · cases hok
      unfold CurrentSeen
      rw [if_pos (by rw [hgraph]; rfl)]
      exact ⟨e, pointer, hh.current.concat e, hshown, rfl⟩
    · cases he
  · have hruns := quiet_of_uses huses hr (show ReadRoute.currentGraph ≠ .planRuns by decide)
    refine .unread _ (hh.run.append_quiet hruns) (fun pointer e he hshown => ?_) hresult
    rcases List.mem_append.mp he with he | he
    · exact hh.current.not_showsCurrent he hshown
    obtain ⟨e', rfl, ⟨_, -, hok⟩ | ⟨hnone, -⟩⟩ := runs_currentGraph hr
    · cases hok
    · exact hnone pointer (List.mem_singleton.mp he ▸ hshown)

/-- **How the public status ends.** -/
theorem publicStatus_ends (hh : Unasked h) : Ends (StatusEnd j) (publicStatus rt profile j)
    (StatusEnd j) h := by
  unfold publicStatus
  refine .returning (.bind ((observeWorkspace_ends hh).mono fun h current hh => ?_))
  refine .bind ((observePlan_ends hh).mono fun h planned hp => ?_)
  obtain ⟨hp, hexecution, hadvancement⟩ := hp
  refine .bind ((observeApproval_ends hp _ hexecution hadvancement).mono fun h asked ha => ?_)
  refine .bind ((observeRun_ends ha).mono fun h seen hr => ?_)
  refine .bind ((observePointer_ends hr current).mono fun h seen' hs => .lift fun result hresult => ?_)
  obtain ⟨shown, happroval, hrun, hknown, hcurrent, hshown⟩ := hs
  exact .complete _ shown _ hrun hknown happroval hcurrent (observedStatus_ok hshown hresult)

/-- A result of the public status, with the reads it rests on. -/
theorem runs_publicStatus_ok {tr : Trace} {result : ClientResult}
    (hr : (publicStatus rt profile j).Runs tr (.ok result)) : StatusEnd j tr result :=
  publicStatus_ends .nil tr _ hr

end Observe

end Client

end ControlPlaneKit
