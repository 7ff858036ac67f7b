import ControlPlaneKit.Client.HealthyStatus

/-!
# Applying a converged operation again

A converged operation stays converged, and every later `apply` walks through the gates with the
terminal phase. The block that advances the current graph is skipped in the phase `advanced` only:
in the phase `converged` it reads the workspace and compares the current pointer with the base of
the plan, so an operation whose graph is in place stops there (`apply_reapplied`).
-/

namespace ControlPlaneKit

namespace Client

open Interaction

/-! ### Blocks that end in one way -/

section Ends

variable {rt : Runtime} {profile : ClientProfile} {α : Type} {E : Trace → ClientResult → Prop}
  {h : Trace} {j : Journal}

/-- What ends an invocation in the right way whatever it does. -/
theorem Ends.of_all {p : Block α} {R : Trace → α → Prop} (hE : ∀ tr result, E (h ++ tr) result)
    (hR : ∀ tr a, R (h ++ tr) a) : Ends E p R h := by
  intro tr r _
  rcases r with (_ | result) | a
  · trivial
  · exact hE tr result
  · exact hR tr a

theorem Ends.perform {op : Op} {next : op.Answer → Block α} {R : Trace → α → Prop}
    (hnext : ∀ a, Ends E (next a) R (h ++ [⟨op, a⟩])) : Ends E (.perform op next) R h := by
  intro tr r hr
  cases hr with
  | perform hr => simpa using hnext _ _ r hr

/-- The rule for a read that may stay unresolved. -/
theorem Ends.exceptUnresolved {block handler : Block α} {R : Trace → α → Prop} (hblock : Reads block)
    (hok : ∀ tr a, block.Runs tr (.ok a) → R (h ++ tr) a)
    (hhandler : ∀ tr, Ends E handler R (h ++ tr)) :
    Ends E (Client.exceptUnresolved block handler) R h := by
  intro tr r hr
  rcases hr.handle_cases with ⟨a, h₁, rfl⟩ | ⟨e, tr₁, tr₂, rfl, h₁, h₂⟩
  · exact hok tr a h₁
  · cases e with
    | returned result => exact absurd h₁ (hblock.stays tr₁ result)
    | error e =>
      dsimp only at h₂
      split at h₂
      · rw [← List.append_assoc]
        exact hhandler tr₁ tr₂ r h₂
      · obtain ⟨rfl, rfl⟩ := runs_raise.mp h₂
        trivial

/-- The rule for an attention result. -/
theorem Ends.stop {R : Trace → α → Prop} {execution : Execution} {advancement : Advancement}
    {next : ReadRoute}
    (hE : ∀ tr, E (h ++ tr) (attentionResult profile j execution advancement next)) :
    Ends E (Client.stop rt profile j execution advancement next) R h := by
  unfold Client.stop attention writeJournal
  rw [if_pos rfl]
  refine .bind (.bind (.bind (.lift fun raw _ => .perform fun a => ?_)))
  cases a with
  | stored => exact .pure (.pure (.returnNow (hE _)))
  | failed message published => exact .raise

end Ends

/-! ### A converged operation stays converged -/

/-- No command is recorded after the advancement. -/
theorem tracePhase_advanced_final {h t : List Record} {phase : Phase}
    (ht : tracePhase h = some .advanced) (hlater : tracePhase (h ++ t) = some phase) : t = [] := by
  induction t using List.reverseRecOn generalizing phase with
  | nil => rfl
  | append_singleton t r ih =>
    rw [← List.append_assoc] at hlater
    obtain ⟨before, hbefore, hr⟩ := tracePhase_concat.mp hlater
    obtain rfl := ih hbefore
    rw [List.append_nil, ht, Option.some.injEq] at hbefore
    subst hbefore
    obtain ⟨-, -, hphase, -⟩ := after_eq_some.mp hr
    cases hroute : r.routeId <;> rw [hroute] at hphase <;> simp [pendingPhases] at hphase

/-- The journals that follow a converged one are converged. -/
theorem Forward.converged {ref : OperationRef} {j k : Journal} (h : Forward j k)
    (hj : JournalInv ref j) (hk : JournalInv ref k) (hphase : j.phase = .converged) :
    k.phase = .converged := by
  obtain ⟨t, ht⟩ := h.history
  obtain ⟨phase, htrace, hsettles⟩ := hk.trace
  rw [← ht] at htrace
  have hadvanced := hj.traced_converged hphase
  obtain rfl := tracePhase_advanced_final hadvanced htrace
  rw [List.append_nil, hadvanced, Option.some.injEq] at htrace
  subst htrace
  have hsettled : k.phase = .advanced ∨ k.phase = .converged := by
    generalize k.phase = phase at hsettles
    cases hsettles with
    | same => exact .inl rfl
    | converged => exact .inr rfl
  refine hsettled.resolve_left fun hback => ?_
  rcases h.phase with hsame | ⟨-, hleads⟩
  · rw [hback, hphase] at hsame
    cases hsame
  · rw [hback, hphase] at hleads
    revert hleads
    decide

/-! ### The later invocation -/

/-- The recorded base pointer. -/
def Coordinates.base? (c : Coordinates) : Option Pointer :=
  match c.baseGraphId, c.baseRealizedProjectionId with
  | some graphId, some projectionId => some ⟨graphId, projectionId⟩
  | _, _ => none

/-- The answers report the operation as converged: the approval is approved, and the current
pointer is the desired one. -/
structure InPlace (j : Journal) (h : Trace) : Prop where
  approved : ∀ e ∈ h, ∀ approvalId approval, ShowsApproval approvalId approval e →
    approval.get "state" = .str "approved"
  current : ∀ e ∈ h, ∀ pointer, ShowsWorkspace pointer e → pointer = j.coordinates.desired?

/-- `apply` after the journal has been loaded. -/
def applyLoaded (rt : Runtime) (profile : ClientProfile) (arguments : ApplyArguments)
    (journal : Journal) : Block ClientResult :=
  if (journal.pendingRequest.map (·.routeId)) = some .prepare then
    raise (.input "pending preparation must be resumed with plan")
  else do
    let planId ← lift (textCoordinate (journal.coordinates.get .planId))
    if arguments.executePlan ≠ .utf8 planId.text then
      raise (.input "execution confirmation does not match the prepared plan")
    else
      let plan ← confirmPlan rt profile journal planId
      let journal ← retainPlan rt journal plan
      let approvalPending ← approvalGate rt profile journal plan planId arguments
      progressGate rt profile journal
      applyCommands rt profile journal plan planId approvalPending

section Later

variable {rt : Runtime} {profile : ClientProfile} {docs : Set (List UInt8)} {ref : OperationRef}
  {args : ApplyArguments} {j : Journal} {plan : Fields} {planId : Coordinate} {h : Trace}

/-- An operation whose answers report it as converged ends with attention. -/
def Stops (j : Journal) (h : Trace) (result : ClientResult) : Prop :=
  InPlace j h → result.status = .attentionRequired

theorem Stops.attention {execution : Execution} {advancement : Advancement} {next : ReadRoute} :
    Stops j h (attentionResult profile j execution advancement next) :=
  fun _ => rfl

/-- The base pointer of a plan that agrees with the journal is the recorded one. -/
theorem base_of_agrees (hj : j.Valid ref) (hphase : j.phase = .converged)
    (hagrees : PlanAgrees j plan) {graphId projectionId : Coordinate}
    (hgraph : text plan "base_graph_id" = .ok graphId)
    (hprojection : text plan "base_realized_projection_id" = .ok projectionId) :
    j.coordinates.base? = some ⟨graphId, projectionId⟩ := by
  have hhas : ∀ n ∈ planCoordinates, j.coordinates.has n = true :=
    hj.plan (by rw [hphase]; rfl)
  have hsame : ∀ n ∈ planCoordinates, Coordinates.isNumber n = false →
      plan.get n.key = j.coordinates.get n := fun n hn hnumber =>
    (Coordinates.pyEq_get hnumber).mp (hagrees n hn (hhas n hn))
  have hgraph' : j.coordinates.baseGraphId = some graphId :=
    textJson_injective ((hsame .baseGraphId (by decide) rfl).symm.trans (textCoordinate_ok hgraph))
  have hprojection' : j.coordinates.baseRealizedProjectionId = some projectionId :=
    textJson_injective ((hsame .baseRealizedProjectionId (by decide) rfl).symm.trans
      (textCoordinate_ok hprojection))
  rw [Coordinates.base?, hgraph', hprojection']

/-- In the phase converged the advancement is attempted again, and stops. -/
theorem advanceCurrent_stops (hj : j.Valid ref) (hphase : j.phase = .converged)
    (hagrees : PlanAgrees j plan) (hmoves : j.coordinates.desired? ≠ j.coordinates.base?)
    {runId : Coordinate} {generation : ℕ} :
    Ends (Stops j) (do
      let journal ← advanceCurrent rt profile j plan planId runId generation
      readBack rt profile journal plan) (Stops j) h := by
  have hblock : Reads (do
      let workspace ← readWorkspace profile j.operationRef
      lift (currentPointer workspace)) := (reads_readWorkspace profile _).bind fun _ => .lift _
  unfold advanceCurrent
  rw [if_neg (by rw [hphase]; decide)]
  refine .bind (.bind ?_)
  refine .exceptUnresolved hblock (fun tr current hr => ?_) fun _ => .stop fun _ => .attention
  obtain ⟨workspace, tr₁, tr₂, rfl, h₁, h₂⟩ := hr.bind_ok
  obtain ⟨response, tr₃, tr₄, rfl, h₃, h₄⟩ := h₁.bind_ok
  obtain ⟨rfl, hcurrent⟩ := runs_lift_ok.mp h₂
  obtain ⟨rfl, hworkspace⟩ := runs_lift_ok.mp h₄
  obtain rfl := runs_readPublic_ok h₃
  have hshown : ShowsWorkspace current
      ⟨.call (readCall profile j.operationRef .workspace (workspacePath profile) []),
        .reply response⟩ :=
    ⟨_, response, workspace, ⟨_, rfl, rfl, rfl⟩, mapping_ok hworkspace, hcurrent⟩
  cases current with
  | none => exact .stop fun _ => .attention
  | some current =>
    refine .bind (.lift fun graphId hgraph => .bind (.lift fun projectionId hprojection => ?_))
    split
    · exact .stop fun _ => .attention
    · rename_i hbase
      -- The answer shows the base, so it does not report the operation as converged.
      have hstale : ∀ tr, ¬ InPlace j (h ++ ([⟨.call (readCall profile j.operationRef .workspace
          (workspacePath profile) []), .reply response⟩] ++ [] ++ []) ++ tr) := by
        intro tr hplace
        have hdesired := hplace.current _ (by simp) _ hshown
        rw [not_not] at hbase
        rw [hbase, ← base_of_agrees hj hphase hagrees hgraph hprojection] at hdesired
        exact hmoves hdesired.symm
      refine .of_all (fun tr result hplace => absurd hplace (hstale tr)) fun tr journal => ?_
      refine .of_all (fun tr' result hplace => ?_) fun tr' result hplace => ?_ <;>
        rw [List.append_assoc _ tr] at hplace <;> exact absurd hplace (hstale _)

/-- The approval gate lets only a pending approval through as one to decide. -/
theorem approvalGate_ends {planId : Coordinate} :
    Ends (Stops j) (approvalGate rt profile j plan planId args)
      (fun h flag => flag = true → ¬ InPlace j h) h := by
  unfold approvalGate
  split
  · exact .pure nofun
  rename_i approvalId _
  have hblock : Reads (do
      let approval ← approvalDetail profile j.operationRef approvalId
      lift (validateApproval plan approvalId approval)
      return approval) :=
    (reads_approvalDetail profile _ _).bind fun _ => (Reads.lift _).bind fun _ => .pure _
  refine .bind (.exceptUnresolved hblock (fun tr approval hr => ?_) fun _ => .stop fun _ => .attention)
  obtain ⟨approval', tr₁, tr₂, rfl, h₁, h₂⟩ := hr.bind_ok
  obtain ⟨u, tr₃, tr₄, rfl, h₃, h₄⟩ := h₂.bind_ok
  obtain ⟨rfl, rfl⟩ := runs_pure_ok.mp h₄
  obtain ⟨rfl, -⟩ := runs_lift_ok.mp h₃
  obtain ⟨e, rfl, hshown⟩ := runs_approvalDetail_ok h₁
  split
  · rename_i hstate
    refine .bind (.lift fun destructive _ => ?_)
    dsimp only
    generalize (if destructive = true then args.approveDestructivePlan else args.approvePlan) = supplied
    generalize (if destructive = true then args.approvePlan else args.approveDestructivePlan) = wrong
    split
    · exact .raise
    split
    · exact .raise
    split
    · exact .stop fun _ => .attention
    · refine .pure fun _ hplace => ?_
      have happroved := hplace.approved e (by simp) approvalId approval' hshown
      rw [happroved] at hstate
      cases hstate
  split
  · exact .pure nofun
  · exact .stop fun _ => .attention

/-- The progress gate ends with attention or goes on. -/
theorem progressGate_ends (hpending : j.pendingRequest = none) {R : Trace → Unit → Prop}
    (hR : ∀ tr, R (h ++ tr) ()) : Ends (Stops j) (progressGate rt profile j) R h := by
  have hreads := reads_publicStatus rt profile j
  unfold progressGate
  split
  swap
  · exact .pure (by simpa using hR [])
  refine .bind fun tr r hr => ?_
  rcases r with (_ | result) | observed
  · trivial
  · exact absurd hr (hreads.stays tr result)
  · dsimp only
    split
    · rename_i hattention
      rw [hpending, Option.isNone_none, Bool.true_and, beq_iff_eq] at hattention
      exact .returnNow fun _ => hattention
    split
    · exact .stop fun _ => .attention
    split
    · exact .stop fun _ => .attention
    · exact .pure (hR tr)

/-- In the phase converged every command before the advancement is over. -/
theorem applyFromAdmission_stops (hj : j.Valid ref) (hphase : j.phase = .converged)
    (hagrees : PlanAgrees j plan) (hmoves : j.coordinates.desired? ≠ j.coordinates.base?) :
    Ends (Stops j) (applyFromAdmission rt profile j plan planId) (Stops j) h := by
  have hrequired : ∀ n ∈ requiredByPhase .converged, j.coordinates.has n = true := hphase ▸ hj.required
  have hadmission : admitDeployment rt profile j plan planId = Pure.pure j :=
    if_pos (hrequired .executionRequestId (by decide))
  have hclaim : claimRun rt profile j = Pure.pure j := if_pos (hrequired .runId (by decide))
  have hstart : ∀ runId generation, startRun rt profile j runId generation = Pure.pure j :=
    fun _ _ => if_neg (by rw [hphase]; decide)
  have hexecute : ∀ runId generation, executeRun rt profile j runId generation = Pure.pure j :=
    fun _ _ => if_pos (by rw [hphase]; decide)
  unfold applyFromAdmission
  rw [hadmission]
  refine .bind (.pure ?_)
  rw [hclaim]
  refine .bind (.pure (.bind (.lift fun runId _ => .bind (.lift fun generation _ => ?_))))
  rw [hstart]
  refine .bind (.pure ?_)
  rw [hexecute]
  exact .bind (.pure (advanceCurrent_stops hj hphase hagrees hmoves))

/-- **A later invocation on a converged journal stops.** -/
theorem applyLoaded_stops (hj : j.Valid ref) (hphase : j.phase = .converged)
    (hmoves : j.coordinates.desired? ≠ j.coordinates.base?) :
    Ends (Stops j) (applyLoaded rt profile args j) (Stops j) h := by
  have hpending : j.pendingRequest = none := by
    cases hp : j.pendingRequest with
    | none => rfl
    | some p =>
      have hin := (hj.pending p hp).phase
      rw [hphase] at hin
      cases hroute : p.routeId <;> rw [hroute] at hin <;> simp [pendingPhases] at hin
  -- A converged journal has its plan coordinates and nothing pending.
  have hretain : ∀ plan, retainPlan rt j plan = Pure.pure j := fun plan =>
    if_pos (hj.plan (by rw [hphase]; rfl) .sessionId (by decide))
  have hrecover : recoverPending rt profile j = Pure.pure j := if_neg (by simp [hpending])
  have hover : stopIfOver profile j = Pure.pure () := by simp [stopIfOver, hphase]
  unfold applyLoaded
  rw [if_neg (by simp [hpending])]
  refine .bind (.lift fun planId _ => ?_)
  split
  · exact .raise
  refine .bind ?_
  have hblock : Reads (do
      let plan ← planDetail profile j.operationRef planId
      lift (validatePlan j plan)
      return plan) :=
    (reads_planDetail profile _ _).bind fun _ => (Reads.lift _).bind fun _ => .pure _
  refine .exceptUnresolved hblock (fun tr plan hr => ?_) fun _ => .stop fun _ => .attention
  obtain ⟨plan', tr₁, tr₂, rfl, h₁, h₂⟩ := hr.bind_ok
  obtain ⟨u, tr₃, tr₄, rfl, h₃, h₄⟩ := h₂.bind_ok
  obtain ⟨rfl, rfl⟩ := runs_pure_ok.mp h₄
  obtain ⟨rfl, hvalid⟩ := runs_lift_ok.mp h₃
  have hagrees : PlanAgrees j plan' := validatePlan_ok.mp hvalid
  rw [hretain]
  refine .bind (.pure (.bind (approvalGate_ends.mono fun h flag hflag => ?_)))
  refine .bind (progressGate_ends hpending fun tr => ?_)
  unfold applyCommands
  rw [hrecover]
  refine .bind (.pure ?_)
  rw [hover]
  refine .bind (.pure ?_)
  cases flag with
  | false => exact .bind (.pure (applyFromAdmission_stops hj hphase hagrees hmoves))
  | true =>
    -- an approval still to be decided is not in place any more
    have hgone : ∀ tr', ¬ InPlace j (h ++ tr ++ tr') := fun tr' hplace =>
      hflag rfl ⟨fun e he => hplace.approved e (by simp [he]),
        fun e he => hplace.current e (by simp [he])⟩
    refine .bind (.of_all (fun tr' result hplace => absurd hplace (hgone tr')) fun tr' journal => ?_)
    refine .of_all (fun tr'' result hplace => ?_) fun tr'' result hplace => ?_ <;>
      rw [List.append_assoc _ tr'] at hplace <;> exact absurd hplace (hgone _)

/-- A run of `apply` on a converged journal. -/
theorem apply_stops {reference : Text} {w w' : World} {tr : Trace} {result : ClientResult}
    (hj : w.journal = some j) (hvalid : j.Valid ref) (hphase : j.phase = .converged)
    (hmoves : j.coordinates.desired? ≠ j.coordinates.base?)
    (href : canonicalOperationRef reference = .ok ref)
    (hrun : Exec (answers docs ref) w (apply rt profile reference args) tr w' (some (.ok result)))
    (hplace : InPlace j tr) : result.status = .attentionRequired := by
  unfold apply at hrun
  rw [href] at hrun
  by_cases hempty : args.executePlan = .utf8 ""
  · simp only [hempty, if_true] at hrun
    cases hrun
  simp only [hempty, if_false] at hrun
  cases hrun with
  | @performed _ w₁ _ _ _ lockAnswer _ _ hlock hrest =>
    obtain rfl : w₁ = w := hlock
    cases lockAnswer with
    | refused message => cases hrest
    | acquired =>
      cases hrest with
      | @performed _ w₂ _ _ _ readAnswer _ _ hread hrest =>
        cases readAnswer with
        | failed message => cases hrest
        | found found =>
          obtain rfl : found = j := by
            have hfound := hread.2 rfl found rfl
            exact Option.some.inj (hfound.symm.trans hj)
          -- behind the read stands the loaded journal, which passes the checks of the load
          have hends : Ends (Stops found) (do
              let journal ← (do
                let journal ← (do
                  lift (validateJournal found ref)
                  return found)
                if journal.target ≠ profile.target rt then
                  raise (.journal "operation target does not match the selected profile")
                else return journal)
              applyLoaded rt profile args journal) (Stops found)
              [⟨.lock ref, .acquired⟩, ⟨.read ref, .found found⟩] := by
            refine .bind (.bind (.bind (.lift fun _ _ => .pure ?_)))
            split
            · exact .raise
            · exact .pure (applyLoaded_stops hvalid hphase hmoves)
          rcases hrest.runs.handle_cases with ⟨result', h₁, h₂⟩ | ⟨e, tr₁, tr₂, rfl, h₁, h₂⟩
          · cases h₂
            exact hends _ _ h₁ hplace
          · cases e with
            | error e => cases h₂
            | returned result' =>
              cases h₂
              exact hends _ _ h₁ (by simpa using hplace)

/-- **Applying again after convergence**: while the approval stays approved and the current pointer
stays the desired one, which is not the base, no later `apply` reports convergence again. -/
theorem apply_reapplied {rt : Runtime} {docs : Set (List UInt8)} {ref : OperationRef}
    {profile₀ profile : ClientProfile} {reference₀ reference : Text} {args₀ args : ApplyArguments}
    {c d : Directory} {w₀ w' : World} {tr₀ tr : Trace} {result₀ result : ClientResult} {j : Journal}
    (hw₀ : Reachable rt docs ref w₀) (href₀ : canonicalOperationRef reference₀ = .ok ref)
    (hrun₀ : Exec (answers docs ref) w₀ (apply rt profile₀ reference₀ args₀) tr₀ (c.state ref)
      (some (.ok result₀))) (hconverged : result₀.status = .converged)
    (hc : Directory.Reachable rt docs c) (hd : Directory.Reaches rt docs c d)
    (href : canonicalOperationRef reference = .ok ref) (hj : (d.state ref).journal = some j)
    (hmoves : j.coordinates.desired? ≠ j.coordinates.base?)
    (hrun : Exec (answers docs ref) (d.state ref) (apply rt profile reference args) tr w'
      (some (.ok result))) (hplace : InPlace j tr) :
    result.status = .attentionRequired ∧ result.status ≠ .converged := by
  obtain ⟨-, -, hends⟩ := apply_run hw₀.inv href₀ hrun₀
  obtain ⟨j₀, -, hend⟩ := hends result₀ rfl
  obtain ⟨j₁, -, hj₁, hphase₁, -, -⟩ := hend.of_converged hconverged
  obtain ⟨k, hk, hforward⟩ := (Directory.Reaches.leads hc hd ref).1 j₁ hj₁
  obtain rfl : j = k := Option.some.inj (hj.symm.trans hk)
  have hinv₁ : WorldInv rt docs ref (c.state ref) := Reachable.inv ⟨c, hc, rfl⟩
  have hinv : WorldInv rt docs ref (d.state ref) := Reachable.inv ⟨d, hc.trans hd, rfl⟩
  have hphase := hforward.converged (hinv₁.journal j₁ hj₁) (hinv.journal j hj) hphase₁
  have hattention := apply_stops hj (hinv.journal j hj).valid hphase hmoves href hrun hplace
  refine ⟨hattention, ?_⟩
  rw [hattention]
  decide

end Later

/-! ### A second application -/

namespace Scenario

variable {rt : Runtime} {profile : ClientProfile} {docs : Set (List UInt8)} {s : Scenario}

/-- The converged journal knows its run. -/
theorem knows_converged : s.Knows (s.convergedJournal rt profile) where
  reference := rfl
  idle := rfl
  plan := (s.coordinates_ids allCommands).1
  approval := (s.coordinates_ids allCommands).2
  run := rfl
  planned := fun _ hn => s.coordinates_plan allCommands hn

/-- The result of the second application. -/
def stoppedResult (rt : Runtime) (profile : ClientProfile) (s : Scenario) : ClientResult :=
  attentionResult profile (s.convergedJournal rt profile) .succeeded .unverified .currentGraph

/-- The journal after the second application. -/
def stoppedJournal (rt : Runtime) (profile : ClientProfile) (s : Scenario) : Journal :=
  { s.convergedJournal rt profile with lastResult := some (s.stoppedResult rt profile) }

/-- The events of the second application: the gates, the workspace, and the attention result. -/
def reapplyEvents (rt : Runtime) (profile : ClientProfile) (s : Scenario) : Trace :=
  s.againEvents profile (s.convergedJournal rt profile) "succeeded" s.goal ++
    [answered profile s.ref .workspace (workspacePath profile)
        [("workspace", .obj (s.workspaceAt s.goal))],
      wrote s.ref (s.stoppedJournal rt profile)]

/-- A converged operation that calls for attention keeps a valid journal. -/
theorem attended_valid (hs : s.Fair rt docs) (execution : Execution) (advancement : Advancement)
    (next : ReadRoute) : Journal.Valid { s.convergedJournal rt profile with
      lastResult := some (attentionResult profile (s.convergedJournal rt profile) execution advancement
        next) } s.ref := by
  have hconverged : (s.convergedJournal rt profile).Valid s.ref := convergedJournal_valid hs
  refine { hconverged with result := ?_ }
  rintro result ⟨⟩
  simp [validateResult, attentionResult, convergedJournal, projectJournal, journal,
    ClientProfile.target]

theorem attended_modest (hs : s.Fair rt docs) (execution : Execution) (advancement : Advancement)
    (next : ReadRoute) : Journal.Modest rt.floatText { s.convergedJournal rt profile with
      lastResult := some (attentionResult profile (s.convergedJournal rt profile) execution advancement
        next) } := by
  have hconverged : (s.convergedJournal rt profile).Modest rt.floatText := convergedJournal_modest hs
  refine { hconverged with result := ?_ }
  rintro result ⟨⟩
  rfl

/-- The converged operation reads the workspace before an advancement that is over. -/
theorem quits_advance (hs : s.Fair rt docs) (hmoves : s.goal ≠ s.base) :
    Quits docs s.ref (s.worldConverged rt profile)
      (advanceCurrent rt profile (s.convergedJournal rt profile) s.plan s.planId s.runId s.generation)
      [answered profile s.ref .workspace (workspacePath profile)
          [("workspace", .obj (s.workspaceAt s.goal))], wrote s.ref (s.stoppedJournal rt profile)]
      ((s.worldConverged rt profile).store (s.stoppedJournal rt profile))
      (s.stoppedResult rt profile) := by
  have hphase : (s.convergedJournal rt profile).phase = .converged := rfl
  have hget : Fields.get [("workspace", .obj (s.workspaceAt s.goal))] "workspace" =
      .obj (s.workspaceAt s.goal) := by simp
  have hcurrent : Returns docs s.ref (s.worldConverged rt profile)
      (currentBeforeAdvance rt profile (s.convergedJournal rt profile))
      [answered profile s.ref .workspace (workspacePath profile)
        [("workspace", .obj (s.workspaceAt s.goal))]] (s.worldConverged rt profile) (some s.goal) := by
    refine .exceptUnresolved (Returns.bind (t := [_]) (u := []) (returns_readWorkspace hget) ?_)
    exact .lift (s.currentPointer_workspaceAt s.goal)
  have hgraph : text s.plan "base_graph_id" = .ok s.base.authoredGraphId := by simp [text, plan]
  have hprojection : text s.plan "base_realized_projection_id" = .ok s.base.realizedProjectionId := by
    simp [text, plan]
  unfold advanceCurrent
  rw [if_neg (by rw [hphase]; decide)]
  refine Returns.quits (t := [_]) (u := [_]) hcurrent ?_
  refine Returns.quits (t := []) (.lift hgraph) (Returns.quits (t := []) (.lift hprojection) ?_)
  rw [if_pos hmoves]
  exact quits_stop rfl rfl (attended_valid hs _ _ _) (attended_modest hs _ _ _)

/-- A second application ends as its advancement does: its gates let it through, nothing is pending,
the phase is not over, and every command but the advancement is done. -/
theorem exec_applied (hs : s.Fair rt docs) {tr : Trace} {w' : World} {result : ClientResult}
    (hadvance : Quits docs s.ref (s.worldConverged rt profile)
      (advanceCurrent rt profile (s.convergedJournal rt profile) s.plan s.planId s.runId s.generation)
      tr w' result) :
    Exec (answers docs s.ref) (s.worldConverged rt profile)
      (Client.apply rt profile (.utf8 s.ref.text) s.arguments)
      (s.againEvents profile (s.convergedJournal rt profile) "succeeded" s.goal ++ tr) w'
      (some (.ok result)) := by
  have hcalm : attends (s.convergedJournal rt profile) .succeeded (decide (s.goal = s.goal)) = false := by
    rw [decide_eq_true (rfl : s.goal = s.goal)]
    rfl
  have hphase : (s.convergedJournal rt profile).phase ≠ .attentionRequired := Phase.noConfusion
  have hsucceeded : runExecution (.str "succeeded") = .ok .succeeded := rfl
  have hprogress : Returns docs s.ref (s.worldConverged rt profile)
      (progressGate rt profile (s.convergedJournal rt profile)) _ _ () :=
    returns_progressGate knows_converged hsucceeded s.goal ⟨hcalm, hphase⟩ fun _ => rfl
  have hrunId : textCoordinate ((s.convergedJournal rt profile).coordinates.get .runId) =
      .ok s.runId := textCoordinate_json _
  have hgeneration : claimGeneration (s.convergedJournal rt profile) = .ok s.generation :=
    if_pos hs.claimed
  refine exec_again knows_converged.follows nofun rfl (convergedJournal_valid hs) rfl hprogress ?_
  have hsame : ∀ {α : Type} {f : Journal → Block α} {w' : World} {tr : Trace} {result : ClientResult},
      Quits docs s.ref (s.worldConverged rt profile) (f (s.convergedJournal rt profile)) tr w' result →
      Quits docs s.ref (s.worldConverged rt profile)
        (Pure.pure (s.convergedJournal rt profile) >>= f) tr w' result := fun h => h
  refine hsame (Returns.quits (t := []) (.pure ()) (hsame (hsame (hsame ?_))))
  refine Returns.quits (t := []) (.lift hrunId) (Returns.quits (t := []) (.lift hgeneration) ?_)
  exact hsame (hsame hadvance.bind)

/-- **The second application stops**, although everything is in place. -/
theorem exec_reapply (hs : s.Fair rt docs) (hmoves : s.goal ≠ s.base) :
    Exec (answers docs s.ref) (s.worldConverged rt profile)
      (Client.apply rt profile (.utf8 s.ref.text) s.arguments) (s.reapplyEvents rt profile)
      ((s.worldConverged rt profile).store (s.stoppedJournal rt profile))
      (some (.ok (s.stoppedResult rt profile))) :=
  exec_applied hs (quits_advance hs hmoves)

/-- Everything the second application reads is in place. -/
theorem inPlace_reapply :
    InPlace (s.convergedJournal rt profile) (s.reapplyEvents rt profile) := by
  have hdesired : (s.convergedJournal rt profile).coordinates.desired? = some s.goal := rfl
  constructor
  · rintro e he approvalId approval ⟨path, response, ⟨call, rfl, hroute, -⟩, -, hshown⟩
    simp only [reapplyEvents, againEvents, statusEvents, List.cons_append, List.nil_append,
      List.mem_cons, List.not_mem_nil, or_false] at he
    rcases he with he | he | he | he | he | he | he | he | he | he | he | he <;> cases he <;>
      cases hroute
    all_goals
      simp only [Fields.get_cons, if_true, Json.obj.injEq] at hshown
      rw [← hshown]
      rfl
  · rintro e he pointer ⟨path, response, workspace, ⟨call, rfl, hroute, -⟩, hshown, hcurrent⟩
    simp only [reapplyEvents, againEvents, statusEvents, List.cons_append, List.nil_append,
      List.mem_cons, List.not_mem_nil, or_false] at he
    rcases he with he | he | he | he | he | he | he | he | he | he | he | he <;> cases he <;>
      cases hroute
    all_goals
      simp only [Fields.get_cons, if_true, Json.obj.injEq] at hshown
      rw [← hshown, currentPointer_workspaceAt, Except.ok.injEq] at hcurrent
      exact hcurrent.symm

end Scenario

namespace Instance

theorem goal_ne_base : scenario.goal ≠ scenario.base := by
  decide

theorem status_converged : (scenario.convergedResult runtime profile).status = .converged :=
  rfl

theorem moves : (scenario.convergedJournal runtime profile).coordinates.desired? ≠
    (scenario.convergedJournal runtime profile).coordinates.base? := by
  intro h
  exact goal_ne_base (Option.some.inj h)

theorem exec_converged : Exec (answers docs scenario.ref) (scenario.world runtime profile [] .prepared)
    (apply runtime profile (.utf8 scenario.ref.text) scenario.arguments)
    (scenario.gateEvents runtime profile ++ scenario.deploymentEvents runtime profile)
    ((Directory.only scenario.ref (scenario.worldConverged runtime profile)).state scenario.ref)
    (some (.ok (scenario.convergedResult runtime profile))) := by
  rw [Directory.only_state]
  exact Scenario.exec_apply fair

theorem exec_stopped : Exec (answers docs scenario.ref)
    ((Directory.only scenario.ref (scenario.worldConverged runtime profile)).state scenario.ref)
    (apply runtime profile (.utf8 scenario.ref.text) scenario.arguments)
    (scenario.reapplyEvents runtime profile)
    ((scenario.worldConverged runtime profile).store (scenario.stoppedJournal runtime profile))
    (some (.ok (scenario.stoppedResult runtime profile))) := by
  rw [Directory.only_state]
  exact Scenario.exec_reapply fair goal_ne_base

theorem apply_reapplied_scenario : (scenario.stoppedResult runtime profile).status = .attentionRequired ∧
    (scenario.stoppedResult runtime profile).status ≠ .converged :=
  apply_reapplied (Scenario.reachable_prepared fair).only (canonicalOperationRef_text _) exec_converged
    status_converged (Scenario.reachable_converged fair) .refl (canonicalOperationRef_text _)
    (congrArg World.journal Directory.only_state) moves exec_stopped Scenario.inPlace_reapply

/-- The second application of a converged operation, with everything in place, does not converge. -/
theorem reapply_stops : ¬ ∀ (rt : Runtime) (docs : Set (List UInt8)) (ref : OperationRef)
    (profile : ClientProfile) (reference : Text) (args : ApplyArguments) (w₀ w w' : World)
    (tr₀ tr : Trace) (result₀ result : ClientResult) (j : Journal), Reachable rt docs ref w₀ →
    canonicalOperationRef reference = .ok ref →
    Exec (answers docs ref) w₀ (apply rt profile reference args) tr₀ w (some (.ok result₀)) →
    result₀.status = .converged → w.journal = some j →
    j.coordinates.desired? ≠ j.coordinates.base? →
    Exec (answers docs ref) w (apply rt profile reference args) tr w' (some (.ok result)) →
    InPlace j tr → result.status = .converged := by
  intro h
  have hstatus := h runtime docs scenario.ref profile _ _ _ _ _ _ _ _ _ _
    (Scenario.reachable_prepared fair).only (canonicalOperationRef_text _)
    (Scenario.exec_apply fair) status_converged rfl moves (Scenario.exec_reapply fair goal_ne_base)
    Scenario.inPlace_reapply
  cases hstatus

end Instance

end Client

end ControlPlaneKit
