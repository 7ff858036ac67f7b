import ControlPlaneKit.Client.Endings
import ControlPlaneKit.Client.FailedStep
import ControlPlaneKit.Client.Redelivery

/-!
# An apply whose response is lost

The response of a command is lost, and the next `apply` replays the request. It reports what the
`apply` that lost the response would have reported, and the journals agree, unless the response
ends an execution that neither completed nor progressed (`replay_agrees`): a failed step is reported
as failed where its response arrives, and as not started where it is replayed.
-/

namespace ControlPlaneKit

namespace Client

open Interaction

/-! ### Invocations -/

/-- The watch on the block of an invocation. -/
def Watch.invoked (F : Watch ClientResult) : Outlook Op Op.Answer World ClientError ClientResult :=
  fun h w op next => ∃ left : op.Answer → Block ClientResult,
    (next = fun a => conclude (left a)) ∧ F.outlook h w op left

section Runs

variable {rt : Runtime} {docs : Set (List UInt8)} {ref : OperationRef} {profile : ClientProfile}
  {args : ApplyArguments} {reference : Text} {j₀ j : Journal} {w w' : World} {pre rest : Trace}
  {call : Call} {out : Option (Except ClientError ClientResult)}

theorem foresees_apply (hw : WorldInv rt docs ref w) (href : canonicalOperationRef reference = .ok ref)
    (hj : w.journal = some j₀) :
    Foresees (answers docs ref) (Redelivers rt ref profile j₀).invoked
      (apply rt profile reference args) (fun _ _ _ => True) [] w := by
  have hblock : Foretells docs ref (Redelivers rt ref profile j₀) (do
      let operationRef ← lift (canonicalOperationRef reference)
      if args.executePlan = .utf8 "" then
        raise (.input "exact plan execution confirmation is required")
      else
        mutationLock operationRef
        applyLocked rt profile operationRef args) (fun _ _ _ => True) [] w := by
    rw [href]
    refine .bind (.pure ?_)
    split
    · exact .raise
    refine .bind (.perform trivial fun a v hanswer => ?_)
    obtain rfl : v = w := hanswer
    cases a with
    | refused message => exact .raise
    | acquired => exact .pure (foretells_applyLocked hj (hw.journal j₀ hj) rfl)
  refine foresees_handle ((Foresees.outlook hblock fun h w op next hwatched =>
    ⟨next, rfl, hwatched⟩).post fun h w r _ => ?_)
  rcases r with (e | result) | result <;> trivial

/-- What is known where an `apply` dispatches a command. -/
theorem midway_of_exec (hw : WorldInv rt docs ref w)
    (href : canonicalOperationRef reference = .ok ref) (hj : w.journal = some j₀) {a : CallAnswer}
    (hrun : Exec (answers docs ref) w (apply rt profile reference args)
      (pre ++ ⟨.call call, a⟩ :: rest) w' out) (hcommand : call.route.isRead = false) :
    ∃ v left j p plan planId, Midway rt ref profile j₀ pre v call left j p plan planId ∧
      Residual (answers docs ref) w (apply rt profile reference args) pre v
        (.perform (.call call) fun a => conclude (left a)) ∧
      Exec (answers docs ref) (v.dispatch call) (conclude (left a)) rest w' out := by
  obtain ⟨v, v', next, hresidual, hanswer, hrest⟩ := hrun.split_at
  obtain ⟨left, rfl, hwatched⟩ := (foresees_apply hw href hj).residual hresidual
  obtain ⟨j, p, plan, planId, hmidway⟩ := hwatched hcommand
  have hsent : v' = v.dispatch call := by
    have href : call.operationRef = ref := by rw [hmidway.request]; exact hmidway.identity
    simpa [answers, href, hcommand] using hanswer
  subst hsent
  exact ⟨v, left, j, p, plan, planId, by simpa using hmidway, hresidual, hrest⟩

/-- The world after an answered operation. -/
def World.after (ref : OperationRef) (w : World) : (op : Op) → op.Answer → World
  | .create r journal, a => if r = ref ∧ a.published then w.store journal else w
  | .write r journal, a => if r = ref ∧ a.published then w.store journal else w
  | .call request, _ =>
    if request.operationRef = ref ∧ !request.route.isRead then w.dispatch request else w
  | _, _ => w

/-- The world has no choice but the answer. -/
theorem answers_after {op : Op} {a : op.Answer} (h : answers docs ref w op a w') :
    w' = w.after ref op a := by
  cases op with
  | identity => exact h.2
  | read r => exact h.1
  | openDesired path => exact h.1
  | lock r => exact h
  | call request => exact h
  | create r journal =>
    simp only [answers] at h
    unfold World.after
    split at h
    · rename_i hstored
      exact h.2.trans (if_pos hstored).symm
    · rename_i hlost
      exact h.trans (if_neg hlost).symm
  | write r journal =>
    simp only [answers] at h
    unfold World.after
    split at h
    · rename_i hstored
      exact h.2.trans (if_pos hstored).symm
    · rename_i hlost
      exact h.trans (if_neg hlost).symm

/-- What an operation leaves in the journal depends on the journal it found and on the answer. -/
theorem after_journal {v : World} (hsame : w.journal = v.journal) (op : Op) (a : op.Answer) :
    (w.after ref op a).journal = (v.after ref op a).journal := by
  unfold World.after
  cases op with
  | create r journal =>
    dsimp only
    split
    · rfl
    · exact hsame
  | write r journal =>
    dsimp only
    split
    · rfl
    · exact hsame
  | call request =>
    dsimp only
    split <;> exact hsame
  | _ => exact hsame

/-- What a run leaves in the journal depends on the journal it found and on its events. -/
theorem exec_journal {p : Invocation} {tr : Trace} {v v' : World}
    {out' : Option (Except ClientError ClientResult)} (h : Exec (answers docs ref) w p tr w' out)
    (h' : Exec (answers docs ref) v p tr v' out') (hsame : w.journal = v.journal) :
    w'.journal = v'.journal := by
  induction h generalizing v with
  | performed hstep _ ih =>
    cases h' with
    | performed hstep' hrest' =>
      refine ih hrest' ?_
      rw [answers_after hstep, answers_after hstep']
      exact after_journal hsame _ _
  | _ => cases h' <;> exact hsame

/-! ### What is reported -/

section Reported

variable {E : Trace → ClientResult → Prop} {h : Trace} {p : Pending} {response : Fields}
  {f : Fields × Journal → Block ClientResult} {R : Trace → ClientResult → Prop}

/-- A bound response is recorded, and what follows decides what is reported. -/
theorem Ends.settle
    (hbound : responseIsBound p.routeId response p.pathParameters p.body j.coordinates
      profile.workspaceId = .ok true) (hroom : j.requestHistory.length < maximumRequestRecords)
    (hf : ∀ h projection, Ends E (f (response, recorded j p response projection)) R h) :
    Ends E (Client.settle rt profile j p p.body response >>= f) R h := by
  unfold Client.settle
  rw [hbound]
  refine .bind (.bind (.pure ?_))
  rw [if_pos rfl]
  refine .bind (.lift fun projection _ => ?_)
  rw [if_neg (Nat.not_le.mpr hroom)]
  exact .bind (.writeJournal (.pure (hf _ projection)))

/-- Behind a replay, an execution that ended is reported as not started. -/
theorem resumed_reports {plan : Fields} {planId : Coordinate} {projection : Projection}
    (hphase : phaseAfter p.routeId response = .attentionRequired) :
    Ends (fun _ result => result.execution = .notStarted)
      (resumed rt profile plan planId (recorded j p response projection)) R h := by
  have hchanges : (recorded j p response projection).phase ≠ .noChanges := by
    rw [recorded_phase, hphase]
    exact Phase.noConfusion
  unfold resumed stopIfOver
  rw [if_neg hchanges, if_pos (recorded_phase.trans hphase)]
  refine .bind (.returnNow ?_)
  change executionOf (phaseAfter p.routeId response) = .notStarted
  rw [hphase]
  rfl

end Reported

/-! ### The replay -/

/-- The plan reads of both traces show the same plan. -/
def SamePlan (pre pre' : Trace) : Prop :=
  ∀ planId plan plan', (∃ e ∈ pre, ShowsPlan planId plan e) → (∃ e ∈ pre', ShowsPlan planId plan' e) →
    plan = plan'

/-- What an invocation reports is what its block ends with. -/
theorem exec_reports {E : Trace → ClientResult → Prop} {block : Block ClientResult}
    {result : ClientResult} {tr : Trace}
    (hrun : Exec (answers docs ref) w (conclude block) tr w' (some (.ok result)))
    (hends : Ends E block E []) : E tr result :=
  hends.conclude hrun.runs

/-- An `apply` that loses a response leaves the world as its command left it. -/
theorem Midway.lost_world {u v : World} {left : CallAnswer → Block ClientResult} {p : Pending}
    {plan : Fields} {planId : Coordinate} {lost : Trace} {message : String}
    (hmid : Midway rt ref profile j₀ pre u call left j p plan planId)
    (hresidual : Residual (answers docs ref) w (apply rt profile reference args) pre u
      (.perform (.call call) fun a => conclude (left a)))
    (hread : call.route.isRead = false)
    (hlost : Exec (answers docs ref) w (apply rt profile reference args)
      (pre ++ ⟨.call call, .unresolved message⟩ :: lost) v out) : v = u.dispatch call := by
  obtain ⟨u', u₂, next, hresidual', hanswer, hrest⟩ := hlost.split_at
  have hnext : ∀ s op a s' s'', answers docs ref s op a s' → answers docs ref s op a s'' → s' = s'' :=
    fun s op a s' s'' h h' => (answers_after h).trans (answers_after h').symm
  obtain ⟨rfl, hsame⟩ := Residual.unique hnext hresidual hresidual'
  obtain rfl : (fun a => conclude (left a)) = next := by
    injection hsame
  have hidentity : call.operationRef = ref := by
    rw [hmid.request]
    exact hmid.identity
  obtain rfl : u₂ = u.dispatch call := by
    simpa [answers, hidentity, hread] using hanswer
  change Exec _ _ (conclude (left (.unresolved message))) _ _ _ at hrest
  rw [hmid.lost message] at hrest
  cases hrest <;> rfl

/-- Two invocations that dispatch the same pending request, for the same plan. -/
theorem Midway.same {h h' : Trace} {v v' : World} {call' : Call}
    {left left' : CallAnswer → Block ClientResult}
    {p p' : Pending} {plan plan' : Fields} {planId planId' : Coordinate} {j' : Journal}
    (hmid : Midway rt ref profile j₀ h v call left j p plan planId)
    (hreplayed : Midway rt ref profile j h' v' call' left' j' p' plan' planId')
    (hfirst : commands h' = 0) (hplan : SamePlan h h') :
    call' = call ∧ v'.journal = some j ∧ ∀ response,
      left' (.reply response) = settle rt profile j p p.body response >>= fun answered =>
        resumed rt profile plan planId answered.2 := by
  have hsome : j.pendingRequest.isSome := by
    rw [hmid.pending]
    rfl
  obtain rfl : j' = j := hreplayed.first hfirst hsome hmid.session
  obtain rfl : p' = p := Option.some.inj (hreplayed.pending.symm.trans hmid.pending)
  obtain rfl : planId' = planId := Option.some.inj (hreplayed.named.symm.trans hmid.named)
  obtain rfl : plan = plan' := hplan _ _ _ hmid.shown hreplayed.shown
  exact ⟨hreplayed.request.trans hmid.request.symm, hreplayed.durable, fun response =>
    hreplayed.resumes response (.inl ⟨hfirst, hsome⟩)⟩

/-- The members of a report that a replay has to get right. -/
def ClientResult.report (r : ClientResult) :
    Status × Execution × Advancement × Option Coordinate × Option Coordinate × Option Coordinate :=
  (r.status, r.execution, r.advancement, r.planId, r.approvalRequestId, r.runId)

/-- What a journal says of its operation, the keys apart. -/
def Journal.account (j : Journal) : Phase × Coordinates × List (CommandRoute × Projection) :=
  (j.phase, j.coordinates, j.requestHistory.map fun r => (r.routeId, r.response))

/-- The reports agree, and so do the journals. -/
structure Agree (result result' : ClientResult) (w w' : World) : Prop where
  report : result'.report = result.report
  account : w'.journal.map Journal.account = w.journal.map Journal.account

/-- **A lost response and its replay.** An `apply` dispatches a command; its response arrives, or it
is lost and the next `apply` replays the request and receives it. With the same plan, and the same
answers from there on, their reports and their journals agree exactly if the response does not end
the operation, or the first `apply` was replaying already. -/
theorem replay_agrees {v v' : World} {pre' rest' lost : Trace} {call' : Call} {response : Fields}
    {message : String} {result result' : ClientResult} {route : CommandRoute}
    (hw : Reachable rt docs ref w) (href : canonicalOperationRef reference = .ok ref)
    (hj₀ : w.journal = some j₀)
    (hdirect : Exec (answers docs ref) w (apply rt profile reference args)
      (pre ++ ⟨.call call, .reply response⟩ :: rest) w' (some (.ok result)))
    (hlost : Exec (answers docs ref) w (apply rt profile reference args)
      (pre ++ ⟨.call call, .unresolved message⟩ :: lost) v out)
    (hreplay : Exec (answers docs ref) v (apply rt profile reference args)
      (pre' ++ ⟨.call call', .reply response⟩ :: rest') v' (some (.ok result')))
    (hroute : call.route = .command route) (hcommand : call'.route.isRead = false)
    (hfirst : commands pre' = 0) (hplan : SamePlan pre pre') (halike : Alike rest rest')
    (hj : v.journal = some j)
    (hbound : responseIsBound route response call.pathParameters call.payload j.coordinates
      profile.workspaceId = .ok true) :
    call' = call ∧ (Agree result result' w' v' ↔
      (commands pre = 0 ∧ j₀.pendingRequest.isSome) ∨
        phaseAfter route response ≠ .attentionRequired) := by
  have hread : call.route.isRead = false := by rw [hroute]; rfl
  have hv : WorldInv rt docs ref v := (apply_run hw.inv href hlost).1
  -- Where the response is lost, the request is pending in the durable journal.
  obtain ⟨u, left, k, p, plan, planId, hmid, hresidual, hrun⟩ :=
    midway_of_exec hw.inv href hj₀ hdirect hread
  obtain rfl := hmid.lost_world hresidual hread hlost
  obtain rfl : k = j := Option.some.inj (hmid.durable.symm.trans hj)
  obtain ⟨u', left', k', p', plan', planId', hreplayed, -, hrun'⟩ :=
    midway_of_exec hv href hj hreplay hcommand
  obtain ⟨rfl, hdurable, hleft'⟩ := hmid.same hreplayed hfirst hplan
  obtain rfl : p.routeId = route := by
    rw [hmid.request] at hroute
    exact Route.command.inj hroute
  have hroom := (hv.journal k hj).room (by rw [hmid.pending]; rfl)
  have hbound' : responseIsBound p.routeId response p.pathParameters p.body k.coordinates
      profile.workspaceId = .ok true := by
    rw [hmid.request] at hbound
    exact hbound
  refine ⟨rfl, fun hagree => ?_, fun hcarried => ?_⟩
  · by_contra hended
    obtain ⟨hnew, hphase⟩ := not_or.mp hended
    have hphase := not_not.mp hphase
    rw [hleft' response] at hrun'
    rw [hmid.ends response hnew hphase] at hrun
    have hdenied : result'.execution = .notStarted :=
      exec_reports (E := fun _ result => result.execution = .notStarted) hrun'
        (.settle hbound' hroom fun h projection => resumed_reports hphase)
    have htold : result.execution ≠ .notStarted :=
      exec_reports (E := fun _ result => result.execution ≠ .notStarted) hrun
        (.settle hbound' hroom fun h projection =>
          .stop fun tr => endedExecution_ne_notStarted response)
    have hsame : result'.execution = result.execution :=
      congrArg (fun report => report.2.1) hagree.report
    exact htold (hsame ▸ hdenied)
  · -- The two go on with one program, from one journal.
    rw [hleft' response] at hrun'
    rw [hmid.resumes response hcarried] at hrun
    obtain ⟨rfl, hresult⟩ := hrun.runs.unique hrun'.runs halike
    obtain rfl : result = result' := Except.ok.inj hresult
    have hdirect : (u.dispatch call').journal = some k := hmid.durable
    have hreplay : (u'.dispatch call').journal = some k := hdurable
    have hjournal : v'.journal = w'.journal := exec_journal hrun' hrun (hreplay.trans hdirect.symm)
    exact ⟨rfl, by rw [hjournal]⟩

end Runs

/-! ### A failed step -/

namespace Instance

theorem samePlan_stepping : SamePlan (scenario.untilStep runtime profile)
    (scenario.againEvents profile (scenario.steppingJournal runtime profile) "failed"
      scenario.base) := by
  rintro planId plan plan' ⟨e, he, hshown⟩ ⟨e', he', hshown'⟩
  exact (Scenario.untilStep_shows he hshown).trans (Scenario.again_shows he' hshown').symm

/-- The replay has one event less: it does not write its report. -/
theorem alike_failed : Alike
    [wrote scenario.ref (scenario.failedJournal runtime profile),
      wrote scenario.ref (scenario.reportedJournal runtime profile)]
    [wrote scenario.ref (scenario.failedJournal runtime profile)] := by
  intro pre e e' post post' h h' _
  cases pre with
  | nil =>
    simp only [List.nil_append, List.cons.injEq] at h h'
    rw [← h.1, ← h'.1]
  | cons x pre => simp at h'

theorem execution_replayed : (scenario.replayedResult runtime profile).execution = .notStarted := by
  change executionOf (phaseAfter .execute scenario.failure) = .notStarted
  rw [Scenario.phaseAfter_failure]
  rfl

theorem replay_agrees_failed : ¬ Agree (scenario.failedResult runtime profile)
    (scenario.replayedResult runtime profile)
    ((scenario.failedWorld runtime profile (scenario.steppingWorld runtime profile).dispatched).store
      (scenario.reportedJournal runtime profile))
    (scenario.failedWorld runtime profile
      ((scenario.steppingWorld runtime profile).dispatched ++ [scenario.commandOf profile .execute])) := by
  intro hagree
  have hprepared : (scenario.world runtime profile [] .prepared).journal =
      some (scenario.journal runtime profile [] .prepared) := rfl
  obtain ⟨-, hagrees⟩ := replay_agrees (Scenario.reachable_prepared fair).only
    (canonicalOperationRef_text _) hprepared
    (Scenario.exec_failed fair) (Scenario.exec_lost fair "timed out") (Scenario.exec_replayed fair)
    rfl rfl rfl samePlan_stepping alike_failed rfl (Scenario.failure_isBound _)
  rcases hagrees.mp hagree with ⟨-, hpending⟩ | hphase
  · cases hpending
  · exact hphase Scenario.phaseAfter_failure

/-- The reports of a failed step and of its replay do not agree. -/
theorem replay_disagrees : ¬ ∀ (rt : Runtime) (docs : Set (List UInt8)) (ref : OperationRef)
    (profile : ClientProfile) (reference : Text) (args : ApplyArguments) (w w' v v' : World)
    (j : Journal) (pre rest pre' rest' lost : Trace) (call call' : Call) (response : Fields)
    (message : String) (result result' : ClientResult) (route : CommandRoute)
    (out : Option (Except ClientError ClientResult)), Reachable rt docs ref w →
    canonicalOperationRef reference = .ok ref → w.journal.isSome →
    Exec (answers docs ref) w (apply rt profile reference args)
      (pre ++ ⟨.call call, .reply response⟩ :: rest) w' (some (.ok result)) →
    Exec (answers docs ref) w (apply rt profile reference args)
      (pre ++ ⟨.call call, .unresolved message⟩ :: lost) v out →
    Exec (answers docs ref) v (apply rt profile reference args)
      (pre' ++ ⟨.call call', .reply response⟩ :: rest') v' (some (.ok result')) →
    call.route = .command route → call'.route.isRead = false → commands pre' = 0 →
    SamePlan pre pre' → Alike rest rest' → v.journal = some j →
    responseIsBound route response call.pathParameters call.payload j.coordinates
      profile.workspaceId = .ok true → Agree result result' w' v' := by
  intro h
  have hagree := h runtime docs scenario.ref profile _ scenario.arguments _ _ _ _ _ _ _ _ _ _ _ _ _
    "timed out" _ _ _ _ (Scenario.reachable_prepared fair).only (canonicalOperationRef_text _) rfl
    (Scenario.exec_failed fair) (Scenario.exec_lost fair "timed out") (Scenario.exec_replayed fair)
    rfl rfl rfl samePlan_stepping alike_failed rfl (Scenario.failure_isBound _)
  have hsame : (scenario.replayedResult runtime profile).execution =
      (scenario.failedResult runtime profile).execution :=
    congrArg (fun report => report.2.1) hagree.report
  rw [execution_replayed] at hsame
  cases hsame

end Instance

end Client

end ControlPlaneKit
