import ControlPlaneKit.Client.Display
import ControlPlaneKit.Client.Endings
import ControlPlaneKit.Client.Resume

/-!
# The verdict of a preparation

A prepare response carries a verdict: nothing to change, blocked by review, or approval required.
The record of the response keeps the ids only and moves the journal to the phase prepared; the
verdict itself becomes durable with the last write of `_finish_prepare`. From that write on every
result of the operation keeps it, in whatever order invocations come and go
(`Directory.Reachable.verdict_kept`), and so does the result of the invocation that received the
response. In between, a later invocation finds a prepared operation and offers to apply it.
-/

namespace ControlPlaneKit

namespace Client

open Interaction

/-! ### The invocation that receives the verdict -/

/-- The verdicts after which there is nothing to apply. -/
def Refuses (verdict : Coordinate) : Prop :=
  verdict.text = "no-changes" ∨ verdict.text = "review-blocked"

/-- The result keeps the verdict: it offers no `apply`, and is no-changes for that verdict or asks
for attention. -/
structure KeepsVerdict (verdict : Coordinate) (result : ClientResult) : Prop where
  offers : result.offersApply = false
  status : result.status = .attentionRequired ∨
    result.status = .noChanges ∧ verdict.text = "no-changes"

/-- A prepare request is answered with this status. -/
def Receives (verdict : Coordinate) (tr : Trace) : Prop :=
  ∃ call response, ⟨.call call, .reply response⟩ ∈ tr ∧ call.route = .command .prepare ∧
    text response "status" = .ok verdict

section Received

variable {rt : Runtime} {profile : ClientProfile} {ref : OperationRef} {α : Type} {h : Trace}
  {j : Journal} {verdict : Coordinate} {result : ClientResult}

theorem KeepsVerdict.attention (verdict : Coordinate) (execution : Execution)
    (advancement : Advancement) (next : ReadRoute) :
    KeepsVerdict verdict (attentionResult profile j execution advancement next) :=
  ⟨rfl, .inl rfl⟩

/-- What projects a journal in the phase of a verdict keeps it. -/
theorem Projects.keeps (hverdict : Refuses verdict)
    (h : Projects ref (preparedPhase verdict) result) : KeepsVerdict verdict result := by
  obtain ⟨profile, j, attention, execution, advancement, next, changes, approval, -, hphase, rfl⟩ := h
  rcases hverdict with hv | hv
  · rw [preparedPhase, if_pos hv] at hphase
    cases attention with
    | true => exact ⟨rfl, .inl rfl⟩
    | false =>
      refine ⟨?_, .inr ⟨?_, hv⟩⟩
      · rw [projectJournal, hphase]
        rfl
      · rw [projectJournal, hphase]
        rfl
  · have hne : verdict.text ≠ "no-changes" := by
      rw [hv]
      decide
    rw [preparedPhase, if_neg hne, if_pos hv] at hphase
    have hstatus : statusOf attention j.phase = .attentionRequired := by
      rw [hphase]
      cases attention <;> rfl
    refine ⟨?_, .inl hstatus⟩
    rw [projectJournal, hstatus]
    rfl

/-- What the end of a preparation returns: a result of its operation, which keeps the verdict of
the response. -/
structure Finishes (ref : OperationRef) (prepared : Fields) (result : ClientResult) : Prop where
  identity : result.operationRef = ref
  keeps : ∀ verdict, Refuses verdict → text prepared "status" = .ok verdict →
    KeepsVerdict verdict result

theorem finishPrepare_finishes {prepared : Fields} :
    Ends (fun _ => Finishes j.operationRef prepared) (finishPrepare rt profile j prepared)
      (fun _ => Finishes j.operationRef prepared) h := by
  have hstop : ∀ {β : Type} {R : Trace → β → Prop} {h : Trace} (j' : Journal) execution next,
      j'.operationRef = j.operationRef → Ends (fun _ => Finishes j.operationRef prepared)
        (Client.stop rt profile j' execution .notAttempted next) R h :=
    fun j' execution next hsame => .stop fun _ => ⟨hsame, fun v _ _ => .attention v _ _ _⟩
  unfold finishPrepare
  refine .bind (.lift fun status hstatus => ?_)
  split
  swap
  · exact hstop _ _ _ rfl
  refine .bind (.lift fun c _ => .bind (.lift fun planId _ => .bind ?_))
  refine .exceptUnresolved ?_ (fun tr plan _ => ?_) fun _ => hstop _ _ _ rfl
  · exact (reads_planDetail profile _ _).bind fun _ => (Reads.lift _).bind fun _ =>
      (Reads.lift _).bind fun _ => .pure _
  obtain ⟨plan, changes⟩ := plan
  refine .bind (.lift fun c' _ => .bind ?_)
  have hfinish : ∀ h approval, Ends (fun _ => Finishes j.operationRef prepared) (do
      let journal : Journal := { j with coordinates := c', phase := preparedPhase status }
      let result ← Client.lift (planResult journal plan approval status changes)
      writeJournal rt journal.operationRef { journal with lastResult := some result }
      return result) (fun _ => Finishes j.operationRef prepared) h := by
    intro h approval
    refine .bind (.lift fun result hresult => .bind (.writeJournal (.pure ?_)))
    obtain ⟨shownPlan, -, -, rfl⟩ := planResult_ok hresult
    refine ⟨rfl, fun verdict hverdict hread => ?_⟩
    obtain rfl : status = verdict := Except.ok.inj (hstatus.symm.trans hread)
    rcases hverdict with hv | hv
    · exact ⟨by simp [shownResult, hv], .inr ⟨by simp [shownResult, hv], hv⟩⟩
    · exact ⟨by simp [shownResult, hv], .inl (by simp [shownResult, hv])⟩
  unfold preparedApproval
  split
  · exact .pure (hfinish _ _)
  · refine .exceptUnresolved ?_ (fun _ _ _ => hfinish _ _) fun _ => hstop _ _ _ rfl
    exact (reads_approvalDetail profile _ _).bind fun _ => (Reads.lift _).bind fun _ => .pure _

/-- The result belongs to this operation and keeps every verdict that was received. -/
structure Honours (ref : OperationRef) (h : Trace) (result : ClientResult) : Prop where
  identity : result.operationRef = ref
  keeps : ∀ verdict, Refuses verdict → Receives verdict h → KeepsVerdict verdict result

theorem Honours.attention (h : Trace) (execution : Execution) (advancement : Advancement)
    (next : ReadRoute) :
    Honours j.operationRef h (attentionResult profile j execution advancement next) :=
  ⟨rfl, fun verdict _ _ => .attention verdict execution advancement next⟩

/-- A response and the journal that records it are ready to be finished. -/
abbrev Finishable (rt : Runtime) (profile : ClientProfile) (ref : OperationRef) (h : Trace)
    (answered : Fields × Journal) : Prop :=
  Ends (Honours ref) (finishPrepare rt profile answered.2 answered.1) (Honours ref) h

/-- **A dispatched preparation** keeps the verdict of its response, if nothing was dispatched
before. -/
theorem dispatchPending_finishable {p : Pending} {body : Fields} (hp : j.pendingRequest = some p)
    (hsilent : ∀ e ∈ h, e.op.Silent) : Ends (Honours j.operationRef)
      (dispatchPending rt profile j body) (Finishable rt profile j.operationRef) h := by
  refine .dispatchPending hp (fun _ _ _ _ => .attention _ _ _ _) fun response next hnext => ?_
  intro tr r hr
  have hends := finishPrepare_finishes (h := []) tr r hr
  have hquiet := hr.uses (silent_finishPrepare _ _)
  -- The response is the only one there is.
  have hsole : ∀ verdict, Receives verdict (h ++ [⟨.call ⟨j.operationRef, profile.endpoint,
      .command p.routeId, p.pathParameters, body, p.credentialRole⟩, .reply response⟩,
      wrote j.operationRef next] ++ tr) → text response "status" = .ok verdict := by
    rintro verdict ⟨call, response', hmem, hroute, htext⟩
    simp only [List.mem_append, List.mem_cons, List.not_mem_nil, or_false] at hmem
    rcases hmem with (hmem | hmem | hmem) | hmem
    · have := hsilent _ hmem
      simp [Op.Silent, hroute, Route.isRead] at this
    · cases hmem
      exact htext
    · cases hmem
    · have := hquiet _ hmem
      simp [Op.Silent, hroute, Route.isRead] at this
  have hall : ∀ result, Finishes next.operationRef response result →
      Honours j.operationRef (h ++ [⟨.call ⟨j.operationRef, profile.endpoint,
        .command p.routeId, p.pathParameters, body, p.credentialRole⟩, .reply response⟩,
        wrote j.operationRef next] ++ tr) result := fun result hresult =>
    ⟨hresult.identity.trans hnext, fun verdict hverdict hreceives =>
      hresult.keeps verdict hverdict (hsole verdict hreceives)⟩
  rcases r with (_ | result) | result
  · trivial
  · exact hall result hends
  · exact hall result hends

/-- Blocks that end with a value or an exception dispatch nothing. -/
theorem Ends.silent {E : Trace → ClientResult → Prop} {p : Block α} (hp : Reads p)
    (hsilent : ∀ e ∈ h, e.op.Silent) : Ends E p (fun h _ => ∀ e ∈ h, e.op.Silent) h := by
  refine .reads hp fun tr a hr e he => ?_
  rcases List.mem_append.mp he with he | he
  · exact hsilent e he
  · exact hr.uses (silent_reads hp) e he

/-- An event that dispatches nothing comes after the others. -/
theorem silent_concat (hsilent : ∀ e ∈ h, e.op.Silent) {e : Event Op Op.Answer}
    (he : e.op.Silent) : ∀ e' ∈ h ++ [e], e'.op.Silent := by
  intro e' he'
  rcases List.mem_append.mp he' with he' | he'
  · exact hsilent e' he'
  · rwa [List.mem_singleton.mp he']

theorem mutate_finishable {route : CommandRoute} {path : PathParameters} {body : Fields}
    {key : OperationRef} {role : Role} {source : Option DesiredSource}
    (hsilent : ∀ e ∈ h, e.op.Silent) : Ends (Honours j.operationRef)
      (mutate rt profile j route path body key role source) (Finishable rt profile j.operationRef) h := by
  unfold mutate
  split
  · exact .stop fun _ => .attention _ _ _ _
  refine .bind (.lift fun digest _ => ?_)
  split
  · exact .raise
  refine .bind (.writeJournal ?_)
  exact dispatchPending_finishable rfl (silent_concat hsilent trivial)

theorem replayPending_finishable (hsilent : ∀ e ∈ h, e.op.Silent) : Ends (Honours j.operationRef)
    (replayPending rt profile j) (Finishable rt profile j.operationRef) h := by
  unfold replayPending
  split
  · exact .raise
  rename_i p hp
  refine .bind (Ends.mono (R := fun h _ => ∀ e ∈ h, e.op.Silent) ?_ fun h body hh => ?_)
  · unfold replayBody
    split
    · split
      · exact .raise
      · refine .bind (.lift fun path _ => .bind ?_)
        refine (Ends.silent (reads_readDesired rt _) hsilent).mono fun h read hh => ?_
        obtain ⟨verified, desired⟩ := read
        dsimp only
        split
        · exact .stop fun _ => .attention _ _ _ _
        · exact .pure hh
    · exact .pure hsilent
  · refine .bind (.lift fun digest _ => ?_)
    split
    · exact .stop fun _ => .attention _ _ _ _
    · exact dispatchPending_finishable hp hh

/-- What honours the verdicts does so after each event that was there before. -/
theorem Ends.after {E : Trace → ClientResult → Prop} {p : Block ClientResult}
    {e : Event Op Op.Answer} (he : e ∈ h) (hE : ∀ h result, e ∈ h → Honours ref h result → E h result)
    (hp : Ends (Honours ref) p (Honours ref) h) : Ends E p E h := by
  intro tr r hr
  have hends := hp tr r hr
  rcases r with (_ | result) | result
  · trivial
  · exact hE _ _ (List.mem_append_left _ he) hends
  · exact hE _ _ (List.mem_append_left _ he) hends

/-- **A plan** keeps the verdict it receives, for an operation that it has created. -/
theorem plan_honours {desiredPath title : Text} {tr : Trace}
    (hr : (Client.plan rt profile desiredPath title).Runs tr (.ok result)) :
    ∃ ref j, ⟨.create ref j, .stored⟩ ∈ tr ∧ Honours ref tr result := by
  let E : Trace → ClientResult → Prop := fun h result =>
    ∃ ref j, ⟨.create ref j, .stored⟩ ∈ h ∧ Honours ref h result
  refine Ends.conclude (E := E) ?_ hr
  have hstart : ∀ e ∈ ([] : Trace), e.op.Silent := by simp
  refine .bind ((Ends.silent (reads_readDesired rt _) hstart).mono fun h read hh => ?_)
  obtain ⟨source, desired⟩ := read
  refine .bind (.perform fun value => .pure (.bind (.lift fun ref _ => ?_)))
  have hh := silent_concat hh (e := ⟨.identity, value⟩) trivial
  refine .bind ((Ends.silent (reads_readWorkspace profile _) hh).mono fun h workspace hh => ?_)
  refine .bind (.lift fun current _ => ?_)
  split
  · exact .raise
  rename_i current
  refine .bind (.lift fun expected _ => .bind (.lift fun revision _ => .bind (.lift fun title _ => ?_)))
  refine .bind ((Ends.silent reads_newKey hh).mono fun h key hh => ?_)
  refine .bind (.perform fun a => ?_)
  cases a with
  | refused message => exact .raise
  | acquired =>
    have hh := silent_concat hh (e := ⟨.lock ref, .acquired⟩) trivial
    refine .pure (.bind ?_)
    unfold createJournal
    refine .bind (.lift fun raw _ => .perform fun a => ?_)
    cases a with
    | failed message published => exact .raise
    | stored =>
      have hh := silent_concat hh
        (e := ⟨.create ref (newJournal rt profile ref source), .stored⟩) trivial
      refine .pure (Ends.after (List.mem_append_right _ (List.mem_singleton_self _))
        (fun h result he hresult => ⟨ref, _, he, hresult⟩) (.bind (mutate_finishable hh)))

/-- **A resumed preparation** keeps the verdict it receives. -/
theorem resumePrepare_honours {reference : Text} {tr : Trace}
    (hr : (resumePrepare rt profile reference).Runs tr (.ok result)) :
    ∃ ref j, ⟨.read ref, .found j⟩ ∈ tr ∧ j.Valid ref ∧ j.pendingRequest ≠ none ∧
      Honours ref tr result := by
  let E : Trace → ClientResult → Prop := fun h result =>
    ∃ ref j, ⟨.read ref, .found j⟩ ∈ h ∧ j.Valid ref ∧ j.pendingRequest ≠ none ∧
      Honours ref h result
  refine Ends.conclude (E := E) ?_ hr
  refine .bind (.lift fun ref _ => .bind (.perform fun a => ?_))
  cases a with
  | refused message => exact .raise
  | acquired =>
    refine .pure (.bind (.load fun j hvalid _ => ?_))
    split
    swap
    · exact .raise
    rename_i hpending
    have hsilent : ∀ e ∈ ([] ++ [⟨.lock ref, .acquired⟩] ++ [⟨.read ref, .found j⟩] : Trace),
        e.op.Silent := by simp [Op.Silent]
    have hnone : j.pendingRequest ≠ none := by
      intro hnone
      rw [hnone] at hpending
      cases hpending
    obtain rfl : j.operationRef = ref := hvalid.identity
    exact Ends.after (List.mem_append_right _ (List.mem_singleton_self _))
      (fun h result he hresult => ⟨_, j, he, hvalid, hnone, hresult⟩)
      (.bind (replayPending_finishable hsilent))

end Received

/-! ### Invocations that send no preparation -/

/-- The operations that are no prepare request. -/
def Op.Unprepared (op : Op) : Prop :=
  ∀ request, op = .call request → request.route ≠ .command .prepare

/-- Nothing is received where nothing is prepared. -/
theorem not_receives {verdict : Coordinate} {tr : Trace} (h : ∀ e ∈ tr, e.op.Unprepared) :
    ¬ Receives verdict tr := by
  rintro ⟨call, response, he, hroute, -⟩
  exact h _ he call rfl hroute

section Unprepared

variable {rt : Runtime} {profile : ClientProfile} {α : Type} {j : Journal}

theorem Op.Silent.unprepared {op : Op} (h : op.Silent) : op.Unprepared := by
  rintro request rfl hroute
  simp [Op.Silent, hroute, Route.isRead] at h

theorem unprepared_silent {p : Block α} (hp : p.Uses Op.Silent) : p.Uses Op.Unprepared :=
  Uses.mono (fun _ => Op.Silent.unprepared) hp

theorem unprepared_reads {p : Block α} (hp : Reads p) : p.Uses Op.Unprepared :=
  unprepared_silent (silent_reads hp)

theorem unprepared_lift (x : Except ClientError α) : (lift x).Uses Op.Unprepared :=
  unprepared_reads (.lift x)

theorem unprepared_stop (execution : Execution) (advancement : Advancement) (next : ReadRoute) :
    (stop rt profile j execution advancement next : Block α).Uses Op.Unprepared :=
  unprepared_silent (silent_stop j execution advancement next)

theorem unprepared_exceptUnresolved {block handler : Block α} (hblock : Reads block)
    (hhandler : handler.Uses Op.Unprepared) : (exceptUnresolved block handler).Uses Op.Unprepared := by
  refine (unprepared_reads hblock).handle fun e => ?_
  cases e with
  | error e =>
    dsimp only
    split
    · exact hhandler
    · trivial
  | returned result => trivial

theorem unprepared_dispatch {p : Pending} (hp : j.pendingRequest = some p)
    (hroute : p.routeId ≠ .prepare) (body : Fields) :
    (dispatchPending rt profile j body).Uses Op.Unprepared := by
  have hunresolved : (stopUnresolved rt profile j p.routeId : Block (Fields × Journal)).Uses
      Op.Unprepared := unprepared_silent (silent_unresolved j _)
  unfold dispatchPending
  rw [hp]
  refine Program.Uses.bind ?_ fun response => (unprepared_lift _).bind fun bound => ?_
  · refine Program.Uses.handle (P := Op.Unprepared) ⟨?_, fun a => ?_⟩ fun e => ?_
    · rintro request ⟨⟩ hsame
      exact hroute (Route.command.inj hsame)
    · cases a <;> trivial
    · cases e with
      | returned result => trivial
      | error e =>
        cases e with
        | transport message => exact unprepared_silent (silent_unresolved j _)
        | _ => trivial
  · split
    · refine (unprepared_lift _).bind fun projection => ?_
      split
      · exact Program.Uses.bind trivial fun _ => trivial
      · exact (unprepared_silent (silent_write _ _)).bind fun _ => trivial
    · exact hunresolved

theorem unprepared_mutate {route : CommandRoute} (hroute : route ≠ .prepare) (path : PathParameters)
    (body : Fields) (key : OperationRef) (role : Role) (source : Option DesiredSource) :
    (mutate rt profile j route path body key role source).Uses Op.Unprepared := by
  unfold mutate
  split
  · exact unprepared_stop _ _ _
  refine (unprepared_lift _).bind fun digest => ?_
  split
  · trivial
  · exact (unprepared_silent (silent_write _ _)).bind fun _ => unprepared_dispatch rfl hroute body

theorem unprepared_executeSteps (runId : Coordinate) (generation : ℕ) (steps : ℕ) :
    ∀ j, (executeSteps rt profile runId generation steps j).Uses Op.Unprepared := by
  induction steps with
  | zero => exact fun j => unprepared_stop _ _ _
  | succ steps ih =>
    intro j
    refine (unprepared_reads reads_newKey).bind fun key => ?_
    refine Program.Uses.bind (unprepared_mutate CommandRoute.noConfusion _ _ _ _ _) fun executed => ?_
    refine (unprepared_lift _).bind fun status => ?_
    split
    · split
      · trivial
      · exact unprepared_stop _ _ _
    · split
      · exact ih _
      · exact unprepared_stop _ _ _

/-- The part of `apply` from the admission on sends no preparation. -/
theorem unprepared_applyFromAdmission (plan : Fields) (planId : Coordinate) :
    (applyFromAdmission rt profile j plan planId).Uses Op.Unprepared := by
  unfold applyFromAdmission
  refine Program.Uses.bind ?_ fun j => ?_
  · unfold admitDeployment
    split
    · trivial
    · exact (unprepared_lift _).bind fun _ => (unprepared_lift _).bind fun _ =>
        (unprepared_reads reads_newKey).bind fun _ =>
          (unprepared_mutate CommandRoute.noConfusion _ _ _ _ _).bind fun _ => trivial
  refine Program.Uses.bind ?_ fun j => ?_
  · unfold claimRun
    split
    · trivial
    · exact (unprepared_lift _).bind fun _ => (unprepared_reads reads_newKey).bind fun _ =>
        (unprepared_mutate CommandRoute.noConfusion _ _ _ _ _).bind fun _ => trivial
  refine (unprepared_lift _).bind fun runId => (unprepared_lift _).bind fun generation => ?_
  refine Program.Uses.bind ?_ fun j => ?_
  · unfold startRun
    split
    · refine (unprepared_reads reads_newKey).bind fun _ =>
        (unprepared_mutate CommandRoute.noConfusion _ _ _ _ _).bind fun _ => ?_
      dsimp only
      split
      · trivial
      · exact unprepared_stop _ _ _
    · trivial
  refine Program.Uses.bind ?_ fun j => ?_
  · unfold executeRun
    split
    · trivial
    · exact unprepared_executeSteps _ _ _ _
  refine Program.Uses.bind ?_ fun j => ?_
  · unfold advanceCurrent
    split
    · trivial
    refine Program.Uses.bind ?_ fun current => ?_
    · refine unprepared_exceptUnresolved ?_ (unprepared_stop _ _ _)
      exact (reads_readWorkspace profile _).bind fun _ => .lift _
    · split
      · exact unprepared_stop _ _ _
      · refine (unprepared_lift _).bind fun _ => (unprepared_lift _).bind fun _ => ?_
        split
        · exact unprepared_stop _ _ _
        · exact (unprepared_lift _).bind fun _ => (unprepared_lift _).bind fun _ =>
            (unprepared_lift _).bind fun _ => (unprepared_reads reads_newKey).bind fun _ =>
              (unprepared_mutate CommandRoute.noConfusion _ _ _ _ _).bind fun _ => trivial
  · unfold readBack
    refine Program.Uses.bind ?_ fun observed => ?_
    · exact unprepared_exceptUnresolved (reads_readPublic profile _ _ _ _) (unprepared_stop _ _ _)
    · split
      · exact (unprepared_silent (silent_write _ _)).bind fun _ => trivial
      · exact unprepared_stop _ _ _

/-- A journal whose preparation is not pending is applied without sending one. -/
theorem unprepared_applyLoaded {args : ApplyArguments} :
    (applyLoaded rt profile args j).Uses Op.Unprepared := by
  unfold applyLoaded
  split
  · trivial
  rename_i hpending
  refine (unprepared_lift _).bind fun planId => ?_
  split
  · trivial
  refine Program.Uses.bind ?_ fun plan => ?_
  · refine unprepared_exceptUnresolved ?_ (unprepared_stop _ _ _)
    exact (reads_planDetail profile _ _).bind fun _ => (Reads.lift _).bind fun _ => .pure _
  -- Behind the gates the only replay is of the loaded request, and that is no preparation.
  have hrest : ∀ (j' : Journal) approvalPending, j'.pendingRequest = j.pendingRequest →
      (applyCommands rt profile j' plan planId approvalPending).Uses Op.Unprepared := by
    intro j' approvalPending hsame
    unfold applyCommands
    refine Program.Uses.bind ?_ fun j'' => Program.Uses.bind ?_ fun _ => ?_
    · unfold recoverPending
      split
      · refine Program.Uses.bind ?_ fun _ => trivial
        unfold replayPending
        split
        · trivial
        · rename_i p hp
          have hroute : p.routeId ≠ .prepare := by
            intro hprepare
            rw [← hsame, hp] at hpending
            exact hpending (congrArg some hprepare)
          have hbody : replayBody rt profile j' p = Pure.pure p.body := by
            rw [replayBody, if_neg hroute]
          rw [hbody]
          refine (unprepared_lift _).bind fun digest => ?_
          split
          · exact unprepared_stop _ _ _
          · exact unprepared_dispatch hp hroute _
      · trivial
    · unfold stopIfOver
      repeat' split
      all_goals trivial
    · refine Program.Uses.bind ?_ fun _ => unprepared_applyFromAdmission plan planId
      unfold decideIf
      split
      · unfold decideApproval
        split
        · trivial
        · refine (unprepared_lift _).bind fun _ => (unprepared_reads reads_newKey).bind fun _ =>
            (unprepared_mutate CommandRoute.noConfusion _ _ _ _ _).bind fun _ => ?_
          dsimp only
          split
          · trivial
          · exact unprepared_stop _ _ _
      · trivial
  -- The gates read, and write the results they stop with.
  have hgates : ∀ j' : Journal, j'.pendingRequest = j.pendingRequest → Program.Uses Op.Unprepared (do
      let approvalPending ← approvalGate rt profile j' plan planId args
      progressGate rt profile j'
      applyCommands rt profile j' plan planId approvalPending) := by
    intro j' hsame
    refine Program.Uses.bind ?_ fun approvalPending => Program.Uses.bind ?_ fun _ =>
      hrest j' approvalPending hsame
    · unfold approvalGate
      split
      · trivial
      · refine Program.Uses.bind ?_ fun approval => ?_
        · refine unprepared_exceptUnresolved ?_ (unprepared_stop _ _ _)
          exact (reads_approvalDetail profile _ _).bind fun _ => (Reads.lift _).bind fun _ => .pure _
        · split
          · refine (unprepared_lift _).bind fun destructive => ?_
            generalize (if destructive then args.approveDestructivePlan else args.approvePlan) = supplied
            generalize (if destructive then args.approvePlan else args.approveDestructivePlan) = wrong
            dsimp only
            split
            · trivial
            · split
              · trivial
              · split
                · exact unprepared_stop _ _ _
                · trivial
          · split
            · trivial
            · exact unprepared_stop _ _ _
    · unfold progressGate
      split
      · refine (unprepared_reads (reads_publicStatus rt profile _)).bind fun observed => ?_
        split
        · trivial
        · split
          · exact unprepared_stop _ _ _
          · split
            · exact unprepared_stop _ _ _
            · trivial
      · trivial
  unfold retainPlan
  split
  · exact hgates j rfl
  · rw [bind_assoc]
    refine (unprepared_lift _).bind fun c => ?_
    rw [bind_assoc]
    exact (unprepared_silent (silent_write _ _)).bind fun _ => hgates _ rfl

theorem unprepared_apply {reference : Text} {args : ApplyArguments} :
    (apply rt profile reference args).Uses Op.Unprepared := by
  have hlock : ∀ ref, (mutationLock ref).Uses Op.Unprepared := by
    intro ref
    refine ⟨nofun, fun a => ?_⟩
    cases a <;> trivial
  refine Program.Uses.handle ((unprepared_lift _).bind fun ref => ?_) fun e => by cases e <;> trivial
  split
  · trivial
  · refine (hlock ref).bind fun _ => ?_
    exact (unprepared_reads (reads_load rt profile ref)).bind fun j => unprepared_applyLoaded

end Unprepared

/-! ### The verdict over whole runs -/

section Kept

variable {rt : Runtime} {docs : Set (List UInt8)} {ref : OperationRef} {c d : Directory} {i : ℕ}
  {p : Invocation} {tr : Trace} {j : Journal} {verdict : Coordinate} {result : ClientResult}

/-- A phase that is over stays. -/
theorem Directory.Reachable.stays_over (hc : Directory.Reachable rt docs c)
    (hd : Directory.Reaches rt docs c d) (hj : (c.state ref).journal = some j)
    (hover : j.phase.Over) : ∃ k, (d.state ref).journal = some k ∧ k.phase = j.phase := by
  obtain ⟨k, hk, hforward⟩ := (Directory.Reaches.leads hc hd ref).1 j hj
  refine ⟨k, hk, ?_⟩
  rcases hforward.phase with h | ⟨hterminal, -⟩
  · exact h.symm
  · rcases hover with h | h <;> rw [h] at hterminal <;> cases hterminal

theorem over_preparedPhase (hverdict : Refuses verdict) : (preparedPhase verdict).Over := by
  rcases hverdict with hv | hv
  · exact .inl (by rw [preparedPhase, if_pos hv])
  · refine .inr ?_
    have hne : verdict.text ≠ "no-changes" := by
      rw [hv]
      decide
    rw [preparedPhase, if_neg hne, if_pos hv]

/-- **The verdict is kept** by every invocation that receives it, and by every invocation that is
started once the journal is in its phase. -/
theorem Directory.Reachable.verdict_kept (hc : Directory.Reachable rt docs c)
    (hverdict : Refuses verdict) (hcourse : Directory.Course rt docs c i p tr d)
    (hdone : d.process i = some (.pure result))
    (hcondition : Receives verdict tr ∨
      ∃ j, (c.state result.operationRef).journal = some j ∧ j.phase = preparedPhase verdict) :
    KeepsVerdict verdict result := by
  have hruns := hcourse.returned hdone
  have hover := over_preparedPhase hverdict
  -- What an invocation finds later is in the phase of the verdict.
  have hfound : ∀ {ref j k}, ref = result.operationRef →
      (c.state result.operationRef).journal = some j → j.phase = preparedPhase verdict →
      ⟨.read ref, .found k⟩ ∈ tr → k.phase = preparedPhase verdict := by
    rintro ref j k rfl hj hphase he
    obtain ⟨b, hb, hk⟩ := hcourse.found he
    obtain ⟨k', hk', hsame⟩ := hc.stays_over hb hj (hphase ▸ hover)
    obtain rfl : k = k' := Option.some.inj (hk.symm.trans hk')
    rw [hsame, hphase]
  cases hcourse.start with
  | plan profile desiredPath title =>
    obtain ⟨ref, k, he, hhonours⟩ := plan_honours hruns
    rcases hcondition with hreceives | ⟨j, hj, hphase⟩
    · exact hhonours.keeps verdict hverdict hreceives
    · obtain rfl := hhonours.identity
      obtain ⟨b, hb, hnone⟩ := hcourse.created he
      obtain ⟨k', hk', -⟩ := hc.stays_over hb hj (hphase ▸ hover)
      rw [hnone] at hk'
      cases hk'
  | resumePrepare profile reference =>
    obtain ⟨ref, k, he, hvalid, hpending, hhonours⟩ := resumePrepare_honours hruns
    rcases hcondition with hreceives | ⟨j, hj, hphase⟩
    · exact hhonours.keeps verdict hverdict hreceives
    · have hk := hfound hhonours.identity.symm hj hphase he
      exact absurd ((hk ▸ hover : k.phase.Over).pending hvalid) hpending
  | apply profile reference args =>
    obtain ⟨ref, k, he, hvalid, hid, hprojects⟩ := apply_projects hruns
    rcases hcondition with hreceives | ⟨j, hj, hphase⟩
    · exact absurd hreceives (not_receives (hruns.uses unprepared_apply))
    · have hk := hfound hid.symm hj hphase he
      exact (hk ▸ hprojects (hk ▸ hover)).keeps hverdict
  | status profile reference =>
    obtain ⟨ref, k, he, hvalid, hprojects⟩ := status_projects hruns
    rcases hcondition with hreceives | ⟨j, hj, hphase⟩
    · refine absurd hreceives (not_receives fun e he => Op.Silent.unprepared ?_)
      exact Op.Neutral.silent (hruns.uses (reads_status rt profile reference) e he)
    · have hid : result.operationRef = ref := by
        obtain ⟨_, _, _, _, _, _, _, _, hid, -, rfl⟩ := hprojects
        exact hid
      have hk := hfound hid.symm hj hphase he
      exact (hk ▸ hprojects).keeps hverdict

end Kept

/-! ### Forgetting a verdict -/

namespace Scenario

variable {rt : Runtime} {profile : ClientProfile} {docs : Set (List UInt8)} {s : Scenario}
  {w w' : World} {verdict : Coordinate}

/-- The preparation of the scenario, answered with a verdict. -/
def answeredEvents (rt : Runtime) (profile : ClientProfile) (s : Scenario) (verdict : Coordinate) :
    Trace :=
  ⟨.openDesired (.utf8 s.file), .content (.utf8 s.file) s.raw⟩ ::
    (s.planBefore rt profile ++ [wrote s.ref (s.intendedJournal rt profile),
      ⟨.call (s.commandOf profile .prepare), .reply (s.answer profile verdict)⟩,
      wrote s.ref (s.preparedFirst rt profile)])

/-- The state once the response is recorded. -/
def worldAnswered (rt : Runtime) (profile : ClientProfile) (s : Scenario) : World :=
  ⟨some (s.preparedFirst rt profile), [s.commandOf profile .prepare]⟩

theorem receives_answeredEvents :
    Receives verdict (s.answeredEvents rt profile verdict) :=
  ⟨s.commandOf profile .prepare, s.answer profile verdict, by simp [answeredEvents], rfl,
    by simp [text, answer]⟩

/-- A preparation that is answered with any verdict goes on with its display. -/
theorem exec_answered (hs : s.Fair rt docs) {tr : Trace}
    {out : Option (Except ClientError ClientResult)}
    (hrest : Exec (answers docs s.ref) (s.worldAnswered rt profile)
      (conclude (finishPrepare rt profile (s.preparedFirst rt profile) (s.answer profile verdict)))
      tr w' out) :
    Exec (answers docs s.ref) World.empty
      (Client.plan rt profile (.utf8 s.file) (.utf8 s.title.text))
      (s.answeredEvents rt profile verdict ++ tr) w' out := by
  have hbound : responseIsBound .prepare (s.answer profile verdict) (workspacePath profile)
      (s.body .prepare) {} profile.workspaceId = .ok true := by
    simp [responseIsBound, answer, Coordinate.pyEq_json]
  have hproj : responseCoordinates .prepare (s.answer profile verdict) =
      .ok (s.projection .prepare) := by
    simp [responseCoordinates, answer, text, projection, bind, Except.bind, pure, Except.pure]
  have hrecorded : recorded (s.intendedJournal rt profile) (s.request rt profile .prepare)
      (s.answer profile verdict) (s.projection .prepare) = s.preparedFirst rt profile := recorded_new
  have hdispatched : Returns docs s.ref ⟨some (s.intendedJournal rt profile), []⟩
      (dispatchPending rt profile (s.intendedJournal rt profile) (s.body .prepare)) _ _ _ :=
    returns_dispatch rfl rfl rfl (by simp [intendedJournal, newJournal, maximumRequestRecords])
      hbound hproj (hrecorded ▸ (preparedFirst_modest hs).encodes (preparedFirst_valid hs))
  rw [hrecorded] at hdispatched
  have hexec := exec_intended hs.found hs.openable hs.loads hs.size hs.absolute (source_brief hs)
    (canonicalDigest_body profile hs .prepare) (body_fits hs .prepare).2
    (Exec.then_conclude hdispatched hrest)
  exact hexec

theorem answeredEvents_ofOnly (hs : s.Fair rt docs) :
    ∀ e ∈ s.answeredEvents rt profile verdict, OfOnly docs s.ref e := by
  intro e he
  simp only [answeredEvents, planBefore, List.mem_cons, List.mem_append, List.not_mem_nil,
    or_false] at he
  rcases he with rfl | (rfl | rfl | rfl | rfl | rfl) | rfl | rfl | rfl
  · exact .openDesired _ _ (opens hs.found hs.openable)
  · exact .identity _
  · exact .call _ _ rfl
  · exact .identity _
  · exact .lock _
  · exact .create _ _
  · exact .write _ _
  · exact .call _ _ rfl
  · exact .write _ _

/-- What a later `status` reads. -/
def glanceEvents (rt : Runtime) (profile : ClientProfile) (s : Scenario) : Trace :=
  [⟨.read s.ref, .found (s.preparedFirst rt profile)⟩,
    answered profile s.ref .workspace (workspacePath profile) [("workspace", .obj (s.workspaceAt s.base))],
    answered profile s.ref .planDetail (planPath profile s.planId) [("plan", .obj s.plan)],
    answered profile s.ref .approvalDetail (approvalPath profile s.approvalId)
      [("approval", .obj (s.approval "pending"))]]

/-- What it reports. -/
def glance (rt : Runtime) (profile : ClientProfile) (s : Scenario) : ClientResult :=
  projectJournal profile (s.preparedFirst rt profile) false none none none []
    (some (.literal "plan:approve" approve_size, false))

/-- The `status` of a preparation that was abandoned before its last write. -/
theorem exec_glance (hs : s.Fair rt docs) (hj : w.journal = some (s.preparedFirst rt profile)) :
    Exec (answers docs s.ref) w (Client.status rt profile (.utf8 s.ref.text))
      (s.glanceEvents rt profile) w (some (.ok (s.glance rt profile))) := by
  have hagrees : ∀ n ∈ planCoordinates, (s.preparedFirst rt profile).coordinates.has n = true →
      (s.preparedFirst rt profile).coordinates.get n = s.planned.get n := by
    intro n hn hhas
    cases n <;> first
      | rfl
      | exact absurd hn (by decide)
      | cases hhas
  have hload : Returns docs s.ref w (load rt profile s.ref) _ w (s.preparedFirst rt profile) :=
    returns_load hj (preparedFirst_valid hs) rfl
  have hscope : text (s.approval "pending") "required_scope" = .ok (.literal "plan:approve") := by
    rw [text]
    simp only [approval, Fields.get_cons]
    exact textCoordinate_json (.literal "plan:approve")
  have hkind : boolean (s.approval "pending") "destructive" = .ok false := by
    simp [boolean, approval]
  have hreport : observedStatus profile (s.preparedFirst rt profile) false
      { approval := some (s.approval "pending") } = .ok (s.glance rt profile) := by
    simp only [observedStatus, statusFromJournal, hscope, hkind]
    rfl
  have hstatus : Returns docs s.ref w (publicStatus rt profile (s.preparedFirst rt profile))
      (s.glanceEvents rt profile).tail w (s.glance rt profile) := by
    refine .returning ?_
    refine Returns.bind (t := [_]) (u := [_, _]) (returns_observeWorkspace rfl s.base) ?_
    refine Returns.bind (t := [_]) (u := [_]) (returns_observePlan rfl rfl hagrees) ?_
    refine Returns.bind (t := [_]) (u := []) (returns_observeApproval rfl rfl rfl) ?_
    -- Without the coordinates of the run and of the graphs there is nothing else to read.
    exact Returns.bind (t := []) (u := []) (.pure _)
      (Returns.bind (t := []) (u := []) (.pure _) (.lift hreport))
  exact Exec.then_conclude (Returns.lift (canonicalOperationRef_text s.ref))
    (Exec.then_conclude hload (Exec.handle_ok hstatus))

end Scenario

namespace Instance

/-- A preparation of the instance with nothing to change. -/
def nothing : Preparation profile (scenario.preparedFirst runtime profile) :=
  scenario.preparation runtime profile
    (show ["no-changes", "review-blocked", "approval-required"].contains
      (Coordinate.literal "no-changes").text = true from rfl) (planChanges_replicate 0)

/-- **The verdict of a finished preparation is kept** by its result. -/
theorem verdict_kept_nothing : ∃ d tr, Directory.Course runtime docs Directory.initial 0
      (Client.plan runtime profile (.utf8 scenario.file) (.utf8 scenario.title.text)) tr d ∧
    d.process 0 = some (.pure nothing.result) ∧
      KeepsVerdict (.literal "no-changes") nothing.result := by
  -- The preparation is displayed and stored.
  obtain ⟨raw, hraw, hlength⟩ :=
    (Scenario.preparation_modest fair rfl (planChanges_replicate 0) : nothing.journal.Modest _).json
  have hstored : nothing.Stored runtime docs (scenario.worldAnswered runtime profile) := by
    refine (Preparation.stores_iff nothing (Scenario.preparedFirst_valid fair) rfl rfl).mpr
      ⟨by decide, raw.length, ?_, hlength.trans (Nat.sub_le _ _)⟩
    exact congrArg (Option.map List.length) hraw
  have hexec : Exec (answers docs scenario.ref) World.empty _
      (scenario.answeredEvents runtime profile (.literal "no-changes") ++ nothing.events) _ _ :=
    Scenario.exec_answered fair (Exec.handle_ok hstored.2.2)
  rw [← List.append_nil (_ ++ nothing.events)] at hexec
  have honly : ∀ e ∈ scenario.answeredEvents runtime profile (.literal "no-changes") ++ nothing.events,
      OfOnly docs scenario.ref e := by
    intro e he
    rcases List.mem_append.mp he with he | he
    · exact Scenario.answeredEvents_ofOnly fair e he
    · simp only [Preparation.events, nothing, Scenario.preparation, List.mem_cons,
        List.mem_append, List.not_mem_nil, or_false] at he
      rcases he with rfl | rfl | rfl
      · exact .call _ _ rfl
      · exact .call _ _ rfl
      · exact .write _ _
  obtain ⟨d, w₁, q, hcourse, -, hprocess, hrest, -⟩ := Directory.Course.run
    (.plan profile (.utf8 scenario.file) (.utf8 scenario.title.text)) hexec honly (by rfl)
  rw [← Directory.initial_eq_only] at hcourse
  obtain rfl : q = .pure nothing.result := by
    cases hrest
    rfl
  refine ⟨d, _, hcourse, hprocess, Directory.Reachable.verdict_kept .refl (.inl rfl) hcourse hprocess
    (.inl ?_)⟩
  obtain ⟨call, response, he, hroute, hread⟩ :
    Receives (.literal "no-changes") (scenario.answeredEvents runtime profile (.literal "no-changes")) :=
    Scenario.receives_answeredEvents
  exact ⟨call, response, List.mem_append_left _ he, hroute, hread⟩

/-- A preparation with nothing to change is offered again once its verdict is lost. -/
theorem verdict_forgotten : ¬ ∀ (rt : Runtime) (docs : Set (List UInt8)) (ref : OperationRef)
    (verdict : Coordinate) (d₁ c d : Directory) (i₁ i : ℕ) (p₁ p : Invocation) (tr₁ tr : Trace)
    (j : Journal) (result : ClientResult),
    Refuses verdict → Directory.Course rt docs Directory.initial i₁ p₁ tr₁ d₁ →
    Receives verdict tr₁ → (d₁.state ref).journal = some j →
    j.requestHistory.map (·.routeId) = [.prepare] → Directory.Reaches rt docs d₁ c →
    Directory.Course rt docs c i p tr d → d.process i = some (.pure result) →
    result.operationRef = ref → KeepsVerdict verdict result := by
  intro hall
  -- The first invocation dies before its last write.
  have hstopped : Exec (answers docs scenario.ref) World.empty _
      (scenario.answeredEvents runtime profile (.literal "no-changes") ++ []) _ none :=
    Scenario.exec_answered fair (.stopped _ _)
  obtain ⟨d₁, w₁, q, hfirst, hstate, -, hrest, hleaves⟩ := Directory.Course.run
    (.plan profile (.utf8 scenario.file) (.utf8 scenario.title.text)) hstopped
    (Scenario.answeredEvents_ofOnly fair) (by rfl)
  rw [← Directory.initial_eq_only] at hfirst
  obtain rfl : w₁ = scenario.worldAnswered runtime profile := by
    cases hrest
    rfl
  -- A status reads the prepared journal.
  have hglance : Exec (answers docs scenario.ref) (scenario.worldAnswered runtime profile) _
      (scenario.glanceEvents runtime profile) _ _ := Scenario.exec_glance fair rfl
  rw [← List.append_nil (Scenario.glanceEvents _ _ _)] at hglance
  have hreads : ∀ e ∈ scenario.glanceEvents runtime profile, OfOnly docs scenario.ref e := by
    intro e he
    simp only [Scenario.glanceEvents, List.mem_cons, List.not_mem_nil, or_false] at he
    rcases he with rfl | rfl | rfl | rfl
    · exact .read _
    · exact .call _ _ rfl
    · exact .call _ _ rfl
    · exact .call _ _ rfl
  obtain ⟨d, w₂, q₂, hsecond, -, hprocess, hrest₂, -⟩ := Directory.Course.run
    (.status profile (.utf8 scenario.ref.text)) hglance hreads (Nat.zero_le 1)
  obtain rfl : q₂ = .pure (scenario.glance runtime profile) := by
    cases hrest₂
    rfl
  have hkeeps := hall runtime docs scenario.ref (.literal "no-changes") d₁ _ d 0 0 _ _ _ _
    (scenario.preparedFirst runtime profile) (scenario.glance runtime profile) (.inl rfl) hfirst
    (by simpa using Scenario.receives_answeredEvents) (by rw [hstate]; rfl) rfl hleaves hsecond
    hprocess rfl
  exact absurd hkeeps.offers (by decide)

end Instance

end Client

end ControlPlaneKit
