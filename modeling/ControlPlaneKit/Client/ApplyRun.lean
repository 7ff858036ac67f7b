import ControlPlaneKit.Client.ApplyTerms

/-!
# Apply abides by its terms

The blocks of `apply`, in their order: the plan, the approval and the progress gate, the replay of
a pending request, the decision, and the commands from the admission to the read-back. `Going` is
what they hand on to each other; every block either keeps it or ends the invocation in one of the
ways of `ApplyEnd`.
-/

namespace ControlPlaneKit

namespace Client

open Interaction

/-! ### What goes on -/

section Going

variable (rt : Runtime) (profile : ClientProfile) (args : ApplyArguments) (j₀ : Journal)

/-- The invocation goes on with the durable journal `j`, for the plan it confirmed. -/
structure Going (planId : Coordinate) (plan : Fields) (h : Trace) (w : World) (j : Journal) :
    Prop where
  holds : Holds rt profile w j
  confirmed : Confirmed args j₀ h planId plan
  agrees : PlanAgrees j plan
  session : ∃ sessionId : Coordinate, plan.get "session_id" = sessionId.json
  planned : j.coordinates.Planned
  pending : ∀ p, j.pendingRequest = some p → j₀.pendingRequest = some p
  approval : j.coordinates.approvalRequestId = j₀.coordinates.approvalRequestId
  counted : j.requestHistory.length = j₀.requestHistory.length + commands h

/-- Nothing has been dispatched yet: the journal is the loaded one, or settled from it. -/
structure Early (h : Trace) (j : Journal) : Prop where
  ahead : Ahead j₀ j
  phase : j.phase = j₀.phase
  unsent : commands h = 0

end Going

variable {rt : Runtime} {profile : ClientProfile} {docs : Set (List UInt8)} {ref : OperationRef}
  {args : ApplyArguments} {j₀ j : Journal} {planId : Coordinate} {plan : Fields} {h : Trace}
  {w : World} {α β : Type}

theorem Going.reads (hg : Going rt profile args j₀ planId plan h w j) {tr : Trace}
    (htr : commands tr = 0) : Going rt profile args j₀ planId plan (h ++ tr) w j :=
  ⟨hg.holds, hg.confirmed.extend (List.prefix_append _ _), hg.agrees, hg.session, hg.planned,
    hg.pending, hg.approval, by rw [commands_append, htr, hg.counted]; omega⟩

theorem Early.reads (he : Early j₀ h j) {tr : Trace} (htr : commands tr = 0) :
    Early j₀ (h ++ tr) j :=
  ⟨he.ahead, he.phase, by rw [commands_append, he.unsent, htr]⟩

/-- A projection of any other route leaves the plan coordinates and the approval alone. -/
theorem Coordinates.update_plan {c : Coordinates} {p : Projection} (hp : p.route ≠ .prepare) :
    (∀ n ∈ planCoordinates, (c.update p).value? n = c.value? n) ∧
      (c.update p).approvalRequestId = c.approvalRequestId := by
  refine ⟨fun n hn => ?_, ?_⟩
  · simp only [planCoordinates, List.mem_cons, List.not_mem_nil, or_false] at hn
    cases p with
    | prepare => exact absurd rfl hp
    | _ => rcases hn with rfl | rfl | rfl | rfl | rfl | rfl | rfl <;> rfl
  · cases p with
    | prepare => exact absurd rfl hp
    | _ => rfl

/-- What has been recorded goes on. -/
theorem Going.recorded (hg : Going rt profile args j₀ planId plan h w j) {p : Pending}
    {response : Fields} {projection : Projection} {w' : World} {h' : Trace} (hh : h <+: h')
    (hroute : p.routeId ≠ .prepare) (hproj : responseCoordinates p.routeId response = .ok projection)
    (hholds : Holds rt profile w' (recorded j p response projection))
    (hcount : commands h' = commands h + 1) :
    Going rt profile args j₀ planId plan h' w' (recorded j p response projection) := by
  have hne : projection.route ≠ .prepare := (responseCoordinates_ok hproj).1 ▸ hroute
  obtain ⟨hsame, happroval⟩ := Coordinates.update_plan (c := j.coordinates) hne
  refine ⟨hholds, hg.confirmed.extend hh, ?_, hg.session, ?_, ?_, happroval.trans hg.approval, ?_⟩
  · intro n hn hhas
    have hget : (j.coordinates.update projection).get n = j.coordinates.get n := by
      rw [Coordinates.get, Coordinates.get, hsame n hn]
    have hhas' : j.coordinates.has n = true := by
      rw [Coordinates.has, ← hsame n hn]
      exact hhas
    exact hget ▸ hg.agrees n hn hhas'
  · intro n hn
    exact (congrArg Option.isSome (hsame n hn)).trans (hg.planned n hn)
  · intro q hq
    cases hq
  · rw [hcount, ← Nat.add_assoc, ← hg.counted]
    simp [Client.recorded]

/-- An operation with an effect pending has an approval request. -/
theorem JournalInv.approval_of_effect (hj : JournalInv ref j) {p : Pending}
    (hp : j.pendingRequest = some p) (hroute : p.routeId.isEffect = true) :
    j.coordinates.approvalRequestId.isSome := by
  have hphase := (hj.valid.pending p hp).phase
  have hadmitted : Coordinates.has j.coordinates .executionRequestId = true →
      j.coordinates.approvalRequestId.isSome := by
    intro h
    refine hj.approval (.inl ?_)
    simpa [Coordinates.has, Coordinates.value?] using h
  have hrequired := hj.valid.required
  generalize j.phase = phase at hphase hrequired
  cases hr : p.routeId <;> rw [hr] at hroute hphase <;>
    simp only [pendingPhases, List.mem_cons, List.not_mem_nil, or_false] at hphase
  case prepare => cases hroute
  case decide => cases hroute
  case admission => exact hj.approval (.inr ⟨p, hp, hr⟩)
  case execute =>
    rcases hphase with rfl | rfl <;> exact hadmitted (hrequired _ (by decide))
  all_goals
    subst hphase
    exact hadmitted (hrequired _ (by decide))

/-! ### Journal writes -/

section Writes

variable {R : Trace → World → α → Prop}

/-- A journal whose pending request is the loaded one, or none, may be written. -/
theorem applyTerms_write {r : OperationRef} {j' : Journal} {a : StoreAnswer}
    (hpending : ∀ p, j'.pendingRequest = some p → j₀.pendingRequest = some p) :
    (applyTerms rt docs args j₀).allows h ⟨.write r j', a⟩ :=
  fun p hp _ => .inr (hpending p hp)

/-- The rule for an attention result in this invocation. -/
theorem Abides.halt {execution : Execution} {advancement : Advancement} {next : ReadRoute}
    {j₁ : Journal} (hj : w.journal = some j₁) (hahead : Ahead j₁ j)
    (hpending : ∀ p, j.pendingRequest = some p → j₀.pendingRequest = some p)
    (hE : ∀ e w' result, w'.journal = some { j with lastResult := result } →
      ApplyEnd rt docs args j₀ (h ++ [e]) w'
        (attentionResult profile j execution advancement next)) :
    Abides rt docs ref (applyTerms rt docs args j₀) (ApplyEnd rt docs args j₀)
      (Client.stop rt profile j execution advancement next) R h w :=
  .stop hj hahead (fun _ _ hsame => applyTerms_write fun p hp => hpending p (hsame ▸ hp)) hE

/-- The rule for an attention result that does not deny that work was started. -/
theorem Abides.doubt {execution : Execution} {advancement : Advancement} {next : ReadRoute}
    {j₁ : Journal} (hj : w.journal = some j₁) (hahead : Ahead j₁ j)
    (hpending : ∀ p, j.pendingRequest = some p → j₀.pendingRequest = some p)
    (hexecution : execution ≠ .notStarted) :
    Abides rt docs ref (applyTerms rt docs args j₀) (ApplyEnd rt docs args j₀)
      (Client.stop rt profile j execution advancement next) R h w :=
  .halt hj hahead hpending fun _ _ _ _ => .doubtful rfl hexecution

end Writes

/-! ### The gates -/

section Gates

/-- The plan of the loaded journal is confirmed. -/
theorem Abides.confirmPlan {R : Trace → World → Fields → Prop} (hj : Holds rt profile w j₀)
    (hnames : j₀.coordinates.planId = some planId) (hexecute : args.executePlan = .utf8 planId.text)
    (hok : ∀ tr plan, commands tr = 0 → Quiet .planRuns tr →
      Confirmed args j₀ (h ++ tr) planId plan → R (h ++ tr) w plan) :
    Abides rt docs ref (applyTerms rt docs args j₀) (ApplyEnd rt docs args j₀)
      (Client.confirmPlan rt profile j₀ planId) R h w := by
  have hblock : Reads (do
      let plan ← planDetail profile j₀.operationRef planId
      Client.lift (validatePlan j₀ plan)
      return plan) :=
    (reads_planDetail profile _ _).bind fun _ => (Reads.lift _).bind fun _ => .pure _
  refine .exceptUnresolved hblock.neutral hblock.stays (fun tr plan hr => ?_) fun _ _ _ _ =>
    .doubt hj.durable (.refl j₀) (fun _ hp => hp) (by decide)
  have hcommands := commands_of_neutral hblock.neutral hr
  obtain ⟨plan', tr₁, tr₂, rfl, h₁, h₂⟩ := hr.bind_ok
  obtain ⟨u, tr₃, tr₄, rfl, h₃, h₄⟩ := h₂.bind_ok
  obtain ⟨rfl, rfl⟩ := runs_pure_ok.mp h₄
  obtain ⟨rfl, hvalid⟩ := runs_lift_ok.mp h₃
  obtain ⟨e, rfl, hshown⟩ := runs_planDetail_ok h₁
  refine hok _ _ hcommands ?_ ⟨hnames, hexecute, ⟨e, by simp, hshown⟩, validatePlan_ok.mp hvalid⟩
  intro e' he' hread
  obtain rfl : e' = e := by simpa using he'
  obtain ⟨path, response, hanswer, -⟩ := hshown
  cases hread.inj hanswer.reads

/-- A recorded plan agrees with the coordinates it gave. -/
theorem planAgrees_recordPlan {c c' : Coordinates} (hrecord : recordPlanCoordinates c plan = .ok c') :
    PlanAgrees { j with coordinates := c' } plan := by
  intro n hn _
  have hvalue := (recordPlan_value hrecord).1 n hn
  have hget : c'.get n = plan.get n.key := by rw [Coordinates.get, hvalue]; rfl
  change (plan.get n.key).pyEq (c'.get n) = true
  cases hnumber : Coordinates.isNumber n with
  | false => exact (Coordinates.pyEq_get hnumber).mpr hget.symm
  | true =>
    obtain ⟨m, hm⟩ : ∃ m, c'.value? n = some (natJson m) := by
      cases n <;> first
        | exact absurd hnumber (by decide)
        | (obtain ⟨m, -, hm⟩ := Option.map_eq_some_iff.mp hvalue
           exact ⟨m, by rw [hvalue, hm]⟩)
    rw [hget, show plan.get n.key = natJson m from Option.some.inj (hvalue.symm.trans hm)]
    exact natJson_pyEq.mpr rfl

/-- The coordinates of the plan are retained before the approval is read. -/
theorem Abides.retainPlan {R : Trace → World → Journal → Prop} (hj : Holds rt profile w j₀)
    (hconfirmed : Confirmed args j₀ h planId plan) (hunsent : commands h = 0)
    (hok : ∀ tr w' j, Going rt profile args j₀ planId plan (h ++ tr) w' j → Early j₀ (h ++ tr) j →
      Quiet .planRuns tr → R (h ++ tr) w' j) :
    Abides rt docs ref (applyTerms rt docs args j₀) (ApplyEnd rt docs args j₀)
      (Client.retainPlan rt j₀ plan) R h w := by
  refine .of_inv fun hw => ?_
  obtain rfl : j₀.operationRef = ref := (hw.journal j₀ hj.durable).valid.identity
  unfold Client.retainPlan
  split
  · rename_i hsession
    refine .pure ?_
    have hagrees := hconfirmed.agrees .sessionId (by decide) hsession
    obtain ⟨v, hv⟩ := Option.isSome_iff_exists.mp hsession
    obtain ⟨sessionId, hid, -⟩ := Option.map_eq_some_iff.mp hv
    have hshown : plan.get "session_id" = sessionId.json := by
      rw [Coordinates.pyEq_get rfl] at hagrees
      exact hagrees.trans (congrArg textJson hid)
    have hgoing : Going rt profile args j₀ planId plan h w j₀ :=
      ⟨hj, hconfirmed, hconfirmed.agrees, ⟨sessionId, hshown⟩,
        (hw.journal j₀ hj.durable).session hsession, fun _ hp => hp, rfl, by rw [hunsent, Nat.add_zero]⟩
    simpa using hok [] w j₀ (by simpa using hgoing) ⟨.refl j₀, rfl, by simpa using hunsent⟩
      (by simp [Quiet])
  · refine .bind (.lift fun c hc => ?_)
    have hahead : Ahead j₀ { j₀ with coordinates := c } := .recordPlan hconfirmed.agrees hc
    have hsession : ∃ sessionId : Coordinate, plan.get "session_id" = sessionId.json := by
      have hvalue := (recordPlan_value hc).1 .sessionId (by decide)
      obtain ⟨sessionId, -, hid⟩ := Option.map_eq_some_iff.mp hvalue
      exact ⟨sessionId, hid.symm⟩
    have happroval : c.approvalRequestId = j₀.coordinates.approvalRequestId :=
      Option.map_injective (fun _ _ => Coordinate.json_injective)
        (hahead.other .approvalRequestId (by decide))
    refine .bind (.write (fun _ hvalid => ⟨j₀, hj.durable, ?_⟩)
      (fun a => applyTerms_write fun p hp => hp) (.pure (hok _ _ _ ?_ ?_ ?_)))
    · exact hahead.step j₀.lastResult hvalid
    · exact ⟨⟨rfl, hj.target⟩, hconfirmed.extend (List.prefix_append _ _),
        planAgrees_recordPlan hc, hsession, recordPlan_planned hc, fun _ hp => hp, happroval,
        by simp [hunsent]⟩
    · exact ⟨hahead, rfl, by simp [hunsent]⟩
    · intro e he
      obtain rfl := List.mem_singleton.mp he
      rintro ⟨call, heq, -⟩
      cases heq

/-- What the approval gate has let through: a known approval, or a pending one for which the flag
was passed. -/
def ApprovalPassed (args : ApplyArguments) (j₀ : Journal) (h : Trace) : Bool → Prop
  | false => j₀.coordinates.approvalRequestId = none ∨ Authorized args j₀ h
  | true => FlagPassed args j₀ h ∧ ∀ p, j₀.pendingRequest = some p → p.routeId = .decide

theorem ApprovalPassed.extend {h' : Trace} {flag : Bool} (ha : ApprovalPassed args j₀ h flag)
    (hh : h <+: h') : ApprovalPassed args j₀ h' flag := by
  cases flag with
  | false => exact ha.imp_right fun ha => ha.extend hh
  | true => exact ⟨ha.1.extend hh, ha.2⟩

theorem boolean_ok {value : Fields} {name : String} {b : Bool} (h : boolean value name = .ok b) :
    value.get name = .bool b := by
  unfold boolean at h
  split at h
  · rename_i hget
    cases h
    exact hget
  · cases h

/-- The approval gate. -/
theorem Abides.approvalGate {R : Trace → World → Bool → Prop}
    (hg : Going rt profile args j₀ planId plan h w j) (he : Early j₀ h j)
    (hok : ∀ tr flag, Going rt profile args j₀ planId plan (h ++ tr) w j → Early j₀ (h ++ tr) j →
      Quiet .planRuns tr → ApprovalPassed args j₀ (h ++ tr) flag → R (h ++ tr) w flag) :
    Abides rt docs ref (applyTerms rt docs args j₀) (ApplyEnd rt docs args j₀)
      (Client.approvalGate rt profile j plan planId args) R h w := by
  have hpending : j.pendingRequest = j₀.pendingRequest := he.ahead.pending
  unfold Client.approvalGate
  split
  · rename_i hnone
    refine .pure ?_
    simpa using hok [] false (by simpa using hg) (by simpa using he) (by simp [Quiet])
      (.inl (hg.approval ▸ hnone))
  rename_i approvalId hid
  have hid₀ : j₀.coordinates.approvalRequestId = some approvalId := hg.approval ▸ hid
  have hblock : Reads (do
      let approval ← approvalDetail profile j.operationRef approvalId
      Client.lift (validateApproval plan approvalId approval)
      return approval) :=
    (reads_approvalDetail profile _ _).bind fun _ => (Reads.lift _).bind fun _ => .pure _
  refine .bind (.exceptUnresolved hblock.neutral hblock.stays (fun tr approval hr => ?_)
    fun _ _ _ _ => .doubt hg.holds.durable (.refl j) hg.pending (by decide))
  have hcommands := commands_of_neutral hblock.neutral hr
  obtain ⟨approval', tr₁, tr₂, rfl, h₁, h₂⟩ := hr.bind_ok
  obtain ⟨u, tr₃, tr₄, rfl, h₃, h₄⟩ := h₂.bind_ok
  obtain ⟨rfl, rfl⟩ := runs_pure_ok.mp h₄
  obtain ⟨rfl, hvalid⟩ := runs_lift_ok.mp h₃
  obtain ⟨e, rfl, hshown⟩ := runs_approvalDetail_ok h₁
  obtain ⟨sessionId, hsession⟩ := hg.session
  have hconsistent := validateApproval_ok hvalid hsession
  have hquiet : Quiet .planRuns ([e] ++ ([] ++ [])) := by
    intro e' he' hread
    obtain rfl : e' = e := by simpa using he'
    obtain ⟨path, response, hanswer, -⟩ := hshown
    cases hread.inj hanswer.reads
  have hgoing := hg.reads hcommands
  have hearly := he.reads hcommands
  -- An approval that cannot be relied on ends the invocation.
  have hrefuse : ∀ {γ : Type} {R' : Trace → World → γ → Prop},
      ((approval'.get "state" = .str "pending" ∧
          ∃ p, j₀.pendingRequest = some p ∧ p.routeId ≠ .decide) ∨
        (approval'.get "state" ≠ .str "pending" ∧ approval'.get "state" ≠ .str "approved")) →
      Abides rt docs ref (applyTerms rt docs args j₀) (ApplyEnd rt docs args j₀)
        (Client.stop rt profile j .notStarted .notAttempted .approvalDetail) R'
          (h ++ ([e] ++ ([] ++ []))) w := fun hstate =>
    .halt hg.holds.durable (.refl j) hg.pending fun e' w' result hw' =>
      .unapproved planId approvalId plan approval' h e e'
        (hgoing.confirmed.extend (List.prefix_append _ _)) hid₀ (by simp) hshown hconsistent
        hstate rfl
  split
  · rename_i hstate
    have hstate : approval'.get "state" = .str "pending" := Json.pyEq_str.mp hstate
    refine .bind (.lift fun destructive hdestructive => ?_)
    dsimp only
    generalize hsup : (if destructive = true then args.approveDestructivePlan
      else args.approvePlan) = supplied
    generalize hwr : (if destructive = true then args.approvePlan
      else args.approveDestructivePlan) = wrong
    split
    · exact .raise
    rename_i hsupplied
    split
    · exact .raise
    rename_i hwrong
    split
    · rename_i hother
      rw [Bool.and_eq_true, hpending] at hother
      obtain ⟨p, hp⟩ := Option.isSome_iff_exists.mp hother.1
      refine hrefuse (.inl ⟨hstate, p, hp, fun hdecide => ?_⟩)
      simp [hp, hdecide] at hother
    · rename_i hother
      refine .pure (hok _ true hgoing hearly hquiet ⟨?_, ?_⟩)
      · exact ⟨planId, plan, approvalId, approval', destructive, hgoing.confirmed, hid₀,
          ⟨e, by simp, hshown⟩, hconsistent, hstate, boolean_ok hdestructive,
          hsup.trans (not_not.mp hsupplied), hwr.trans (not_not.mp hwrong)⟩
      · intro p hp
        by_contra hne
        rw [hpending, hp] at hother
        simp [hne] at hother
  · rename_i hstate
    have hstate : approval'.get "state" ≠ .str "pending" := fun h => hstate (Json.pyEq_str.mpr h)
    split
    · rename_i happroved
      refine .pure (hok _ false hgoing hearly hquiet (.inr ?_))
      exact ⟨planId, plan, approvalId, approval', h, e, [], hgoing.confirmed, hid₀, by simp, hshown,
        hconsistent, .inl (Json.pyEq_str.mp happroved)⟩
    · rename_i happroved
      exact hrefuse (.inr ⟨hstate, fun h => happroved (Json.pyEq_str.mpr h)⟩)

/-- A run that is known not to call for attention. -/
theorem StatusEnd.progress {tr : Trace} {result : ClientResult} (hend : StatusEnd j tr result)
    (hnone : j.pendingRequest = none) (hstatus : result.status ≠ .attentionRequired)
    (hrun : j.coordinates.runId.isSome) :
    j.phase ≠ .attentionRequired ∧ ∃ execution, RunListed j.coordinates tr execution ∧
      execution ≠ .failed ∧ execution ≠ .unverified := by
  cases hend with
  | unread _ _ _ hresult => exact absurd hresult.status hstatus
  | unlisted _ hattention => exact absurd hattention hstatus
  | complete problem shown execution hseen hknown _ _ hresult =>
    have hidle := hresult.2 hnone
    rw [hidle.status] at hstatus
    have hcalm : needsAttention j problem execution shown = false := by
      by_contra h
      rw [Bool.not_eq_false] at h
      rw [h] at hstatus
      exact hstatus rfl
    rw [hcalm] at hstatus
    refine ⟨fun hphase => hstatus (by rw [hphase]; rfl), ?_⟩
    cases execution with
    | none =>
      rw [hknown rfl] at hrun
      cases hrun
    | some execution =>
      refine ⟨execution, hseen, ?_, ?_⟩
      · rintro rfl
        simp [needsAttention] at hcalm
      · rintro rfl
        simp [needsAttention] at hcalm

/-- The progress gate. -/
theorem Abides.progressGate {R : Trace → World → Unit → Prop}
    (hg : Going rt profile args j₀ planId plan h w j) (he : Early j₀ h j) (hquiet : Quiet .planRuns h)
    (hok : ∀ tr, Going rt profile args j₀ planId plan (h ++ tr) w j → Early j₀ (h ++ tr) j →
      ProgressPassed j₀ (h ++ tr) → R (h ++ tr) w ()) :
    Abides rt docs ref (applyTerms rt docs args j₀) (ApplyEnd rt docs args j₀)
      (Client.progressGate rt profile j) R h w := by
  have hpending : j.pendingRequest = j₀.pendingRequest := he.ahead.pending
  have hrun : j.coordinates.runId = j₀.coordinates.runId :=
    Option.map_injective (fun _ _ => Coordinate.json_injective) (he.ahead.other .runId (by decide))
  unfold Client.progressGate
  split
  swap
  · rename_i hnone
    refine .pure ?_
    have hprogress : ProgressPassed j₀ h := by
      intro runId hid _
      rw [← hrun] at hid
      exact absurd (by simp [Coordinates.has, Coordinates.value?, hid]) hnone
    simpa using hok [] (by simpa using hg) (by simpa using he) (by simpa using hprogress)
  rename_i hsome
  have hsome : j.coordinates.runId.isSome := by
    simpa [Coordinates.has, Coordinates.value?] using hsome
  have hreads := reads_publicStatus rt profile j
  refine .bind (.reads hreads.neutral (fun tr observed hr => ?_) fun tr result hr =>
    absurd hr (hreads.stays tr result))
  have hend := runs_publicStatus_ok hr
  have hcommands := commands_of_neutral hreads.neutral hr
  split
  · rename_i hattention
    rw [Bool.and_eq_true, beq_iff_eq, Option.isNone_iff_eq_none, hpending] at hattention
    exact .returnNow (.stalled j h tr he.ahead he.phase hattention.1 rfl he.unsent hquiet hend
      hattention.2)
  rename_i hcalm
  split
  · exact .doubt hg.holds.durable (.refl j) hg.pending (by decide)
  split
  · exact .doubt hg.holds.durable (.refl j) hg.pending (by decide)
  refine .pure (hok tr (hg.reads hcommands) (he.reads hcommands) fun runId hid hnone => ?_)
  have hstatus : observed.status ≠ .attentionRequired := by
    intro hattention
    refine hcalm ?_
    rw [hpending, hnone, hattention]
    rfl
  obtain ⟨hphase, execution, ⟨runId', item, hid', hlisted⟩, hgood⟩ :=
    hend.progress (hpending.trans hnone) hstatus hsome
  refine ⟨he.phase ▸ hphase, tr, execution, ⟨h, [], by simp⟩, ⟨runId', item, hrun ▸ hid', hlisted⟩,
    hgood⟩

end Gates

end Client

end ControlPlaneKit
