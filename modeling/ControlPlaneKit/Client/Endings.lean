import ControlPlaneKit.Client.Reapply
import ControlPlaneKit.Interaction.Course

/-!
# How invocations end

Rules for the results of a block, whatever the answers, and what follows from them for every
invocation: a result belongs to the operation, the public status projects the journal it was
called with, and so does an `apply` in a phase that is over. `Directory.Course` is the course of
one process among the others.
-/

namespace ControlPlaneKit

namespace Client

open Interaction

/-! ### How invocations end -/

section Ends

variable {rt : Runtime} {profile : ClientProfile} {ref : OperationRef} {α : Type}
  {E : Trace → ClientResult → Prop} {h : Trace} {j : Journal}

/-- The results of an invocation are those of its block. -/
theorem Ends.conclude {block : Block ClientResult} (hblock : Ends E block E []) {tr : Trace}
    {result : ClientResult} (hr : (Client.conclude block).Runs tr (.ok result)) : E tr result := by
  rcases hr.handle_cases with ⟨a, h₁, ⟨⟩⟩ | ⟨e, tr₁, tr₂, rfl, h₁, h₂⟩
  · exact hblock tr _ h₁
  · cases e with
    | error e => cases h₂
    | returned result' =>
      cases h₂
      rw [List.append_nil]
      exact hblock tr₁ _ h₁

theorem Ends.weaken {E' : Trace → ClientResult → Prop} {p : Block α} {R : Trace → α → Prop}
    (hp : Ends E p R h) (hE : ∀ h result, E h result → E' h result) : Ends E' p R h := by
  intro tr r hr
  have hends := hp tr r hr
  rcases r with (_ | result) | a
  · trivial
  · exact hE _ _ hends
  · exact hends

/-- The rule for blocks that end with a value or an exception. -/
theorem Ends.reads {p : Block α} {R : Trace → α → Prop} (hp : Reads p)
    (hR : ∀ tr a, p.Runs tr (.ok a) → R (h ++ tr) a) : Ends E p R h := by
  intro tr r hr
  rcases r with (_ | result) | a
  · trivial
  · exact absurd hr (hp.stays tr result)
  · exact hR tr a hr

theorem Ends.load {R : Trace → Journal → Prop}
    (hR : ∀ j, j.Valid ref → j.target = profile.target rt → R (h ++ [⟨.read ref, .found j⟩]) j) :
    Ends E (Client.load rt profile ref) R h := by
  unfold Client.load readJournal
  refine .bind (.perform fun a => ?_)
  cases a with
  | failed message => exact .raise
  | found j =>
    refine .bind (.lift fun _ hvalid => .pure ?_)
    split
    · exact .raise
    · rename_i htarget
      exact .pure (hR j (validateJournal_eq_ok.mp hvalid) (not_not.mp htarget))

theorem Ends.writeJournal {R : Trace → Unit → Prop} (hR : R (h ++ [wrote ref j]) ()) :
    Ends E (Client.writeJournal rt ref j) R h := by
  unfold Client.writeJournal
  refine .bind (.lift fun _ _ => .perform fun a => ?_)
  cases a with
  | stored => exact .pure hR
  | failed message published => exact .raise

theorem Ends.stopUnpersisted {R : Trace → α → Prop} {execution : Execution}
    {advancement : Advancement} {next : ReadRoute}
    (hE : E h (attentionResult profile j execution advancement next)) :
    Ends E (Client.stopUnpersisted rt profile j execution advancement next) R h := by
  unfold Client.stopUnpersisted attention
  rw [if_neg Bool.false_ne_true]
  exact .bind (.pure (.returnNow hE))

/-- The rule for a dispatched request: its response is recorded, or the invocation ends with
attention. -/
theorem Ends.dispatchPending {R : Trace → Fields × Journal → Prop} {p : Pending} {body : Fields}
    (hp : j.pendingRequest = some p)
    (hE : ∀ tr execution advancement next,
      E (h ++ tr) (attentionResult profile j execution advancement next))
    (hR : ∀ response next, next.operationRef = j.operationRef →
      R (h ++ [⟨.call ⟨j.operationRef, profile.endpoint,
        .command p.routeId, p.pathParameters, body, p.credentialRole⟩, .reply response⟩,
      wrote j.operationRef next]) (response, next)) :
    Ends E (Client.dispatchPending rt profile j body) R h := by
  have hunresolved : ∀ tr, Ends E (stopUnresolved rt profile j p.routeId : Block Fields)
      (fun _ _ => False) (h ++ tr) := fun tr => .stopUnpersisted (hE tr _ _ _)
  have hunresolved' : ∀ tr, Ends E (stopUnresolved rt profile j p.routeId) R (h ++ tr) :=
    fun tr => .stopUnpersisted (hE tr _ _ _)
  unfold Client.dispatchPending
  rw [hp]
  refine .bind (.perform fun a => ?_)
  cases a with
  | unresolved message => exact (hunresolved _).mono fun _ _ => False.elim
  | refused => exact .raise
  | unconfigured message => exact .raise
  | reply response =>
    refine .pure (.bind (.lift fun bound _ => ?_))
    split
    · refine .bind (.lift fun projection _ => ?_)
      split
      · exact .stopUnpersisted (hE _ _ _ _)
      · refine .bind (.writeJournal (.pure ?_))
        rw [List.append_assoc]
        exact hR response _ rfl
    · exact hunresolved' _

end Ends

/-! ### Results projected from a journal -/

/-- The result projects a journal of this operation in this phase. -/
def Projects (ref : OperationRef) (phase : Phase) (result : ClientResult) : Prop :=
  ∃ (profile : ClientProfile) (j : Journal) (attention : Bool) (execution : Option Execution)
    (advancement : Option Advancement) (next : Option ReadRoute) (changes : List Change)
    (approval : Option (Coordinate × Bool)), j.operationRef = ref ∧ j.phase = phase ∧
      result = projectJournal profile j attention execution advancement next changes approval

section Projects

variable {rt : Runtime} {profile : ClientProfile} {ref : OperationRef} {phase : Phase} {α : Type}
  {h : Trace} {j : Journal} {result : ClientResult}

theorem Projects.attention (hj : j.operationRef = ref) (hphase : j.phase = phase)
    (execution : Execution) (advancement : Advancement) (next : ReadRoute) :
    Projects ref phase (attentionResult profile j execution advancement next) :=
  ⟨profile, j, true, _, _, _, _, _, hj, hphase, rfl⟩

theorem Projects.status (hj : j.operationRef = ref) (hphase : j.phase = phase) {attention : Bool}
    {execution : Option Execution} {advancement : Option Advancement} {next : Option ReadRoute}
    {changes : List Change} {approval : Option Fields}
    (h : statusFromJournal profile j attention execution advancement next changes approval =
      .ok result) : Projects ref phase result := by
  unfold statusFromJournal at h
  split at h
  · cases h
    exact ⟨profile, j, attention, _, _, _, _, _, hj, hphase, rfl⟩
  · obtain ⟨scope, -, h⟩ := Raise.bind_eq_ok.mp h
    obtain ⟨destructive, -, h⟩ := Raise.bind_eq_ok.mp h
    cases h
    exact ⟨profile, j, attention, _, _, _, _, _, hj, hphase, rfl⟩

/-- A guarded read of the status ends the call with a projection, or goes on. -/
theorem observe_projects (hj : j.operationRef = ref) (hphase : j.phase = phase) {seen : Observed}
    {block : Block α} (hblock : Reads block) : Ends (fun _ => Projects ref phase)
      (observe profile j seen block) (fun _ _ => True) h := by
  refine .exceptUnresolved hblock (fun _ _ _ => trivial) fun tr => ?_
  exact .bind (.lift fun result hresult => .returnNow (.status hj hphase hresult))

/-- **Every result of the public status** projects the journal it was called with. -/
theorem publicStatus_projects (hj : j.operationRef = ref) (hphase : j.phase = phase) :
    Ends (fun _ => Projects ref phase) (publicStatus rt profile j) (fun _ => Projects ref phase) h := by
  have hreads : ∀ {β : Type} {seen : Observed} {block : Block β} {h : Trace}, Reads block →
      Ends (fun _ => Projects ref phase) (observe profile j seen block) (fun _ _ => True) h :=
    fun hblock => observe_projects hj hphase hblock
  -- the reads in their order; each either goes on or ends in a projection of this journal
  refine .returning (.bind ((hreads ?_).mono fun h current _ => ?_))
  · exact (reads_readWorkspace profile _).bind fun _ => .lift _
  refine .bind (Ends.mono (R := fun _ _ => True) ?_ fun h planned _ => ?_)
  · unfold observePlan
    split
    · exact .pure trivial
    · refine .bind ((hreads ?_).mono fun _ _ _ => .pure trivial)
      exact (reads_planDetail profile _ _).bind fun _ => (Reads.lift _).bind fun _ =>
        (Reads.lift _).bind fun _ => .pure _
  refine .bind (Ends.mono (R := fun _ _ => True) ?_ fun h asked _ => ?_)
  · unfold observeApproval
    split
    · exact .pure trivial
    · refine .bind ((hreads ?_).mono fun h read _ => ?_)
      · split
        · exact .raise _
        · exact (reads_approvalDetail profile _ _).bind fun _ => .pure _
      · refine .bind ((hreads (.lift _)).mono fun h _ _ => ?_)
        split
        · exact .raise
        · exact .pure trivial
  refine .bind (Ends.mono (R := fun _ _ => True) ?_ fun h seen _ => ?_)
  · unfold observeRun
    split
    · exact .pure trivial
    · refine .bind ((hreads ?_).mono fun h items _ => ?_)
      · exact (Reads.lift _).bind fun _ => reads_readPages rt profile _ _ _
      · split
        · refine .bind (.lift fun execution _ => .bind ((hreads ?_).mono fun _ _ _ => .pure trivial))
          exact reads_readPages rt profile _ _ _
        · exact .returnNow ⟨profile, j, true, _, _, _, _, _, hj, hphase, rfl⟩
  refine .bind (Ends.mono (R := fun _ _ => True) ?_ fun h seen' _ => ?_)
  · refine .bind (Ends.mono (R := fun _ _ => True) ?_ fun _ _ _ => .pure trivial)
    unfold observeCurrent
    split
    · exact .pure trivial
    · refine hreads ?_
      exact (reads_readPublic profile _ _ _ _).bind fun _ => (Reads.lift _).bind fun _ =>
        (Reads.lift _).bind fun _ => .pure _
  refine .lift fun result hresult => ?_
  unfold observedStatus at hresult
  split at hresult
  · exact .status hj hphase hresult
  · exact .status hj hphase hresult

/-- A status of the operation projects the journal it loads. -/
theorem status_projects {reference : Text} {tr : Trace}
    (hr : (status rt profile reference).Runs tr (.ok result)) :
    ∃ ref j, ⟨.read ref, .found j⟩ ∈ tr ∧ j.Valid ref ∧ Projects ref j.phase result := by
  let E : Trace → ClientResult → Prop := fun h result =>
    ∃ ref j, ⟨.read ref, .found j⟩ ∈ h ∧ j.Valid ref ∧ Projects ref j.phase result
  have hblock : Ends E (do
      let operationRef ← lift (canonicalOperationRef reference)
      let journal ← load rt profile operationRef
      publicStatus rt profile journal) E [] := by
    refine .bind (.lift fun ref _ => .bind (.load fun j hvalid _ => ?_))
    intro tr r hr
    have hends := publicStatus_projects (h := [⟨.read ref, .found j⟩]) hvalid.identity rfl tr r hr
    rcases r with (_ | result) | result
    · trivial
    · exact ⟨ref, j, by simp, hvalid, hends⟩
    · exact ⟨ref, j, by simp, hvalid, hends⟩
  exact Ends.conclude hblock hr

end Projects

/-! ### Results belong to the operation of the invocation -/

section Belongs

variable {rt : Runtime} {profile : ClientProfile} {ref : OperationRef} {α : Type} {h : Trace}
  {j : Journal} {plan : Fields} {planId : Coordinate}

/-- The result belongs to the operation, whatever happened. -/
abbrev Belongs (ref : OperationRef) : Trace → ClientResult → Prop :=
  fun _ result => result.operationRef = ref

/-- So does the journal. -/
abbrev Keeps (ref : OperationRef) : Trace → Journal → Prop :=
  fun _ j => j.operationRef = ref

theorem stop_belongs {R : Trace → α → Prop} (hj : j.operationRef = ref) {execution : Execution}
    {advancement : Advancement} {next : ReadRoute} :
    Ends (Belongs ref) (stop rt profile j execution advancement next) R h :=
  .stop fun _ => hj

theorem dispatchPending_belongs {body : Fields} (hj : j.operationRef = ref) :
    Ends (Belongs ref) (dispatchPending rt profile j body) (fun h x => Keeps ref h x.2) h := by
  cases hp : j.pendingRequest with
  | none =>
    unfold dispatchPending
    rw [hp]
    exact .raise
  | some p => exact .dispatchPending hp (fun _ _ _ _ => hj) fun response next hnext => hnext.trans hj

theorem mutate_belongs {route : CommandRoute} {path : PathParameters} {body : Fields}
    {key : OperationRef} {role : Role} {source : Option DesiredSource} (hj : j.operationRef = ref) :
    Ends (Belongs ref) (mutate rt profile j route path body key role source)
      (fun h x => Keeps ref h x.2) h := by
  unfold mutate
  split
  · exact stop_belongs hj
  refine .bind (.lift fun digest _ => ?_)
  split
  · exact .raise
  · exact .bind (.writeJournal (dispatchPending_belongs hj))

theorem recoverPending_belongs (hj : j.operationRef = ref) :
    Ends (Belongs ref) (recoverPending rt profile j) (Keeps ref) h := by
  unfold recoverPending
  split
  · refine .bind (Ends.mono (R := fun h x => Keeps ref h x.2) ?_ fun _ _ hx => .pure hx)
    unfold replayPending
    split
    · exact .raise
    rename_i p hp
    refine .bind (Ends.mono (R := fun _ _ => True) ?_ fun _ body _ => .bind (.lift fun digest _ => ?_))
    · unfold replayBody
      split
      · split
        · exact .raise
        · refine .bind (.lift fun path _ => .bind (.reads (reads_readDesired rt _) fun _ read _ => ?_))
          obtain ⟨verified, desired⟩ := read
          dsimp only
          split
          · exact stop_belongs hj
          · exact .pure trivial
      · exact .pure trivial
    · split
      · exact stop_belongs hj
      · exact dispatchPending_belongs hj
  · exact .pure hj

theorem executeSteps_belongs {runId : Coordinate} {generation steps : ℕ} :
    ∀ {j h}, j.operationRef = ref →
      Ends (Belongs ref) (executeSteps rt profile runId generation steps j) (Keeps ref) h := by
  induction steps with
  | zero =>
    intro j h hj
    exact stop_belongs hj
  | succ steps ih =>
    intro j h hj
    refine .bind (.reads reads_newKey fun _ key _ => .bind ((mutate_belongs hj).mono fun _ x hx => ?_))
    refine .bind (.lift fun status _ => ?_)
    split
    · split
      · exact .pure hx
      · exact stop_belongs hx
    · split
      · exact ih hx
      · exact stop_belongs hx

theorem advanceCurrent_belongs {runId : Coordinate} {generation : ℕ} (hj : j.operationRef = ref) :
    Ends (Belongs ref) (advanceCurrent rt profile j plan planId runId generation) (Keeps ref) h := by
  unfold advanceCurrent
  split
  · exact .pure hj
  refine .bind (Ends.mono (R := fun _ _ => True) ?_ fun _ current _ => ?_)
  · refine .exceptUnresolved ?_ (fun _ _ _ => trivial) fun _ => stop_belongs hj
    exact (reads_readWorkspace profile _).bind fun _ => .lift _
  split
  · exact stop_belongs hj
  refine .bind (.lift fun _ _ => .bind (.lift fun _ _ => ?_))
  split
  · exact stop_belongs hj
  · exact .bind (.lift fun _ _ => .bind (.lift fun _ _ => .bind (.lift fun _ _ =>
      .bind (.reads reads_newKey fun _ key _ => .bind ((mutate_belongs hj).mono fun _ x hx =>
        .pure hx)))))

/-- The part of `apply` from the admission on stays with its operation. -/
theorem applyFromAdmission_belongs (hj : j.operationRef = ref) :
    Ends (Belongs ref) (applyFromAdmission rt profile j plan planId) (Belongs ref) h := by
  refine .bind (Ends.mono (R := Keeps ref) ?_ fun h j hj => ?_)
  · unfold admitDeployment
    split
    · exact .pure hj
    · exact .bind (.lift fun _ _ => .bind (.lift fun _ _ => .bind (.reads reads_newKey fun _ _ _ =>
        .bind ((mutate_belongs hj).mono fun _ x hx => .pure hx))))
  refine .bind (Ends.mono (R := Keeps ref) ?_ fun h j hj => ?_)
  · unfold claimRun
    split
    · exact .pure hj
    · exact .bind (.lift fun _ _ => .bind (.reads reads_newKey fun _ _ _ =>
        .bind ((mutate_belongs hj).mono fun _ x hx => .pure hx)))
  refine .bind (.lift fun runId _ => .bind (.lift fun generation _ => ?_))
  refine .bind (Ends.mono (R := Keeps ref) ?_ fun h j hj => ?_)
  · unfold startRun
    split
    · refine .bind (.reads reads_newKey fun _ _ _ => .bind ((mutate_belongs hj).mono fun _ x hx => ?_))
      dsimp only
      split
      · exact .pure hx
      · exact stop_belongs hx
    · exact .pure hj
  refine .bind (Ends.mono (R := Keeps ref) ?_ fun h j hj => ?_)
  · unfold executeRun
    split
    · exact .pure hj
    · exact executeSteps_belongs hj
  refine .bind ((advanceCurrent_belongs hj).mono fun h j hj => ?_)
  unfold readBack
  refine .bind (.exceptUnresolved (reads_readPublic profile _ _ _ _) (fun _ _ _ => ?_)
    fun _ => stop_belongs hj)
  split
  · exact .bind (.writeJournal (.pure hj))
  · exact stop_belongs hj

/-- `apply` after its gates stays with its operation. -/
theorem applyCommands_belongs {approvalPending : Bool} (hj : j.operationRef = ref) :
    Ends (Belongs ref) (applyCommands rt profile j plan planId approvalPending) (Belongs ref) h := by
  unfold applyCommands
  refine .bind ((recoverPending_belongs hj).mono fun h j hj => .bind ?_)
  unfold stopIfOver
  split
  · exact .returnNow hj
  split
  · exact .returnNow hj
  refine .pure (.bind (Ends.mono (R := Keeps ref) ?_ fun h j hj => applyFromAdmission_belongs hj))
  unfold decideIf
  split
  · unfold decideApproval
    split
    · exact .raise
    · refine .bind (.lift fun _ _ => .bind (.reads reads_newKey fun _ _ _ =>
        .bind ((mutate_belongs hj).mono fun _ x hx => ?_)))
      dsimp only
      split
      · exact .pure hx
      · exact stop_belongs hx
  · exact .pure hj

end Belongs

/-! ### A phase that is over -/

/-- The phases of an operation that is not to be applied. -/
def Phase.Over (phase : Phase) : Prop :=
  phase = .noChanges ∨ phase = .attentionRequired

/-- Nothing is pending in a phase that is over. -/
theorem Phase.Over.pending {ref : OperationRef} {j : Journal} (hover : j.phase.Over)
    (hj : j.Valid ref) : j.pendingRequest = none := by
  cases hp : j.pendingRequest with
  | none => rfl
  | some p =>
    have hphase := (hj.pending p hp).phase
    rcases hover with h | h <;> rw [h] at hphase <;> cases hroute : p.routeId <;>
      rw [hroute] at hphase <;> simp [pendingPhases] at hphase

section Over

variable {rt : Runtime} {profile : ClientProfile} {ref : OperationRef} {phase : Phase} {α : Type}
  {h : Trace} {j : Journal} {plan : Fields} {args : ApplyArguments}

/-- The journal is the loaded one, up to plan coordinates. -/
structure Retains (j j' : Journal) : Prop where
  identity : j'.operationRef = j.operationRef
  phase : j'.phase = j.phase
  pending : j'.pendingRequest = j.pendingRequest

/-- The result projects the loaded journal. -/
abbrev ProjectsLoaded (j : Journal) : Trace → ClientResult → Prop :=
  fun _ => Projects j.operationRef j.phase

variable {j' : Journal}

theorem Retains.stops {R : Trace → α → Prop} (hj : Retains j j') {execution : Execution}
    {advancement : Advancement} {next : ReadRoute} : Ends (ProjectsLoaded j)
      (Client.stop rt profile j' execution advancement next) R h :=
  .stop fun _ => .attention hj.identity hj.phase execution advancement next

theorem confirmPlan_projects (hj : Retains j j') (planId : Coordinate) :
    Ends (ProjectsLoaded j) (confirmPlan rt profile j' planId) (fun _ _ => True) h := by
  refine .exceptUnresolved ?_ (fun _ _ _ => trivial) fun _ => hj.stops
  exact (reads_planDetail profile _ _).bind fun _ => (Reads.lift _).bind fun _ => .pure _

theorem retainPlan_projects (hj : Retains j j') :
    Ends (ProjectsLoaded j) (retainPlan rt j' plan) (fun _ => Retains j) h := by
  unfold retainPlan
  split
  · exact .pure hj
  · exact .bind (.lift fun c _ => .bind (.writeJournal (.pure ⟨hj.identity, hj.phase, hj.pending⟩)))

theorem approvalGate_projects (hj : Retains j j') (planId : Coordinate) :
    Ends (ProjectsLoaded j) (approvalGate rt profile j' plan planId args) (fun _ _ => True) h := by
  unfold approvalGate
  split
  · exact .pure trivial
  · refine .bind (Ends.mono (R := fun _ _ => True) ?_ fun h approval _ => ?_)
    · refine .exceptUnresolved ?_ (fun _ _ _ => trivial) fun _ => hj.stops
      exact (reads_approvalDetail profile _ _).bind fun _ => (Reads.lift _).bind fun _ => .pure _
    · split
      · refine .bind (.lift fun destructive _ => ?_)
        generalize (if destructive then args.approveDestructivePlan else args.approvePlan) = supplied
        generalize (if destructive then args.approvePlan else args.approveDestructivePlan) = wrong
        dsimp only
        split
        · exact .raise
        · split
          · exact .raise
          · split
            · exact hj.stops
            · exact .pure trivial
      · split
        · exact .pure trivial
        · exact hj.stops

theorem progressGate_projects (hj : Retains j j') :
    Ends (ProjectsLoaded j) (progressGate rt profile j') (fun _ _ => True) h := by
  unfold progressGate
  split
  · refine .bind ((publicStatus_projects hj.identity hj.phase).mono fun h observed hobserved => ?_)
    split
    · exact .returnNow hobserved
    · split
      · exact hj.stops
      · split
        · exact hj.stops
        · exact .pure trivial
  · exact .pure trivial

/-- The gates of `apply` end it with a projection of the loaded journal, or go on with it. -/
theorem applyLoaded_ends {E : Trace → ClientResult → Prop}
    (hE : ∀ h result, ProjectsLoaded j h result → E h result)
    (hrest : ∀ h j' plan planId approvalPending, Retains j j' →
      Ends E (applyCommands rt profile j' plan planId approvalPending) E h) :
    Ends E (applyLoaded rt profile args j) E h := by
  unfold applyLoaded
  split
  · exact .raise
  refine .bind (.lift fun planId _ => ?_)
  split
  · exact .raise
  refine .bind (((confirmPlan_projects ⟨rfl, rfl, rfl⟩ planId).weaken hE).mono fun h plan _ => ?_)
  refine .bind (((retainPlan_projects ⟨rfl, rfl, rfl⟩).weaken hE).mono fun h j' hj' => ?_)
  refine .bind (((approvalGate_projects hj' planId).weaken hE).mono fun h approvalPending _ => ?_)
  exact .bind (((progressGate_projects hj').weaken hE).mono fun h _ _ => hrest _ _ _ _ _ hj')

/-- **An `apply` in a phase that is over** projects the journal it loads. -/
theorem applyLoaded_projects (hpending : j.pendingRequest = none) (hover : j.phase.Over) :
    Ends (ProjectsLoaded j) (applyLoaded rt profile args j) (ProjectsLoaded j) h := by
  refine applyLoaded_ends (fun _ _ hresult => hresult) fun h j' plan planId approvalPending hj' => ?_
  have hrecover : recoverPending rt profile j' = Pure.pure j' := by
    rw [recoverPending, hj'.pending, hpending]
    rfl
  unfold applyCommands
  rw [hrecover]
  refine .bind (.pure (.bind ?_))
  unfold stopIfOver
  rcases hover with hphase | hphase
  · rw [if_pos (hj'.phase.trans hphase)]
    exact .returnNow ⟨profile, j', false, _, _, _, _, _, hj'.identity, hj'.phase, rfl⟩
  · have hne : j'.phase ≠ .noChanges := by
      rw [hj'.phase, hphase]
      exact Phase.noConfusion
    rw [if_neg hne, if_pos (hj'.phase.trans hphase)]
    exact .returnNow ⟨profile, j', true, _, _, _, _, _, hj'.identity, hj'.phase, rfl⟩

/-- **An `apply`** loads a journal, and its result belongs to the operation; where the phase of the
journal is over, the result projects it. -/
theorem apply_projects {reference : Text} {tr : Trace} {result : ClientResult}
    (hr : (apply rt profile reference args).Runs tr (.ok result)) :
    ∃ ref j, ⟨.read ref, .found j⟩ ∈ tr ∧ j.Valid ref ∧ result.operationRef = ref ∧
      (j.phase.Over → Projects ref j.phase result) := by
  let E : Trace → ClientResult → Prop := fun h result =>
    ∃ ref j, ⟨.read ref, .found j⟩ ∈ h ∧ j.Valid ref ∧ result.operationRef = ref ∧
      (j.phase.Over → Projects ref j.phase result)
  refine Ends.conclude (E := E) ?_ hr
  refine .bind (.lift fun ref _ => ?_)
  split
  · exact .raise
  refine .bind (.perform fun a => ?_)
  cases a with
  | refused message => exact .raise
  | acquired =>
    refine .pure (show Ends E (load rt profile ref >>= applyLoaded rt profile args) E _ from
      .bind (.load fun j hvalid _ => ?_))
    obtain rfl : j.operationRef = ref := hvalid.identity
    intro tr r hr
    have hover := fun hover : j.phase.Over => applyLoaded_projects
      (h := [⟨.lock j.operationRef, .acquired⟩, ⟨.read j.operationRef, .found j⟩])
      (hover.pending hvalid) hover tr r hr
    have hbelongs : Ends (Belongs j.operationRef) (applyLoaded rt profile args j)
        (Belongs j.operationRef) [] := by
      refine applyLoaded_ends ?_ fun h j' plan planId approvalPending hj' =>
        applyCommands_belongs hj'.identity
      rintro h result ⟨_, _, _, _, _, _, _, _, hid, -, rfl⟩
      exact hid
    specialize hbelongs tr r hr
    rcases r with (_ | result) | result
    · trivial
    · exact ⟨_, j, by simp, hvalid, hbelongs, hover⟩
    · exact ⟨_, j, by simp, hvalid, hbelongs, hover⟩

end Over

/-! ### The course of an invocation -/

section Courses

variable {rt : Runtime} {docs : Set (List UInt8)} {ref : OperationRef} {c d : Directory} {i : ℕ}
  {p : Invocation} {tr : Trace} {j : Journal}

/-- From `c` on, the process `i` is started with this invocation and performs these operations. -/
abbrev Directory.Course (rt : Runtime) (docs : Set (List UInt8)) :
    Directory → ℕ → Invocation → Trace → Directory → Prop :=
  Pool.Course (answers docs) grants (IsInvocation rt)

/-- A journal that a process has found was durable at some point of its course. -/
theorem Directory.Course.found (h : Directory.Course rt docs c i p tr d)
    (he : ⟨.read ref, .found j⟩ ∈ tr) :
    ∃ b, Directory.Reaches rt docs c b ∧ (b.state ref).journal = some j := by
  obtain ⟨b, b', hb, hstep, -⟩ := h.performed he
  exact ⟨b, hb, (hstep.process_own.1 ref).2 rfl j rfl⟩

/-- A journal that a process has created was not there before. -/
theorem Directory.Course.created (h : Directory.Course rt docs c i p tr d)
    (he : ⟨.create ref j, .stored⟩ ∈ tr) :
    ∃ b, Directory.Reaches rt docs c b ∧ (b.state ref).journal = none := by
  obtain ⟨b, b', hb, hstep, -⟩ := h.performed he
  have hanswer := hstep.process_own.1 ref
  simp only [answers, StoreAnswer.published, and_self, if_true] at hanswer
  exact ⟨b, hb, hanswer.1⟩

/-- The first events of an invocation that runs alone are a course, after which it may leave. -/
theorem Directory.Course.run {w w' : World} (hp : IsInvocation rt p) {tr' : Trace}
    {out : Option (Except ClientError ClientResult)}
    (h : Exec (answers docs ref) w p (tr ++ tr') w' out) (htr : ∀ e ∈ tr, OfOnly docs ref e)
    (hlock : granted grants tr ≤ 1) : ∃ d w₁ q, Directory.Course rt docs (.only ref w) 0 p tr d ∧
      d.state ref = w₁ ∧ d.process 0 = some q ∧ Exec (answers docs ref) w₁ q tr' w' out ∧
        Directory.Reaches rt docs d (.only ref w₁) := by
  obtain ⟨w₁, q, hresidual, hexec⟩ := h.split
  have hself : Residual (answers docs ref) (Function.update (fun _ => World.empty) ref w ref) p tr w₁
      q := by rwa [Function.update_self]
  obtain ⟨d, hcourse, hstate, hprocess, hleave⟩ := Pool.Course.alone hp hself
    (fun e he => (htr e he).local) hlock
  rw [Function.update_idem] at hstate
  refine ⟨d, w₁, q, hcourse, by rw [hstate, Function.update_self], hprocess, hexec, ?_⟩
  rw [hstate] at hleave
  exact hleave

end Courses

end Client

end ControlPlaneKit
