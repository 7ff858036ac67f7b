import ControlPlaneKit.Client.StatusReport

/-!
# The terms of an apply invocation

What an invocation of `apply` that loaded the journal `j₀` may do (`applyTerms`) and how it may
end (`ApplyEnd`). A decision is dispatched only where the flag for it was passed, or as the replay
of the loaded decision; the commands after it only where the plan and its approval were confirmed;
and a command that is no replay only where every gate of `apply` has let it through (`Cleared`).
Each way to end with a result names the answers that led there.
-/

namespace ControlPlaneKit

namespace Client

open Interaction

/-! ### Commands in a trace -/

/-- The event is a command. -/
def isCommand (e : Event Op Op.Answer) : Bool :=
  match e.op with
  | .call call => !call.route.isRead
  | _ => false

/-- The number of commands dispatched. -/
def commands (h : Trace) : ℕ :=
  h.countP isCommand

@[simp]
theorem commands_append (h h' : Trace) : commands (h ++ h') = commands h + commands h' :=
  List.countP_append

@[simp]
theorem commands_write (r : OperationRef) (j : Journal) (a : StoreAnswer) :
    commands [⟨.write r j, a⟩] = 0 :=
  rfl

@[simp]
theorem commands_wrote (r : OperationRef) (j : Journal) : commands [wrote r j] = 0 :=
  rfl

@[simp]
theorem commands_identity (value : Text) : commands [⟨.identity, value⟩] = 0 :=
  rfl

theorem commands_call {call : Call} {route : CommandRoute} (hroute : call.route = .command route)
    (a : CallAnswer) : commands [⟨.call call, a⟩] = 1 := by
  simp [commands, isCommand, hroute, Route.isRead]

theorem isCommand_of_neutral {e : Event Op Op.Answer} (he : e.op.Neutral) : isCommand e = false := by
  obtain ⟨op, a⟩ := e
  cases op with
  | call call =>
    have hread : call.route.isRead = true := he
    simp [isCommand, hread]
  | _ => rfl

/-- A run that only reads dispatches nothing. -/
theorem commands_of_neutral {α : Type} {p : Block α} {tr : Trace} {r : Except Exit α}
    (hp : p.Uses Op.Neutral) (hr : p.Runs tr r) : commands tr = 0 :=
  List.countP_eq_zero.mpr fun e he => by
    rw [isCommand_of_neutral (hr.uses hp e he)]
    exact Bool.false_ne_true

section Terms

variable (rt : Runtime) (docs : Set (List UInt8)) (args : ApplyArguments) (j₀ : Journal)

/-- The call replays the request that was pending in the loaded journal. -/
def Replays (call : Call) : Prop :=
  ∃ p, j₀.pendingRequest = some p ∧ Matches rt docs p call

/-! ### The gates -/

/-- If a run was known and nothing was pending, its status was read and calls for no attention. -/
def ProgressPassed (h : Trace) : Prop :=
  ∀ runId, j₀.coordinates.runId = some runId → j₀.pendingRequest = none →
    j₀.phase ≠ .attentionRequired ∧ ∃ tr execution, tr <:+: h ∧
      RunListed j₀.coordinates tr execution ∧ execution ≠ .failed ∧ execution ≠ .unverified

/-- A pending request was replayed, and its answer accepted without ending the operation. -/
def PendingRecovered (h : Trace) : Prop :=
  ∀ p, j₀.pendingRequest = some p → ∃ call response, ⟨.call call, .reply response⟩ ∈ h ∧
    Matches rt docs p call ∧
      responseIsBound p.routeId response p.pathParameters call.payload j₀.coordinates
        j₀.target.workspaceId = .ok true ∧
      phaseAfter p.routeId response ≠ .attentionRequired

/-- Every gate of `apply` has let the invocation through. -/
structure Cleared (h : Trace) : Prop where
  authorized : Authorized args j₀ h
  progress : ProgressPassed j₀ h
  recovered : PendingRecovered rt docs j₀ h
  open_ : j₀.phase ≠ .noChanges ∧ j₀.phase ≠ .attentionRequired

/-- The commands that need the plan's authorization. -/
def CommandRoute.isEffect : CommandRoute → Bool
  | .prepare => false
  | .decide => false
  | _ => true

/-- What an invocation that loaded `j₀` may do. -/
def applyTerms : Terms where
  allows h e :=
    match e.op with
    | .call call => ∀ route, call.route = .command route →
        (route = .decide → FlagPassed args j₀ h ∨ Replays rt docs j₀ call) ∧
          (route.isEffect = true → Authorized args j₀ h ∧
            (Replays rt docs j₀ call ∨ Cleared rt docs args j₀ h))
    | .write _ j => ∀ p, j.pendingRequest = some p → p.routeId = .decide →
        FlagPassed args j₀ h ∨ j₀.pendingRequest = some p
    | _ => True
  free h e hfree := by
    obtain ⟨op, a⟩ := e
    cases op with
    | call call =>
      intro route hroute
      have hprepare : route = .prepare := by
        by_contra hne
        exact hfree ⟨route, hroute, hne⟩
      subst hprepare
      exact ⟨nofun, nofun⟩
    | write r j => exact fun p hp hroute => absurd ⟨p, hp, hroute⟩ hfree
    | _ => trivial

/-! ### The ends -/

/-- How an invocation may end with a result. -/
inductive ApplyEnd (h : Trace) (w : World) (result : ClientResult) : Prop where
  /-- Something could not be verified, or did not go well. -/
  | doubtful (hstatus : result.status = .attentionRequired)
      (hexecution : result.execution ≠ .notStarted)
  /-- The approval is not one to rely on. -/
  | unapproved (planId approvalId : Coordinate) (plan approval : Fields) (pre : Trace)
      (e e' : Event Op Op.Answer) (hconfirmed : Confirmed args j₀ h planId plan)
      (hid : j₀.coordinates.approvalRequestId = some approvalId) (hlast : h = pre ++ [e, e'])
      (hshown : ShowsApproval approvalId approval e)
      (hconsistent : ConsistentApproval plan approvalId approval)
      (hstate : (approval.get "state" = .str "pending" ∧
          ∃ p, j₀.pendingRequest = some p ∧ p.routeId ≠ .decide) ∨
        (approval.get "state" ≠ .str "pending" ∧ approval.get "state" ≠ .str "approved"))
      (hstatus : result.status = .attentionRequired)
  /-- The status of the known run calls for attention. -/
  | stalled (j : Journal) (pre tr : Trace) (hahead : Ahead j₀ j) (hphase : j.phase = j₀.phase)
      (hpending : j₀.pendingRequest = none) (hlast : h = pre ++ tr) (hpre : commands pre = 0)
      (hquiet : Quiet .planRuns pre) (hend : StatusEnd j tr result)
      (hstatus : result.status = .attentionRequired)
  /-- The outcome of the last command is not known. -/
  | unresolved (profile : ClientProfile) (j : Journal) (p : Pending) (pre : Trace) (call : Call)
      (answer : CallAnswer) (hj : w.journal = some j) (hp : j.pendingRequest = some p)
      (hlast : h = pre ++ [⟨.call call, answer⟩]) (hroute : call.route = .command p.routeId)
      (hunresolved : Unresolved profile j p call.payload answer)
      (hresult : result = unresolvedResult profile j p.routeId)
  /-- The operation was over, or a replayed execute step ended it. -/
  | over (profile : ClientProfile) (j : Journal) (hj : w.journal = some j)
      (hphase : j.phase = .noChanges ∨ j.phase = .attentionRequired)
      (hresult : result = projectJournal profile j (j.phase == .attentionRequired) none none none
        [] none)
      (hcause : (j₀.pendingRequest = none ∧ j₀.phase = j.phase ∧
          (j₀.phase = .attentionRequired → j₀.coordinates.runId = none)) ∨
        ∃ p pre call response e, j₀.pendingRequest = some p ∧ p.routeId = .execute ∧
          h = pre ++ [⟨.call call, .reply response⟩, e] ∧ Matches rt docs p call ∧
            phaseAfter .execute response = .attentionRequired)
  /-- A command was due, and the history has no room left. -/
  | exhausted (pre : Trace) (value : Text) (e : Event Op Op.Answer)
      (hlast : h = pre ++ [⟨.identity, value⟩, e])
      (hfull : maximumRequestRecords ≤ j₀.requestHistory.length + commands pre)
      (hstatus : result.status = .attentionRequired)
  /-- The workspace has no current graph to advance from. -/
  | noCurrent (pre : Trace) (e e' : Event Op Op.Answer) (hlast : h = pre ++ [e, e'])
      (hshown : ShowsWorkspace none e) (hstatus : result.status = .attentionRequired)
  /-- The read-back shows another pointer than the desired one. -/
  | moved (j : Journal) (pre : Trace) (call : Call) (response : Fields) (e : Event Op Op.Answer)
      (hj : w.journal = some j) (hphase : j.phase = .advanced)
      (hlast : h = pre ++ [⟨.call call, .reply response⟩, e])
      (hroute : call.route = .read .currentGraph)
      (hmoved : ∀ pointer, j.coordinates.desired? = some pointer →
        ¬ (response.get "graph_id" = pointer.authoredGraphId.json ∧
          response.get "realized_projection_id" = pointer.realizedProjectionId.json))
      (hstatus : result.status = .attentionRequired)
  /-- The read-back shows the desired pointer. -/
  | converged (profile : ClientProfile) (j : Journal) (pointer : Pointer)
      (hj : w.journal = some j) (hphase : j.phase = .converged)
      (hpointer : j.coordinates.desired? = some pointer) (hshown : ∃ e ∈ h, ShowsCurrent pointer e)
      (hresult : result = projectJournal profile j false none none none [] none)

end Terms

end Client

end ControlPlaneKit
