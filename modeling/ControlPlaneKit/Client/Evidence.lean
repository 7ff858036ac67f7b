import ControlPlaneKit.Client.Preparation

/-!
# What the answers of an invocation show

Predicates on the events of one invocation of `apply` and on the journal it starts from: the plan
it confirmed, the approval it relies on, the flags it was given. They only grow along a run, so a
command that was authorized once stays authorized.
-/

namespace ControlPlaneKit

namespace Client

open Interaction

/-! ### Answered reads -/

/-- The call of a public read. -/
def readCall (profile : ClientProfile) (ref : OperationRef) (route : ReadRoute)
    (path : PathParameters) (payload : Fields) : Call :=
  ⟨ref, profile.endpoint, .read route, path, payload, .operator⟩

/-- The event answers a read of this route. -/
def IsAnswer (route : ReadRoute) (path : PathParameters) (response : Fields)
    (e : Event Op Op.Answer) : Prop :=
  ∃ call : Call, e = ⟨.call call, .reply response⟩ ∧ call.route = .read route ∧
    call.pathParameters = path

/-- The plan detail shows this plan. -/
def ShowsPlan (planId : Coordinate) (plan : Fields) (e : Event Op Op.Answer) : Prop :=
  ∃ path response, IsAnswer .planDetail path response e ∧ path.get "plan_id" = planId.json ∧
    response.get "plan" = .obj plan

/-- The approval detail shows this approval. -/
def ShowsApproval (approvalId : Coordinate) (approval : Fields) (e : Event Op Op.Answer) : Prop :=
  ∃ path response, IsAnswer .approvalDetail path response e ∧
    path.get "approval_id" = approvalId.json ∧ response.get "approval" = .obj approval

/-- The approval decision was answered with an approval. -/
def ShowsDecision (e : Event Op Op.Answer) : Prop :=
  ∃ call response, e = ⟨.call call, .reply response⟩ ∧ call.route = .command .decide ∧
    response.get "state" = .str "approved"

section Runs

variable {profile : ClientProfile} {ref : OperationRef}

theorem runs_readPublic_ok {route : ReadRoute} {path : PathParameters} {payload response : Fields}
    {tr : Trace} (h : (readPublic profile ref route path payload).Runs tr (.ok response)) :
    tr = [⟨.call (readCall profile ref route path payload), .reply response⟩] := by
  cases h with
  | @perform _ _ a _ _ h =>
    cases a with
    | reply r =>
      obtain ⟨rfl, rfl⟩ := runs_pure_ok.mp h
      rfl
    | _ => cases h

theorem mapping_ok {value members : Fields} {name : String}
    (h : mapping value name = .ok members) : value.get name = .obj members := by
  unfold mapping at h
  split at h
  · rename_i hget
    cases h
    exact hget
  · cases h

theorem runs_planDetail_ok {planId : Coordinate} {plan : Fields} {tr : Trace}
    (h : (planDetail profile ref planId).Runs tr (.ok plan)) :
    ∃ e, tr = [e] ∧ ShowsPlan planId plan e := by
  obtain ⟨value, tr₁, tr₂, rfl, h₁, h₂⟩ := h.bind_ok
  obtain ⟨rfl, hmapping⟩ := runs_lift_ok.mp h₂
  exact ⟨_, by rw [runs_readPublic_ok h₁, List.append_nil], _, value, ⟨_, rfl, rfl, rfl⟩, rfl,
    mapping_ok hmapping⟩

theorem runs_approvalDetail_ok {approvalId : Coordinate} {approval : Fields} {tr : Trace}
    (h : (approvalDetail profile ref approvalId).Runs tr (.ok approval)) :
    ∃ e, tr = [e] ∧ ShowsApproval approvalId approval e := by
  obtain ⟨value, tr₁, tr₂, rfl, h₁, h₂⟩ := h.bind_ok
  obtain ⟨rfl, hmapping⟩ := runs_lift_ok.mp h₂
  exact ⟨_, by rw [runs_readPublic_ok h₁, List.append_nil], _, value, ⟨_, rfl, rfl, rfl⟩, rfl,
    mapping_ok hmapping⟩

end Runs

/-! ### Authorization -/

/-- The approval belongs to the plan's session, and its scope is that of its kind. -/
structure ConsistentApproval (plan : Fields) (approvalId : Coordinate) (approval : Fields) :
    Prop where
  request : approval.get "request_id" = approvalId.json
  session : ∃ sessionId : Coordinate, plan.get "session_id" = sessionId.json ∧
    approval.get "session_id" = sessionId.json
  scope : ∃ destructive, approval.get "destructive" = .bool destructive ∧
    approval.get "required_scope" =
      .str (if destructive then "plan:approve-destructive" else "plan:approve")

theorem validateApproval_ok {plan : Fields} {approvalId : Coordinate} {approval : Fields} {u : Unit}
    (h : validateApproval plan approvalId approval = .ok u) {sessionId : Coordinate}
    (hsession : plan.get "session_id" = sessionId.json) :
    ConsistentApproval plan approvalId approval := by
  unfold validateApproval at h
  simp only at h
  split at h
  · cases h
  rename_i hids
  simp only [Bool.not_eq_true', Bool.not_eq_false, Bool.and_eq_true, Coordinate.pyEq_json,
    hsession] at hids
  split at h
  · cases h
  · cases h
  rename_i hscope
  split at h
  · rename_i destructive hdestructive
    split at h
    · rename_i hsame
      refine ⟨hids.1, ⟨sessionId, hsession, hids.2⟩, destructive, hdestructive, ?_⟩
      have hmember : (approval.get "required_scope") = .str "plan:approve" ∨
          (approval.get "required_scope") = .str "plan:approve-destructive" := by
        generalize approval.get "required_scope" = scope at hscope
        unfold Json.memberOf at hscope
        split at hscope
        · cases hscope
        · cases hscope
        · simpa [Json.pyEq_str] using hscope
      rw [beq_iff_eq] at hsame
      cases destructive with
      | true => exact Json.pyEq_str.mp hsame.symm
      | false =>
        refine hmember.resolve_right fun h => ?_
        rw [h, Json.pyEq_str.mpr rfl] at hsame
        cases hsame
    · cases h
  · cases h

/-- The arguments approve exactly this plan, for this kind of approval. -/
def ApplyArguments.Approve (args : ApplyArguments) (planId : Coordinate) (destructive : Bool) :
    Prop :=
  (if destructive then args.approveDestructivePlan else args.approvePlan) =
      some (.utf8 planId.text) ∧
    (if destructive then args.approvePlan else args.approveDestructivePlan) = none

section Authorization

variable (args : ApplyArguments) (j₀ : Journal)

/-- The invocation has confirmed the plan of the journal. -/
structure Confirmed (h : Trace) (planId : Coordinate) (plan : Fields) : Prop where
  names : j₀.coordinates.planId = some planId
  execute : args.executePlan = .utf8 planId.text
  shown : ∃ e ∈ h, ShowsPlan planId plan e
  agrees : PlanAgrees j₀ plan

/-- The invocation was given the approval that a pending approval request asks for. -/
def FlagPassed (h : Trace) : Prop :=
  ∃ planId plan approvalId approval destructive, Confirmed args j₀ h planId plan ∧
    j₀.coordinates.approvalRequestId = some approvalId ∧
    (∃ e ∈ h, ShowsApproval approvalId approval e) ∧
    ConsistentApproval plan approvalId approval ∧ approval.get "state" = .str "pending" ∧
    approval.get "destructive" = .bool destructive ∧ args.Approve planId destructive

/-- The invocation has confirmed the plan and its approval. -/
def Authorized (h : Trace) : Prop :=
  ∃ planId plan approvalId approval pre e post, Confirmed args j₀ h planId plan ∧
    j₀.coordinates.approvalRequestId = some approvalId ∧ h = pre ++ e :: post ∧
    ShowsApproval approvalId approval e ∧ ConsistentApproval plan approvalId approval ∧
    (approval.get "state" = .str "approved" ∨
      approval.get "state" = .str "pending" ∧
        (∃ destructive, approval.get "destructive" = .bool destructive ∧
          args.Approve planId destructive) ∧
        ∃ e' ∈ post, ShowsDecision e')

variable {args j₀} {h h' : Trace}

theorem Confirmed.extend {planId : Coordinate} {plan : Fields}
    (hc : Confirmed args j₀ h planId plan) (hh : h <+: h') : Confirmed args j₀ h' planId plan := by
  obtain ⟨e, he, hshown⟩ := hc.shown
  exact ⟨hc.names, hc.execute, ⟨e, hh.subset he, hshown⟩, hc.agrees⟩

theorem FlagPassed.extend (hf : FlagPassed args j₀ h) (hh : h <+: h') : FlagPassed args j₀ h' := by
  obtain ⟨planId, plan, approvalId, approval, destructive, hc, ha, ⟨e, he, hshown⟩, hrest⟩ := hf
  exact ⟨planId, plan, approvalId, approval, destructive, hc.extend hh, ha,
    ⟨e, hh.subset he, hshown⟩, hrest⟩

theorem Authorized.extend (ha : Authorized args j₀ h) (hh : h <+: h') : Authorized args j₀ h' := by
  obtain ⟨planId, plan, approvalId, approval, pre, e, post, hc, hid, rfl, hshown, hcons, hgrant⟩ := ha
  obtain ⟨tail, rfl⟩ := hh
  refine ⟨planId, plan, approvalId, approval, pre, e, post ++ tail, hc.extend (List.prefix_append _ _),
    hid, by simp, hshown, hcons, hgrant.imp_right ?_⟩
  rintro ⟨hpending, hflag, e', he', hdecision⟩
  exact ⟨hpending, hflag, e', List.mem_append_left _ he', hdecision⟩

end Authorization

end Client

end ControlPlaneKit
