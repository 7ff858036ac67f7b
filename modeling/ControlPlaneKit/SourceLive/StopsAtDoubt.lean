import ControlPlaneKit.Interaction.Runs
import ControlPlaneKit.SourceLive.Preparation
import Mathlib.Data.List.Induction

/-!
# The driver stops at the first doubt

The rules of `Drives` for a phase: it is prepared, approved, launched, executed, advanced and
observed, and its row is settled when it is done. They compose to the body of the driver
(`drives_drive`), and from there to every run of an invocation, whatever its calls are answered
(`runPublicGraphConvergence_stopsAtDoubt`).
-/

namespace ControlPlaneKit

namespace SourceLive

namespace Convergence

open Interaction Program

section PhaseLoop

variable {around : Surroundings} {scenario : Scenario} {r r' : ℕ ×ₗ ℕ ×ₗ ℕ} {h : History}
  {s : State} {rows : List Row} {phase : Phase} {planId : Text}

/-- The last row is the one of a phase and its plan. -/
def Working (rows : List Row) (phase : Phase) (planId : Text) (s : State) : Prop :=
  ∃ row, s.rows = (rows ++ [row], false) ∧ row.phase = phase ∧ row.planId = planId

theorem Working.new {s' : State} (row : Row) (hrows : s.rows = (rows, false))
    (hs : s'.rows = (s.report.transitions ++ [row], s.report.converged)) :
    Working rows row.phase row.planId s' := by
  obtain ⟨htransitions, hconverged⟩ := Prod.mk.inj hrows
  exact ⟨row, by rw [hs, htransitions, hconverged], rfl, rfl⟩

/-- A change of the last row. -/
theorem Drives.onRow {Q : Unit → State → History → Prop} {f : Row → Row} {row : Row}
    (hrows : s.rows = (rows ++ [row], false))
    (next : ∀ s', s'.rows = (rows ++ [f row], false) → Q () s' h) :
    Drives around scenario Q (onRow f) s h := by
  refine Drives.modify (next _ ?_)
  obtain ⟨htransitions, hconverged⟩ := Prod.mk.inj hrows
  simp [State.rows, htransitions, hconverged]

/-- Evidence leaves the coordinates of the row alone. -/
theorem Drives.evidence {Q : Unit → State → History → Prop} {key : String} {value : Json}
    (hw : Working rows phase planId s)
    (next : ∀ s', Working rows phase planId s' → Q () s' h) :
    Drives around scenario Q (evidence key value) s h := by
  obtain ⟨row, hrows, hphase, hplan⟩ := hw
  exact Drives.onRow hrows fun s' hs' => next s' ⟨_, hs', hphase, hplan⟩

theorem phase_rank_lt {t u : Step} :
    (Key.phase phase t).rank < (Key.phase phase u).rank ↔ t.rank < u.rank := by
  simp [Key.rank, Prod.Lex.toLex_lt_toLex]

/-- The retained mode goes on from the workspace that it has admitted. -/
theorem sameWorkspace_of_checkStart {start : Admitted} {v workspace : Json} {u : Unit}
    (hs : Started start h) (hv : Has v "workspace" workspace)
    (hcheck : checkStart scenario start workspace = .ok u) (hretained : scenario.retained = true) :
    ∀ e ∈ h.head?, ∃ v₀, e.answer = .returned v₀ ∧ SameWorkspace v₀ v := by
  obtain ⟨e₀, he₀, v₀, workspace₀, hanswer, hv₀, hstart⟩ := hs
  intro e he
  obtain rfl : e₀ = e := Option.mem_unique he₀ he
  simp only [checkStart, hretained, if_true, Raise.bind_eq_ok, require_eq_ok] at hcheck
  obtain ⟨start', hstart', hsame⟩ := hcheck
  exact ⟨v₀, hanswer, workspace₀, workspace, start, start', hv₀, hv, hstart, hstart', hsame⟩

/-- The preparation of a phase adds its row and reads its plan. -/
theorem Drives.prepare {Q : Prepared → State → History → Prop} {start : Admitted} {plan : Plan}
    (hg : Going scenario (Key.phase plan.phase .prepare).rank h) (hstart : Started start h)
    (hevidences : Evidences scenario h "read.workspace") (hrows : s.rows = (rows, false))
    (next : ∀ p s' h', Going scenario (Key.phase plan.phase .approve).rank h' → h <+: h' →
      Evidences scenario h' "read.workspace" → Working rows plan.phase p.planId s' →
      Planned plan.phase plan.desired p h' → Q p s' h') :
    Drives around scenario Q (prepare around scenario start plan) s h := by
  have hlt : (Key.phase plan.phase .prepare).rank < (Key.phase plan.phase .approve).rank :=
    phase_rank_lt.mpr (by simp [Step.rank, Prod.Lex.toLex_lt_toLex])
  refine Drives.bind (Drives.read hg (by decide) (by simp) hevidences fun e members he => ?_)
  refine Drives.bind (Drives.check fun workspace hworkspace => ?_)
  refine Drives.bind (Drives.check fun _ hsame => ?_)
  refine Drives.bind (Drives.check fun current hcurrent => ?_)
  cases current with
  | none => exact Drives.raise
  | some current =>
    -- The workspace was read before the command, and it is the one admitted.
    have hg₁ := hg.afterRead he (.ofWorkspace he.route ⟨workspace, current, hworkspace, hcurrent⟩
      (sameWorkspace_of_checkStart hstart hworkspace hsame))
    refine Drives.bind (Drives.modify (Drives.bind (Drives.check fun desired _ => ?_)))
    refine Drives.bind (Drives.check fun revision _ => Drives.bind ?_)
    refine Drives.ungated (.phase plan.phase .prepare) hg₁ (by decide)
      fun e₂ members₂ he₂ => ?_
    refine Drives.bind (Drives.check fun planId hplanId => ?_)
    obtain ⟨hhas, hlength⟩ := hasCoordinate_of_eq hplanId
    -- The plan is the one the command has answered with.
    have hg₂ := hg₁.afterCommand he₂ hlt ⟨planId, hhas, hlength⟩
    refine Drives.bind (Drives.modify (Drives.bind ?_))
    refine Drives.evidence (.new ⟨plan.phase, planId, .attentionRequired, none, []⟩ hrows rfl)
      fun s' hw => ?_
    refine Drives.bind (Drives.read hg₂ (by decide) (by simp) (.of_route (by decide))
      fun e₃ members₃ he₃ => ?_)
    refine Drives.bind (Drives.check fun detail hdetail => ?_)
    refine Drives.bind (Drives.check fun kept hkept => Drives.bind ?_)
    refine Drives.evidence hw fun s'' hw' => Drives.pure ?_
    have hmem : e₂ ∈ h ++ [e] ++ [e₂] := List.mem_append_right _ List.mem_cons_self
    refine next _ _ _ (hg₂.afterRead he₃ (.planDetail he₃.route hdetail ?_)) ?_ ?_ hw' ?_
    · exact fun hnone => absurd he₂.key (hnone e₂ hmem _)
    · simp only [List.append_assoc, List.prefix_append]
    · -- the last command is the preparation
      refine Evidences.append (.of_last fun e' he' p hkey => ?_) fun e' he' => ?_
      · rw [lastCommand?_concat he₂.key, Option.mem_some] at he'
        rw [← he', he₂.key] at hkey
        cases hkey
      · rw [List.mem_singleton.mp he']
        exact he₃.key
    · refine ⟨⟨e₂, List.mem_append_left _ hmem, he₂.key, ?_⟩, ⟨e₃, List.mem_append_right _
        List.mem_cons_self, he₃.route, ?_, _, he₃.answer, hdetail⟩, _, hkept⟩
      · rw [he₂.argument? (by decide) (by decide)]
        simp
      · rw [he₃.argument? (by decide) (by decide)]
        simp

end PhaseLoop

section Gated

variable {around : Surroundings} {scenario : Scenario} {r r' : ℕ ×ₗ ℕ ×ₗ ℕ} {h : History}
  {s : State} {rows : List Row} {phase : Phase} {planId : Text}

theorem ReadChecked.ofApproval {c : Call} {v approval : Json}
    (hc : c.route = "read.approval-detail") (happroval : Has v "approval" approval)
    (hrequest : Echoes approval "request_id" c "approval_id")
    (hstate : Has approval "state" (.str "pending") ∨ Has approval "state" (.str "approved")) :
    ReadChecked scenario h c v where
  page hmem := by simp [pagedRoutes, hc] at hmem
  workspace heq := by simp [hc] at heq
  plan heq := by simp [hc] at heq
  approval _ := ⟨approval, happroval, hrequest, hstate⟩
  graph heq := by simp [hc] at heq

/-- A member that is one of some texts is one of them. -/
theorem pending_scope {approval : Json} {u : Unit} (hcheck : checkScope approval = .ok u) :
    Has approval "required_scope" (.str "plan:approve") ∨
      Has approval "required_scope" (.str "plan:approve-destructive") := by
  obtain ⟨scope, hscope, hclosed⟩ := Raise.bind_eq_ok.mp hcheck
  split at hclosed
  · cases hclosed
  · rename_i closed hmember
    rw [require_eq_ok] at hclosed
    obtain ⟨t, ht, rfl⟩ := Json.memberOf_eq_some_true (hclosed ▸ hmember)
    simp only [List.mem_cons, List.not_mem_nil, or_false] at ht
    rcases ht with rfl | rfl
    · exact .inl hscope
    · exact .inr hscope

/-- What the checks on a pending approval establish. -/
theorem pending_of_checkApproval {p : Prepared} {approvalId sessionId : Text} {approval : Json}
    {u : Unit} (hcheck : checkApproval scenario phase p approvalId sessionId approval = .ok u) :
    Has p.plan "plan_id" (.str p.planId) ∧ Pending scenario phase (.str approvalId) approval := by
  unfold checkApproval at hcheck
  simp only [Raise.bind_eq_ok, require_eq_ok] at hcheck
  obtain ⟨_, hplan, _, rfl, _, hrequest, _, rfl, _, hstate, _, rfl, _, -, _, -, _, -, _, -, _,
    hscope, _, hdestructive, hremoval⟩ := hcheck
  refine ⟨has_of_agrees hplan (by simp), has_of_agrees hrequest (by simp),
    has_of_agrees hstate (by simp), pending_scope hscope, fun hretained htrue => ?_, fun hp => ?_⟩
  · simpa [checkDestructive, hretained, htrue] using hdestructive
  · simp only [checkRemoval, hp, if_true, Raise.bind_eq_ok] at hremoval
    obtain ⟨destructive, hhas, hrest⟩ := hremoval
    split at hrest
    · simp only [Raise.bind_eq_ok, require_eq_ok, isText, Json.pyEq_str] at hrest
      obtain ⟨scope, hscope, rfl⟩ := hrest
      exact ⟨hhas, hscope⟩
    · cases hrest

/-- What the checks on the approval that is read back establish. -/
theorem approved_of_checkApproved {approvalId : Text} {approved : Json} {u : Unit}
    (hcheck : checkApproved approvalId approved = .ok u) :
    Has approved "state" (.str "approved") ∧ Has approved "request_id" (.str approvalId) ∧
      ∃ decision actor requester, Has approved "decision" decision ∧
        Has decision "actor_id" actor ∧ Has approved "requested_by" requester ∧
        actor.pyEq requester = false := by
  unfold checkApproved at hcheck
  simp only [Raise.bind_eq_ok, require_eq_ok] at hcheck
  obtain ⟨_, hagrees, _, rfl, decision, hdecision, actor, hactor, requester, hrequester, hne⟩ :=
    hcheck
  refine ⟨has_of_agrees hagrees (by simp), has_of_agrees hagrees (by simp), decision, actor,
    requester, hdecision, hactor, hrequester, by simpa using hne⟩

/-- An approval is decided after it was reviewed, and read back. -/
theorem Drives.approve {Q : Approved → State → History → Prop} {p : Prepared}
    (hg : Going scenario (Key.phase phase .approve).rank h) (hw : Working rows phase planId s)
    (next : ∀ a s' h', Going scenario (Key.phase phase .admission).rank h' → h <+: h' →
      Working rows phase planId s' → IsApproved phase h' →
      Has p.plan "plan_id" (.str p.planId) → Q a s' h') :
    Drives around scenario Q (approve around scenario phase p) s h := by
  have hlt : (Key.phase phase .approve).rank < (Key.phase phase .admission).rank :=
    phase_rank_lt.mpr (by simp [Step.rank, Prod.Lex.toLex_lt_toLex])
  refine Drives.bind (Drives.check fun approvalId _ => Drives.bind ?_)
  refine Drives.read hg (by decide) (by simp) (.of_route (by decide)) fun e₁ members₁ he₁ => ?_
  refine Drives.bind (Drives.check fun approval happroval => ?_)
  refine Drives.bind (Drives.check fun kept _ => Drives.bind (Drives.evidence hw fun s₁ hw₁ => ?_))
  refine Drives.bind (Drives.check fun sessionId _ => ?_)
  refine Drives.bind (Drives.check fun _ hcheck => Drives.bind ?_)
  obtain ⟨hplan, hpending⟩ := pending_of_checkApproval hcheck
  have hargument : e₁.op.argument? "approval_id" = some (.str approvalId) := by
    rw [he₁.argument? (by decide) (by decide)]
    simp
  have hg₁ := hg.afterRead he₁ (.ofApproval he₁.route happroval
    ⟨_, hpending.request, hargument⟩ (.inl hpending.state))
  -- the decision
  refine Drives.send (hg₁.permitted ?_ ?_ ?_ ?_ (.of_route (by decide)))
    fun e₂ members₂ he₂ => ?_
  · rintro k ⟨⟩
    exact le_rfl
  · intro hk
    cases hk
  · intro hgated
    simp [gatedRoutes] at hgated
  · intro _
    refine ⟨phase, rfl, e₁, List.mem_append_right _ List.mem_cons_self, he₁.route, _, approval,
      _, he₁.answer, happroval, ?_, hpending⟩
    simp [Call.argument?, sent]
  refine Drives.bind (Drives.check fun _ hdecided => Drives.bind ?_)
  have hstate : Has (.obj members₂) "state" (.str "approved") :=
    has_of_agrees (require_bind.mp hdecided) List.mem_cons_self
  have hargument₂ : e₂.op.argument? "approval_id" = some (.str approvalId) := by
    rw [he₂.argument? (by decide) (by decide)]
    simp
  have hg₂ := hg₁.afterCommand he₂ hlt hstate
  -- the decision is read back
  refine Drives.read hg₂ (by decide) (by simp) (.of_route (by decide)) fun e₃ members₃ he₃ => ?_
  refine Drives.bind (Drives.check fun approved happroved => ?_)
  refine Drives.bind (Drives.check fun _ hcheck => ?_)
  obtain ⟨hstate', hrequest', decision, actor, requester, hdecision, hactor, hrequester, hne⟩ :=
    approved_of_checkApproved hcheck
  have hargument₃ : e₃.op.argument? "approval_id" = some (.str approvalId) := by
    rw [he₃.argument? (by decide) (by decide)]
    simp
  have hg₃ := hg₂.afterRead he₃ (.ofApproval he₃.route happroved ⟨_, hrequest', hargument₃⟩
    (.inr hstate'))
  have happroved' : IsApproved phase (h ++ [e₁] ++ [e₂] ++ [e₃]) := by
    refine ⟨e₂, e₃, ?_, he₂.route, he₂.key, ⟨_, he₂.answer, hstate⟩, he₃.route, _, approved,
      decision, actor, requester, he₃.answer, happroved, hstate', ⟨_, hrequest', hargument₂⟩,
      hdecision, hactor, hrequester, hne⟩
    rw [List.append_assoc _ [e₂]]
    exact List.sublist_append_right _ _
  refine Drives.bind (Drives.check fun decision _ => Drives.bind (Drives.check fun kept _ => ?_))
  refine Drives.bind (Drives.evidence hw₁ fun s₂ hw₂ => Drives.pure ?_)
  refine next _ _ _ hg₃ ?_ hw₂ happroved' hplan
  simp only [List.append_assoc, List.prefix_append]

/-- A command after the approval of its phase. -/
theorem Drives.gated {Q : Json → State → History → Prop} {route : String} (step : Step)
    {arguments : Fields} (hg : Going scenario (Key.phase phase step).rank h)
    (ha : IsApproved phase h) (hroute : route ∉ "command.approval.decide" :: evidenceRoutes)
    (next : ∀ e members,
      Answered around scenario route (some (.phase phase step)) arguments members e →
      Q (.obj members) { s with calls := s.calls + 1 } (h ++ [e])) :
    Drives around scenario Q (stepCommand around scenario phase route step arguments) s h := by
  obtain ⟨hdecide, hevidence⟩ := not_or.mp (List.mem_cons.not.mp hroute)
  refine Drives.send (hg.permitted ?_ ?_ ?_ ?_ (.of_route hevidence)) next
  · rintro k ⟨⟩
    exact le_rfl
  · intro hk
    cases hk
  · exact fun _ => ⟨phase, step, rfl, ha⟩
  · exact fun heq => absurd heq hdecide

theorem revision_eq_ok {v : Json} {n : ℤ} (hv : revision v = .ok n) : v = .int n := by
  unfold revision at hv
  split at hv
  · split at hv
    · cases hv
      rfl
    · cases hv
  · cases hv

/-- A run is admitted, claimed and started. -/
theorem Drives.launch {Q : Run → State → History → Prop} {p : Prepared} {a : Approved}
    (hg : Going scenario (Key.phase phase .admission).rank h) (hw : Working rows phase planId s)
    (ha : IsApproved phase h)
    (next : ∀ run s' h', Going scenario (Key.phase phase (.execute 0)).rank h' → h <+: h' →
      Working rows phase planId s' → Q run s' h') :
    Drives around scenario Q (launch around scenario phase p a) s h := by
  refine Drives.bind (Drives.evidence hw fun s₁ hw₁ => Drives.bind ?_)
  refine Drives.gated .admission hg ha (by decide) fun e₁ members₁ he₁ => ?_
  refine Drives.bind (Drives.check fun requestId hrequest => Drives.bind ?_)
  have hg₁ : Going scenario (Key.phase phase .claim).rank (h ++ [e₁]) :=
    hg.afterCommand he₁ (phase_rank_lt.mpr (by simp [Step.rank, Prod.Lex.toLex_lt_toLex]))
      ⟨_, hasCoordinate_of_eq hrequest⟩
  have ha₁ := ha.mono (List.prefix_append h [e₁])
  refine Drives.gated .claim hg₁ ha₁ (by decide) fun e₂ members₂ he₂ => ?_
  refine Drives.bind (Drives.check fun runId hrun => ?_)
  refine Drives.bind (Drives.check fun generation hgeneration => ?_)
  refine Drives.bind (Drives.check fun _ hpositive => ?_)
  obtain ⟨value, hvalue, hrevision⟩ := Raise.bind_eq_ok.mp hgeneration
  rw [revision_eq_ok hrevision] at hvalue
  have hg₂ : Going scenario (Key.phase phase .start).rank (h ++ [e₁] ++ [e₂]) :=
    hg₁.afterCommand he₂ (phase_rank_lt.mpr (by simp [Step.rank, Prod.Lex.toLex_lt_toLex]))
      ⟨⟨_, hasCoordinate_of_eq hrun⟩, generation, by simpa using hpositive, hvalue⟩
  refine Drives.bind (Drives.evidence hw₁ fun s₂ hw₂ => ?_)
  refine Drives.bind (Drives.evidence hw₂ fun s₃ hw₃ => Drives.bind ?_)
  have ha₂ := ha₁.mono (List.prefix_append _ [e₂])
  refine Drives.gated .start hg₂ ha₂ (by decide) fun e₃ members₃ he₃ => ?_
  refine Drives.bind (Drives.check fun _ hstarted => Drives.pure ?_)
  have hg₃ : Going scenario (Key.phase phase (.execute 0)).rank (h ++ [e₁] ++ [e₂] ++ [e₃]) :=
    hg₂.afterCommand he₃ (phase_rank_lt.mpr (by simp [Step.rank, Prod.Lex.toLex_lt_toLex]))
      (has_of_agrees (require_bind.mp hstarted) List.mem_cons_self)
  refine next _ _ _ hg₃ ?_ hw₃
  simp only [List.append_assoc, List.prefix_append]

end Gated

section Completion

variable {around : Surroundings} {scenario : Scenario} {r r' : ℕ ×ₗ ℕ ×ₗ ℕ} {h : History}
  {s : State} {rows : List Row} {phase : Phase} {planId : Text}

/-- A run is executed until it has completed, or the driver stops. -/
theorem Drives.execute {Q : Bool → State → History → Prop} {run : Run} {fuel ordinal : ℕ}
    {outcomes : List Json} (hg : Going scenario (Key.phase phase (.execute ordinal)).rank h)
    (hw : Working rows phase planId s) (ha : IsApproved phase h)
    (next : ∀ s' h', Going scenario (Key.phase phase .advance).rank h' → h <+: h' →
      Working rows phase planId s' → Q true s' h')
    (stops : ∀ s' h', Working rows phase planId s' → Q false s' h') :
    Drives around scenario Q (execute around scenario phase run fuel ordinal outcomes) s h := by
  -- each step of the execution is a command of its own, behind the one before
  induction fuel generalizing ordinal outcomes s h with
  | zero => exact Drives.bind (Drives.modify (Drives.pure (stops _ _ hw)))
  | succ fuel ih =>
    refine Drives.bind (Drives.gated (.execute ordinal) hg ha (by decide) fun e members he => ?_)
    refine Drives.bind (Drives.check fun _ hrunId => ?_)
    refine Drives.bind (Drives.check fun outcome _ => ?_)
    refine Drives.bind (Drives.evidence hw fun s₁ hw₁ => ?_)
    refine Drives.bind (Drives.check fun status hstatus => ?_)
    have hecho : Echoes (.obj members) "run_id" e.op "run_id" := by
      refine ⟨_, has_of_agrees (require_bind.mp hrunId) List.mem_cons_self, ?_⟩
      rw [he.argument? (by decide) (by decide)]
      simp
    have hgrows : h <+: h ++ [e] := List.prefix_append _ _
    split
    · rename_i hcompleted
      rw [isText, Json.pyEq_str] at hcompleted
      subst hcompleted
      refine Drives.bind (Drives.check fun _ hsucceeded => Drives.pure (next _ _ ?_ hgrows hw₁))
      exact hg.afterCommand he (phase_rank_lt.mpr (by simp [Step.rank, Prod.Lex.toLex_lt_toLex]))
        ⟨hecho, .inr ⟨hstatus, has_of_agrees (require_bind.mp hsucceeded) List.mem_cons_self⟩⟩
    · split
      · rename_i hprogressed
        rw [isText, Json.pyEq_str] at hprogressed
        subst hprogressed
        have hg' : Going scenario (Key.phase phase (.execute (ordinal + 1))).rank (h ++ [e]) :=
          hg.afterCommand he
            (phase_rank_lt.mpr (by simp [Step.rank, Prod.Lex.toLex_lt_toLex]))
            ⟨hecho, .inl hstatus⟩
        refine ih hg' hw₁ (ha.mono hgrows) fun s' h' hg'' hh hw' => ?_
        exact next s' h' hg'' (hgrows.trans hh) hw'
      -- any other status stops the phase in doubt
      · refine Drives.bind (Drives.check fun attention _ => ?_)
        exact Drives.bind (Drives.modify (Drives.pure (stops _ _ hw₁)))

/-- A phase was advanced last, and its graph was read back. -/
structure Launched (phase : Phase) (p : Prepared) (run : Run) (a : Advanced) (h : History) :
    Prop where
  advanced : ∃ e ∈ lastCommand? h, AdvancedBy phase p.planId run.runId a.graphId e
  observed : ∃ e ∈ h, e.op.route = "read.current-graph" ∧ e.answer = .returned a.observed

/-- The current graph is advanced to the desired one of the plan, and read back. -/
theorem Drives.advance {Q : Advanced → State → History → Prop} {p : Prepared} {run : Run}
    (hg : Going scenario (Key.phase phase .advance).rank h)
    {desired : Json} (hw : Working rows phase p.planId s) (ha : IsApproved phase h)
    (hp : Planned phase desired p h) (hplan : Has p.plan "plan_id" (.str p.planId))
    (hr : (Key.phase phase .advance).rank < r)
    (next : ∀ a s' h', Going scenario r h' → h <+: h' → Working rows phase p.planId s' →
      (∃ e e', [e, e'].Sublist h' ∧ ReadBack p.planId e e') → Launched phase p run a h' →
      Q a s' h') :
    Drives around scenario Q (advance around scenario phase p run) s h := by
  refine Drives.bind (Drives.check fun graphId hgraph => ?_)
  refine Drives.bind (Drives.check fun projectionId hprojection => ?_)
  refine Drives.bind (Drives.check fun revision _ => Drives.bind ?_)
  refine Drives.gated .advance hg ha (by decide) fun e₁ members₁ he₁ => ?_
  refine Drives.bind (Drives.check fun _ hadvanced => ?_)
  refine Drives.bind (Drives.check fun _ hrevision => ?_)
  have hadvanced := require_bind.mp hadvanced
  have hargument : e₁.op.argument? "desired_graph_id" = some (.str graphId) := by
    rw [he₁.argument? (by decide) (by decide)]
    simp
  have hargument' : e₁.op.argument? "desired_realized_projection_id" =
      some (.str projectionId) := by
    rw [he₁.argument? (by decide) (by decide)]
    simp
  -- The response names the graph the command asked for.
  have hchecked : StepChecked e₁.op (.obj members₁) .advance := by
    refine ⟨⟨_, has_of_agrees hadvanced (by simp), hargument⟩,
      ⟨_, has_of_agrees hadvanced (by simp), hargument'⟩, ?_⟩
    obtain ⟨x, hx, heq⟩ := agrees_eq_true (require_bind.mp hrevision) _ List.mem_cons_self
    refine ⟨x, _, hx, ?_, heq⟩
    rw [he₁.argument? (by decide) (by decide)]
    simp
  have hg₁ : Going scenario r (h ++ [e₁]) := hg.afterCommand he₁ hr hchecked
  refine Drives.bind (Drives.check fun kept _ => Drives.bind (Drives.evidence hw fun s₁ hw₁ => ?_))
  refine Drives.bind (Drives.read hg₁ (by decide) (by simp) (.of_route (by decide))
    fun e₂ members₂ he₂ => ?_)
  refine Drives.bind (Drives.check fun _ hobserved => ?_)
  refine Drives.bind (Drives.check fun _ hobserved' => ?_)
  have hread : Has (.obj members₂) "graph_id" (.str graphId) :=
    has_of_agrees (require_bind.mp hobserved) List.mem_cons_self
  have hread' : Has (.obj members₂) "realized_projection_id" (.str projectionId) :=
    has_of_agrees (require_bind.mp hobserved') List.mem_cons_self
  -- The read-back names it too.
  have hg₂ : Going scenario r (h ++ [e₁] ++ [e₂]) := by
    refine hg₁.afterRead he₂ (.currentGraph he₂.route fun e he _ => ?_)
    rw [List.getLast?_concat, Option.mem_some] at he
    subst he
    exact ⟨⟨_, hread, hargument⟩, ⟨_, hread', hargument'⟩⟩
  obtain ⟨e₀, he₀, hroute, hid, v, hanswer, hdetail⟩ := hp.read
  -- The plan was read before, and its desired graph is the one read back.
  have hback : ∃ e e', [e, e'].Sublist (h ++ [e₁] ++ [e₂]) ∧ ReadBack p.planId e e' := by
    refine ⟨e₀, e₂, ?_, hroute, hid, he₂.route, v, p.plan, _, _, _, hanswer, hdetail, hplan,
      (hasCoordinate_of_eq hgraph).1, (hasCoordinate_of_eq hprojection).1, he₂.answer, hread,
      hread'⟩
    have hsub : [e₀].Sublist (h ++ [e₁]) :=
      List.singleton_sublist.mpr (List.mem_append_left _ he₀)
    exact hsub.append (List.Sublist.refl [e₂])
  refine Drives.bind (Drives.modify (Drives.bind ?_))
  obtain ⟨row, hrows, hphase, hplanId⟩ := hw₁
  refine Drives.onRow hrows fun s₂ hs₂ => Drives.pure ?_
  refine next _ _ _ hg₂ ?_ ⟨_, hs₂, hphase, hplanId⟩ hback ⟨⟨e₁, ?_, ?_⟩, e₂, ?_⟩
  · simp only [List.append_assoc, List.prefix_append]
  · rw [lastCommand?_append fun e he => by rw [List.mem_singleton.mp he, he₂.key],
      lastCommand?_concat he₁.key, Option.mem_some]
  · refine ⟨he₁.key, ?_, ?_, hargument⟩
    · rw [he₁.argument? (by decide) (by decide)]
      simp
    · rw [he₁.argument? (by decide) (by decide)]
      simp
  · exact ⟨List.mem_append_right _ List.mem_cons_self, he₂.route, he₂.answer⟩

/-- The pages of a read after the advancement leave it the last command. -/
theorem Launched.append {p : Prepared} {run : Run} {a : Advanced} {es : History}
    (hl : Launched phase p run a h) (hes : ∀ e ∈ es, e.op.key = none) :
    Launched phase p run a (h ++ es) := by
  obtain ⟨e, he, hby⟩ := hl.advanced
  obtain ⟨e', he', hread⟩ := hl.observed
  refine ⟨⟨e, ?_, hby⟩, e', List.mem_append_left _ he', hread⟩
  rwa [lastCommand?_append hes]

/-- What is known of an advanced phase is what `route` needs. -/
theorem Launched.evidences {p : Prepared} {run : Run} {a : Advanced} {route : String}
    (hl : Launched phase p run a h)
    (he : Evidenced scenario h route phase p.planId run.runId a.graphId) :
    Evidences scenario h route := by
  intro _ e hlast q hkey
  obtain ⟨e', hlast', hby⟩ := hl.advanced
  obtain rfl : e = e' := Option.mem_unique hlast hlast'
  obtain rfl : q = phase := by simpa [hby.key] using hkey.symm
  exact ⟨_, _, _, hby, he⟩

/-- The response of the router is observed. -/
theorem Drives.observeRouter {Q : Previous → State → History → Prop} {plan : Plan} {p : Prepared}
    {run : Run} {a : Advanced} {previous : Option Previous} (hg : Going scenario r h)
    (hw : Working rows phase planId s) (hl : Launched plan.phase p run a h)
    (hsucceeded : RunSucceeded h p.planId run.runId) (hevents : HasEvents h run.runId)
    (next : ∀ previous s' h', Going scenario r h' → h <+: h' → Working rows phase planId s' →
      Launched plan.phase p run a h' →
      scenario.retained = true ∧ checksRouter scenario p = false ∨
        Observed scenario h' plan.desired p run.runId a.graphId → Q previous s' h') :
    Drives around scenario Q (observeRouter around scenario plan p run a previous) s h := by
  have hread : ∀ (previous : Option Json), (checksRouter scenario p = true → previous = none) →
      Drives around scenario Q (do
        let observations ← page around scenario "read.observed-state" []
        let response ← Convergence.check (observedResponse observations plan.desired a.graphId
          run.runId scenario.routerId previous)
        Convergence.evidence "response" response
        return ⟨response, plan.desired⟩) s h := by
    intro previous hprevious
    have hevidenced : Evidenced scenario h "read.observed-state" plan.phase p.planId run.runId
        a.graphId := ⟨fun _ => hsucceeded, fun _ => hevents, fun heq => by simp at heq⟩
    refine Drives.bind (Drives.pages (by simp [pagedRoutes]) (by simp) hg
      (hl.evidences hevidenced) fun n es hg' hes => ?_)
    refine Drives.bind (Drives.check fun response hresponse => Drives.bind ?_)
    refine Drives.evidence hw fun s' hw' => Drives.pure ?_
    refine next _ _ _ hg' (List.prefix_append _ _) hw' (hl.append hes.key) (.inr ?_)
    exact ⟨_, previous, response, hes.listed fun after => by simp [Call.argument?, sent],
      hresponse, hprevious⟩
  unfold Convergence.observeRouter
  simp only
  split
  · exact hread none fun _ => rfl
  · rename_i hchecks
    have hchecks : checksRouter scenario p = false := by simpa [checksRouter] using hchecks
    split
    · rename_i hretained
      refine Drives.bind (Drives.evidence hw fun s' hw' => Drives.pure ?_)
      exact next _ _ _ hg List.prefix_rfl hw' hl (.inl ⟨hretained, hchecks⟩)
    · refine Drives.bind (Drives.check fun previous _ => hread _ fun htrue => ?_)
      rw [hchecks] at htrue
      cases htrue

/-- A run that is found among the runs of its plan has succeeded. -/
theorem runSucceeded_of_anyM {runs : List Json} {runId : Text}
    (hany : (runs.anyM fun run => agrees run
      [("run_id", .str runId), ("status", .str "succeeded")]) = .ok true) :
    ∃ run ∈ runs, Has run "run_id" (.str runId) ∧ Has run "status" (.str "succeeded") := by
  induction runs with
  | nil => cases hany
  | cons run runs ih =>
    rw [List.anyM, Raise.bind_eq_ok] at hany
    obtain ⟨found, hfound, hrest⟩ := hany
    cases found with
    | true =>
      exact ⟨run, List.mem_cons_self, has_of_agrees hfound (by simp),
        has_of_agrees hfound (by simp)⟩
    | false =>
      obtain ⟨run', hmem, hhas⟩ := ih hrest
      exact ⟨run', List.mem_cons_of_mem _ hmem, hhas⟩

/-- The evidence after the advancement is read. -/
theorem Drives.observe {Q : Option Previous → State → History → Prop} {plan : Plan} {p : Prepared}
    {run : Run} {a : Advanced} {previous : Option Previous} (hg : Going scenario r h)
    (hw : Working rows phase planId s) (hp : Planned plan.phase plan.desired p h)
    (hl : Launched plan.phase p run a h)
    (next : ∀ previous s' h', Going scenario r h' → h <+: h' → Working rows phase planId s' →
      Launched plan.phase p run a h' →
      Evidenced scenario h' "read.workspace" plan.phase p.planId run.runId a.graphId →
      Q previous s' h') :
    Drives around scenario Q (observe around scenario plan p run a previous) s h := by
  -- the runs of the plan
  refine Drives.bind (Drives.pages (by simp [pagedRoutes]) (by simp) hg (.of_route (by decide))
    fun _ runs hg₁ hruns => ?_)
  refine Drives.bind (Drives.check fun _ hany => Drives.bind ?_)
  have hl₁ := hl.append hruns.key
  have hsucceeded : RunSucceeded (h ++ runs) p.planId run.runId := by
    obtain ⟨run', hmem, hid, hstatus⟩ := runSucceeded_of_anyM (require_bind.mp hany)
    exact ⟨_, run', hruns.listed fun after => by simp [Call.argument?, sent], hmem, hid, hstatus⟩
  -- the events of the run
  have hev₁ : Evidenced scenario (h ++ runs) "read.run-events" plan.phase p.planId run.runId
      a.graphId := ⟨fun _ => hsucceeded, fun heq => by simp at heq, fun heq => by simp at heq⟩
  refine Drives.pages (by simp [pagedRoutes]) (by simp) hg₁ (hl₁.evidences hev₁)
    fun _ events hg₂ hevents => ?_
  refine Drives.bind (Drives.check fun _ hne => Drives.bind (Drives.check fun kept _ => ?_))
  have hl₂ := hl₁.append hevents.key
  have hsucceeded₂ := hsucceeded.mono (List.prefix_append _ events)
  have hevents₂ : HasEvents (h ++ runs ++ events) run.runId := by
    refine ⟨_, hevents.listed fun after => by simp [Call.argument?, sent], ?_⟩
    simpa using hne
  refine Drives.bind (Drives.evidence hw fun s₁ hw₁ => ?_)
  refine Drives.bind (Drives.check fun kept' _ => ?_)
  refine Drives.bind (Drives.evidence hw₁ fun s₂ hw₂ => ?_)
  refine Drives.bind (Drives.check fun nodes hnodes => ?_)
  have hh : h <+: h ++ runs ++ events := by
    rw [List.append_assoc]
    exact List.prefix_append _ _
  -- what the desired graph requires
  split
  · rename_i htrue
    refine Drives.bind (Drives.observeRouter hg₂ hw₂ hl₂ hsucceeded₂ hevents₂
      fun previous s₃ h₃ hg₃ hh₃ hw₃ hl₃ hobserved => ?_)
    refine Drives.pure (next _ _ _ hg₃ (hh.trans hh₃) hw₃ hl₃ ⟨fun _ => hsucceeded₂.mono hh₃,
      fun _ => hevents₂.mono hh₃, fun _ => ⟨plan.desired, nodes, p, hp.mono (hh.trans hh₃), rfl,
      hnodes, fun _ => hobserved, fun hfalse => ?_⟩⟩)
    rw [htrue] at hfalse
    cases hfalse
  · rename_i hfalse
    refine Drives.bind (Drives.check fun _ hleft => Drives.pure ?_)
    refine next _ _ _ hg₂ hh hw₂ hl₂ ⟨fun _ => hsucceeded₂, fun _ => hevents₂, fun _ =>
      ⟨plan.desired, nodes, p, hp.mono hh, rfl, hnodes, fun htrue => absurd htrue hfalse,
        fun _ => ?_⟩⟩
    simp only [Raise.bind_eq_ok, require_eq_ok] at hleft
    obtain ⟨descriptor, hdescriptor, left, hleft, hempty⟩ := hleft
    obtain ⟨e, he, hroute, hanswer⟩ := hl₂.observed
    exact ⟨e, he, hroute, _, descriptor, left, hanswer, hdescriptor, hleft, by simpa using hempty⟩

/-- A phase that needs an approval converges, or the driver stops. -/
theorem Drives.converge {Q : Option (Option Previous) → State → History → Prop} {plan : Plan}
    {p : Prepared} {previous : Option Previous}
    (hg : Going scenario (Key.phase plan.phase .approve).rank h)
    (hw : Working rows plan.phase p.planId s) (hp : Planned plan.phase plan.desired p h)
    (hr : (Key.phase plan.phase .advance).rank < r)
    (next : ∀ previous s' h' row, Going scenario r h' → h <+: h' →
      s'.rows = (rows ++ [row], false) → row.phase = plan.phase → row.Settled scenario h' →
      Evidences scenario h' "read.workspace" → Q (some previous) s' h')
    (stops : ∀ s' h', Working rows plan.phase p.planId s' → Q none s' h') :
    Drives around scenario Q (converge around scenario plan p previous) s h := by
  refine Drives.bind (Drives.check fun _ _ => Drives.bind ?_)
  refine Drives.approve hg hw fun approved s₁ h₁ hg₁ hh₁ hw₁ ha₁ hplan => Drives.bind ?_
  refine Drives.launch hg₁ hw₁ ha₁ fun run s₂ h₂ hg₂ hh₂ hw₂ => Drives.bind ?_
  have ha₂ := ha₁.mono hh₂
  refine Drives.execute hg₂ hw₂ ha₂ (fun s₃ h₃ hg₃ hh₃ hw₃ => ?_) fun s₃ h₃ hw₃ => ?_
  · have hh := hh₁.trans (hh₂.trans hh₃)
    refine Drives.bind (Drives.advance hg₃ hw₃ (ha₂.mono hh₃) (hp.mono hh) hplan hr
      fun advanced s₄ h₄ hg₄ hh₄ hw₄ hback hl₄ => Drives.bind ?_)
    refine Drives.observe hg₄ hw₄ (hp.mono (hh.trans hh₄)) hl₄
      fun previous s₅ h₅ hg₅ hh₅ hw₅ hl₅ hevidenced => Drives.bind ?_
    obtain ⟨row, hrows, hphase, hplanId⟩ := hw₅
    refine Drives.onRow hrows fun s₆ hs₆ => Drives.pure ?_
    have hsettled : Row.Settled scenario h₅
        { row with status := .converged, graphId := some advanced.graphId } := by
      obtain ⟨e, e', hsub, hread⟩ := hback
      obtain ⟨e₁, he₁, hby⟩ := hl₅.advanced
      have hmem : e₁ ∈ h₅ := List.mem_of_mem_filter (List.mem_of_getLast? he₁)
      refine .inr ⟨rfl, ⟨e, e', hsub.trans hh₅.sublist, hplanId ▸ hread⟩, run.runId,
        advanced.graphId, ⟨e₁, hmem, ?_⟩, ?_⟩
      · rwa [hphase, hplanId]
      · rwa [hphase, hplanId]
    exact next _ _ _ _ hg₅ (hh.trans (hh₄.trans hh₅)) hs₆ hphase hsettled
      (hl₅.evidences hevidenced)
  · exact Drives.pure (stops _ _ hw₃)

/-- A phase adds a row that is settled, or the driver stops. -/
theorem Drives.runPhase {Q : Option (Option Previous) → State → History → Prop} {start : Admitted}
    {plan : Plan} {previous : Option Previous}
    (hg : Going scenario (Key.phase plan.phase .prepare).rank h) (hstart : Started start h)
    (hevidences : Evidences scenario h "read.workspace") (hrows : s.rows = (rows, false))
    (next : ∀ previous s' h' row, Going scenario (place (8 + plan.phase.ordinal) 0) h' → h <+: h' →
      s'.rows = (rows ++ [row], false) → row.phase = plan.phase → row.Settled scenario h' →
      Evidences scenario h' "read.workspace" → Q (some previous) s' h')
    (stops : ∀ s' h', s'.report.converged = false → Q none s' h') :
    Drives around scenario Q (runPhase around scenario start plan previous) s h := by
  have hlast : ∀ step, (Key.phase plan.phase step).rank < place (8 + plan.phase.ordinal) 0 := by
    intro step
    simp only [Key.rank, place, Prod.Lex.toLex_lt_toLex]
    omega
  have hworking : ∀ {s' : State} {planId : Text}, Working rows plan.phase planId s' →
      s'.report.converged = false := by
    rintro s' planId ⟨row, hs', -, -⟩
    exact (Prod.mk.inj hs').2
  refine Drives.bind (Drives.modify (Drives.bind ?_))
  refine Drives.prepare hg hstart hevidences hrows fun p s₁ h₁ hg₁ hh₁ hev₁ hw₁ hp₁ => ?_
  refine Drives.bind (Drives.check fun status _ => ?_)
  split
  · refine Drives.bind (Drives.check fun _ _ => Drives.bind ?_)
    obtain ⟨row, hrow, hphase, hplanId⟩ := hw₁
    refine Drives.onRow hrow fun s₂ hs₂ => Drives.pure ?_
    exact next _ _ _ _ (hg₁.mono (hlast _).le) hh₁ hs₂ hphase (.inl rfl) hev₁
  · split
    · refine Drives.converge hg₁ hw₁ hp₁ (hlast _) (fun previous s₂ h₂ row hg₂ hh₂ => ?_)
        fun s₂ h₂ hw₂ => stops _ _ (hworking hw₂)
      exact next previous s₂ h₂ row hg₂ (hh₁.trans hh₂)
    · exact Drives.bind (Drives.modify (Drives.pure (stops _ _ (hworking hw₁))))

/-- The phases add one settled row each, or the driver stops. -/
theorem Drives.runPhases {Q : Bool → State → History → Prop} {start : Admitted} {plans : List Plan}
    {previous : Option Previous} {n : ℕ}
    (hsorted : (plans.map fun plan => plan.phase.ordinal).Pairwise (· < ·))
    (hn : ∀ plan ∈ plans, n ≤ plan.phase.ordinal) (hg : Going scenario (place (7 + n) 0) h)
    (hstart : Started start h) (hevidences : Evidences scenario h "read.workspace")
    (hrows : s.rows = (rows, false))
    (next : ∀ s' h' rows', h <+: h' → s'.rows = (rows ++ rows', false) →
      rows'.map (·.phase) = plans.map (·.phase) → (∀ row ∈ rows', row.Settled scenario h') →
      Q true s' h')
    (stops : ∀ s' h', s'.report.converged = false → Q false s' h') :
    Drives around scenario Q (runPhases around scenario start plans previous) s h := by
  -- later phases have later places, so no key comes twice
  induction plans generalizing previous n s h rows with
  | nil =>
    refine Drives.pure (next _ _ [] List.prefix_rfl ?_ rfl ?_)
    · rw [hrows, List.append_nil]
    · intro row hrow
      cases hrow
  | cons plan plans ih =>
    obtain ⟨hfirst, hsorted⟩ := List.pairwise_cons.mp hsorted
    have hle : place (7 + n) 0 ≤ (Key.phase plan.phase .prepare).rank := by
      have hordinal := hn plan List.mem_cons_self
      rcases hordinal.lt_or_eq with hlt | heq
      · exact (place_lt.mpr (.inl (by omega))).le
      · rw [heq]
        exact le_rfl
    refine Drives.bind (Drives.runPhase (hg.mono hle) hstart hevidences hrows
      (fun previous s₁ h₁ row hg₁ hh₁ hs₁ hphase hsettled hev₁ => ?_) fun s₁ h₁ hs₁ => ?_)
    · have hg₁' : Going scenario (place (7 + (plan.phase.ordinal + 1)) 0) h₁ := by
        rwa [show 7 + (plan.phase.ordinal + 1) = 8 + plan.phase.ordinal by omega]
      refine ih hsorted (fun plan' hplan' => ?_) hg₁' (hstart.mono hh₁) hev₁ hs₁
        fun s₂ h₂ rows' hh₂ hs₂ hphases hrest => ?_
      · exact hfirst _ (List.mem_map_of_mem hplan')
      · refine next s₂ h₂ (row :: rows') (hh₁.trans hh₂) ?_ ?_ ?_
        · rw [hs₂, List.append_assoc, List.singleton_append]
        · rw [List.map_cons, List.map_cons, hphase, hphases]
        · exact List.forall_mem_cons.mpr ⟨hsettled.mono hh₂, hrest⟩
    · exact Drives.pure (stops _ _ hs₁)

end Completion

section Invocation

variable {around : Surroundings} {scenario : Scenario} {h : History} {s : State}

/-- What a traversal keeps of its elements. -/
theorem map_of_mapM {α β γ : Type} {f : α → Except Doubt β} {g : β → γ} (g' : α → γ)
    (hf : ∀ a b, f a = .ok b → g b = g' a) {as : List α} {bs : List β}
    (has : as.mapM f = .ok bs) : bs.map g = as.map g' := by
  induction as generalizing bs with
  | nil =>
    cases has
    rfl
  | cons a as ih =>
    rw [List.mapM_cons, Raise.bind_eq_ok] at has
    obtain ⟨b, hb, hrest⟩ := has
    obtain ⟨bs', hbs', hpure⟩ := Raise.bind_eq_ok.mp hrest
    cases hpure
    rw [List.map_cons, List.map_cons, hf a b hb, ih hbs']

/-- The documents and the phases of a scenario come in their order. -/
theorem admission_ok {documents : List (Product × Json)} {plans : List Plan}
    (hadmission : admission around scenario = .ok (documents, plans)) :
    documents.map (·.1) = scenario.products ∧
      plans.map (·.phase) = scenario.phases.map (·.1) := by
  unfold admission at hadmission
  simp only [Raise.bind_eq_ok] at hadmission
  obtain ⟨_, -, _, -, _, -, _, -, _, -, _, -, _, -, _, -, documents', hdocuments, plans', hplans,
    heq⟩ := hadmission
  cases heq
  constructor
  · rw [map_of_mapM id ?_ hdocuments, List.map_id]
    intro product d hd
    obtain ⟨content, -, heq⟩ := Raise.bind_eq_ok.mp hd
    cases heq
    rfl
  · refine map_of_mapM _ ?_ hplans
    rintro ⟨phase, nodes, selected⟩ plan hplan
    obtain ⟨desired, -, heq⟩ := Raise.bind_eq_ok.mp hplan
    cases heq
    rfl

theorem Scenario.products_sorted (scenario : Scenario) :
    (scenario.products.map Product.ordinal).Pairwise (· < ·) := by
  unfold Scenario.products
  split <;> decide

theorem Scenario.phases_sorted (scenario : Scenario) :
    (scenario.phases.map fun phase => phase.1.ordinal).Pairwise (· < ·) := by
  unfold Scenario.phases
  split <;> simp [Phase.ordinal]

/-- A report that is converged has a settled row for each phase. -/
def Convergent (scenario : Scenario) (h : History) (report : Report) : Prop :=
  report.converged = true →
    report.transitions.map (·.phase) = scenario.phases.map (·.1) ∧
      ∀ row ∈ report.transitions, row.Settled scenario h

theorem going_nil : Going scenario (place 0 0) [] := by
  refine ⟨fun pre e post heq => ?_, fun e he => ?_⟩
  · simp at heq
  · cases he

/-- The body of the driver. -/
theorem drives_drive : Drives around scenario (fun _ s h => Convergent scenario h s.report)
    (drive around scenario) .initial [] := by
  refine Drives.bind (Drives.check fun admitted hadmission => ?_)
  obtain ⟨documents, plans⟩ := admitted
  obtain ⟨hdocuments, hplans⟩ := admission_ok hadmission
  have hsorted : (documents.map fun d => d.1.ordinal).Pairwise (· < ·) := by
    have := scenario.products_sorted
    rwa [← hdocuments, List.map_map] at this
  have hsorted' : (plans.map fun plan => plan.phase.ordinal).Pairwise (· < ·) := by
    have := scenario.phases_sorted
    have hmap : plans.map (fun plan => plan.phase.ordinal) =
        scenario.phases.map fun phase => phase.1.ordinal := by
      simpa [Function.comp_def] using congrArg (List.map Phase.ordinal) hplans
    rwa [hmap]
  refine Drives.bind (Drives.bootstrap hsorted going_nil fun start s₁ h₁ hg₁ hs₁ hstart => ?_)
  refine Drives.bind (Drives.runPhases hsorted' (fun _ _ => Nat.zero_le _) hg₁ hstart
    (.of_below hg₁.below) hs₁
    (fun s₂ h₂ rows' _ hs₂ hphases hsettled => ?_) fun s₂ h₂ hs₂ => ?_)
  · refine Drives.modify fun _ => ?_
    obtain ⟨htransitions, -⟩ := Prod.mk.inj hs₂
    have htransitions : s₂.report.transitions = rows' := htransitions
    exact ⟨by rw [htransitions, hphases, hplans], by rw [htransitions]; exact hsettled⟩
  · refine Drives.pure fun hconverged => ?_
    rw [hs₂] at hconverged
    cases hconverged

/-- The invocation makes permitted calls only, whatever they are answered, and its report is
right about convergence. -/
theorem meets_invocation : Meets anything (fun h _ e _ => Permitted around scenario h e.op)
    (runPublicGraphConvergence around scenario)
    (fun h _ result => ∀ report, result = .ok report → Convergent scenario h report) [] () := by
  refine meets_handle.mpr (meets_bind.mpr (Meets.post drives_drive fun h _ result hresult => ?_))
  cases result with
  | error e =>
    intro report heq
    cases heq
    intro hconverged
    cases hconverged
  | ok a =>
    intro report heq
    cases heq
    exact hresult _ _ rfl

end Invocation

section Runs

variable {around : Surroundings} {scenario : Scenario}

/-- Nothing follows an exception of the body: its handler makes no call. -/
theorem runs_failed {pre : History} {s : State} {doubt : Doubt}
    (hrun : ((drive around scenario).run .initial).Runs pre (.error (s, doubt))) :
    (runPublicGraphConvergence around scenario).Runs pre (.ok (failed s doubt)) := by
  rw [← List.append_nil pre]
  exact Runs.handle_error (Runs.bind_error hrun) (.pure (failed s doubt))

/-- **An invocation stops at the first doubt.** -/
structure StopsAtDoubt (around : Surroundings) (scenario : Scenario) (tr : History)
    (r : Except Empty Report) : Prop where
  /-- Every call is permitted after the calls before it. -/
  permitted : ∀ pre e post, tr = pre ++ e :: post → Permitted around scenario pre e.op
  /-- The idempotency keys that are sent are distinct. -/
  keys : (tr.filterMap fun e => e.op.argument? "idempotency_key").Nodup
  /-- A call that raised, or a check that failed, was the last thing that happened. -/
  failed : ∀ pre s doubt, ((drive around scenario).run .initial).Runs pre (.error (s, doubt)) →
    pre <+: tr → tr = pre ∧ r = .ok (failed s doubt)
  /-- A report is converged only if every phase has a settled row. -/
  converged : ∀ report, r = .ok report → Convergent scenario tr report

/-- Distinct keys, from the order in which they are sent. -/
theorem keys_nodup {tr : History}
    (hpermitted : ∀ pre e post, tr = pre ++ e :: post → Permitted around scenario pre e.op) :
    (tr.filterMap fun e => e.op.argument? "idempotency_key").Nodup := by
  -- what is permitted is said of an event and those before it, so the trace grows at its end
  induction tr using List.reverseRecOn with
  | nil => simp
  | append_singleton tr e ih =>
    have hlast := hpermitted tr e [] rfl
    have hbefore := ih fun pre e' post heq => hpermitted pre e' (post ++ [e]) (by simp [heq])
    rw [List.filterMap_append]
    cases hkey : e.op.key with
    | none =>
      have hnone : e.op.argument? "idempotency_key" = none := by rw [hlast.keyed, hkey]; rfl
      simpa [hnone] using hbefore
    | some k =>
      have hsome : e.op.argument? "idempotency_key" = some (.str (keyText around k)) := by
        rw [hlast.keyed, hkey]
        rfl
      have hone : [e].filterMap (fun e => e.op.argument? "idempotency_key") =
          [.str (keyText around k)] := by simp [hsome]
      rw [hone, List.nodup_append]
      refine ⟨hbefore, List.nodup_singleton _, ?_⟩
      rintro a ha b hb rfl
      obtain ⟨e', he', ha'⟩ := List.mem_filterMap.mp ha
      rw [List.mem_singleton.mp hb] at ha'
      obtain ⟨pre, post, rfl⟩ := List.append_of_mem he'
      have hp := hpermitted pre e' (post ++ [e]) (by simp)
      rw [hp.keyed] at ha'
      obtain ⟨k', hk', htext⟩ := Option.map_eq_some_iff.mp ha'
      have heq : k' = k := keyText_injective around (by simpa using htext)
      exact hlast.fresh k hkey e' he' (heq ▸ hk')

/-- **The public convergence driver stops at the first doubt**, whatever its calls are answered. -/
theorem runPublicGraphConvergence_stopsAtDoubt (around : Surroundings) (scenario : Scenario)
    {tr : History} {r : Except Empty Report}
    (hrun : (runPublicGraphConvergence around scenario).Runs tr r) :
    StopsAtDoubt around scenario tr r := by
  have hexec := Runs.exec (M := anything) (s := ()) (fun _ _ => trivial) hrun
  have hpermitted : ∀ pre e post, tr = pre ++ e :: post →
      Permitted around scenario pre e.op := by
    intro pre e post heq
    obtain ⟨_, _, -, hp⟩ := meets_invocation.event hexec heq
    exact hp
  refine ⟨hpermitted, keys_nodup hpermitted, ?_, ?_⟩
  · rintro pre s doubt hbody ⟨more, rfl⟩
    obtain ⟨rfl, rfl⟩ := (runs_failed hbody).ended hrun
    exact ⟨List.append_nil pre, rfl⟩
  · exact meets_invocation.outcome hexec

end Runs

namespace Instance

/-- One hello node behind a router, in the retained mode. -/
def scenario : Scenario where
  workspaceId := "demo"
  routerId := "router"
  helloNodes := [⟨"hello", "Hello", "blue", "hi"⟩]
  initialNodeId := "hello"
  rewireNodeId := "hello"
  retainedNodeIds := []
  authorization := "operator"
  workerAuthorization := "worker"
  approverAuthorization := "approver"
  capacity := 4
  maxSteps := 3
  registerPullAuthority := false
  connectorTokenReference := some "secret://custody/tunnel"
  connectorId := "connector"
  createWorkspace := false
  destructiveApproved := false

def surroundings : Surroundings where
  invocation := "invocation"
  inTime _ := true
  clock _ := "2026-01-01T00:00:00Z"
  document _ := .ok (.obj [])
  graph nodes _ := .ok (.obj [argument "nodes" (.obj (nodes.map fun node => (node.nodeId, .null)))])
  isSecretReference _ := true
  dumps _ := .error unknown

def workspace : Json :=
  .obj [argument "workspace_id" (.str "demo"), argument "current_graph_id" (.str "graph-0"),
    argument "current_realized_projection_id" (.str "projection-0"),
    argument "desired_graph_id" .null, argument "desired_realized_projection_id" .null,
    argument "desired_graph_revision" (.int 0)]

def plan : Json :=
  .obj [argument "plan_id" (.str "plan"), argument "session_id" (.str "session"),
    argument "base_graph_id" (.str "graph-0"),
    argument "base_realized_projection_id" (.str "projection-0"),
    argument "desired_graph_id" (.str "graph-1"),
    argument "desired_realized_projection_id" (.str "projection-1"),
    argument "desired_graph_revision" (.int 1),
    argument "payload" (.obj [argument "activities" (.arr [])])]

def approval (state : Text) : Json :=
  .obj [argument "request_id" (.str "approval"), argument "session_id" (.str "session"),
    argument "required_scope" (.str "plan:approve"), argument "destructive" (.bool false),
    argument "state" (.str state), argument "requested_by" (.str "operator"),
    argument "decision" (.obj [argument "decision_id" (.str "decision"),
      argument "actor_id" (.str "approver"), argument "decision" (.str "approved"),
      argument "scope" (.str "plan:approve"), argument "decided_at" (.str "now")])]

/-- An execution; the first one progresses, the second one completes. -/
def executed (completed : Bool) : Fields :=
  [argument "run_id" (.str "run"),
    argument "run_status" (.str (if completed then "succeeded" else "running")),
    argument "coordinator_status" (.str (if completed then "completed" else "progressed")),
    argument "effects_attempted" (.int 1), argument "activity_id" .null]

/-- The answers of a server that does what it is told. -/
def result (h : History) (call : Call) : Fields :=
  let made (route : String) : Bool := h.any fun e => e.op.route == route
  match call.route with
  | "read.workspace" => [argument "workspace" workspace]
  | "command.deployment.prepare" => [argument "status" (.str "approval-required"),
      argument "plan_id" (.str "plan"), argument "approval_request_id" (.str "approval")]
  | "read.plan-detail" => [argument "plan" plan]
  | "read.approval-detail" => [argument "approval"
      (approval (if made "command.approval.decide" then "approved" else "pending"))]
  | "command.approval.decide" => [argument "state" (.str "approved")]
  | "command.deployment.admit" => [argument "execution_request_id" (.str "run")]
  | "command.run.claim" => [argument "run_id" (.str "run"), argument "claim_generation" (.int 1)]
  | "command.run.start" => [argument "run_status" (.str "running")]
  | "command.deployment.execute" => executed (made "command.deployment.execute")
  | "command.graph.advance-current" => [argument "to_graph_id" (.str "graph-1"),
      argument "to_realized_projection_id" (.str "projection-1"),
      argument "desired_graph_revision" (.int 1)]
  | "read.current-graph" => [argument "graph_id" (.str "graph-1"),
      argument "realized_projection_id" (.str "projection-1")]
  | "read.plan-runs" => [argument "items" (.arr [.obj [argument "run_id" (.str "run"),
      argument "status" (.str "succeeded")]])]
  | "read.run-events" => [argument "items" (.arr [.obj [argument "event_id" (.str "event"),
      argument "run_id" (.str "run"), argument "ordinal" (.int 0),
      argument "event_type" (.str "run.started"), argument "occurred_at" (.str "now"),
      argument "activity_id" .null]])]
  | _ => []

/-- The run of an invocation against that server. -/
def run : History × Except Empty Report :=
  (runPublicGraphConvergence surroundings scenario).scripted
    (fun h call => .returned (.obj (result h call))) []

/-- What the report says of the phases. -/
def convergedPhases (r : Except Empty Report) : List (Phase × Status) × Bool :=
  match r with
  | .ok report => (report.transitions.map fun row => (row.phase, row.status), report.converged)
  | .error e => nomatch e

/-- The server is called 21 times until the phase has converged. -/
theorem runPublicGraphConvergence_converges :
    run.1.length = 21 ∧ convergedPhases run.2 = ([(.application, .converged)], true) ∧
      StopsAtDoubt surroundings scenario run.1 run.2 := by
  refine ⟨by decide +kernel, by decide +kernel, ?_⟩
  exact runPublicGraphConvergence_stopsAtDoubt surroundings scenario (runs_scripted _ _ _)

end Instance

end Convergence

end SourceLive

end ControlPlaneKit
