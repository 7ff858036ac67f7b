import ControlPlaneKit.Client.FailedStep
import ControlPlaneKit.Client.Reapply

/-!
# Execution on a moved workspace

`apply` compares the workspace with the base of the plan before the advancement only. What keeps
it from dispatching a new command before that are its other gates: in every run that they do not
let through, each admission, claim, start and execute step is a replay, and after the execution there
is none (`apply_fenced`). A run that they let through deploys although the workspace has moved
(`Instance.apply_moved`).
-/

namespace ControlPlaneKit

namespace Client

open Interaction

/-- The commands up to the execution. -/
def CommandRoute.executes : CommandRoute → Bool
  | .admission => true
  | .claim => true
  | .start => true
  | .execute => true
  | _ => false

/-- Every workspace that was read shows another current pointer than the base of the plan. -/
def StaysMoved (j₀ : Journal) (tr : Trace) : Prop :=
  ∀ e ∈ tr, ∀ pointer, ShowsWorkspace pointer e → pointer ≠ j₀.coordinates.base?

/-- Every command up to the execution replays the pending request. -/
def OnlyReplays (rt : Runtime) (docs : Set (List UInt8)) (j₀ : Journal) (tr : Trace) : Prop :=
  ∀ e ∈ tr, ∀ call route, e.op = .call call → call.route = .command route →
    route.executes = true → Replays rt docs j₀ call

/-- The execution was recorded before, or the gates have not let the invocation through at any
point. -/
def Fenced (rt : Runtime) (docs : Set (List UInt8)) (args : ApplyArguments) (j₀ : Journal)
    (tr : Trace) : Prop :=
  6 < j₀.phase.rank ∨ ∀ h, h <+: tr → ¬ Cleared rt docs args j₀ h

/-- These commands are pending before the execution is recorded. -/
theorem rank_of_executes {route : CommandRoute} {a b : Phase} (hroute : route.executes = true)
    (hb : b ∈ pendingPhases route) (hleads : a.Leads b) : a.rank ≤ 6 := by
  have hbefore : ∀ b ∈ pendingPhases route, b.isTerminal = false ∧ b.rank ≤ 6 := by
    cases route <;> first | decide | cases hroute
  obtain ⟨hopen, hrank⟩ := hbefore b hb
  rcases hleads with rfl | ⟨-, hterminal | hle⟩
  · exact hrank
  · rw [hopen] at hterminal
    cases hterminal
  · exact hle.trans hrank

/-- **An invocation that the gates do not let through**, or one after the execution, starts none. -/
theorem apply_fenced {rt : Runtime} {docs : Set (List UInt8)} {ref : OperationRef}
    {profile : ClientProfile} {args : ApplyArguments} {reference : Text} {w w' : World} {tr : Trace}
    {out : Option (Except ClientError ClientResult)} {j₀ : Journal}
    (hw : Reachable rt docs ref w) (href : canonicalOperationRef reference = .ok ref)
    (hj : w.journal = some j₀)
    (hrun : Exec (answers docs ref) w (apply rt profile reference args) tr w' out)
    (hfenced : Fenced rt docs args j₀ tr) : OnlyReplays rt docs j₀ tr := by
  intro e he call route hop hroute hexecutes
  obtain ⟨pre, post, rfl⟩ := List.append_of_mem he
  obtain ⟨op, a⟩ := e
  subst hop
  rcases hfenced with hexecuted | hfenced
  · obtain ⟨phase, hphase, hleads⟩ := apply_dispatched hw.inv href hj hrun rfl hroute
    exact absurd (rank_of_executes hexecutes hphase hleads) (Nat.not_le.mpr hexecuted)
  obtain ⟨-, hallowed, -⟩ := apply_run hw.inv href hrun
  have hne : route ≠ .prepare := by
    rintro rfl
    cases hexecutes
  have heffect : route.isEffect = true := by
    cases route <;> first | rfl | cases hexecutes
  obtain ⟨j, hj', hterms⟩ := hallowed pre _ post rfl ⟨route, hroute, hne⟩
  obtain rfl : j₀ = j := Option.some.inj (hj.symm.trans hj')
  obtain ⟨-, hreplays | hcleared⟩ := (hterms route hroute).2 heffect
  · exact hreplays
  · exact absurd hcleared (hfenced pre (List.prefix_append _ _))

namespace Scenario

variable {rt : Runtime} {profile : ClientProfile} {docs : Set (List UInt8)} {s : Scenario}

/-- The events of a deployment whose workspace has moved, up to the read before the advancement. -/
def movedEvents (rt : Runtime) (profile : ClientProfile) (s : Scenario) : Trace :=
  s.gateEvents rt profile ++ (s.stepEvents rt profile .admission ++
    (s.stepEvents rt profile .claim ++ (s.stepEvents rt profile .start ++
      (s.stepEvents rt profile .execute ++ [answered profile s.ref .workspace
        (workspacePath profile) [("workspace", .obj (s.workspaceAt s.goal))]]))))

/-- The deployment goes on to the advancement before it sees that the workspace has moved. -/
theorem exec_moved (hs : s.Fair rt docs) :
    Exec (answers docs s.ref) (s.world rt profile [] .prepared)
      (Client.apply rt profile (.utf8 s.ref.text) s.arguments) (s.movedEvents rt profile)
      (s.worldBefore rt profile .advance) none := by
  refine exec_gates hs (exec_started hs (Exec.then_conclude (returns_execute hs) ?_))
  have hread : answers docs s.ref (s.worldBefore rt profile .advance)
      (.call (readCall profile s.ref .workspace (workspacePath profile) []))
      (.reply [("workspace", .obj (s.workspaceAt s.goal))])
      (s.worldBefore rt profile .advance) := by
    simp [answers, readCall, Route.isRead]
  exact .performed hread (.stopped _ _)

/-- The events of a command read no workspace. -/
theorem not_shows_stepEvents {route : CommandRoute} {e : Event Op Op.Answer}
    (he : e ∈ s.stepEvents rt profile route) (pointer : Option Pointer) :
    ¬ ShowsWorkspace pointer e := by
  rintro ⟨path, response, workspace, ⟨call, rfl, hroute, -⟩, -⟩
  simp only [stepEvents, commandEvents, List.mem_cons, List.not_mem_nil, or_false] at he
  rcases he with he | he | he | he <;> cases he
  cases hroute

theorem not_shows_gateEvents {e : Event Op Op.Answer} (he : e ∈ s.gateEvents rt profile)
    (pointer : Option Pointer) : ¬ ShowsWorkspace pointer e := by
  rintro ⟨path, response, workspace, ⟨call, rfl, hroute, -⟩, -⟩
  simp only [gateEvents, List.mem_cons, List.not_mem_nil, or_false] at he
  rcases he with he | he | he | he <;> cases he <;> cases hroute

/-- The workspace that is read has moved to the goal. -/
theorem movedEvents_stayMoved (hmoves : s.goal ≠ s.base) :
    StaysMoved (s.journal rt profile [] .prepared) (s.movedEvents rt profile) := by
  intro e he pointer hshown
  simp only [movedEvents, List.mem_append, List.mem_singleton] at he
  rcases he with he | he | he | he | he | he
  · exact absurd hshown (not_shows_gateEvents he pointer)
  · exact absurd hshown (not_shows_stepEvents he pointer)
  · exact absurd hshown (not_shows_stepEvents he pointer)
  · exact absurd hshown (not_shows_stepEvents he pointer)
  · exact absurd hshown (not_shows_stepEvents he pointer)
  · obtain ⟨path, response, workspace, ⟨call, heq, -, -⟩, hworkspace, hcurrent⟩ := hshown
    rw [he] at heq
    cases heq
    simp only [Fields.get_cons, if_true, Json.obj.injEq] at hworkspace
    rw [← hworkspace, currentPointer_workspaceAt, Except.ok.injEq] at hcurrent
    rw [← hcurrent]
    intro hbase
    exact hmoves (Option.some.inj hbase)

end Scenario

namespace Instance

/-- The workspace has moved before the invocation starts, and the run is admitted, claimed, started
and executed all the same. -/
theorem apply_moved : ¬ ∀ (rt : Runtime) (docs : Set (List UInt8)) (ref : OperationRef)
    (profile : ClientProfile) (args : ApplyArguments) (reference : Text) (w w' : World) (tr : Trace)
    (out : Option (Except ClientError ClientResult)) (j₀ : Journal), Reachable rt docs ref w →
    canonicalOperationRef reference = .ok ref → w.journal = some j₀ → j₀.phase.rank ≤ 6 →
    Exec (answers docs ref) w (apply rt profile reference args) tr w' out → StaysMoved j₀ tr →
    OnlyReplays rt docs j₀ tr := by
  intro h
  have honly := h runtime docs scenario.ref profile _ _ _ _ _ _ _
    (Scenario.reachable_prepared fair).only (canonicalOperationRef_text _) rfl (by decide)
    (Scenario.exec_moved fair) (Scenario.movedEvents_stayMoved goal_ne_base)
  have hclaim : ⟨.call (scenario.commandOf profile .claim),
      .reply (scenario.response profile .claim)⟩ ∈ scenario.movedEvents runtime profile := by
    refine List.mem_append_right _ (List.mem_append_right _ (List.mem_append_left _ ?_))
    exact List.mem_cons_of_mem _ (List.mem_cons_of_mem _ List.mem_cons_self)
  obtain ⟨p, hp, -⟩ := honly _ hclaim _ .claim rfl rfl rfl
  cases hp

/-- The confirmation of another plan. -/
def otherArguments : ApplyArguments :=
  ⟨.utf8 "another-plan", none, none⟩

theorem executePlan_ne : otherArguments.executePlan ≠ .utf8 scenario.planId.text := by
  decide

theorem exec_other : Exec (answers docs scenario.ref) (scenario.world runtime profile [] .prepared)
    (apply runtime profile (.utf8 scenario.ref.text) otherArguments)
    [⟨.lock scenario.ref, .acquired⟩,
      ⟨.read scenario.ref, .found (scenario.journal runtime profile [] .prepared)⟩]
    (scenario.world runtime profile [] .prepared)
    (some (.error (.input "execution confirmation does not match the prepared plan"))) := by
  have hload : Returns docs scenario.ref (scenario.world runtime profile [] .prepared)
      (load runtime profile scenario.ref)
      [⟨.read scenario.ref, .found (scenario.journal runtime profile [] .prepared)⟩] _ _ :=
    returns_load rfl
      (Scenario.journal_valid fair (Scenario.suits_before .admission rfl) (by decide)) rfl
  have hplanId : textCoordinate ((scenario.journal runtime profile [] .prepared).coordinates.get
      .planId) = .ok scenario.planId := textCoordinate_json _
  have hlock : Returns docs scenario.ref (scenario.world runtime profile [] .prepared)
      (mutationLock scenario.ref) [⟨.lock scenario.ref, .acquired⟩]
      (scenario.world runtime profile [] .prepared) () :=
    .performed rfl (.returned _ _)
  refine Exec.then_conclude (t := []) (Returns.lift (canonicalOperationRef_text _)) ?_
  rw [if_neg (by decide)]
  refine Exec.then_conclude (t := [_]) hlock (Exec.then_conclude (t := [_]) (u := []) hload ?_)
  rw [if_neg (by simp [Scenario.journal])]
  refine Exec.then_conclude (t := []) (u := []) (Returns.lift hplanId) ?_
  rw [if_pos executePlan_ne]
  exact .raised _ _

/-- The events of the `apply` that replays a pending step. -/
def replayEvents : Trace :=
  scenario.againEvents profile (scenario.steppingJournal runtime profile) "failed" scenario.base ++
    ⟨.call (scenario.commandOf profile .execute), .reply scenario.failure⟩ ::
      [wrote scenario.ref (scenario.failedJournal runtime profile)]

/-- An operation whose step was dispatched and not answered is reachable. -/
theorem reachable_stepping : Directory.Reachable runtime docs
    (.only scenario.ref (scenario.steppingWorld runtime profile)) := by
  refine (Scenario.reachable_prepared fair).trans (Directory.Reaches.run
    (.apply profile (.utf8 scenario.ref.text) scenario.arguments)
    (Scenario.exec_lost fair "timed out") (fun e he => ?_) ?_)
  · simp only [Scenario.untilStep, List.append_assoc, List.mem_append, List.mem_cons,
      List.not_mem_nil, or_false] at he
    rcases he with he | he | he | he | (he | he) | he
    · exact Scenario.gateEvents_ofOnly e he
    · exact Scenario.stepEvents_ofOnly .admission e he
    · exact Scenario.stepEvents_ofOnly .claim e he
    · exact Scenario.stepEvents_ofOnly .start e he
    · subst he
      constructor
    · subst he
      constructor
    · subst he
      exact .call _ _ rfl
  · simp [granted, Scenario.untilStep, Scenario.gateEvents, Scenario.stepEvents,
      Scenario.commandEvents, grants, answered, wrote]

/-- The replay ends the operation, so the gates let nothing through. -/
theorem fenced_replay : Fenced runtime docs scenario.arguments
    (scenario.steppingJournal runtime profile) replayEvents := by
  refine .inr fun h hprefix hcleared => ?_
  obtain ⟨call, response, hmem, hmatches, -, hphase⟩ :=
    hcleared.recovered (scenario.request runtime profile .execute) rfl
  have hroute : call.route = .command .execute := hmatches.route
  have hmem := hprefix.subset hmem
  simp only [replayEvents, Scenario.againEvents, Scenario.statusEvents, List.cons_append,
    List.nil_append, List.mem_cons, List.not_mem_nil, or_false] at hmem
  have hresponse : response = scenario.failure := by
    rcases hmem with he | he | he | he | he | he | he | he | he | he | he | he <;> cases he <;>
      first | rfl | cases hroute
  rw [hresponse] at hphase
  exact hphase Scenario.phaseAfter_failure

theorem apply_fenced_replay : OnlyReplays runtime docs (scenario.steppingJournal runtime profile)
    replayEvents :=
  apply_fenced reachable_stepping.only (canonicalOperationRef_text _) rfl
    (Scenario.exec_replayed fair) fenced_replay

end Instance

end Client

end ControlPlaneKit
