import ControlPlaneKit.Client.StatusTruth

/-!
# Started work and the reports

A start that is recorded, or a start or an execute step that is pending, has brought work about.
`status` reports it as not started exactly where the operation needs attention and its run was not
read to the end; `apply` only where its answers leave one of the listed marks (`Unbelied`).
-/

namespace ControlPlaneKit

namespace Client

open Interaction

/-- A start is recorded, or a start or an execute step is pending. -/
def Journal.WorkStarted (j : Journal) : Prop :=
  (∃ r ∈ j.requestHistory, r.routeId = .start) ∨
    ∃ p, j.pendingRequest = some p ∧ (p.routeId = .start ∨ p.routeId = .execute)

/-- The answers of a call of `apply` leave none of the marks after which it falls back to the
execution value `not-started`. -/
structure Unbelied (rt : Runtime) (docs : Set (List UInt8)) (j : Journal) (h : Trace) : Prop where
  /-- The runs of an operation that needs attention were read to the end. -/
  run : j.phase = .attentionRequired → RunsRead h
  /-- The call did not end at an approval that is refused, or pending beside another request. -/
  approval : ∀ pre e e' approvalId approval, h = pre ++ [e, e'] →
    j.coordinates.approvalRequestId = some approvalId → ShowsApproval approvalId approval e →
      approval.get "state" = .str "approved" ∨ approval.get "state" = .str "pending" ∧
        ∀ p, j.pendingRequest = some p → p.routeId = .decide
  /-- It did not end at a replayed execute step that did not go well. -/
  replayed : ∀ pre call response e, h = pre ++ [⟨.call call, .reply response⟩, e] →
    Replays rt docs j call → call.route = .command .execute →
      phaseAfter .execute response ≠ .attentionRequired
  /-- It did not end at an unresolved command other than a start or an execute step. -/
  command : ∀ pre call answer route, h = pre ++ [⟨.call call, answer⟩] →
    call.route = .command route → route = .start ∨ route = .execute
  /-- The history had room for the last command that was due. -/
  room : ∀ pre value e, h = pre ++ [⟨.identity, value⟩, e] →
    j.requestHistory.length + commands pre < maximumRequestRecords
  /-- It did not end at a workspace without a current graph. -/
  current : ∀ pre e e', h = pre ++ [e, e'] → ¬ ShowsWorkspace none e
  /-- It did not end at a read-back that shows another graph. -/
  graph : ∀ pre call response e pointer, h = pre ++ [⟨.call call, .reply response⟩, e] →
    call.route = .read .currentGraph → j.coordinates.desired? = some pointer →
      response.get "graph_id" = pointer.authoredGraphId.json ∧
        response.get "realized_projection_id" = pointer.realizedProjectionId.json

/-! ### What started work has left in the journal -/

section Started

variable {ref : OperationRef} {j : Journal} {phase : Phase} {word : List CommandRoute}
  {history : List Record} {r : Record}

/-- The phases of started work. -/
def Phase.startedPhases : List Phase :=
  [.claimed, .started, .executing, .executed, .advanced, .converged, .attentionRequired]

/-- A start follows a claim, and leads to the later phases. -/
theorem Spelled.of_start (h : Spelled phase word) (hmem : .start ∈ word) :
    phase ∈ [Phase.started, .executing, .executed, .attentionRequired, .advanced] ∧ .claim ∈ word := by
  have hopening : ∀ decided, CommandRoute.claim ∈ opening decided := by decide
  cases h with
  | planning => cases hmem
  | prepared => simp at hmem
  | approved => simp at hmem
  | admitted decided h =>
    cases decided with
    | false =>
      obtain rfl : word = [.prepare, .admission] := List.append_cancel_right h
      simp at hmem
    | true =>
      obtain rfl : word = [.prepare, .decide, .admission] := List.append_cancel_right h
      simp at hmem
  | claimed decided h =>
    cases decided with
    | false =>
      obtain rfl : word = [.prepare, .admission, .claim] := List.append_cancel_right h
      simp at hmem
    | true =>
      obtain rfl : word = [.prepare, .decide, .admission, .claim] := List.append_cancel_right h
      simp at hmem
  | started decided => exact ⟨by decide, hopening decided⟩
  | stepped decided steps h =>
    refine ⟨?_, List.mem_append_left _ (hopening decided)⟩
    simp only [List.mem_cons, List.not_mem_nil, or_false] at h
    rcases h with rfl | rfl | rfl <;> decide
  | advanced decided steps =>
    exact ⟨by decide, List.mem_append_left _ (List.mem_append_left _ (hopening decided))⟩

/-- The records of a history of the protocol have answers of their routes. -/
theorem route_of_tracePhase (ht : tracePhase history = some phase) (hr : r ∈ history) :
    r.response.route = r.routeId := by
  obtain ⟨pre, post, rfl⟩ := List.append_of_mem hr
  rw [List.append_cons] at ht
  obtain ⟨after, hpre, -⟩ := tracePhase_of_append ht
  obtain ⟨before, -, hstep⟩ := tracePhase_concat.mp hpre
  exact (after_eq_some.mp hstep).1

/-- Started work is in one of these phases. -/
theorem Journal.WorkStarted.mem_startedPhases (hj : JournalInv ref j) (hs : j.WorkStarted) :
    j.phase ∈ Phase.startedPhases := by
  rcases hs with ⟨r, hr, hstart⟩ | ⟨p, hp, hroute⟩
  · obtain ⟨phase, htrace, hsettles⟩ := hj.trace
    have hmem : .start ∈ routes j.requestHistory := hstart ▸ List.mem_map_of_mem hr
    have hphase := ((spelled_of_tracePhase htrace).of_start hmem).1
    generalize j.phase = phase' at hsettles
    cases hsettles with
    | same =>
      simp only [List.mem_cons, List.not_mem_nil, or_false] at hphase
      rcases hphase with rfl | rfl | rfl | rfl | rfl <;> decide
    | converged => decide
    | noChanges => simp at hphase
    | review => simp at hphase
  · have hphase := (hj.valid.pending p hp).phase
    rcases hroute with h | h <;> rw [h] at hphase <;>
      simp only [pendingPhases, List.mem_cons, List.not_mem_nil, or_false] at hphase
    · rw [hphase]
      decide
    · rcases hphase with h | h <;> rw [h] <;> decide

/-- Started work knows its run. -/
theorem Journal.WorkStarted.runId (hj : JournalInv ref j) (hs : j.WorkStarted) :
    j.coordinates.runId ≠ none := by
  rcases hs with ⟨r, hr, hstart⟩ | ⟨p, hp, hroute⟩
  · obtain ⟨phase, htrace, -⟩ := hj.trace
    have hmem : .start ∈ routes j.requestHistory := hstart ▸ List.mem_map_of_mem hr
    have hclaim := ((spelled_of_tracePhase htrace).of_start hmem).2
    obtain ⟨claim, hclaim, hroute⟩ := List.mem_map.mp hclaim
    have hanswer := (route_of_tracePhase htrace hclaim).trans hroute
    have hagrees := hj.agree claim hclaim
    cases hresponse : claim.response with
    | claim runId claimGeneration =>
      rw [hresponse] at hagrees
      rw [hagrees.1]
      exact Option.some_ne_none _
    | _ =>
      rw [hresponse] at hanswer
      cases hanswer
  · have hphase := (hj.valid.pending p hp).phase
    have hhas : j.coordinates.has .runId = true := by
      refine hj.valid.required .runId ?_
      rcases hroute with h | h <;> rw [h] at hphase <;>
        simp only [pendingPhases, List.mem_cons, List.not_mem_nil, or_false] at hphase
      · rw [hphase]
        decide
      · rcases hphase with h | h <;> rw [h] <;> decide
    intro hnone
    simp [Coordinates.has, Coordinates.value?, hnone] at hhas

theorem executionOf_started (hphase : phase ∈ Phase.startedPhases) :
    executionOf phase = .notStarted ↔ phase = .attentionRequired := by
  simp only [Phase.startedPhases, List.mem_cons, List.not_mem_nil, or_false] at hphase
  rcases hphase with rfl | rfl | rfl | rfl | rfl | rfl | rfl <;> decide

/-- Nothing is pending once attention is required. -/
theorem pending_attentionRequired (hj : JournalInv ref j) (hphase : j.phase = .attentionRequired) :
    j.pendingRequest = none := by
  cases hp : j.pendingRequest with
  | none => rfl
  | some p =>
    have hmem := (hj.valid.pending p hp).phase
    rw [hphase] at hmem
    exact absurd hmem (final_attentionRequired _)

end Started

/-! ### The reports -/

section Reports

variable {rt : Runtime} {docs : Set (List UInt8)} {ref : OperationRef} {profile : ClientProfile}
  {j : Journal} {h : Trace} {result : ClientResult}

/-- A listed run is never reported as not started. -/
theorem RunListed.ne_notStarted {c : Coordinates} {execution : Execution}
    (hrun : RunListed c h execution) : execution ≠ .notStarted := by
  rcases hrun.values with rfl | rfl | rfl | rfl <;> exact Execution.noConfusion

theorem RunListed.read {c : Coordinates} {execution : Execution} (hrun : RunListed c h execution) :
    RunsRead h := by
  obtain ⟨_, _, _, hread, _⟩ := hrun
  exact hread

/-- What the status reports of started work. -/
theorem StatusEnd.notStarted_iff (hend : StatusEnd j h result) (hphase : j.phase ∈ Phase.startedPhases)
    (hrunId : j.coordinates.runId ≠ none)
    (hidle : j.phase = .attentionRequired → j.pendingRequest = none) :
    result.execution = .notStarted ↔ j.phase = .attentionRequired ∧ ¬ RunsRead h := by
  cases hend with
  | unread execution hrun _ hresult =>
    rw [hresult.execution]
    cases execution with
    | some execution =>
      refine iff_of_false (fun heq => ?_) fun hcontra => hcontra.2 (RunListed.read hrun)
      split at heq
      · cases heq
      · exact RunListed.ne_notStarted hrun heq
    | none =>
      have hunread : ¬ RunsRead h := hrun.resolve_left hrunId
      rw [and_iff_left hunread, ← executionOf_started hphase, Option.getD_none]
      cases hp : j.pendingRequest with
      | none => simp
      | some p =>
        refine iff_of_false (fun heq => by cases heq) fun hexecution => ?_
        have hnone := hidle ((executionOf_started hphase).mp hexecution)
        rw [hp] at hnone
        cases hnone
  | unlisted hrun _ hexecution =>
    obtain ⟨_, _, hread, _⟩ := hrun
    rw [hexecution]
    exact iff_of_false (fun heq => by cases heq) fun hcontra => hcontra.2 hread
  | complete problem shown execution hrun hnone _ _ hresult =>
    cases execution with
    | none => exact absurd (hnone rfl) hrunId
    | some execution =>
      refine iff_of_false (fun heq => ?_) fun hcontra => hcontra.2 (RunListed.read hrun)
      cases hp : j.pendingRequest with
      | none =>
        rw [(hresult.2 hp).execution] at heq
        exact RunListed.ne_notStarted hrun heq
      | some p =>
        rw [(hresult.1 p hp).execution] at heq
        split at heq
        · cases heq
        · exact RunListed.ne_notStarted hrun heq

theorem runsRead_of_quiet {pre tr : Trace} (hquiet : Quiet .planRuns pre) (hread : RunsRead (pre ++ tr)) :
    RunsRead tr :=
  (runsRead_append.mp hread).resolve_left hquiet.not_runsRead

/-- The pointer that started work is to make current. -/
theorem desired_of_started (hj : JournalInv ref j) (hphase : j.phase ∈ Phase.startedPhases)
    (hgoing : j.phase ≠ .attentionRequired) : ∃ pointer, j.coordinates.desired? = some pointer := by
  have hneeds : needsPlanCoordinates j.phase = true := by
    generalize j.phase = phase at hphase hgoing
    simp only [Phase.startedPhases, List.mem_cons, List.not_mem_nil, or_false] at hphase
    rcases hphase with rfl | rfl | rfl | rfl | rfl | rfl | rfl
    · rfl
    · rfl
    · rfl
    · rfl
    · rfl
    · rfl
    · exact absurd rfl hgoing
  have hgraph := hj.valid.plan hneeds .desiredGraphId (by decide)
  have hprojection := hj.valid.plan hneeds .desiredRealizedProjectionId (by decide)
  simp only [Coordinates.has, Coordinates.value?, Option.isSome_map] at hgraph hprojection
  obtain ⟨graphId, hgraph⟩ := Option.isSome_iff_exists.mp hgraph
  obtain ⟨projectionId, hprojection⟩ := Option.isSome_iff_exists.mp hprojection
  exact ⟨⟨graphId, projectionId⟩, by rw [Coordinates.desired?, hgraph, hprojection]⟩

theorem Coordinates.Extends.desired? {c c' : Coordinates} (h : c.Extends c') {pointer : Pointer}
    (hpointer : c.desired? = some pointer) : c'.desired? = some pointer := by
  unfold Coordinates.desired? at hpointer
  split at hpointer
  · rename_i graphId projectionId hgraph hprojection
    have hgraph' := h .desiredGraphId (by decide) graphId.json (by simp [value?, hgraph])
    have hprojection' := h .desiredRealizedProjectionId (by decide) projectionId.json
      (by simp [value?, hprojection])
    simp only [value?, Option.map_eq_some_iff, Coordinate.json_inj, exists_eq_right] at hgraph' hprojection'
    rw [Coordinates.desired?, hgraph', hprojection']
    exact hpointer
  · cases hpointer

/-- The world of an operation moves forward along a call of `apply`. -/
theorem apply_leads {args : ApplyArguments} {reference : Text} {w w' : World} {tr : Trace}
    {out : Option (Except ClientError ClientResult)} (hw : WorldInv rt docs ref w)
    (href : canonicalOperationRef reference = .ok ref) (hj : w.journal = some j)
    (hrun : Exec (answers docs ref) w (apply rt profile reference args) tr w' out) : w.Leads w' := by
  have hmeets : Meets (answers docs ref) _ (apply rt profile reference args) _ [] w :=
    apply_meets (fun _ hunsent hquiet => applyLocked_abides hj hunsent hquiet) hw href
  have hkept : WorldInv rt docs ref w' ∧ w.Leads w' :=
    hmeets.invariant (I := fun v => WorldInv rt docs ref v ∧ w.Leads v)
      (fun _ _ _ _ hv hg => ⟨hg.1.inv hv.1, hv.2.trans (hg.1.leads hv.1)⟩) ⟨hw, .refl w⟩ hrun
  exact hkept.2

/-- **Started work is not reported as not started** by a call of `apply` whose answers leave none
of the marks. -/
theorem ApplyEnd.ne_notStarted {args : ApplyArguments} {w : World} (hj : JournalInv ref j)
    (hstarted : j.WorkStarted) (hleads : ∀ j', w.journal = some j' → Forward j j')
    (hend : ApplyEnd rt docs args j h w result) (hborne : Unbelied rt docs j h) :
    result.execution ≠ .notStarted := by
  have hphase := hstarted.mem_startedPhases hj
  have hrunId := hstarted.runId hj
  have hidle := pending_attentionRequired hj
  cases hend with
  | doubtful _ hexecution => exact hexecution
  | unapproved planId approvalId plan approval pre e e' _ hid hlast hshown _ hstate =>
    exfalso
    -- the approval that was read was approved, or pending with a decision to replay
    rcases hborne.approval pre e e' approvalId approval hlast hid hshown with happroved |
      ⟨hpending, hdecides⟩
    · rcases hstate with ⟨hpending, -⟩ | ⟨-, hne⟩
      · rw [happroved] at hpending
        simp at hpending
      · exact hne happroved
    · rcases hstate with ⟨-, p, hp, hroute⟩ | ⟨hne, -⟩
      · exact hroute (hdecides p hp)
      · exact hne hpending
  | stalled j' pre tr hahead hsame hpending hlast _ hquiet hend =>
    intro hexecution
    have hrunId' : j'.coordinates.runId ≠ none := by
      obtain ⟨runId, hrun⟩ := Option.ne_none_iff_exists'.mp hrunId
      rw [hahead.extends_.runId hrun]
      exact Option.some_ne_none _
    have hattention := (hend.notStarted_iff (hsame ▸ hphase) hrunId'
      (fun _ => hahead.pending.trans hpending)).mp hexecution
    have hread := hborne.run (hsame ▸ hattention.1)
    rw [hlast] at hread
    exact hattention.2 (runsRead_of_quiet hquiet hread)
  | unresolved profile j' p pre call answer _ _ hlast hroute _ hresult =>
    have hroute' := hborne.command pre call answer p.routeId hlast hroute
    rw [hresult]
    rcases hroute' with h | h <;> rw [h] <;> exact Execution.noConfusion
  | «over» profile j' _ hover _ hcause =>
    exfalso
    rcases hcause with ⟨-, hsame, hnone⟩ | ⟨p, pre, call, response, e, hp, hroute, hlast, hmatch,
      hattention⟩
    · rcases hover with h | h <;> rw [h] at hsame
      · rw [hsame] at hphase
        exact absurd hphase (by decide)
      · exact hrunId (hnone hsame)
    · refine hborne.replayed pre call response e hlast ⟨p, hp, hmatch⟩ ?_ hattention
      rw [hmatch.route, hroute]
  | exhausted pre value e hlast hfull => exact absurd (hborne.room pre value e hlast) (by omega)
  | noCurrent pre e e' hlast hshown => exact absurd hshown (hborne.current pre e e' hlast)
  | moved j' pre call response e hj' hadvanced hlast hroute hmoved =>
    exfalso
    have hforward := hleads j' hj'
    -- a later journal is advanced, so this one had not stopped
    have hgoing : j.phase ≠ .attentionRequired := by
      intro hattention
      have hphase' := hforward.phase
      rw [hattention, hadvanced] at hphase'
      rcases hphase' with h | ⟨h, -⟩ <;> cases h
    obtain ⟨pointer, hpointer⟩ := desired_of_started hj hphase hgoing
    exact hmoved pointer (hforward.coordinates.desired? hpointer)
      (hborne.graph pre call response e pointer hlast hroute hpointer)
  | converged profile j' pointer _ hconverged _ _ hresult =>
    rw [hresult]
    have hexecution : executionOf j'.phase ≠ .notStarted := by
      rw [hconverged]
      exact Execution.noConfusion
    exact hexecution

/-- **What is reported of started work**: `status` reports it as not started exactly where the
operation needs attention and its runs were not read to the end, and `apply` only where its answers
leave one of the marks. -/
theorem startedWork_reported {reference : Text} {w : World} (hw : Reachable rt docs ref w)
    (href : canonicalOperationRef reference = .ok ref) (hj : w.journal = some j)
    (hstarted : j.WorkStarted) :
    (∀ tr w' result, Exec (answers docs ref) w (status rt profile reference) tr w' (some (.ok result)) →
      (result.execution = .notStarted ↔ j.phase = .attentionRequired ∧ ¬ RunsRead tr)) ∧
    ∀ args tr w' result,
      Exec (answers docs ref) w (apply rt profile reference args) tr w' (some (.ok result)) →
        Unbelied rt docs j tr → result.execution ≠ .notStarted := by
  have hinv := hw.inv.journal j hj
  refine ⟨fun tr w' result hrun => ?_, fun args tr w' result hrun hborne => ?_⟩
  · exact (status_ends href hj hrun).notStarted_iff (hstarted.mem_startedPhases hinv)
      (hstarted.runId hinv) (pending_attentionRequired hinv)
  · obtain ⟨-, -, hends⟩ := apply_run hw.inv href hrun
    obtain ⟨j₀, hj₀, hend⟩ := hends result rfl
    obtain rfl : j = j₀ := Option.some.inj (hj.symm.trans hj₀)
    refine hend.ne_notStarted hinv hstarted (fun j' hj' => ?_) hborne
    obtain ⟨j'', hj'', hforward⟩ := (apply_leads hw.inv href hj hrun).1 j hj
    obtain rfl : j' = j'' := Option.some.inj (hj'.symm.trans hj'')
    exact hforward

end Reports

namespace Scenario

variable {rt : Runtime} {profile : ClientProfile} {docs : Set (List UInt8)} {s : Scenario}

/-- The converged operation finds a workspace without a current graph. -/
def unplacedResult (rt : Runtime) (profile : ClientProfile) (s : Scenario) : ClientResult :=
  attentionResult profile (s.convergedJournal rt profile) .notStarted .unverified .currentGraph

/-- The journal after that. -/
def unplacedJournal (rt : Runtime) (profile : ClientProfile) (s : Scenario) : Journal :=
  { s.convergedJournal rt profile with lastResult := some (s.unplacedResult rt profile) }

/-- The events of that application. -/
def unplacedEvents (rt : Runtime) (profile : ClientProfile) (s : Scenario) : Trace :=
  s.againEvents profile (s.convergedJournal rt profile) "succeeded" s.goal ++
    [answered profile s.ref .workspace (workspacePath profile) [("workspace", .obj [])],
      wrote s.ref (s.unplacedJournal rt profile)]

theorem exec_unplaced (hs : s.Fair rt docs) :
    Exec (answers docs s.ref) (s.worldConverged rt profile)
      (Client.apply rt profile (.utf8 s.ref.text) s.arguments) (s.unplacedEvents rt profile)
      ((s.worldConverged rt profile).store (s.unplacedJournal rt profile))
      (some (.ok (s.unplacedResult rt profile))) := by
  have hcurrent : Returns docs s.ref (s.worldConverged rt profile)
      (currentBeforeAdvance rt profile (s.convergedJournal rt profile))
      [answered profile s.ref .workspace (workspacePath profile) [("workspace", .obj [])]]
      (s.worldConverged rt profile) none := by
    have hget : Fields.get [("workspace", .obj [])] "workspace" = .obj [] := by simp
    refine .exceptUnresolved (Returns.bind (t := [_]) (u := []) (returns_readWorkspace hget) ?_)
    exact .lift rfl
  refine exec_applied hs ?_
  unfold advanceCurrent
  rw [if_neg Phase.noConfusion]
  refine Returns.quits (t := [_]) (u := [_]) hcurrent ?_
  exact quits_stop rfl rfl (attended_valid hs _ _ _) (attended_modest hs _ _ _)

theorem eq_of_append_two {α : Type} {xs ys : List α} {a b c d : α} (h : xs ++ [a, b] = ys ++ [c, d]) :
    a = c ∧ b = d := by
  simpa using (List.append_inj' h rfl).2

theorem eq_of_append_one {α : Type} {xs ys : List α} {a b c : α} (h : xs ++ [a, b] = ys ++ [c]) :
    b = c := by
  rw [List.append_cons] at h
  simpa using (List.append_inj' h rfl).2

/-- The answers of the second application leave no mark. -/
theorem unbelied_reapply :
    Unbelied rt docs (s.convergedJournal rt profile) (s.reapplyEvents rt profile) where
  run := by
    intro hphase
    cases hphase
  approval := by
    rintro pre e e' approvalId approval hlast - ⟨path, response, ⟨call, rfl, hroute, -⟩, -⟩
    cases (eq_of_append_two hlast).1
    cases hroute
  replayed := by
    intro pre call response e hlast _ hroute
    cases (eq_of_append_two hlast).1
    cases hroute
  command := by
    intro pre call answer route hlast
    cases eq_of_append_one hlast
  room := by
    intro pre value e hlast
    cases (eq_of_append_two hlast).1
  current := by
    rintro pre e e' hlast ⟨path, response, workspace, ⟨call, rfl, -⟩, hshown, hcurrent⟩
    cases (eq_of_append_two hlast).1
    simp only [Fields.get_cons, if_true, Json.obj.injEq] at hshown
    rw [← hshown, currentPointer_workspaceAt] at hcurrent
    cases hcurrent
  graph := by
    intro pre call response e pointer hlast hroute
    cases (eq_of_append_two hlast).1
    cases hroute

/-- The converged journal has the start in its history. -/
theorem workStarted_converged : (s.convergedJournal rt profile).WorkStarted :=
  .inl ⟨_, List.mem_cons_of_mem _ (List.mem_cons_of_mem _ (List.mem_cons_of_mem _
    List.mem_cons_self)), rfl⟩

end Scenario

namespace Instance

/-- The operation has converged, and the workspace is answered without a current graph: the
execution is reported as not started. -/
theorem apply_unplaced : ¬ ∀ (rt : Runtime) (docs : Set (List UInt8)) (ref : OperationRef)
    (profile : ClientProfile) (reference : Text) (args : ApplyArguments) (w w' : World) (tr : Trace)
    (result : ClientResult) (j : Journal), Reachable rt docs ref w →
    canonicalOperationRef reference = .ok ref → w.journal = some j → j.WorkStarted →
    (∃ planId, j.coordinates.planId = some planId ∧ args.executePlan = .utf8 planId.text) →
    Exec (answers docs ref) w (apply rt profile reference args) tr w' (some (.ok result)) →
    result.execution ≠ .notStarted := by
  intro h
  exact h runtime docs scenario.ref profile _ _ _ _ _ _ _ (Scenario.reachable_converged fair).only
    (canonicalOperationRef_text _) rfl Scenario.workStarted_converged ⟨scenario.planId, rfl, rfl⟩
    (Scenario.exec_unplaced fair) rfl

theorem startedWork_reported_converged :
    ((Scenario.unreadResult profile (scenario.convergedJournal runtime profile)).execution = .notStarted ↔
      (scenario.convergedJournal runtime profile).phase = .attentionRequired ∧
        ¬ RunsRead (scenario.unreadEvents profile (scenario.convergedJournal runtime profile))) ∧
    (scenario.stoppedResult runtime profile).execution ≠ .notStarted :=
  have hreported := startedWork_reported (Scenario.reachable_converged fair).only
    (canonicalOperationRef_text _) rfl Scenario.workStarted_converged
  ⟨hreported.1 _ _ _ unread_converged,
    hreported.2 _ _ _ _ (Scenario.exec_reapply fair goal_ne_base) Scenario.unbelied_reapply⟩

end Instance

end Client

end ControlPlaneKit
