import ControlPlaneKit.Client.HealthyRun

/-!
# What the protocol guarantees

The consequences of the invariant for whole runs of a state directory: every command that leaves
is the pending one, and the only one; the recorded history is a trace of the protocol; coordinates
are written once and phases move forward; and an `apply` that reports convergence has a history
and a read-back to show for it.
-/

namespace ControlPlaneKit

namespace Client

open Interaction

section Guarantees

variable {rt : Runtime} {docs : Set (List UInt8)} {ref : OperationRef} {c d d' : Directory} {i : ℕ}
  {e : Event Op Op.Answer} {j : Journal} {call : Call}

/-- The event dispatches this command of the operation. -/
def Dispatches (ref : OperationRef) (call : Call) (e : Event Op Op.Answer) : Prop :=
  e.op = .call call ∧ call.operationRef = ref ∧ call.route.isRead = false

/-- A dispatched command is the pending one. -/
theorem Directory.Reachable.dispatchable (hc : Directory.Reachable rt docs c)
    (hstep : Directory.Step rt docs c i (some e) d) (he : Dispatches ref call e) :
    Dispatchable rt docs (c.state ref) call := by
  obtain ⟨op, a⟩ := e
  obtain ⟨hop, href, hroute⟩ := he
  obtain rfl : op = .call call := hop
  have hlawful := Directory.Reachable.lawful hc hstep ref
  simp only [Lawful, href, hroute, Bool.not_false, and_self, if_true] at hlawful
  exact hlawful.1

/-! ### Exact replay, and one outstanding command -/

/-- **A dispatched command** is the pending request of the durable journal, it goes to the target
of the journal, every earlier command with another key is recorded, and earlier commands with the
same key carried the same request. -/
theorem Directory.Reachable.outstanding (hc : Directory.Reachable rt docs c)
    (hstep : Directory.Step rt docs c i (some e) d) (he : Dispatches ref call e) :
    ∃ j p, (c.state ref).journal = some j ∧ j.pendingRequest = some p ∧ Matches rt docs p call ∧
      (Set.InjOn rt.sha256 docs → ∀ call' ∈ (c.state ref).dispatched, call'.key = call.key →
        SameRequest call' call) ∧
      (∀ call' ∈ (c.state ref).dispatched, call'.key ≠ call.key →
        ∃ key ∈ j.recordedKeys, call'.key = key.json) ∧
      OnTarget rt j.target call ∧
      ∀ b, Directory.Reachable rt docs b → Directory.Reaches rt docs b c →
        ∀ j', (b.state ref).journal = some j' → j'.target = j.target := by
  have hdispatchable := Directory.Reachable.dispatchable hc hstep he
  obtain ⟨j, p, hj, hp, hmatch, htarget⟩ := hdispatchable
  have hinv : WorldInv rt docs ref (c.state ref) := Reachable.inv ⟨c, hc, rfl⟩
  have hinv' := hinv.dispatch ⟨j, p, hj, hp, hmatch, htarget⟩
  refine ⟨j, p, hj, hp, hmatch, fun hinj call' hcall' hkey => ?_, fun call' hcall' hkey => ?_,
    htarget, fun b hb hbc j' hj' => ?_⟩
  · exact hinv'.sameKey hinj call' (List.mem_append_left _ hcall') call
      (List.mem_append_right _ (List.mem_singleton_self _)) hkey
  · refine (hinv.outstanding j hj call' hcall').resolve_right ?_
    rintro ⟨q, hq, hmatch'⟩
    obtain rfl : p = q := Option.some.inj (hp.symm.trans hq)
    exact hkey (hmatch'.key.trans hmatch.key.symm)
  · obtain ⟨k, hk, hforward⟩ := (Directory.Reaches.leads hb hbc ref).1 j' hj'
    obtain rfl : j = k := Option.some.inj (hj.symm.trans hk)
    exact hforward.target.symm

open Instance in
/-- The step of a run in which the claim is sent, after the admission has been recorded. -/
theorem claim_step : ∃ c d, Directory.Reachable runtime Instance.docs c ∧
    Directory.Step runtime Instance.docs c 0 (some ⟨.call (scenario.commandOf profile .claim),
      .reply (scenario.response profile .claim)⟩) d := by
  have hsplit : scenario.gateEvents runtime profile ++ scenario.deploymentEvents runtime profile =
      (scenario.gateEvents runtime profile ++ (scenario.stepEvents runtime profile .admission ++
        (scenario.stepEvents runtime profile .claim).take 2)) ++
      ⟨.call (scenario.commandOf profile .claim), .reply (scenario.response profile .claim)⟩ ::
        ((scenario.stepEvents runtime profile .claim).drop 3 ++
          (scenario.stepEvents runtime profile .start ++
            (scenario.stepEvents runtime profile .execute ++
              (scenario.advanceEvents runtime profile ++
                scenario.readBackEvents runtime profile)))) := rfl
  have hexec : Exec (answers Instance.docs scenario.ref) _ (apply runtime profile _ _) _ _ _ :=
    Scenario.exec_apply fair
  have honly : ∀ e ∈ scenario.gateEvents runtime profile ++
      scenario.deploymentEvents runtime profile, OfOnly Instance.docs scenario.ref e :=
    Scenario.applyEvents_ofOnly
  rw [hsplit] at hexec honly
  exact (Scenario.reachable_prepared fair).midway
    (.apply profile (.utf8 scenario.ref.text) scenario.arguments) hexec honly (by
      simp [granted, Scenario.gateEvents, Scenario.stepEvents, Scenario.commandEvents, grants,
        answered, wrote]) rfl

open Instance in
/-- The claim of a run, after the admission has been recorded. -/
theorem outstanding_claim : ∃ c d e call, Directory.Reachable runtime Instance.docs c ∧
    Directory.Step runtime Instance.docs c 0 (some e) d ∧ Dispatches scenario.ref call e ∧
    ∃ j p, (c.state scenario.ref).journal = some j ∧ j.pendingRequest = some p ∧
      Matches runtime Instance.docs p call ∧ OnTarget runtime j.target call := by
  obtain ⟨c, d, hc, hstep⟩ := claim_step
  have he : Dispatches scenario.ref (scenario.commandOf profile .claim)
      ⟨.call (scenario.commandOf profile .claim), .reply (scenario.response profile .claim)⟩ :=
    ⟨rfl, rfl, rfl⟩
  obtain ⟨j, p, hj, hp, hmatch, -, -, htarget, -⟩ := Directory.Reachable.outstanding hc hstep he
  exact ⟨c, d, _, _, hc, hstep, he, j, p, hj, hp, hmatch, htarget⟩

/-! ### The history is a trace of the protocol -/

/-- **The recorded history** of a durable journal is a prefix of a word of the protocol, and in a
phase that is over nothing is dispatched any more. -/
theorem Directory.Reachable.history (hc : Directory.Reachable rt docs c)
    (hj : (c.state ref).journal = some j) :
    (∃ word, IsWord word ∧ routes j.requestHistory <+: word) ∧
      (∀ route, route ≠ .execute → (routes j.requestHistory).count route ≤ 1) ∧
      (∀ pre r post, j.requestHistory = pre ++ r :: post → r.routeId = .execute →
        (∃ r' ∈ post, r'.routeId = .execute) → r.Executed "progressed") ∧
      (∀ pre r post, j.requestHistory = pre ++ r :: post → r.routeId = .advance →
        ∃ pre' r', pre = pre' ++ [r'] ∧ r'.Completed) ∧
      j.requestHistory.length ≤ maximumRequestRecords ∧
      (j.phase = .attentionRequired ∨ j.phase = .noChanges →
        ∀ d i e d', Directory.Reaches rt docs c d → Directory.Step rt docs d i (some e) d' →
          ∀ call, ¬ Dispatches ref call e) := by
  have hinv : WorldInv rt docs ref (c.state ref) := Reachable.inv ⟨c, hc, rfl⟩
  have hjournal := hinv.journal j hj
  obtain ⟨phase, htrace, -⟩ := hjournal.trace
  obtain ⟨word, hword, hcontinues⟩ := (spelled_of_tracePhase htrace).prefix_word
  refine ⟨⟨word, hword, hcontinues⟩, fun route hroute => ?_, fun pre r post heq hr hlater => ?_,
    fun pre r post heq hr => ?_, hjournal.valid.budget, fun hover d i e d' hd hstep call he => ?_⟩
  · exact (hcontinues.sublist.count_le route).trans (hword.count_le_one hroute)
  · obtain ⟨r', hmem, hr'⟩ := hlater
    rw [heq] at htrace
    exact progressed_before_execute htrace hr hmem hr'
  · rw [heq] at htrace
    exact completed_before_advance htrace hr
  · obtain ⟨k, hk, hforward⟩ := (Directory.Reaches.leads hc hd ref).1 j hj
    have hd' : Directory.Reachable rt docs d := hc.trans hd
    have hsame : k.phase = j.phase := by
      rcases hforward.phase with h | ⟨hterminal, -⟩
      · exact h.symm
      · rcases hover with h | h <;> rw [h] at hterminal <;> cases hterminal
    obtain ⟨k', p, hk', hp, -, -⟩ := Directory.Reachable.dispatchable hd' hstep he
    obtain rfl : k = k' := Option.some.inj (hk.symm.trans hk')
    have hinv' : WorldInv rt docs ref (d.state ref) := Reachable.inv ⟨d, hd', rfl⟩
    have hpending := ((hinv'.journal k hk).valid.pending p hp).phase
    rw [hsame] at hpending
    rcases hover with h | h <;> rw [h] at hpending
    · exact final_attentionRequired _ hpending
    · exact final_noChanges _ hpending

open Instance in
theorem history_converged : ∃ word, IsWord word ∧
    routes (scenario.convergedJournal runtime profile).requestHistory <+: word :=
  (Directory.Reachable.history (Scenario.reachable_converged fair)
    (congrArg World.journal Directory.only_state)).1

/-! ### Coordinates are written once -/

/-- **Along every run** the identity of a journal stays, its write-once coordinates keep their
values, and its phase moves forward. -/
theorem Directory.Reachable.forward (hc : Directory.Reachable rt docs c)
    (hd : Directory.Reaches rt docs c d) (hj : (c.state ref).journal = some j) :
    ∃ j', (d.state ref).journal = some j' ∧ j'.desired = j.desired ∧ j'.target = j.target ∧
      j'.operationRef = j.operationRef ∧
      (∀ n ∈ writeOnce, ∀ v, j.coordinates.value? n = some v → j'.coordinates.value? n = some v) ∧
      j.phase.Leads j'.phase := by
  obtain ⟨j', hj', hforward⟩ := (Directory.Reaches.leads hc hd ref).1 j hj
  exact ⟨j', hj', hforward.desired, hforward.target, hforward.operationRef, hforward.coordinates,
    hforward.phase⟩

open Instance in
theorem forward_converged : ∃ j', (scenario.worldConverged runtime profile).journal = some j' ∧
    j'.desired = scenario.source runtime ∧ Phase.prepared.Leads j'.phase := by
  have hreaches : Directory.Reaches runtime Instance.docs _
      (.only scenario.ref (scenario.worldConverged runtime profile)) :=
    Scenario.reaches_converged fair
  obtain ⟨j', hj', hdesired, -, -, -, hphase⟩ := Directory.Reachable.forward
    (Scenario.reachable_prepared fair) hreaches (congrArg World.journal Directory.only_state)
  rw [Directory.only_state] at hj'
  exact ⟨j', hj', hdesired, hphase⟩

/-! ### Convergence is sound -/

/-- A history that has led to the phase advanced ends with a completed step and an advancement. -/
theorem tracePhase_advanced {h : List Record} (ht : tracePhase h = some .advanced) :
    ∃ pre r r', h = pre ++ [r, r'] ∧ r.Completed ∧ r'.routeId = .advance ∧
      ∃ graphId projectionId revision, r'.response = .advance graphId projectionId revision := by
  induction h using List.reverseRecOn with
  | nil => cases ht
  | append_singleton h r' _ =>
    obtain ⟨before, hb, hr⟩ := tracePhase_concat.mp ht
    obtain ⟨hroute, -, hphase, hafter⟩ := after_eq_some.mp hr
    cases hresp : r'.response with
    | advance graphId projectionId revision =>
      rw [hresp] at hroute
      have hadvance : r'.routeId = .advance := hroute.symm
      rw [hadvance] at hphase
      obtain rfl : before = .executed := by simpa [pendingPhases] using hphase
      obtain ⟨pre, r, rfl, hcompleted⟩ := tracePhase_executed hb
      exact ⟨pre, r, r', by simp, hcompleted, hadvance, _, _, _, hresp⟩
    | execute =>
      rw [hresp] at hafter
      simp only [Projection.phase] at hafter
      split at hafter
      · cases hafter
      · split at hafter <;> cases hafter
    | _ => rw [hresp] at hafter; cases hafter

/-- No history has led to the phase converged. -/
theorem Spelled.ne_converged {phase : Phase} {word : List CommandRoute} (h : Spelled phase word) :
    phase ≠ .converged := by
  rintro rfl
  cases h with
  | stepped decided steps h => simp at h

/-- A journal that is converged has been advanced. -/
theorem JournalInv.traced_converged (hj : JournalInv ref j) (hphase : j.phase = .converged) :
    tracePhase j.requestHistory = some .advanced := by
  obtain ⟨phase, htrace, hsettles⟩ := hj.trace
  rw [hphase] at hsettles
  cases hsettles with
  | converged => exact htrace
  | same =>
    exact absurd rfl (spelled_of_tracePhase htrace).ne_converged

/-- The history of a converged operation: a completed step of the journal's run, and then the
advancement from the plan's base to the desired graph. -/
structure Deployed (rt : Runtime) (w : World) (j : Journal) : Prop where
  history : ∃ pre r r', j.requestHistory = pre ++ [r, r'] ∧
    (r.routeId = .execute ∧ ∃ runId runStatus coordinatorStatus effects activityId,
      r.response = .execute runId runStatus coordinatorStatus effects activityId ∧
        j.coordinates.runId = some runId ∧ coordinatorStatus.text = "completed" ∧
          runStatus.text = "succeeded") ∧
    (r'.routeId = .advance ∧ ∃ graphId projectionId revision,
      r'.response = .advance graphId projectionId revision ∧
        j.coordinates.desiredGraphId = some graphId ∧
          j.coordinates.desiredRealizedProjectionId = some projectionId ∧
            j.coordinates.desiredGraphRevision = some revision) ∧
    ∃ call ∈ w.dispatched, SentFor rt r' call ∧ FromBase j.coordinates call

theorem WorldInv.deployed {w : World} (hw : WorldInv rt docs ref w) (hj : w.journal = some j)
    (hphase : j.phase = .converged) : Deployed rt w j := by
  have hinv := hw.journal j hj
  obtain ⟨pre, r, r', heq, ⟨hroute, runId, runStatus, coordinatorStatus, effects, activityId, hresp,
    hstatus, hrun⟩, hadvance, graphId, projectionId, revision, hresp'⟩ :=
    tracePhase_advanced (hinv.traced_converged hphase)
  have hmem : ∀ x ∈ [r, r'], x ∈ j.requestHistory := fun x hx =>
    heq ▸ List.mem_append_right pre hx
  have hagree := hinv.agree r (hmem r (by simp))
  rw [hresp] at hagree
  have hnamed := hinv.advanced (pre ++ [r]) r' graphId projectionId revision (by simp [heq]) hresp'
  obtain ⟨hgraph, hprojection, hrevision⟩ := hinv.valid.advancement (by simp [hphase])
  obtain ⟨call, hcall, hsent, hbase⟩ := hw.sent j hj r' (hmem r' (by simp))
  refine ⟨pre, r, r', heq, ⟨hroute, runId, runStatus, coordinatorStatus, effects, activityId, hresp,
    hagree, hstatus, hrun⟩, ⟨hadvance, graphId, projectionId, revision, hresp', ?_, ?_, ?_⟩, call,
    hcall, hsent, hbase hadvance⟩
  · rw [← hgraph, hnamed.1]
  · rw [← hprojection, hnamed.2.1]
  · rw [← hrevision, hnamed.2.2]

/-- Only the read-back that shows the desired pointer ends in convergence. -/
theorem ApplyEnd.of_converged {args : ApplyArguments} {j₀ : Journal} {h : Trace} {w : World}
    {result : ClientResult} (hend : ApplyEnd rt docs args j₀ h w result)
    (hstatus : result.status = .converged) :
    ∃ j pointer, w.journal = some j ∧ j.phase = .converged ∧ j.coordinates.desired? = some pointer ∧
      ∃ e ∈ h, ShowsCurrent pointer e := by
  cases hend with
  | converged profile j pointer hj hphase hpointer hshown hresult =>
    exact ⟨j, pointer, hj, hphase, hpointer, hshown⟩
  | unresolved profile j p pre call answer hj hp hlast hroute hunresolved hresult =>
    subst hresult
    cases hstatus
  | «over» profile j hj hphase hresult hcause =>
    subst hresult
    rcases hphase with h | h <;> rw [projectJournal] at hstatus <;> simp [h, statusOf] at hstatus
  | doubtful h => cases hstatus.symm.trans h
  | unapproved _ _ _ _ _ _ _ _ _ _ _ _ _ h => cases hstatus.symm.trans h
  | stalled _ _ _ _ _ _ _ _ _ _ h => cases hstatus.symm.trans h
  | exhausted _ _ _ _ _ h => cases hstatus.symm.trans h
  | noCurrent _ _ _ _ _ h => cases hstatus.symm.trans h
  | moved _ _ _ _ _ _ _ _ _ _ h => cases hstatus.symm.trans h

/-- **An `apply` that reports convergence** has a completed step and the advancement in its durable
history, and has read the desired graph as the current one. -/
theorem apply_converged {profile : ClientProfile} {reference : Text} {args : ApplyArguments}
    {w w' : World} {tr : Trace} {result : ClientResult} (hw : Reachable rt docs ref w)
    (href : canonicalOperationRef reference = .ok ref)
    (hrun : Exec (answers docs ref) w (apply rt profile reference args) tr w' (some (.ok result)))
    (hstatus : result.status = .converged) :
    ∃ j pointer, w'.journal = some j ∧ Deployed rt w' j ∧ j.coordinates.desired? = some pointer ∧
      ∃ e ∈ tr, ShowsCurrent pointer e := by
  obtain ⟨hinv, -, hends⟩ := apply_run hw.inv href hrun
  obtain ⟨j₀, -, hend⟩ := hends result rfl
  obtain ⟨j, pointer, hj, hphase, hpointer, hshown⟩ := hend.of_converged hstatus
  exact ⟨j, pointer, hj, hinv.deployed hj hphase, hpointer, hshown⟩

open Instance in
theorem apply_converged_scenario : ∃ j pointer,
    (scenario.worldConverged runtime profile).journal = some j ∧
      Deployed runtime (scenario.worldConverged runtime profile) j ∧
        j.coordinates.desired? = some pointer ∧
          ∃ e ∈ scenario.gateEvents runtime profile ++ scenario.deploymentEvents runtime profile,
            ShowsCurrent pointer e :=
  apply_converged (Scenario.reachable_prepared fair).only (canonicalOperationRef_text _)
    (Scenario.exec_apply fair) rfl

end Guarantees

end Client

end ControlPlaneKit
