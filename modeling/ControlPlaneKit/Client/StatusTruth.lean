import ControlPlaneKit.Client.MovedWorkspace

/-!
# What the status takes from the journal

Where a read stays unresolved, `_public_status` falls back to the phase of the journal. A result is
`Truthful` if it reports a succeeded execution, an advancement or convergence only where the answers
of the call show them. `status_truthful` gives the condition on the journal and the answers under
which a result of `status` is truthful.
-/

namespace ControlPlaneKit

namespace Client

open Interaction

/-! ### What the answers show -/

/-- A page of the plan's runs shows the journal's run as succeeded. -/
def ShowsSucceeded (c : Coordinates) (h : Trace) : Prop :=
  ∃ runId, c.runId = some runId ∧ ∃ e ∈ h, ShowsRun runId (.str "succeeded") e

/-- The current graph is answered with the desired pointer. -/
def GraphInPlace (c : Coordinates) (h : Trace) : Prop :=
  ∃ pointer, c.desired? = some pointer ∧ ∃ e ∈ h, ShowsCurrent pointer e

/-- The current graph or the workspace is answered with the desired pointer. -/
def ShowsDesired (c : Coordinates) (h : Trace) : Prop :=
  GraphInPlace c h ∨
    ∃ pointer, c.desired? = some pointer ∧ ∃ e ∈ h, ShowsWorkspace (some pointer) e

/-- The approval is answered as pending or approved. -/
def ShowsStanding (c : Coordinates) (h : Trace) : Prop :=
  ∃ approvalId approval, c.approvalRequestId = some approvalId ∧
    (∃ e ∈ h, ShowsApproval approvalId approval e) ∧
      (approval.get "state" = .str "pending" ∨ approval.get "state" = .str "approved")

/-- What a result reports has been shown by the answers. -/
structure Truthful (c : Coordinates) (h : Trace) (result : ClientResult) : Prop where
  execution : result.execution = .succeeded → ShowsSucceeded c h
  advancement : result.advancement = .advanced → ShowsDesired c h
  converged : result.status = .converged →
    ShowsSucceeded c h ∧ ShowsDesired c h ∧ ShowsStanding c h

/-- The phases whose default execution value is `succeeded`. -/
def Phase.Done (phase : Phase) : Prop :=
  phase = .executed ∨ phase = .advanced ∨ phase = .converged

/-- The phases whose default advancement value is `advanced`. -/
def Phase.InPlace (phase : Phase) : Prop :=
  phase = .advanced ∨ phase = .converged

/-- The answers bear out the phase, wherever the result falls back to it. -/
structure Corroborated (j : Journal) (h : Trace) : Prop where
  /-- The runs of an executed operation were read to the end, or show its success. -/
  run : j.pendingRequest = none → j.phase.Done → RunsRead h ∨ ShowsSucceeded j.coordinates h
  /-- The graph of an advanced operation was shown in place, or its run was not listed once. -/
  pointer : j.phase.InPlace → RunUnlisted j.coordinates h ∨ ShowsDesired j.coordinates h
  /-- A converged operation was not shown in place while its run is still going on. -/
  ended : j.phase = .converged → RunListed j.coordinates h .running →
    GraphInPlace j.coordinates h → ¬ ShowsStanding j.coordinates h

section Listed

variable {c : Coordinates} {h : Trace} {runId : Coordinate} {execution execution' : Execution}

theorem runExecution_succeeded {status : Json} :
    runExecution status = .ok .succeeded ↔ status = .str "succeeded" := by
  unfold runExecution
  split
  · rename_i hstatus
    exact iff_of_true rfl (Json.pyEq_str.mp hstatus)
  · rename_i hstatus
    refine iff_of_false (fun hok => ?_) fun heq => hstatus (Json.pyEq_str.mpr heq)
    split at hok
    · cases hok
    · split at hok <;> cases hok

/-- The values a run status can have. -/
theorem runExecution_values {status : Json} (hok : runExecution status = .ok execution) :
    execution = .succeeded ∨ execution = .failed ∨ execution = .running ∨ execution = .unverified := by
  unfold runExecution at hok
  split at hok
  · cases hok
    exact .inl rfl
  split at hok
  · cases hok
    exact .inr (.inl rfl)
  split at hok
  · cases hok
  · cases hok
    exact .inr (.inr (.inl rfl))
  · cases hok
    exact .inr (.inr (.inr rfl))

theorem mem_matchingRuns {items : List Json} {item : Fields} :
    item ∈ matchingRuns runId items ↔ .obj item ∈ items ∧ Fields.get item "run_id" = runId.json := by
  simp only [matchingRuns, List.mem_filterMap]
  constructor
  · rintro ⟨value, hvalue, hmatch⟩
    split at hmatch
    · split at hmatch
      · rename_i hid
        cases hmatch
        exact ⟨hvalue, Coordinate.pyEq_json.mp hid⟩
      · cases hmatch
    · cases hmatch
  · rintro ⟨hitem, hid⟩
    exact ⟨.obj item, hitem, if_pos (Coordinate.pyEq_json.mpr hid)⟩

/-- The pages show what is among the matching items. -/
theorem showsRun_iff {status : Json} : (∃ e ∈ h, ShowsRun runId status e) ↔
    ∃ item ∈ matchingRuns runId (runItems h), Fields.get item "status" = status := by
  simp only [ShowsRun, mem_matchingRuns, runItems, List.mem_flatMap]
  constructor
  · rintro ⟨e, he, item, hitem, hid, hstatus⟩
    exact ⟨item, ⟨⟨e, he, hitem⟩, hid⟩, hstatus⟩
  · rintro ⟨item, ⟨⟨e, he, hitem⟩, hid⟩, hstatus⟩
    exact ⟨e, he, item, hitem, hid, hstatus⟩

theorem RunListed.unique (hrun : RunListed c h execution) (hrun' : RunListed c h execution') :
    execution = execution' := by
  obtain ⟨runId, item, hid, -, hitems, hok⟩ := hrun
  obtain ⟨runId', item', hid', -, hitems', hok'⟩ := hrun'
  obtain rfl : runId = runId' := Option.some.inj (hid.symm.trans hid')
  obtain rfl : item = item' := List.singleton_inj.mp (hitems.symm.trans hitems')
  exact Except.ok.inj (hok.symm.trans hok')

theorem RunListed.not_unlisted (hrun : RunListed c h execution) : ¬ RunUnlisted c h := by
  rintro ⟨runId', hid', -, hitems'⟩
  obtain ⟨runId, item, hid, -, hitems, -⟩ := hrun
  obtain rfl : runId = runId' := Option.some.inj (hid.symm.trans hid')
  exact hitems' item hitems

theorem RunListed.values (hrun : RunListed c h execution) :
    execution = .succeeded ∨ execution = .failed ∨ execution = .running ∨ execution = .unverified := by
  obtain ⟨runId, item, -, -, -, hok⟩ := hrun
  exact runExecution_values hok

/-- A listed run is shown as succeeded exactly if it reads so. -/
theorem RunListed.showsSucceeded_iff (hrun : RunListed c h execution) :
    ShowsSucceeded c h ↔ execution = .succeeded := by
  obtain ⟨runId, item, hid, -, hitems, hok⟩ := hrun
  have hshown : ShowsSucceeded c h ↔ Fields.get item "status" = .str "succeeded" := by
    simp only [ShowsSucceeded, hid, Option.some.injEq, exists_eq_left', showsRun_iff, hitems,
      List.mem_singleton, exists_eq_left]
  rw [hshown, ← runExecution_succeeded, hok, Except.ok.injEq]

/-- What the reads have shown of a run that is not listed once. -/
theorem RunUnlisted.not_seen (hrun : RunUnlisted c h) {seen : Option Execution} :
    ¬ RunSeen c h seen := by
  intro hseen
  cases seen with
  | none =>
    obtain ⟨runId, hid, hread, -⟩ := hrun
    rcases hseen with hnone | hunread
    · rw [hid] at hnone
      cases hnone
    · exact hunread hread
  | some execution => exact RunListed.not_unlisted hseen hrun

end Listed

/-! ### The report and the answers -/

section Reports

variable {ref : OperationRef} {j : Journal} {h : Trace} {result : ClientResult}

theorem executionOf_succeeded {phase : Phase} : executionOf phase = .succeeded ↔ phase.Done := by
  cases phase <;> simp [executionOf, Phase.Done]

theorem advancementOf_advanced {phase : Phase} : advancementOf phase = .advanced ↔ phase.InPlace := by
  cases phase <;> simp [advancementOf, Phase.InPlace]

theorem statusOf_converged {attention : Bool} {phase : Phase} :
    statusOf attention phase = .converged ↔ attention = false ∧ phase = .converged := by
  cases attention <;> cases phase <;> simp [statusOf]

/-- Nothing is pending once the graph is in place. -/
theorem Phase.InPlace.pending (hphase : j.phase.InPlace) (hj : j.Valid ref) :
    j.pendingRequest = none := by
  cases hp : j.pendingRequest with
  | none => rfl
  | some p =>
    have hin := (hj.pending p hp).phase
    rcases hphase with h | h <;> rw [h] at hin <;> cases hroute : p.routeId <;>
      rw [hroute] at hin <;> simp [pendingPhases] at hin

/-- An executed operation knows its run. -/
theorem Phase.Done.runId (hphase : j.phase.Done) (hj : j.Valid ref) : j.coordinates.runId ≠ none := by
  have hhas : j.coordinates.has .runId = true := by
    refine hj.required .runId ?_
    rcases hphase with h | h | h <;> rw [h] <;> decide
  intro hnone
  simp [Coordinates.has, Coordinates.value?, hnone] at hhas

theorem CurrentSeen.inPlace {c : Coordinates} (hseen : CurrentSeen c h true) : GraphInPlace c h := by
  unfold CurrentSeen at hseen
  split at hseen
  · obtain ⟨e, pointer, hsole, hshown, hdesired⟩ := hseen
    obtain ⟨pointer', hpointer, hsome⟩ := isDesired_iff.mp hdesired.symm
    cases hpointer
    exact ⟨pointer, hsome, e, hsole.1, hshown⟩
  · cases hseen

/-- One answer shows one pointer. -/
theorem ShowsCurrent.inj {pointer pointer' : Pointer} {e : Event Op Op.Answer}
    (hshown : ShowsCurrent pointer e) (hshown' : ShowsCurrent pointer' e) : pointer = pointer' := by
  obtain ⟨path, response, ⟨call, rfl, -, -⟩, hgraph, hprojection⟩ := hshown
  obtain ⟨path', response', ⟨call', heq, -, -⟩, hgraph', hprojection'⟩ := hshown'
  cases heq
  obtain ⟨graphId, projectionId⟩ := pointer
  obtain ⟨graphId', projectionId'⟩ := pointer'
  obtain rfl := Coordinate.json_inj.mp (hgraph.symm.trans hgraph')
  obtain rfl := Coordinate.json_inj.mp (hprojection.symm.trans hprojection')
  rfl

/-- If the one answer shows the desired pointer, it was seen in place. -/
theorem CurrentSeen.shown {c : Coordinates} {shown : Bool} (hseen : CurrentSeen c h shown)
    (hplace : GraphInPlace c h) : shown = true := by
  obtain ⟨pointer, hpointer, e, he, hshown⟩ := hplace
  have hgraph : c.desiredGraphId.isSome = true := by
    unfold Coordinates.desired? at hpointer
    split at hpointer
    · rename_i hsome _
      rw [hsome]
      rfl
    · cases hpointer
  unfold CurrentSeen at hseen
  rw [if_pos hgraph] at hseen
  obtain ⟨e', pointer', hsole, hshown', hdesired⟩ := hseen
  obtain ⟨path, response, hanswer, -⟩ := id hshown
  obtain rfl := hsole.2 e he hanswer.reads
  obtain rfl := hshown.inj hshown'
  rw [hdesired]
  exact isDesired_iff.mpr ⟨pointer, rfl, hpointer⟩

/-- The states that are no problem. -/
theorem memberOf_standing {state : Json} : state.memberOf ["pending", "approved"] = some true ↔
    state = .str "pending" ∨ state = .str "approved" := by
  unfold Json.memberOf
  split <;> simp [Json.pyEq_str]

theorem ApprovalSeen.standing {c : Coordinates} (hseen : ApprovalSeen c h false)
    (hid : c.approvalRequestId ≠ none) : ShowsStanding c h := by
  obtain ⟨approvalId, hid⟩ := Option.ne_none_iff_exists'.mp hid
  obtain ⟨e, approval, hsole, hshown, hstate⟩ := hseen approvalId hid
  exact ⟨approvalId, approval, hid, ⟨e, hsole.1, hshown⟩, memberOf_standing.mp hstate⟩

theorem ApprovalSeen.problem {c : Coordinates} {problem : Bool} (hseen : ApprovalSeen c h problem)
    (hstanding : ShowsStanding c h) : problem = false := by
  obtain ⟨approvalId, approval, hid, ⟨e, he, hshown⟩, hstate⟩ := hstanding
  obtain ⟨e', approval', hsole, hshown', hstate'⟩ := hseen approvalId hid
  obtain ⟨path, response, hanswer, hpath, happroval⟩ := hshown
  obtain rfl := hsole.2 e he hanswer.reads
  obtain ⟨path', response', ⟨call', heq', -, -⟩, -, happroval'⟩ := hshown'
  obtain ⟨call, heq, -, -⟩ := hanswer
  cases heq.symm.trans heq'
  cases happroval.symm.trans happroval'
  rw [memberOf_standing.mpr hstate, Option.some.injEq] at hstate'
  simpa using hstate'.symm

/-- The execution value of a complete report is the one that was read. -/
theorem Reported.execution_succeeded {problem shown : Bool} {execution : Option Execution}
    (hreport : Reported j problem execution shown result) (hresult : result.execution = .succeeded) :
    execution.getD (executionOf j.phase) = .succeeded := by
  cases hp : j.pendingRequest with
  | none => exact (hreport.2 hp).execution.symm.trans hresult
  | some p =>
    have hpending := (hreport.1 p hp).execution
    rw [hresult] at hpending
    split at hpending
    · cases hpending
    · exact hpending.symm

/-- An advancement in a complete report was seen, or is that of the phase. -/
theorem Reported.advancement_advanced {problem shown : Bool} {execution : Option Execution}
    (hreport : Reported j problem execution shown result) (hresult : result.advancement = .advanced) :
    shown = true ∨ j.phase.InPlace := by
  have hcases : (if shown then Advancement.advanced else advancementOf j.phase) = .advanced := by
    cases hp : j.pendingRequest with
    | none => exact (hreport.2 hp).advancement.symm.trans hresult
    | some p =>
      have hpending := (hreport.1 p hp).advancement
      rw [hresult] at hpending
      split at hpending
      · cases hpending
      · exact hpending.symm
  split at hcases
  · rename_i hshown
    exact .inl hshown
  · exact .inr (advancementOf_advanced.mp hcases)

end Reports

section Status

variable {rt : Runtime} {docs : Set (List UInt8)} {ref : OperationRef} {profile : ClientProfile}
  {j : Journal} {h : Trace} {result : ClientResult}

/-- A truthful result is borne out by the answers. -/
theorem StatusEnd.corroborated (hj : JournalInv ref j) (hend : StatusEnd j h result)
    (htruth : Truthful j.coordinates h result) : Corroborated j h := by
  refine ⟨fun hidle hdone => ?_, fun hplace => ?_, fun hphase hlisted hgraph hstanding => ?_⟩
  · have hseen : ∀ {execution}, RunSeen j.coordinates h (some execution) → RunsRead h :=
      fun ⟨_, _, _, hread, _⟩ => hread
    cases hend with
    | unread execution hrun _ hresult =>
      cases execution with
      | some execution => exact .inl (hseen hrun)
      | none =>
        refine .inr (htruth.execution ?_)
        rw [hresult.execution, hidle]
        exact executionOf_succeeded.mpr hdone
    | unlisted hrun => exact .inl hrun.choose_spec.2.1
    | complete _ _ execution hrun hnone =>
      cases execution with
      | some execution => exact .inl (hseen hrun)
      | none => exact absurd (hnone rfl) (hdone.runId hj.valid)
  · have hidle := hplace.pending hj.valid
    have hadvanced := advancementOf_advanced.mpr hplace
    cases hend with
    | unread _ _ _ hresult =>
      refine .inr (htruth.advancement ?_)
      rw [hresult.advancement, hidle]
      exact hadvanced
    | unlisted hrun => exact .inl hrun
    | complete _ shown _ _ _ _ _ hresult =>
      refine .inr (htruth.advancement ?_)
      rw [(hresult.2 hidle).advancement, hadvanced, ite_self]
  -- with all else in place, an end without the approval would be a converged status
  · have hidle := Phase.InPlace.pending (.inr hphase) hj.valid
    cases hend with
    | unread _ _ hcurrent =>
      obtain ⟨pointer, -, e, he, hshown⟩ := hgraph
      exact hcurrent pointer e he hshown
    | unlisted hrun => exact hlisted.not_unlisted hrun
    | complete problem shown execution hrun hnone happroval hcurrent hresult =>
      obtain rfl := happroval.problem hstanding
      obtain rfl := hcurrent.shown hgraph
      cases execution with
      | none => exact absurd (hnone rfl) (Phase.Done.runId (.inr (.inr hphase)) hj.valid)
      | some execution =>
        obtain rfl := hlisted.unique hrun
        have hstatus : result.status = .converged := by
          rw [(hresult.2 hidle).status, statusOf_converged]
          refine ⟨?_, hphase⟩
          simp [needsAttention]
        have hsucceeded := hlisted.showsSucceeded_iff.mp (htruth.converged hstatus).1
        cases hsucceeded

/-- What the answers bear out is reported truthfully. -/
theorem StatusEnd.truthful (hj : JournalInv ref j) (hend : StatusEnd j h result)
    (hborne : Corroborated j h) : Truthful j.coordinates h result := by
  -- Where the run was not read, the result repeats the phase, and the phase is corroborated.
  have hfallen : ∀ {execution : Option Execution}, RunSeen j.coordinates h execution →
      j.pendingRequest = none → execution.getD (executionOf j.phase) = .succeeded →
      ShowsSucceeded j.coordinates h := by
    intro execution hrun hidle hsucceeded
    cases execution with
    | some execution => exact RunListed.showsSucceeded_iff hrun |>.mpr hsucceeded
    | none =>
      have hdone := executionOf_succeeded.mp hsucceeded
      refine (hborne.run hidle hdone).resolve_left fun hread => ?_
      exact hrun.elim (hdone.runId hj.valid) fun hunread => hunread hread
  have hplaced : ∀ {seen}, RunSeen j.coordinates h seen → j.phase.InPlace →
      ShowsDesired j.coordinates h := fun hrun hplace =>
    (hborne.pointer hplace).resolve_left fun hunlisted => hunlisted.not_seen hrun
  refine ⟨fun hexecution => ?_, fun hadvancement => ?_, fun hstatus => ?_⟩
  · cases hend with
    | unread execution hrun _ hresult =>
      have hreported := hresult.execution
      rw [hexecution] at hreported
      cases hp : j.pendingRequest with
      | none =>
        rw [hp] at hreported
        exact hfallen hrun hp hreported.symm
      | some p =>
        rw [hp] at hreported
        cases hreported
    | unlisted _ _ hunverified =>
      rw [hunverified] at hexecution
      cases hexecution
    | complete _ _ execution hrun hnone _ _ hresult =>
      have hsucceeded := hresult.execution_succeeded hexecution
      cases execution with
      | some execution => exact RunListed.showsSucceeded_iff hrun |>.mpr hsucceeded
      | none =>
        exact absurd (hnone rfl) (Phase.Done.runId (executionOf_succeeded.mp hsucceeded) hj.valid)
  · cases hend with
    | unread _ hrun _ hresult =>
      have hreported := hresult.advancement
      rw [hadvancement] at hreported
      split at hreported
      · cases hreported
      · exact hplaced hrun (advancementOf_advanced.mp hreported.symm)
    | unlisted _ _ _ hunverified =>
      rw [hunverified] at hadvancement
      cases hadvancement
    | complete _ _ _ hrun _ _ hcurrent hresult =>
      rcases hresult.advancement_advanced hadvancement with rfl | hplace
      · exact .inl hcurrent.inPlace
      · exact hplaced hrun hplace
  · cases hend with
    | unread _ _ _ hresult =>
      rw [hresult.status] at hstatus
      cases hstatus
    | unlisted _ hattention =>
      rw [hattention] at hstatus
      cases hstatus
    | complete problem shown execution hrun hnone happroval hcurrent hresult =>
      cases hp : j.pendingRequest with
      | some p =>
        rw [(hresult.1 p hp).status] at hstatus
        cases hstatus
      | none =>
        rw [(hresult.2 hp).status, statusOf_converged] at hstatus
        -- a converged status is a calm one: nothing that was read asks for attention
        obtain ⟨hcalm, hphase⟩ := hstatus
        simp only [needsAttention, hphase, Bool.or_eq_false_iff, beq_self_eq_true, Bool.or_true,
          Bool.true_and, Bool.not_eq_false'] at hcalm
        obtain ⟨⟨rfl, hfailed, hunverified⟩, rfl⟩ := hcalm
        have hgraph := hcurrent.inPlace
        have hadmitted : j.coordinates.executionRequestId.isSome := by
          have hhas : j.coordinates.has .executionRequestId = true :=
            hj.valid.required .executionRequestId (by rw [hphase]; decide)
          simpa [Coordinates.has, Coordinates.value?] using hhas
        have hstanding := happroval.standing
          (Option.isSome_iff_ne_none.mp (hj.approval (.inl hadmitted)))
        cases execution with
        | none => exact absurd (hnone rfl) (Phase.Done.runId (.inr (.inr hphase)) hj.valid)
        | some execution =>
          refine ⟨RunListed.showsSucceeded_iff hrun |>.mpr ?_, .inl hgraph, hstanding⟩
          rcases RunListed.values hrun with rfl | rfl | rfl | rfl
          · rfl
          · cases hfailed
          · exact absurd hstanding (hborne.ended hphase hrun hgraph)
          · cases hunverified

/-- A result of `status` rests on the journal it has found. -/
theorem status_ends {reference : Text} {w w' : World} {tr : Trace}
    (href : canonicalOperationRef reference = .ok ref) (hj : w.journal = some j)
    (hrun : Exec (answers docs ref) w (status rt profile reference) tr w' (some (.ok result))) :
    StatusEnd j tr result := by
  unfold status at hrun
  rw [href] at hrun
  cases hrun with
  | @performed _ w₁ _ _ _ readAnswer _ _ hread hrest =>
    cases readAnswer with
    | failed message => cases hrest
    | found found =>
      obtain rfl : found = j := Option.some.inj ((hread.2 rfl found rfl).symm.trans hj)
      have hunasked : Unasked [⟨.read ref, .found found⟩] := by
        constructor <;>
        · rintro e he ⟨call, hop, -⟩
          obtain rfl := List.mem_singleton.mp he
          cases hop
      have hends : Ends (StatusEnd found) (do
          let journal ← (do
            let journal ← (do
              lift (validateJournal found ref)
              return found)
            if journal.target ≠ profile.target rt then
              raise (.journal "operation target does not match the selected profile")
            else return journal)
          publicStatus rt profile journal) (StatusEnd found) [⟨.read ref, .found found⟩] := by
        refine .bind (.bind (.bind (.lift fun _ _ => .pure ?_)))
        split
        · exact .raise
        · exact .pure (publicStatus_ends hunasked)
      rcases hrest.runs.handle_cases with ⟨result', h₁, h₂⟩ | ⟨e, tr₁, tr₂, rfl, h₁, h₂⟩
      · cases h₂
        exact hends _ _ h₁
      · cases e with
        | error e => cases h₂
        | returned result' =>
          cases h₂
          simpa using hends _ _ h₁

/-- **What the status reports has been shown**, exactly where the answers bear out the phase of the
journal. -/
theorem status_truthful {reference : Text} {w w' : World} {tr : Trace}
    (hw : Reachable rt docs ref w) (href : canonicalOperationRef reference = .ok ref)
    (hj : w.journal = some j)
    (hrun : Exec (answers docs ref) w (status rt profile reference) tr w' (some (.ok result))) :
    Truthful j.coordinates tr result ↔ Corroborated j tr := by
  have hinv := hw.inv.journal j hj
  have hend := status_ends href hj hrun
  exact ⟨hend.corroborated hinv, hend.truthful hinv⟩

end Status

namespace Scenario

variable {rt : Runtime} {profile : ClientProfile} {docs : Set (List UInt8)} {s : Scenario}
  {w : World} {j : Journal}

/-- A status whose first read stays unresolved. -/
def unreadEvents (profile : ClientProfile) (s : Scenario) (j : Journal) : Trace :=
  [⟨.read s.ref, .found j⟩,
    ⟨.call (readCall profile s.ref .workspace (workspacePath profile) []), .unresolved "timed out"⟩]

/-- The result is that of the phase. -/
def unreadResult (profile : ClientProfile) (j : Journal) : ClientResult :=
  projectJournal profile j true none none (some (nextRead j)) [] none

theorem exec_unread (hj : w.journal = some j) (hvalid : j.Valid s.ref)
    (htarget : j.target = profile.target rt) (hid : j.operationRef = s.ref)
    (hidle : j.pendingRequest = none) :
    Exec (answers docs s.ref) w (Client.status rt profile (.utf8 s.ref.text))
      (s.unreadEvents profile j) w (some (.ok (unreadResult profile j))) := by
  have hread : Exec (answers docs s.ref) w (readWorkspace profile j.operationRef)
      [⟨.call (readCall profile s.ref .workspace (workspacePath profile) []),
        .unresolved "timed out"⟩] w (some (.error (.error (.transport "timed out")))) := by
    rw [hid]
    have hstep : answers docs s.ref w (.call (readCall profile s.ref .workspace
        (workspacePath profile) [])) (.unresolved "timed out") w :=
      (if_neg fun h => (by cases h.2)).symm
    exact .bind_error (.performed hstep (.raised _ _))
  have hobserve : Quits docs s.ref w (observe profile j {} do
      let workspace ← readWorkspace profile j.operationRef
      lift (currentPointer workspace))
      [⟨.call (readCall profile s.ref .workspace (workspacePath profile) []),
        .unresolved "timed out"⟩] w (unreadResult profile j) := by
    have hphase : Quits docs s.ref w (do
        let result ← lift (statusFromJournal profile j true
          (if j.pendingRequest.isSome then some .unverified else none)
          (if j.pendingRequest.isSome then some .unverified else none) (some (nextRead j)) [] none)
        returnNow result : Block (Option Pointer)) [] w (unreadResult profile j) := by
      rw [hidle]
      exact .raised _ _
    exact Exec.handle_error (Exec.bind_error hread) hphase
  refine Exec.then_conclude (t := []) (Returns.lift (canonicalOperationRef_text _)) ?_
  refine Exec.then_conclude (t := [_]) (returns_load hj hvalid htarget) ?_
  exact Exec.handle_ok (Exec.handle_error hobserve.bind (.returned _ _))

end Scenario

namespace Instance

theorem unread_converged : Exec (answers docs scenario.ref)
    (scenario.worldConverged runtime profile) (status runtime profile (.utf8 scenario.ref.text))
    (scenario.unreadEvents profile (scenario.convergedJournal runtime profile))
    (scenario.worldConverged runtime profile)
    (some (.ok (Scenario.unreadResult profile (scenario.convergedJournal runtime profile)))) :=
  Scenario.exec_unread rfl (Scenario.convergedJournal_valid fair) rfl rfl rfl

/-- The operation has converged, its status is asked, and the first read stays unresolved: no
answer shows the run, and the execution is reported as succeeded. -/
theorem status_untrue : ¬ ∀ (rt : Runtime) (docs : Set (List UInt8)) (ref : OperationRef)
    (profile : ClientProfile) (reference : Text) (w w' : World) (tr : Trace) (result : ClientResult)
    (j : Journal), Reachable rt docs ref w → canonicalOperationRef reference = .ok ref →
    w.journal = some j →
    Exec (answers docs ref) w (status rt profile reference) tr w' (some (.ok result)) →
    Truthful j.coordinates tr result := by
  intro h
  have htruth := h runtime docs scenario.ref profile _ _ _ _ _ _
    (Scenario.reachable_converged fair).only (canonicalOperationRef_text _) rfl unread_converged
  obtain ⟨runId, -, e, he, item, hitem, -⟩ := htruth.execution rfl
  simp only [Scenario.unreadEvents, List.mem_cons, List.not_mem_nil, or_false] at he
  rcases he with rfl | rfl <;> cases hitem

theorem status_truthful_unread :
    Truthful (scenario.convergedJournal runtime profile).coordinates
      (scenario.unreadEvents profile (scenario.convergedJournal runtime profile))
      (Scenario.unreadResult profile (scenario.convergedJournal runtime profile)) ↔
    Corroborated (scenario.convergedJournal runtime profile)
      (scenario.unreadEvents profile (scenario.convergedJournal runtime profile)) :=
  status_truthful (Scenario.reachable_converged fair).only (canonicalOperationRef_text _) rfl
    unread_converged

end Instance

end Client

end ControlPlaneKit
