import ControlPlaneKit.Client.HealthyRun

/-!
# Recording an accepted response

Three functions read one response: `_response_is_bound` decides whether it answers the pending
request, `_response_coordinates` takes the projection from it, and the journal that records it
must pass `_validate_journal`. What the first accepts, the other two refuse in three ways: a
preparation is bound by its workspace alone, an execute step that failed or is uncertain by any
activity, and an advancement by a revision that is only equal to the recorded one as a Python
number (`Recordable`). The validator adds nothing (`recordable_iff`): the plan coordinates it asks
for from the decision on are there before the decision is made (`JournalInv.planned_of_pending`).
-/

namespace ControlPlaneKit

namespace Json

/-- Two integers that equal one Python value are the same. -/
theorem int_eq_of_pyEq {m n : ℤ} {v : Json} (h : (Json.int m).pyEq v = true)
    (h' : v.pyEq (.int n) = true) : m = n := by
  cases v with
  | bool b =>
    simp only [pyEq, same, number?, beq_iff_eq, Float64.finite.injEq] at h h'
    exact_mod_cast h.trans h'
  | int k => exact (pyEq_int.mp h).trans (pyEq_int.mp h')
  | float x =>
    cases x with
    | finite q =>
      simp only [pyEq, same, number?, beq_iff_eq, Float64.finite.injEq] at h h'
      exact_mod_cast h.trans h'
    | _ => simp [pyEq, same, number?] at h
  | _ => simp [pyEq, same, number?] at h

end Json

namespace Client

open Interaction

/-! ### What a bound response says -/

/-- The alternatives under which an execute step is accepted. -/
inductive StepAccepted : Json → Json → Json → Prop where
  | completed : StepAccepted (.str "completed") (.str "succeeded") .null
  | moving {status : String} {activity : Json} (hstatus : status ∈ ["progressed", "in-flight"])
      (hactivity : isTextCoordinate activity = true) :
      StepAccepted (.str status) (.str "running") activity
  | failed (activity : Json) : StepAccepted (.str "failed") (.str "failed") activity
  | unsupported {activity : Json} (hactivity : isTextCoordinate activity = true) :
      StepAccepted (.str "unsupported") (.str "failed") activity
  | stopped {status runStatus : String} (activity : Json)
      (hstatus : status ∈ ["uncertain", "blocked"]) (hrun : runStatus ∈ ["running", "failed"]) :
      StepAccepted (.str status) (.str runStatus) activity

theorem executeIsBound_accepted {status runStatus activity : Json} {effects : ℤ}
    (h : executeIsBound status runStatus activity effects = .ok true) :
    StepAccepted status runStatus activity := by
  unfold executeIsBound at h
  split at h
  · rename_i hcompleted
    simp only [Bool.and_eq_true, Json.pyEq_str, Json.pyEq_null] at hcompleted
    obtain ⟨⟨rfl, rfl⟩, rfl⟩ := hcompleted
    exact .completed
  split at h
  swap
  · cases h
  rename_i moving hmoving
  split at h
  · rename_i hrunning
    simp only [Bool.and_eq_true, Json.pyEq_str] at hrunning
    obtain ⟨⟨rfl, rfl⟩, hactivity⟩ := hrunning
    obtain ⟨name, hname, rfl⟩ := Json.memberOf_eq_some_true hmoving
    exact .moving hname hactivity
  split at h
  · rename_i hfailed
    simp only [Bool.and_eq_true, Json.pyEq_str] at hfailed
    obtain ⟨rfl, rfl⟩ := hfailed
    exact .failed _
  split at h
  · rename_i hunsupported
    simp only [Bool.and_eq_true, Json.pyEq_str] at hunsupported
    obtain ⟨⟨⟨rfl, rfl⟩, -⟩, hactivity⟩ := hunsupported
    exact .unsupported hactivity
  split at h
  swap
  · cases h
  rename_i stopped hstopped
  split at h
  · rename_i hset
    subst hset
    split at h
    · rename_i known hknown
      obtain rfl : known = true := by simpa [pure, Except.pure] using h
      obtain ⟨name, hname, rfl⟩ := Json.memberOf_eq_some_true hstopped
      obtain ⟨name', hname', rfl⟩ := Json.memberOf_eq_some_true hknown
      exact .stopped _ hname hname'
    · cases h
  · cases h

/-- Its status and its run status are texts, and each decides a phase the other fits. -/
theorem StepAccepted.texts {status runStatus activity : Json}
    (h : StepAccepted status runStatus activity) :
    ∃ s r : Coordinate, status = s.json ∧ runStatus = r.json ∧
      (s.text = "completed" → r.text = "succeeded") ∧
        (s.text = "progressed" → r.text = "running") := by
  cases h with
  | completed =>
    exact ⟨.literal "completed", .literal "succeeded", rfl, rfl, fun _ => rfl,
      fun h => absurd h (by decide)⟩
  | moving hstatus hactivity =>
    simp only [List.mem_cons, List.not_mem_nil, or_false] at hstatus
    rcases hstatus with rfl | rfl
    · exact ⟨.literal "progressed", .literal "running", rfl, rfl, fun h => absurd h (by decide),
        fun _ => rfl⟩
    · exact ⟨.literal "in-flight", .literal "running", rfl, rfl, fun h => absurd h (by decide),
        fun _ => rfl⟩
  | failed activity =>
    exact ⟨.literal "failed", .literal "failed", rfl, rfl, fun h => absurd h (by decide),
      fun h => absurd h (by decide)⟩
  | unsupported hactivity =>
    exact ⟨.literal "unsupported", .literal "failed", rfl, rfl, fun h => absurd h (by decide),
      fun h => absurd h (by decide)⟩
  | @stopped status runStatus _ hstatus hrun =>
    simp only [List.mem_cons, List.not_mem_nil, or_false] at hstatus hrun
    have hrunStatus : ∃ r : Coordinate, Json.str (.utf8 runStatus) = r.json := by
      rcases hrun with rfl | rfl
      · exact ⟨.literal "running", rfl⟩
      · exact ⟨.literal "failed", rfl⟩
    obtain ⟨r, hr⟩ := hrunStatus
    rcases hstatus with rfl | rfl
    · exact ⟨.literal "uncertain", r, rfl, hr, fun h => absurd h (by decide),
        fun h => absurd h (by decide)⟩
    · exact ⟨.literal "blocked", r, rfl, hr, fun h => absurd h (by decide),
        fun h => absurd h (by decide)⟩

/-- The path parameters of a pending request are texts. -/
theorem PathParameters.get_of_keys {path : PathParameters} {names : List String}
    (h : path.keysAre names = true) {name : String} (hname : name ∈ names) :
    ∃ c : Coordinate, path.get name = c.json := by
  simp only [keysAre, Bool.and_eq_true] at h
  obtain ⟨c, hc⟩ := Option.isSome_iff_exists.mp (List.all_eq_true.mp h.2 name hname)
  exact ⟨c, by rw [PathParameters.get, hc]; rfl⟩

/-! ### The condition -/

/-- What a bound response must hold, beyond what binds it, to be recorded. -/
def Recordable (response : Fields) : CommandRoute → Prop
  | .prepare => isTextCoordinate (response.get "plan_id") = true ∧
      (response.has "approval_request_id" = true →
        isTextCoordinate (response.get "approval_request_id") = true)
  | .execute => response.get "activity_id" = .null ∨
      isTextCoordinate (response.get "activity_id") = true
  | .advance => ∃ n, response.get "desired_graph_revision" = .int n
  | _ => True

section Recording

variable {rt : Runtime} {docs : Set (List UInt8)} {ref : OperationRef} {j : Journal} {p : Pending}
  {response body : Fields} {projection : Projection}

theorem exists_text {value : Fields} {name : String} :
    (∃ c, text value name = .ok c) ↔ isTextCoordinate (value.get name) = true :=
  isTextCoordinate_iff.symm

theorem integer_of_int {value : Fields} {name : String} {minimum : ℕ} {n : ℤ}
    (h : value.get name = .int n) (hn : (minimum : ℤ) ≤ n) :
    integer value name minimum = .ok n.toNat := by
  simp [integer, h, hn]

/-- The projection of a preparation is read exactly where its two texts are. -/
theorem responseCoordinates_prepare :
    (∃ projection, responseCoordinates .prepare response = .ok projection) ↔
      isTextCoordinate (response.get "plan_id") = true ∧
        (response.has "approval_request_id" = true →
          isTextCoordinate (response.get "approval_request_id") = true) := by
  rw [← exists_text, ← exists_text]
  constructor
  · rintro ⟨projection, h⟩
    obtain ⟨planId, hplan, h⟩ := Raise.bind_eq_ok.mp h
    refine ⟨⟨planId, hplan⟩, fun hhas => ?_⟩
    rw [if_pos hhas] at h
    obtain ⟨approvalId, happroval, -⟩ := Raise.bind_eq_ok.mp h
    exact ⟨approvalId, happroval⟩
  · rintro ⟨⟨planId, hplan⟩, happroval⟩
    by_cases hhas : response.has "approval_request_id" = true
    · obtain ⟨approvalId, happroval⟩ := happroval hhas
      exact ⟨.prepare planId (some approvalId), Raise.bind_eq_ok.mpr ⟨planId, hplan, by
        rw [if_pos hhas]
        exact Raise.bind_eq_ok.mpr ⟨approvalId, happroval, rfl⟩⟩⟩
    · exact ⟨.prepare planId none, Raise.bind_eq_ok.mpr ⟨planId, hplan, by rw [if_neg hhas]; rfl⟩⟩

/-- A bound step is about the run of its request, counts its effects, and is accepted. -/
theorem bound_step {path : PathParameters} {coordinates : Coordinates} {workspaceId : Coordinate}
    (h : responseIsBound .execute response path body coordinates workspaceId = .ok true) :
    response.get "run_id" = path.get "run_id" ∧
      (∃ effects, integer response "effects_attempted" 0 = .ok effects) ∧
      StepAccepted (response.get "coordinator_status") (response.get "run_status")
        (response.get "activity_id") := by
  obtain ⟨hrun, effects, haccepted⟩ := bound_execute h
  refine ⟨hrun, ?_, executeIsBound_accepted haccepted⟩
  simp only [responseIsBound] at h
  split at h
  · split at h
    · rename_i effects heffects
      split at h
      · rename_i hle
        exact ⟨_, integer_of_int heffects hle⟩
      · cases h
    · cases h
  · cases h

/-- The projection of a bound step is read exactly where its activity is absent or a text. -/
theorem responseCoordinates_step {path : PathParameters} {coordinates : Coordinates}
    {workspaceId : Coordinate} (hpath : path.keysAre (pathKeys .execute) = true)
    (hbound : responseIsBound .execute response path body coordinates workspaceId = .ok true) :
    (∃ projection, responseCoordinates .execute response = .ok projection) ↔
      response.get "activity_id" = .null ∨
        isTextCoordinate (response.get "activity_id") = true := by
  obtain ⟨hrun, ⟨effects, heffects⟩, haccepted⟩ := bound_step hbound
  obtain ⟨runId, hrunId⟩ : ∃ c : Coordinate, path.get "run_id" = c.json :=
    PathParameters.get_of_keys hpath (by decide)
  obtain ⟨status, runStatus, hstatus, hrunStatus, -, -⟩ := haccepted.texts
  have htexts : text response "run_id" = .ok runId ∧ text response "run_status" = .ok runStatus ∧
      text response "coordinator_status" = .ok status := by
    refine ⟨?_, ?_, ?_⟩ <;> unfold text
    · rw [hrun, hrunId, textCoordinate_json]
    · rw [hrunStatus, textCoordinate_json]
    · rw [hstatus, textCoordinate_json]
  obtain ⟨h₁, h₂, h₃⟩ := htexts
  rw [← exists_text]
  constructor
  · rintro ⟨projection, h⟩
    obtain ⟨_, -, h⟩ := Raise.bind_eq_ok.mp h
    obtain ⟨_, -, h⟩ := Raise.bind_eq_ok.mp h
    obtain ⟨_, -, h⟩ := Raise.bind_eq_ok.mp h
    obtain ⟨_, -, h⟩ := Raise.bind_eq_ok.mp h
    split at h
    · rename_i hnull
      exact .inl hnull
    · obtain ⟨activityId, hactivity, -⟩ := Raise.bind_eq_ok.mp h
      exact .inr ⟨activityId, hactivity⟩
  · intro hactivity
    by_cases hnull : response.get "activity_id" = .null
    · refine ⟨.execute runId runStatus status effects none, ?_⟩
      simp only [responseCoordinates, h₁, h₂, h₃, heffects, hnull, bind, Except.bind, pure,
        Except.pure]
    · obtain ⟨activityId, hactivity⟩ := hactivity.resolve_left hnull
      refine ⟨.execute runId runStatus status effects (some activityId), ?_⟩
      simp only [responseCoordinates, h₁, h₂, h₃, heffects, hactivity, text_ok hactivity, bind,
        Except.bind, pure, Except.pure, Coordinate.json]

/-- What a bound advancement repeats of the coordinates. -/
theorem bound_advance {path : PathParameters} {coordinates : Coordinates} {workspaceId : Coordinate}
    (hmatch : pendingMatches path body coordinates .advance = true)
    (hbound : responseIsBound .advance response path body coordinates workspaceId = .ok true) :
    response.get "to_graph_id" = coordinates.get .desiredGraphId ∧
      response.get "to_realized_projection_id" = coordinates.get .desiredRealizedProjectionId ∧
      (response.get "desired_graph_revision").pyEq
        (body.get "expected_desired_graph_revision") = true ∧
      (body.get "expected_desired_graph_revision").pyEq
        (coordinates.get .desiredGraphRevision) = true := by
  simp only [pendingMatches, Bool.and_eq_true] at hmatch
  obtain ⟨⟨⟨⟨⟨-, -⟩, -⟩, hgraph⟩, hprojection⟩, hrevision⟩ := hmatch
  simp only [responseIsBound, Except.ok.injEq, Bool.and_eq_true] at hbound
  obtain ⟨⟨⟨-, hgraph'⟩, hprojection'⟩, hrevision'⟩ := hbound
  have hsame : ∀ {v w : Json} {n : CoordinateName}, Coordinates.isNumber n = false →
      w.pyEq (coordinates.get n) = true → v.pyEq w = true → v = coordinates.get n := by
    intro v w n hn hw hv
    rw [(Coordinates.pyEq_get hn).mp hw] at hv
    exact (Coordinates.pyEq_get hn).mp hv
  exact ⟨hsame rfl hgraph hgraph', hsame rfl hprojection hprojection', hrevision', hrevision⟩

/-- The projection of a bound advancement is read exactly where its revision is an integer. -/
theorem responseCoordinates_advance {path : PathParameters} {coordinates : Coordinates}
    {workspaceId : Coordinate} (hplan : ∀ n ∈ planCoordinates, coordinates.has n = true)
    (hmatch : pendingMatches path body coordinates .advance = true)
    (hbound : responseIsBound .advance response path body coordinates workspaceId = .ok true) :
    (∃ projection, responseCoordinates .advance response = .ok projection ∧
        ∃ graphId projectionId revision, projection = .advance graphId projectionId revision ∧
          coordinates.desiredGraphId = some graphId ∧
          coordinates.desiredRealizedProjectionId = some projectionId ∧
          coordinates.desiredGraphRevision = some revision) ↔
      ∃ n, response.get "desired_graph_revision" = .int n := by
  obtain ⟨hgraph, hprojection, hrevision, hrevision'⟩ := bound_advance hmatch hbound
  constructor
  · rintro ⟨projection, h, -⟩
    obtain ⟨_, -, h⟩ := Raise.bind_eq_ok.mp h
    obtain ⟨_, -, h⟩ := Raise.bind_eq_ok.mp h
    obtain ⟨revision, hrev, -⟩ := Raise.bind_eq_ok.mp h
    exact ⟨_, (integer_ok hrev).1⟩
  · rintro ⟨n, hn⟩
    have htext : ∀ {a : Option Coordinate}, (a.map Coordinate.json).isSome = true →
        ∃ c, a = some c := by
      intro a ha
      simpa [Option.isSome_iff_exists] using ha
    obtain ⟨graphId, hgraphId⟩ := htext (hplan .desiredGraphId (by decide))
    obtain ⟨projectionId, hprojectionId⟩ := htext (hplan .desiredRealizedProjectionId (by decide))
    obtain ⟨revision, hrevisionId⟩ : ∃ m, coordinates.desiredGraphRevision = some m := by
      have := hplan .desiredGraphRevision (by decide)
      simpa [Coordinates.has, Coordinates.value?, Option.isSome_iff_exists] using this
    have hget : coordinates.get .desiredGraphRevision = .int revision := by
      simp [Coordinates.get, Coordinates.value?, hrevisionId, natJson]
    -- Equal to the same Python value, the two integers are one.
    have hsame : n = revision := Json.int_eq_of_pyEq (hn ▸ hrevision) (hget ▸ hrevision')
    subst hsame
    refine ⟨.advance graphId projectionId revision, ?_, _, _, _, rfl, hgraphId, hprojectionId,
      hrevisionId⟩
    have h₁ : text response "to_graph_id" = .ok graphId := by
      unfold text
      rw [hgraph, Coordinates.get, Coordinates.value?, hgraphId]
      exact textCoordinate_json _
    have h₂ : text response "to_realized_projection_id" = .ok projectionId := by
      unfold text
      rw [hprojection, Coordinates.get, Coordinates.value?, hprojectionId]
      exact textCoordinate_json _
    have h₃ : integer response "desired_graph_revision" 0 = .ok revision :=
      integer_of_int hn (by omega)
    exact Raise.bind_eq_ok.mpr ⟨_, h₁, Raise.bind_eq_ok.mpr ⟨_, h₂, Raise.bind_eq_ok.mpr ⟨_, h₃, rfl⟩⟩⟩

/-! ### The recorded journal -/

/-- The phases from the decision on need the plan coordinates, and so does what is pending in
them. -/
theorem needsPlanCoordinates_of_pending {phase : Phase} {route : CommandRoute}
    (hphase : phase ∈ pendingPhases route) (hroute : route ≠ .prepare)
    (hprepared : phase ≠ .prepared) : needsPlanCoordinates phase = true := by
  cases route <;> simp only [pendingPhases, List.mem_cons, List.not_mem_nil, or_false] at hphase <;>
    simp_all [needsPlanCoordinates]
  rcases hphase with rfl | rfl <;> rfl

/-- A result stays valid while the coordinates it repeats keep their values. -/
theorem validateResult_extends {result : ClientResult} {target : Target} {c c' : Coordinates}
    (h : validateResult result ref target c = .ok ()) (hext : c.Extends c') :
    validateResult result ref target c' = .ok () := by
  have hkeep : ∀ {a b b' : Option Coordinate}, (∀ v, b = some v → b' = some v) →
      a.isNone = true ∨ a = b → a.isNone = true ∨ a = b' := by
    intro a b b' hb hab
    rcases hab with hnone | rfl
    · exact .inl hnone
    · cases ha : a with
      | none => exact .inl rfl
      | some v => exact .inr (hb v ha).symm
  simp only [validateResult, require_bind_eq_ok, require_eq_ok, Bool.and_eq_true, Bool.or_eq_true,
    beq_iff_eq] at h ⊢
  obtain ⟨hids, hfew, hchanges, ⟨hplan, happroval⟩, hrun⟩ := h
  exact ⟨hids, hfew, hchanges, ⟨hkeep (fun v => hext.planId) hplan,
    hkeep (fun v => hext.approvalRequestId) happroval⟩, hkeep (fun v => hext.runId) hrun⟩

/-- Every request but the preparation is of an operation whose plan is known. -/
theorem JournalInv.planned_of_pending (hj : JournalInv ref j) (hp : j.pendingRequest = some p)
    (hroute : p.routeId ≠ .prepare) : j.coordinates.Planned := by
  have hphase := (hj.valid.pending p hp).phase
  by_cases hprepared : j.phase = .prepared
  · refine hj.planned p hp ?_
    rw [hprepared] at hphase
    cases hr : p.routeId <;> rw [hr] at hphase hroute <;> simp_all [pendingPhases]
  · exact hj.valid.plan (needsPlanCoordinates_of_pending hphase hroute hprepared)

/-- The coordinates suit a phase in the middle of the protocol. -/
theorem Coordinates.Suits.of_planned {c : Coordinates} {phase : Phase}
    (hplan : c.Planned)
    (hphase : phase ∈ [Phase.approved, .admitted, .claimed, .started])
    (hrequired : ∀ n ∈ requiredByPhase phase, c.has n = true)
    (hstarted : phase = .started → c.get .runStatus = .str "running") : c.Suits phase := by
  simp only [List.mem_cons, List.not_mem_nil, or_false] at hphase
  refine ⟨?_, fun _ _ => hplan .planId (by decide), fun _ => hplan, hrequired, ?_, hstarted, ?_, ?_⟩
  all_goals rcases hphase with rfl | rfl | rfl | rfl <;> simp

/-- The coordinates that record a step of the execution suit the phase it leads to. -/
theorem Coordinates.Suits.of_step {c : Coordinates} {runId runStatus coordinatorStatus : Coordinate}
    {effects : ℕ} {activityId : Option Coordinate} {step : Projection}
    (hstep : step = .execute runId runStatus coordinatorStatus effects activityId)
    (hplan : (c.update step).Planned)
    (hids : ∀ n ∈ [CoordinateName.executionRequestId, .runId, .claimGeneration],
      (c.update step).has n = true)
    (hcompleted : coordinatorStatus.text = "completed" → runStatus.text = "succeeded")
    (hprogressed : coordinatorStatus.text = "progressed" → runStatus.text = "running") :
    (c.update step).Suits step.phase := by
  have hall : ∀ n ∈ requiredByPhase .executing, (c.update step).has n = true := by
    simp only [requiredByPhase, List.forall_mem_cons]
    simp only [List.forall_mem_cons] at hids
    refine ⟨hids.1, hids.2.1, hids.2.2.1, ?_, ?_, ?_, by simp⟩ <;> rw [hstep] <;> rfl
  have hrun : (c.update step).get .runStatus = runStatus.json := by rw [hstep]; rfl
  have hcoordinator : (c.update step).get .coordinatorStatus = coordinatorStatus.json := by
    rw [hstep]; rfl
  have hshown : ∀ {c : Coordinate} {t : String}, c.text = t → c.json = .str (.utf8 t) := by
    rintro c t rfl
    rfl
  have hphase : step.phase = if coordinatorStatus.text = "completed" then .executed
      else if coordinatorStatus.text = "progressed" then .executing else .attentionRequired := by
    rw [hstep]; rfl
  rw [hphase]
  split
  · rename_i hdone
    exact ⟨by simp, fun _ _ => hplan .planId (by decide), fun _ => hplan, hall,
      fun _ => ⟨hrun.trans (hshown (hcompleted hdone)), hcoordinator.trans (hshown hdone)⟩,
      by simp, by simp, by simp⟩
  split
  · rename_i hmore
    exact ⟨by simp, fun _ _ => hplan .planId (by decide), fun _ => hplan, hall, by simp, by simp,
      fun _ => ⟨hrun.trans (hshown (hprogressed hmore)), hcoordinator.trans (hshown hmore)⟩, by simp⟩
  -- a step that failed asks for nothing but the plan
  · constructor <;> simp [needsPlanCoordinates, requiredByPhase]

/-- The coordinates that record an advancement suit the phase after it, where they are those of an
executed run and the advancement is to the desired graph. -/
theorem Coordinates.Suits.of_advancement {c : Coordinates} {graphId projectionId : Coordinate}
    {revision : ℕ} (hc : c.Suits .executed) (hgraph : c.desiredGraphId = some graphId)
    (hprojection : c.desiredRealizedProjectionId = some projectionId)
    (hrevision : c.desiredGraphRevision = some revision) :
    (c.update (.advance graphId projectionId revision)).Suits .advanced := by
  have hext : c.Extends (c.update (.advance graphId projectionId revision)) := by
    intro n hn v hv
    cases n <;> first | exact hv | exact absurd hn (by decide)
  have hplanned : c.Planned := hc.plan rfl
  have hplan := hplanned.mono hext
  have hrequired := hc.required
  simp only [requiredByPhase, List.forall_mem_cons] at hrequired
  refine ⟨fun h => (by cases h), fun _ _ => hplan .planId (by decide), fun _ => hplan, ?_,
    fun _ => hc.terminal (by decide), fun h => (by cases h), fun h => (by cases h),
    fun _ => ⟨hgraph.symm, hprojection.symm, hrevision.symm⟩⟩
  simp only [requiredByPhase, List.forall_mem_cons]
  exact ⟨hrequired.1, hrequired.2.1, hrequired.2.2.1, hrequired.2.2.2.1, hrequired.2.2.2.2.1,
    hrequired.2.2.2.2.2.1, rfl, rfl, rfl, by simp⟩

/-- The coordinates that record a bound response suit the phase it leads to. -/
theorem JournalInv.suits (hj : JournalInv ref j) (hp : j.pendingRequest = some p)
    (hcarries : p.routeId ≠ .prepare → body = p.body)
    (hbound : responseIsBound p.routeId response p.pathParameters body j.coordinates
      j.target.workspaceId = .ok true)
    (hproj : responseCoordinates p.routeId response = .ok projection) :
    (j.coordinates.update projection).Suits projection.phase := by
  have hext := hj.extends_update hp hbound hproj
  have hpending := hj.valid.pending p hp
  have hphase := hpending.phase
  obtain ⟨hroute, -⟩ := responseCoordinates_ok hproj
  have hplans : p.routeId ≠ .prepare → (j.coordinates.update projection).Planned :=
    fun hne => (hj.planned_of_pending hp hne).mono hext
  have hrequired : ∀ n ∈ requiredByPhase j.phase, n ∈ writeOnce →
      (j.coordinates.update projection).has n = true :=
    fun n hn honce => hext.has honce (hj.valid.required n hn)
  rw [← hroute] at hphase hplans hbound hcarries
  cases projection with
  | prepare planId approvalRequestId =>
    constructor <;> simp [Projection.phase, needsPlanCoordinates, requiredByPhase]
    rfl
  | decide approvalState =>
    -- the path of the decision names the approval request
    have hmatch := (hpending.other (by rw [← hroute]; exact CommandRoute.noConfusion)).2
    have hkeys := hpending.pathKeys
    rw [← hroute] at hmatch hkeys
    obtain ⟨approvalId, happroval⟩ : ∃ c : Coordinate, p.pathParameters.get "approval_id" = c.json :=
      PathParameters.get_of_keys hkeys (by simp [Projection.route, pathKeys])
    simp only [Projection.route, pendingMatches, Bool.and_eq_true, happroval,
      Coordinate.json_pyEq] at hmatch
    have hsome : j.coordinates.approvalRequestId = some approvalId :=
      textJson_injective (hmatch.1.1 : textJson _ = textJson (some approvalId))
    refine .of_planned (hplans CommandRoute.noConfusion) (by simp [Projection.phase]) ?_ (by
      simp [Projection.phase])
    simp [Projection.phase, requiredByPhase, Coordinates.has, Coordinates.value?,
      Coordinates.update, hsome]
  | admission executionRequestId =>
    refine .of_planned (hplans CommandRoute.noConfusion) (by simp [Projection.phase]) ?_ (by
      simp [Projection.phase])
    simp [Projection.phase, requiredByPhase, Coordinates.has, Coordinates.value?,
      Coordinates.update]
  | claim runId claimGeneration =>
    have hadmitted : j.phase = .admitted := by simpa [pendingPhases, Projection.route] using hphase
    rw [hadmitted] at hrequired
    have hrequest := hrequired .executionRequestId (by decide) (by decide)
    refine .of_planned (hplans CommandRoute.noConfusion) (by simp [Projection.phase]) ?_ (by
      simp [Projection.phase])
    simp only [Projection.phase, requiredByPhase, List.forall_mem_cons]
    exact ⟨hrequest, rfl, rfl, by simp⟩
  | start runStatus =>
    have hclaimed : j.phase = .claimed := by simpa [pendingPhases, Projection.route] using hphase
    rw [hclaimed] at hrequired
    have hrunning : runStatus.json = .str "running" := by
      rw [← hroute] at hproj
      obtain ⟨status, hstatus, h⟩ := Raise.bind_eq_ok.mp hproj
      cases h
      simp only [Projection.route, responseIsBound, Except.ok.injEq, Bool.and_eq_true,
        Json.pyEq_str] at hbound
      exact (text_ok hstatus).symm.trans hbound.1.2
    refine .of_planned (hplans CommandRoute.noConfusion) (by simp [Projection.phase]) ?_
      fun _ => hrunning
    simp only [Projection.phase, requiredByPhase, List.forall_mem_cons]
    exact ⟨hrequired .executionRequestId (by decide) (by decide),
      hrequired .runId (by decide) (by decide), hrequired .claimGeneration (by decide) (by decide),
      rfl, by simp⟩
  | execute runId runStatus coordinatorStatus effects activityId =>
    have hstep : j.phase = .started ∨ j.phase = .executing := by
      simpa [pendingPhases, Projection.route] using hphase
    rw [← hroute] at hproj
    obtain ⟨-, -, haccepted⟩ := bound_step hbound
    obtain ⟨-, hrunStatus, hstatus⟩ := responseCoordinates_execute hproj
    obtain ⟨s, r, hs, hr, hcompleted, hprogressed⟩ := haccepted.texts
    obtain rfl : coordinatorStatus = s := Coordinate.json_injective (hstatus.symm.trans hs)
    obtain rfl : runStatus = r := Coordinate.json_injective (hrunStatus.symm.trans hr)
    refine .of_step rfl (hplans CommandRoute.noConfusion) (fun n hn => hrequired n ?_ ?_) hcompleted
      hprogressed
    · rcases hstep with h | h <;> rw [h] <;> revert n <;> decide
    · revert n
      decide
  | advance graphId projectionId revision =>
    have hexecuted : j.phase = .executed := by simpa [pendingPhases, Projection.route] using hphase
    have hmatch := (hpending.other (by rw [← hroute]; exact CommandRoute.noConfusion)).2
    rw [← hroute] at hproj hmatch
    rw [← hcarries CommandRoute.noConfusion] at hmatch
    -- the response names the graph the request asked for, and that is the desired one
    obtain ⟨projection', hproj', _, _, _, rfl, h₁, h₂, h₃⟩ :=
      (responseCoordinates_advance (hj.valid.plan (by rw [hexecuted]; rfl)) hmatch hbound).mpr (by
        obtain ⟨_, -, h⟩ := Raise.bind_eq_ok.mp hproj
        obtain ⟨_, -, h⟩ := Raise.bind_eq_ok.mp h
        obtain ⟨_, hint, -⟩ := Raise.bind_eq_ok.mp h
        exact ⟨_, (integer_ok hint).1⟩)
    cases hproj.symm.trans hproj'
    have hsuits : j.coordinates.Suits .executed := hexecuted ▸ hj.valid.suits
    exact hsuits.of_advancement h₁ h₂ h₃

/-- **The validator accepts the record** of a bound response that has a projection. -/
theorem JournalInv.recorded_valid (hj : JournalInv ref j) (hp : j.pendingRequest = some p)
    (hroom : j.requestHistory.length < maximumRequestRecords)
    (hcarries : p.routeId ≠ .prepare → body = p.body)
    (hbound : responseIsBound p.routeId response p.pathParameters body j.coordinates
      j.target.workspaceId = .ok true)
    (hproj : responseCoordinates p.routeId response = .ok projection) :
    (recorded j p response projection).Valid ref := by
  have hext := hj.extends_update hp hbound hproj
  have hsuits := hj.suits hp hcarries hbound hproj
  rw [(responseCoordinates_ok hproj).2] at hsuits
  refine hj.valid.move hsuits ?_ fun r hr => validateResult_extends (hj.valid.result r hr) hext
  rw [List.length_append, List.length_singleton]
  omega

/-- **A bound response is recorded** exactly where it is recordable. -/
theorem JournalInv.recordable (hj : JournalInv ref j) (hp : j.pendingRequest = some p)
    (hcarries : Carries rt docs p body)
    (hbound : responseIsBound p.routeId response p.pathParameters body j.coordinates
      j.target.workspaceId = .ok true) :
    (∃ projection, responseCoordinates p.routeId response = .ok projection ∧
        validateJournal (recorded j p response projection) ref = .ok ()) ↔
      Recordable response p.routeId := by
  have hroom := hj.room (by rw [hp]; rfl)
  have hbody : p.routeId ≠ .prepare → body = p.body := by
    intro hne
    rwa [Carries, if_neg hne] at hcarries
  have hpending := hj.valid.pending p hp
  -- What is left of acceptance once the projection has been read.
  have haccept : (∃ projection, responseCoordinates p.routeId response = .ok projection) →
      ∃ projection, responseCoordinates p.routeId response = .ok projection ∧
        validateJournal (recorded j p response projection) ref = .ok () := by
    rintro ⟨projection, hproj⟩
    exact ⟨projection, hproj, validateJournal_eq_ok.mpr
      (hj.recorded_valid hp hroom hbody hbound hproj)⟩
  cases hroute : p.routeId with
  | prepare =>
    rw [hroute] at haccept
    refine ⟨fun h => responseCoordinates_prepare.mp (h.imp fun _ hproj => hproj.1),
      fun h => haccept (responseCoordinates_prepare.mpr h)⟩
  | decide =>
    rw [hroute] at haccept hbound
    refine ⟨fun _ => trivial, fun _ => haccept ?_⟩
    simp only [responseIsBound, Except.ok.injEq, Bool.and_eq_true, Json.pyEq_str] at hbound
    have hstate : text response "state" = .ok (.literal "approved") := by
      unfold text
      rw [hbound.2]
      exact textCoordinate_json (.literal "approved")
    exact ⟨_, Raise.bind_eq_ok.mpr ⟨_, hstate, rfl⟩⟩
  | admission =>
    rw [hroute] at haccept hbound
    refine ⟨fun _ => trivial, fun _ => haccept ?_⟩
    simp only [responseIsBound, Except.ok.injEq] at hbound
    obtain ⟨requestId, hrequest⟩ := isTextCoordinate_iff.mp hbound
    exact ⟨_, Raise.bind_eq_ok.mpr ⟨requestId, hrequest, rfl⟩⟩
  | claim =>
    rw [hroute] at haccept hbound
    refine ⟨fun _ => trivial, fun _ => haccept ?_⟩
    simp only [responseIsBound, Except.ok.injEq, Bool.and_eq_true] at hbound
    obtain ⟨⟨⟨-, hrun⟩, -⟩, hgeneration⟩ := hbound
    obtain ⟨runId, hrunId⟩ := isTextCoordinate_iff.mp hrun
    obtain ⟨n, hn, hpositive⟩ : ∃ n : ℤ, response.get "claim_generation" = .int n ∧ 0 < n := by
      unfold isPositiveInteger at hgeneration
      split at hgeneration
      · exact ⟨_, ‹_›, of_decide_eq_true hgeneration⟩
      · cases hgeneration
    have hinteger : integer response "claim_generation" 1 = .ok n.toNat :=
      integer_of_int hn (by omega)
    exact ⟨_, Raise.bind_eq_ok.mpr ⟨runId, hrunId, Raise.bind_eq_ok.mpr ⟨_, hinteger, rfl⟩⟩⟩
  | start =>
    rw [hroute] at haccept hbound
    refine ⟨fun _ => trivial, fun _ => haccept ?_⟩
    simp only [responseIsBound, Except.ok.injEq, Bool.and_eq_true, Json.pyEq_str] at hbound
    have hstatus : text response "run_status" = .ok (.literal "running") := by
      unfold text
      rw [hbound.1.2]
      exact textCoordinate_json (.literal "running")
    exact ⟨_, Raise.bind_eq_ok.mpr ⟨_, hstatus, rfl⟩⟩
  | execute =>
    have hkeys := hpending.pathKeys
    rw [hroute] at haccept hbound hkeys
    have hstep := responseCoordinates_step hkeys hbound
    exact ⟨fun h => hstep.mp (h.imp fun _ hproj => hproj.1),
      fun h => haccept (hstep.mpr h)⟩
  | advance =>
    have hmatch := (hpending.other (by rw [hroute]; exact CommandRoute.noConfusion)).2
    rw [← hbody (by rw [hroute]; exact CommandRoute.noConfusion)] at hmatch
    have hphase := hpending.phase
    rw [hroute] at haccept hbound hmatch hphase
    have hexecuted : j.phase = .executed := by simpa [pendingPhases] using hphase
    have hnow := hj.valid.plan (by rw [hexecuted]; rfl)
    refine ⟨?_, fun h => haccept ?_⟩
    · rintro ⟨projection, hproj, -⟩
      obtain ⟨_, -, h⟩ := Raise.bind_eq_ok.mp hproj
      obtain ⟨_, -, h⟩ := Raise.bind_eq_ok.mp h
      obtain ⟨_, hint, -⟩ := Raise.bind_eq_ok.mp h
      exact ⟨_, (integer_ok hint).1⟩
    · obtain ⟨projection, hproj, -⟩ := (responseCoordinates_advance hnow hmatch hbound).mpr h
      exact ⟨projection, hproj⟩

/-- **Recording in every reachable state**: a response that is bound to the pending request of a
durable journal can be recorded exactly where it is recordable. -/
theorem Directory.Reachable.recordable_iff {c : Directory} (hc : Directory.Reachable rt docs c)
    (hj : (c.state ref).journal = some j) (hp : j.pendingRequest = some p)
    (hcarries : Carries rt docs p body)
    (hbound : responseIsBound p.routeId response p.pathParameters body j.coordinates
      j.target.workspaceId = .ok true) :
    (∃ projection, responseCoordinates p.routeId response = .ok projection ∧
        validateJournal (recorded j p response projection) ref = .ok ()) ↔
      Recordable response p.routeId := by
  have hinv : WorldInv rt docs ref (c.state ref) := Reachable.inv ⟨c, hc, rfl⟩
  exact (hinv.journal j hj).recordable hp hcarries hbound

end Recording

/-! ### A response that cannot be recorded -/

namespace Scenario

variable {rt : Runtime} {profile : ClientProfile} {docs : Set (List UInt8)} {s : Scenario}

/-- The journal with the pending preparation. -/
def intendedJournal (rt : Runtime) (profile : ClientProfile) (s : Scenario) : Journal :=
  { newJournal rt profile s.ref (s.source rt) with
    pendingRequest := some (s.request rt profile .prepare) }

/-- The preparation may be abandoned after each journal it writes. -/
theorem reachable_planning (hs : s.Fair rt docs) {k : ℕ} {j : Journal}
    (hsplit : s.planEvents rt profile = ((s.planEvents rt profile).take k ++ [wrote s.ref j]) ++
      (s.planEvents rt profile).drop (k + 1))
    (hlock : granted grants ((s.planEvents rt profile).take k ++ [wrote s.ref j]) ≤ 1) :
    ∃ w, Directory.Reachable rt docs (.only s.ref w) ∧ w.journal = some j := by
  have hexec : Exec (answers docs s.ref) World.empty
      (Client.plan rt profile (.utf8 s.file) (.utf8 s.title.text)) _ _ _ :=
    exec_plan hs untouched_empty
  have honly : ∀ e ∈ s.planEvents rt profile, OfOnly docs s.ref e := planEvents_ofOnly hs
  rw [hsplit] at hexec honly
  exact reachable_empty.abandoned (.plan profile (.utf8 s.file) (.utf8 s.title.text)) hexec honly hlock

theorem reachable_intended (hs : s.Fair rt docs) : ∃ w,
    Directory.Reachable rt docs (.only s.ref w) ∧
      w.journal = some (s.intendedJournal rt profile) := by
  have hsplit : s.planEvents rt profile = ((s.planEvents rt profile).take 6 ++
      [wrote s.ref (s.intendedJournal rt profile)]) ++ (s.planEvents rt profile).drop 7 := rfl
  exact reachable_planning hs hsplit (by simp [granted, planEvents, grants, answered, wrote])

/-- The body of the preparation is carried by its pending request. -/
theorem carries_prepare (hs : s.Fair rt docs) :
    Carries rt docs (s.request rt profile .prepare) (s.body .prepare) := by
  refine ⟨s.source rt, s.raw, s.desired, rfl, hs.found, rfl, hs.loads, ?_⟩
  exact Fields.same_set_pop (by rfl)

end Scenario

namespace Instance

theorem reachable_pending : ∃ w, Directory.Reachable runtime docs (.only scenario.ref w) ∧
    w.journal = some (scenario.intendedJournal runtime profile) :=
  Scenario.reachable_intended fair

/-- **The healthy response to a preparation is recorded.** -/
theorem recordable_prepare : ∃ w, Directory.Reachable runtime docs (.only scenario.ref w) ∧
    ∃ projection, responseCoordinates .prepare (scenario.response profile .prepare) =
        .ok projection ∧
      validateJournal (recorded (scenario.intendedJournal runtime profile)
        (scenario.request runtime profile .prepare) (scenario.response profile .prepare)
          projection) scenario.ref = .ok () := by
  obtain ⟨w, hw, hj⟩ := reachable_pending
  refine ⟨w, hw, (Directory.Reachable.recordable_iff hw ?_ rfl (Scenario.carries_prepare fair) ?_).mpr
    ?_⟩
  · rw [Directory.only_state]
    exact hj
  · exact scenario.responseIsBound_response profile .prepare (by decide) (by simp)
  · exact ⟨by decide, fun _ => by decide⟩

/-- A response to a preparation that only names its workspace. -/
def bareResponse : Fields :=
  [("workspace_id", profile.workspaceId.json)]

/-- It is bound, and cannot be recorded. -/
theorem bareResponse_stuck : ¬ ∀ (rt : Runtime) (docs : Set (List UInt8)) (ref : OperationRef)
    (c : Directory) (j : Journal) (p : Pending) (body response : Fields),
    Directory.Reachable rt docs c → (c.state ref).journal = some j → j.pendingRequest = some p →
    Carries rt docs p body →
    responseIsBound p.routeId response p.pathParameters body j.coordinates j.target.workspaceId =
      .ok true →
    ∃ projection, responseCoordinates p.routeId response = .ok projection ∧
      validateJournal (recorded j p response projection) ref = .ok () := by
  intro hall
  obtain ⟨w, hw, hj⟩ := reachable_pending
  obtain ⟨projection, hproj, -⟩ := hall runtime docs scenario.ref _ _
    (scenario.request runtime profile .prepare) _ bareResponse hw
    (by rw [Directory.only_state]; exact hj) rfl (Scenario.carries_prepare fair) (by decide)
  obtain ⟨planId, hplan, -⟩ := Raise.bind_eq_ok.mp hproj
  have hnull : bareResponse.get "plan_id" = .null := rfl
  rw [text, hnull] at hplan
  cases hplan

end Instance

end Client

end ControlPlaneKit
