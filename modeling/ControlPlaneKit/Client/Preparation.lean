import ControlPlaneKit.Client.Reads

/-!
# Preparation abides by the protocol

`_finish_prepare` and the part of `plan` and `resume_prepare` under the lock. The coordinates it
takes from the response again are the recorded ones, and the plan it reads fills in missing plan
coordinates without changing one: both follow from the checks that stand before them.
-/

namespace ControlPlaneKit

namespace Client

open Interaction

/-! ### The body -/

/-- The body of a preparation nests as deep as the desired graph it holds. -/
theorem prepareBody_shallow {rt : Runtime} {desired : Fields} {current : Pointer}
    {expectedDesired : Option Pointer}
    {revision : ℕ} {title : Coordinate} {key : OperationRef}
    (h : (Json.obj desired).depth < rt.depthLimit) :
    (Json.obj (prepareBody desired current expectedDesired revision title key)).depth ≤
      rt.depthLimit := by
  obtain ⟨limit, hlimit⟩ : ∃ limit, rt.depthLimit = limit + 1 :=
    ⟨rt.depthLimit - 1, by have := rt.nests; omega⟩
  have hnests := rt.nests
  rw [hlimit] at h hnests ⊢
  rw [Json.depth_obj_le]
  have hexpected : ((expectedDesired.map Pointer.json).getD .null).depth ≤ 1 := by
    cases expectedDesired <;> simp [Json.depth]
  simp only [prepareBody, List.forall_mem_cons, Pointer.depth_json, depth_natJson,
    Coordinate.depth_json, OperationRef.depth_json]
  exact ⟨by omega, by omega, by omega, by omega, by omega, by omega, List.forall_mem_nil _⟩

/-! ### Plan coordinates -/

/-- The plan agrees with the plan coordinates a journal has. -/
def PlanAgrees (j : Journal) (plan : Fields) : Prop :=
  ∀ n ∈ planCoordinates, j.coordinates.has n = true →
    (plan.get n.key).pyEq (j.coordinates.get n) = true

theorem validatePlan_ok {j : Journal} {plan : Fields} {u : Unit} :
    validatePlan j plan = .ok u ↔ PlanAgrees j plan := by
  unfold validatePlan PlanAgrees
  split
  · rename_i h
    simp only [true_iff]
    intro n hn hhas
    have := List.all_eq_true.mp h n hn
    simpa [hhas] using this
  · rename_i h
    simp only [reduceCtorEq, false_iff]
    intro hall
    refine h (List.all_eq_true.mpr fun n hn => ?_)
    cases hhas : j.coordinates.has n with
    | false => rfl
    | true => simpa using hall n hn hhas

/-- The coordinates that have been recorded from a plan are the plan's. -/
theorem recordPlan_value {c c' : Coordinates} {plan : Fields}
    (h : recordPlanCoordinates c plan = .ok c') :
    (∀ n ∈ planCoordinates, c'.value? n = some (plan.get n.key)) ∧
      ∀ n ∉ planCoordinates, c'.value? n = c.value? n := by
  obtain ⟨planId, h₁, h⟩ := Raise.bind_eq_ok.mp h
  obtain ⟨sessionId, h₂, h⟩ := Raise.bind_eq_ok.mp h
  obtain ⟨baseGraphId, h₃, h⟩ := Raise.bind_eq_ok.mp h
  obtain ⟨baseProjectionId, h₄, h⟩ := Raise.bind_eq_ok.mp h
  obtain ⟨desiredGraphId, h₅, h⟩ := Raise.bind_eq_ok.mp h
  obtain ⟨desiredProjectionId, h₆, h⟩ := Raise.bind_eq_ok.mp h
  obtain ⟨revision, h₇, h⟩ := Raise.bind_eq_ok.mp h
  cases h
  constructor
  · intro n hn
    simp only [planCoordinates, List.mem_cons, List.not_mem_nil, or_false] at hn
    rcases hn with rfl | rfl | rfl | rfl | rfl | rfl | rfl
    · exact congrArg some (text_ok h₁).symm
    · exact congrArg some (text_ok h₂).symm
    · exact congrArg some (text_ok h₃).symm
    · exact congrArg some (text_ok h₄).symm
    · exact congrArg some (text_ok h₅).symm
    · exact congrArg some (text_ok h₆).symm
    · exact congrArg some (integer_ok h₇).1.symm
  · intro n hn
    cases n <;> first | rfl | exact absurd (by decide) hn

/-- A value that equals a coordinate of the plan is the coordinate. -/
theorem eq_of_pyEq_value {c c' : Coordinates} {n : CoordinateName} {v v' : Json}
    (hv : c.value? n = some v) (hv' : c'.value? n = some v') (h : v'.pyEq v = true) : v' = v := by
  have hget : c.get n = v := by rw [Coordinates.get, hv]; rfl
  cases hnumber : Coordinates.isNumber n with
  | false =>
    rw [← hget, Coordinates.pyEq_get hnumber] at h
    rw [h, hget]
  | true =>
    have hnat : ∀ {m : Option ℕ} {v : Json}, m.map natJson = some v → ∃ k, v = natJson k :=
      fun h => by
        obtain ⟨k, -, hk⟩ := Option.map_eq_some_iff.mp h
        exact ⟨k, hk.symm⟩
    cases n <;> first
      | exact absurd hnumber (by decide)
      | (obtain ⟨a, rfl⟩ := hnat hv
         obtain ⟨b, rfl⟩ := hnat hv'
         rw [natJson_pyEq.mp h])

/-- Recording an agreeing plan changes no coordinate. -/
theorem recordPlan_extends {j : Journal} {c' : Coordinates} {plan : Fields}
    (hplan : PlanAgrees j plan) (h : recordPlanCoordinates j.coordinates plan = .ok c') :
    j.coordinates.Extends c' := by
  obtain ⟨hnew, hother⟩ := recordPlan_value h
  intro n _ v hv
  by_cases hmem : n ∈ planCoordinates
  · have hhas : j.coordinates.has n = true := by rw [Coordinates.has, hv]; rfl
    have hget : j.coordinates.get n = v := by rw [Coordinates.get, hv]; rfl
    have hpy := hplan n hmem hhas
    rw [hget] at hpy
    rw [hnew n hmem, eq_of_pyEq_value hv (hnew n hmem) hpy]
  · rw [hother n hmem, hv]

/-- Recording a plan gives all its coordinates. -/
theorem recordPlan_planned {c c' : Coordinates} {plan : Fields}
    (h : recordPlanCoordinates c plan = .ok c') : c'.Planned := by
  intro n hn
  rw [Coordinates.has, (recordPlan_value h).1 n hn]
  rfl

/-- A journal whose coordinates were recorded from a plan is ahead of the one before. -/
theorem Ahead.recordPlan {j : Journal} {c' : Coordinates} {plan : Fields}
    (hplan : PlanAgrees j plan) (h : recordPlanCoordinates j.coordinates plan = .ok c') :
    Ahead j { j with coordinates := c' } :=
  ⟨rfl, rfl, rfl, rfl, rfl, recordPlan_extends hplan h, (recordPlan_value h).2,
    .inr (recordPlan_planned h), .same _⟩

/-! ### Finishing a preparation -/

/-- The coordinates taken from the response again are the recorded ones. -/
theorem preparedCoordinates_update {c c' : Coordinates} {prepared : Fields}
    {projection : Projection} (hproj : responseCoordinates .prepare prepared = .ok projection)
    (h : preparedCoordinates (c.update projection) prepared = .ok c') :
    c' = c.update projection := by
  obtain ⟨planId, hplanId, h⟩ := Raise.bind_eq_ok.mp h
  obtain ⟨planId', hplanId', hproj⟩ := Raise.bind_eq_ok.mp hproj
  obtain rfl : planId' = planId := Except.ok.inj (hplanId'.symm.trans hplanId)
  split at h
  · rename_i hhas
    rw [if_pos hhas] at hproj
    obtain ⟨approvalId, happroval, h⟩ := Raise.bind_eq_ok.mp h
    obtain ⟨approvalId', happroval', hproj⟩ := Raise.bind_eq_ok.mp hproj
    obtain rfl : approvalId' = approvalId := Except.ok.inj (happroval'.symm.trans happroval)
    cases hproj
    cases h
    rfl
  · rename_i hhas
    rw [if_neg hhas] at hproj
    cases hproj
    cases h
    rfl

theorem settles_preparedPhase (status : Coordinate) : Settles .prepared (preparedPhase status) := by
  unfold preparedPhase
  split
  · exact .noChanges
  · split
    · exact .review
    · exact .same _

/-- The events of preparation commands are never restricted. -/
theorem allows_unpending {T : Terms} {h : Trace} {r : OperationRef} {j : Journal} {a : StoreAnswer}
    (hnone : j.pendingRequest = none) : T.allows h ⟨.write r j, a⟩ := by
  refine T.free _ _ ?_
  rintro ⟨p, hp, -⟩
  rw [hnone] at hp
  cases hp

section Rules

variable {rt : Runtime} {docs : Set (List UInt8)} {ref : OperationRef} {T : Terms}
  {E : Trace → World → ClientResult → Prop} {h : Trace} {w : World}

/-- The rule for finishing a preparation whose response has just been recorded. -/
theorem Abides.finishPrepare {profile : ClientProfile} {R : Trace → World → ClientResult → Prop}
    {j₀ : Journal} {p : Pending} {prepared : Fields} {projection : Projection}
    (hj : Holds rt profile w (recorded j₀ p prepared projection)) (hroute : p.routeId = .prepare)
    (hproj : responseCoordinates .prepare prepared = .ok projection)
    (hE : ∀ h w result, E h w result) (hR : ∀ h w result, R h w result) :
    Abides rt docs ref T E
      (Client.finishPrepare rt profile (recorded j₀ p prepared projection) prepared) R h w := by
  refine .of_inv fun hw => ?_
  have hinv := hw.journal _ hj.durable
  generalize hnew : recorded j₀ p prepared projection = j at *
  have hnone : j.pendingRequest = none := by rw [← hnew]; rfl
  have hphase : j.phase = .prepared := by rw [← hnew]; simp [recorded, hroute, phaseAfter]
  obtain rfl : j.operationRef = ref := hinv.valid.identity
  have hcoordinates : j.coordinates = j₀.coordinates.update projection := by rw [← hnew]; rfl
  have hstop : ∀ {γ : Type} {h' : Trace} {R' : Trace → World → γ → Prop} {j'} ex next, Ahead j j' →
      Abides rt docs j.operationRef T E
        (Client.stop rt profile j' ex .notAttempted next) R' h' w :=
    fun ex next hahead => .stop hj.durable hahead
      (fun j'' a hsame => allows_unpending (hsame.trans (hahead.pending.trans hnone)))
      fun _ _ _ _ => hE _ _ _
  unfold Client.finishPrepare
  refine .bind (.lift fun status _ => ?_)
  split
  swap
  · exact hstop _ _ (.refl j)
  refine .bind (.lift fun c₁ hc₁ => .bind (.lift fun planId hplanId => .bind ?_))
  have hsame : ({ j with coordinates := c₁ } : Journal) = j := by
    rw [hcoordinates] at hc₁
    rw [preparedCoordinates_update hproj hc₁, ← hcoordinates]
  rw [hsame]
  refine .exceptUnresolved ?_ ?_ (fun tr plan hplan => ?_) fun _ _ _ _ => hstop _ _ (.refl j)
  · exact ((reads_planDetail profile _ _).bind fun _ => (Reads.lift _).bind fun _ =>
      (Reads.lift _).bind fun _ => .pure _).neutral
  · exact ((reads_planDetail profile _ _).bind fun _ => (Reads.lift _).bind fun _ =>
      (Reads.lift _).bind fun _ => .pure _).stays
  obtain ⟨plan, changes⟩ := plan
  have hagrees : PlanAgrees j plan := by
    obtain ⟨plan', _, _, -, -, hplan⟩ := hplan.bind_ok
    obtain ⟨u, _, _, -, hvalid, hplan⟩ := hplan.bind_ok
    obtain ⟨changes', _, _, -, -, hplan⟩ := hplan.bind_ok
    cases (runs_pure_ok.mp hplan).2
    exact validatePlan_ok.mp (runs_lift_ok.mp hvalid).2
  refine .bind (.lift fun c₂ hc₂ => .bind ?_)
  have hahead : Ahead j { j with coordinates := c₂ } := .recordPlan hagrees hc₂
  have hfinish : ∀ h' approval, Abides rt docs j.operationRef T E (do
      let journal : Journal := { j with coordinates := c₂, phase := preparedPhase status }
      let result ← Client.lift (planResult journal plan approval status changes)
      writeJournal rt journal.operationRef { journal with lastResult := some result }
      return result) R h' w := by
    intro h' approval
    refine .bind (.lift fun result _ => .bind ?_)
    refine .write (fun _ hvalid => ⟨j, hj.durable, ?_⟩) (fun a => allows_unpending hnone)
      (.pure (hR _ _ _))
    exact .settle j c₂ _ _ hahead.extends_ hahead.other hahead.planned
      (hphase ▸ settles_preparedPhase status) hvalid
  unfold Client.preparedApproval
  split
  · exact .pure (hfinish _ _)
  · refine .exceptUnresolved ?_ ?_ (fun tr approval _ => hfinish _ _) fun _ _ _ _ =>
      hstop _ _ hahead
    · exact ((reads_approvalDetail profile _ _).bind fun _ => (Reads.lift _).bind fun _ =>
        .pure _).neutral
    · exact ((reads_approvalDetail profile _ _).bind fun _ => (Reads.lift _).bind fun _ =>
        .pure _).stays

/-- A recorded preparation, seen as the response to its request. -/
theorem Abides.finishMutation {profile : ClientProfile} {R : Trace → World → ClientResult → Prop}
    {j : Journal} {p : Pending} {prepared : Fields} {projection : Projection}
    (hj : Holds rt profile w (recorded j p prepared projection)) (hroute : p.routeId = .prepare)
    (hproj : responseCoordinates p.routeId prepared = .ok projection)
    (hE : ∀ h w result, E h w result) (hR : ∀ h w result, R h w result) :
    Abides rt docs ref T E
      (Client.finishPrepare rt profile (recorded j p prepared projection) prepared) R h w :=
  .finishPrepare hj hroute (hroute ▸ hproj) hE hR

/-- The part of `plan` under the lock. -/
theorem Abides.planLocked {profile : ClientProfile} {R : Trace → World → ClientResult → Prop}
    {source : DesiredSource} {desired body : Fields} {key : OperationRef} {raw : List UInt8}
    (hraw : raw ∈ docs) (hload : rt.loadDesired raw = some (.obj desired))
    (hsha : rt.sha256 raw = source.sha256)
    (hbody : List.lookup (.utf8 "desired_graph") body = some (.obj desired))
    (hE : ∀ h w result, E h w result) (hR : ∀ h w result, R h w result) :
    Abides rt docs ref T E (do
      let journal := newJournal rt profile ref source
      createJournal rt ref journal
      let (prepared, journal) ← Client.mutate rt profile journal .prepare (workspacePath profile)
        body key .operator (some source)
      Client.finishPrepare rt profile journal prepared) R h w := by
  refine .bind ?_
  unfold createJournal
  refine .bind (.lift fun _ hencode => ?_)
  have hcreated : Created ref (newJournal rt profile ref source) :=
    ⟨validateJournal_eq_ok.mp (encodeJournal_valid hencode), rfl, rfl, rfl, rfl⟩
  refine .perform (fun hw a w' hanswer => ⟨?_, rfl, T.free _ _ id⟩) fun a w' hanswer => ?_
  · simp only [answers, true_and] at hanswer
    simp only [Lawful, if_true]
    split at hanswer
    · exact .inr ⟨hanswer.1, hcreated, hanswer.2⟩
    · exact .inl hanswer
  cases a with
  | failed message published => exact .raise
  | stored =>
    obtain ⟨hnone, rfl⟩ : w.journal = none ∧ w' = w.store (newJournal rt profile ref source) := by
      simpa [answers, StoreAnswer.published] using hanswer
    refine .pure (.bind (.mutate ⟨rfl, rfl⟩ rfl (by simp [Journal.recordedKeys, newJournal])
      (fun h => by cases h) (by simp) (fun digest => ?_) (T.permits_prepare _)
      (fun _ _ _ _ _ => hE _ _ _) (fun _ _ _ _ _ _ => hE _ _ _) fun _ prepared projection w' _ hproj hholds => ?_))
    · exact ⟨source, raw, desired, rfl, hraw, hsha, hload, Fields.same_set_pop hbody⟩
    · exact .finishMutation hholds rfl hproj hE hR

/-- The part of `resume_prepare` under the lock. -/
theorem Abides.resumeLocked {profile : ClientProfile} {R : Trace → World → ClientResult → Prop}
    (hE : ∀ h w result, E h w result) (hR : ∀ h w result, R h w result) :
    Abides rt docs ref T E (do
      let journal ← Client.load rt profile ref
      if (journal.pendingRequest.map (·.routeId)) = some .prepare then
        let (prepared, journal) ← Client.replayPending rt profile journal
        Client.finishPrepare rt profile journal prepared
      else Client.raise (.input "operation has no pending prepare request")) R h w := by
  refine .bind (.load fun j hj => ?_)
  split
  swap
  · exact .raise
  rename_i hpending
  obtain ⟨p, hp, hroute⟩ := Option.map_eq_some_iff.mp hpending
  refine .bind (.replayPending hj hp (fun _ j' a _ hsame => T.free _ _ ?_) (fun _ _ a _ _ =>
    T.free _ _ ?_) (fun _ _ _ => hE _ _ _) (fun _ _ _ _ _ _ _ => hE _ _ _) ?_)
  · rintro ⟨q, hq, hdecide⟩
    obtain rfl : p = q := Option.some.inj (hsame.symm.trans hq)
    rw [hroute] at hdecide
    cases hdecide
  · rintro ⟨route, hcall, hne⟩
    exact hne ((Route.command.inj hcall).symm.trans hroute)
  · exact fun _ _ prepared projection w' _ _ _ _ hproj hholds =>
      .finishMutation hholds hroute hproj hE hR

end Rules

end Client

end ControlPlaneKit
