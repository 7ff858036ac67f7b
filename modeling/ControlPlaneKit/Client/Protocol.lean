import Mathlib.Data.List.Nodup
import Mathlib.Data.Set.Function
import ControlPlaneKit.Client.System
import ControlPlaneKit.Client.Validity

/-!
# The command protocol of one operation

What an operation is for, without the code that runs it: commands are intended in the journal,
dispatched, and recorded, one at a time. A journal changes in three ways (`JournalStep`): a
request is *intended* (made durable before it is dispatched), its accepted response is
*recorded*, or the journal *settles* in place: plan coordinates that were missing are filled in,
a phase that the history has already reached is named, a result is kept.

From these steps alone follow the journal's invariant (`JournalInv`): the history is a word of
the protocol that leads to the journal's phase, keys are never reused, and the recorded
projections agree with the coordinates; and its monotonicity (`Forward`): write-once coordinates,
phases that only move forward, a history that only grows.
-/

namespace ControlPlaneKit

namespace Client

/-! ### Orders on coordinates and phases -/

/-- The coordinates that are written once. -/
def writeOnce : List CoordinateName :=
  planCoordinates ++ [.approvalRequestId, .executionRequestId, .runId, .claimGeneration]

/-- Write-once coordinates keep their values. -/
def Coordinates.Extends (c c' : Coordinates) : Prop :=
  ∀ n ∈ writeOnce, ∀ v, c.value? n = some v → c'.value? n = some v

theorem Coordinates.Extends.refl (c : Coordinates) : c.Extends c :=
  fun _ _ _ h => h

theorem Coordinates.Extends.trans {c c' c'' : Coordinates} (h : c.Extends c')
    (h' : c'.Extends c'') : c.Extends c'' :=
  fun n hn v hv => h' n hn v (h n hn v hv)

/-- All coordinates of the plan are there. -/
def Coordinates.Planned (c : Coordinates) : Prop :=
  ∀ n ∈ planCoordinates, c.has n = true

theorem Coordinates.Extends.has {c c' : Coordinates} (h : c.Extends c') {n : CoordinateName}
    (hn : n ∈ writeOnce) (hhas : c.has n = true) : c'.has n = true := by
  obtain ⟨v, hv⟩ := Option.isSome_iff_exists.mp hhas
  exact Option.isSome_iff_exists.mpr ⟨v, h n hn v hv⟩

theorem Coordinates.Planned.mono {c c' : Coordinates} (hc : c.Planned) (h : c.Extends c') :
    c'.Planned :=
  fun n hn => h.has (List.mem_append_left _ hn) (hc n hn)

/-- The terminal phases. -/
def Phase.isTerminal : Phase → Bool
  | .noChanges => true
  | .attentionRequired => true
  | _ => false

/-- The place of a phase that is not terminal. -/
def Phase.rank : Phase → ℕ
  | .planning => 0
  | .prepared => 1
  | .approved => 2
  | .admitted => 3
  | .claimed => 4
  | .started => 5
  | .executing => 6
  | .executed => 7
  | .advanced => 8
  | .converged => 9
  | .noChanges => 10
  | .attentionRequired => 10

/-- A phase moves forward: terminal phases are never left, and the other phases do not decrease
unless a terminal one is entered. -/
def Phase.Leads (a b : Phase) : Prop :=
  a = b ∨ a.isTerminal = false ∧ (b.isTerminal = true ∨ a.rank ≤ b.rank)

theorem Phase.Leads.refl (a : Phase) : a.Leads a :=
  .inl rfl

theorem Phase.Leads.trans {a b c : Phase} (h : a.Leads b) (h' : b.Leads c) : a.Leads c := by
  rcases h with rfl | ⟨ha, h⟩
  · exact h'
  · rcases h' with rfl | ⟨hb, h'⟩
    · exact .inr ⟨ha, h⟩
    · refine .inr ⟨ha, ?_⟩
      rcases h with h | h
      · rw [hb] at h
        cases h
      · exact h'.imp_right (le_trans h)

/-- The phases a journal may name for a phase its history has reached. -/
inductive Settles : Phase → Phase → Prop where
  | same (phase : Phase) : Settles phase phase
  | noChanges : Settles .prepared .noChanges
  | review : Settles .prepared .attentionRequired
  | converged : Settles .advanced .converged

theorem Settles.trans {a b c : Phase} (h : Settles a b) (h' : Settles b c) : Settles a c := by
  cases h with
  | same => exact h'
  | noChanges => cases h'; exact .noChanges
  | review => cases h'; exact .review
  | converged => cases h'; exact .converged

theorem Settles.leads {a b : Phase} (h : Settles a b) : a.Leads b := by
  cases h with
  | same => exact .refl _
  | noChanges => exact .inr ⟨rfl, .inl rfl⟩
  | review => exact .inr ⟨rfl, .inl rfl⟩
  | converged => exact .inr ⟨rfl, .inr (by decide)⟩

/-- A phase in which some request may be pending is the phase the history has reached. -/
theorem Settles.eq_of_pending {a b : Phase} {route : CommandRoute} (h : Settles a b)
    (hb : b ∈ pendingPhases route) : a = b := by
  cases h with
  | same => rfl
  | noChanges => exact absurd hb (final_noChanges route)
  | review => exact absurd hb (final_attentionRequired route)
  | converged => exact absurd hb (final_converged route)

/-- Pending phases lead to the phases their route can reach. -/
theorem leads_of_pending {a b : Phase} {route : CommandRoute} (ha : a ∈ pendingPhases route)
    (hb : b ∈ route.targets) : a.Leads b := by
  refine .inr ?_
  cases route <;> simp only [pendingPhases, CommandRoute.targets, List.mem_cons, List.not_mem_nil,
    or_false] at ha hb
  case admission =>
    subst hb
    rcases ha with rfl | rfl <;> decide
  case execute => rcases ha with rfl | rfl <;> rcases hb with rfl | rfl | rfl <;> decide
  all_goals
    subst ha hb
    decide

/-! ### Requests -/

section Requests

variable (rt : Runtime) (docs : Set (List UInt8))

/-- The payload of a pending request: its body, for a preparation with the desired graph put
back, as some file content with the recorded digest parses. -/
def Carries (pending : Pending) (payload : Fields) : Prop :=
  if pending.routeId = .prepare then
    ∃ source raw desired, pending.desiredSource = some source ∧ raw ∈ docs ∧
      rt.sha256 raw = source.sha256 ∧ rt.loadDesired raw = some (.obj desired) ∧
        Fields.Same payload (pending.body.set "desired_graph" (.obj desired))
  else payload = pending.body

/-- The call sends the pending request. -/
structure Matches (pending : Pending) (call : Call) : Prop where
  route : call.route = .command pending.routeId
  path : call.pathParameters = pending.pathParameters
  role : call.credentialRole = pending.credentialRole
  key : call.key = pending.idempotencyKey.json
  digest : canonicalDigest rt call.payload = .ok pending.bodySha256
  carries : Carries rt docs pending call.payload

end Requests

/-- Two calls carry the same request. -/
structure SameRequest (call call' : Call) : Prop where
  route : call.route = call'.route
  path : call.pathParameters = call'.pathParameters
  role : call.credentialRole = call'.credentialRole
  payload : Fields.Same call.payload call'.payload

/-- Two calls that send one pending request carry the same request, if no two of the documents
the desired graph file held have the same digest. -/
theorem Matches.sameRequest {rt : Runtime} {docs : Set (List UInt8)} {pending : Pending}
    {call call' : Call} (hinj : Set.InjOn rt.sha256 docs) (h : Matches rt docs pending call)
    (h' : Matches rt docs pending call') : SameRequest call call' where
  route := h.route.trans h'.route.symm
  path := h.path.trans h'.path.symm
  role := h.role.trans h'.role.symm
  payload := by
    have hc := h.carries
    have hc' := h'.carries
    unfold Carries at hc hc'
    split at hc
    · rename_i hprepare
      rw [if_pos hprepare] at hc'
      obtain ⟨source, raw, desired, hsource, hraw, hsha, hload, hsame⟩ := hc
      obtain ⟨source', raw', desired', hsource', hraw', hsha', hload', hsame'⟩ := hc'
      obtain rfl : source = source' := Option.some.inj (hsource.symm.trans hsource')
      obtain rfl : raw = raw' := hinj hraw hraw' (hsha.trans hsha'.symm)
      obtain rfl : desired = desired' := by
        rw [hload] at hload'
        simpa using hload'
      exact hsame.trans hsame'.symm
    · rename_i hprepare
      rw [if_neg hprepare] at hc'
      rw [hc, hc']
      exact Fields.Same.refl _

/-! ### Steps of the journal -/

section Steps

variable (rt : Runtime) (docs : Set (List UInt8)) (ref : OperationRef)

/-- How the durable journal of an operation changes, `sent` being the commands dispatched for it
so far. -/
inductive JournalStep (sent : List Call) : Journal → Journal → Prop where
  | intend (j : Journal) (p : Pending) (hnone : j.pendingRequest = none)
      (hroom : j.requestHistory.length < maximumRequestRecords)
      (hfresh : p.idempotencyKey ∉ j.recordedKeys)
      (happroval : p.routeId = .admission → j.coordinates.approvalRequestId.isSome)
      (hplanned : p.routeId = .decide ∨ p.routeId = .admission → j.coordinates.Planned)
      (hvalid : validateJournal { j with pendingRequest := some p } ref = .ok ()) :
      JournalStep sent j { j with pendingRequest := some p }
  | record (j : Journal) (p : Pending) (call : Call) (response : Fields) (projection : Projection)
      (hp : j.pendingRequest = some p) (hcall : call ∈ sent) (hmatch : Matches rt docs p call)
      (hbound : responseIsBound p.routeId response p.pathParameters call.payload j.coordinates
        j.target.workspaceId = .ok true)
      (hproj : responseCoordinates p.routeId response = .ok projection)
      (hvalid : validateJournal (recorded j p response projection) ref = .ok ()) :
      JournalStep sent j (recorded j p response projection)
  | settle (j : Journal) (coordinates : Coordinates) (phase : Phase)
      (result : Option ClientResult) (hext : j.coordinates.Extends coordinates)
      (hother : ∀ n ∉ planCoordinates, coordinates.value? n = j.coordinates.value? n)
      (hplanned : coordinates = j.coordinates ∨ coordinates.Planned)
      (hphase : Settles j.phase phase)
      (hvalid : validateJournal
        { j with coordinates := coordinates, phase := phase, lastResult := result } ref = .ok ()) :
      JournalStep sent j
        { j with coordinates := coordinates, phase := phase, lastResult := result }

end Steps

/-- A recorded projection agrees with the coordinates. -/
def Projection.Agrees (c : Coordinates) : Projection → Prop
  | .prepare planId approvalRequestId =>
    c.planId = some planId ∧ ∀ a, approvalRequestId = some a → c.approvalRequestId = some a
  | .admission executionRequestId => c.executionRequestId = some executionRequestId
  | .claim runId claimGeneration =>
    c.runId = some runId ∧ c.claimGeneration = some claimGeneration
  | .execute runId _ _ _ _ => c.runId = some runId
  | _ => True

/-- The invariant of an operation's journal. -/
structure JournalInv (ref : OperationRef) (j : Journal) : Prop where
  /-- The validator accepts it. -/
  valid : j.Valid ref
  /-- The history is a word of the protocol that has led to the phase. -/
  trace : ∃ phase, tracePhase j.requestHistory = some phase ∧ Settles phase j.phase
  /-- The pending key is not a recorded one. -/
  fresh : ∀ p, j.pendingRequest = some p → p.idempotencyKey ∉ j.recordedKeys
  /-- Recorded keys differ. -/
  nodup : j.recordedKeys.Nodup
  /-- The history has room for a pending request. -/
  room : j.pendingRequest.isSome → j.requestHistory.length < maximumRequestRecords
  /-- What has been recorded agrees with the coordinates. -/
  agree : ∀ r ∈ j.requestHistory, r.response.Agrees j.coordinates
  /-- A recorded advancement is the one the coordinates name. -/
  advanced : ∀ h r graphId projectionId revision, j.requestHistory = h ++ [r] →
    r.response = .advance graphId projectionId revision →
      j.coordinates.advancedGraphId = some graphId ∧
        j.coordinates.advancedProjectionId = some projectionId ∧
          j.coordinates.advancedRevision = some revision
  /-- Nothing is admitted before the admission. -/
  unadmitted : j.phase ∈ [Phase.planning, .prepared, .noChanges, .approved] →
    j.coordinates.executionRequestId = none
  /-- Nothing is claimed before the claim. -/
  unclaimed : j.phase ∈ [Phase.planning, .prepared, .noChanges, .approved, .admitted] →
    j.coordinates.runId = none ∧ j.coordinates.claimGeneration = none
  /-- Only an operation with an approval request is admitted. -/
  approval : (j.coordinates.executionRequestId.isSome ∨
      ∃ p, j.pendingRequest = some p ∧ p.routeId = .admission) →
    j.coordinates.approvalRequestId.isSome
  /-- The coordinates of the plan that a preparation does not give come together. -/
  session : j.coordinates.has .sessionId = true → j.coordinates.Planned
  /-- Decisions and admissions are of an operation whose plan is known. -/
  planned : ∀ p, j.pendingRequest = some p → p.routeId = .decide ∨ p.routeId = .admission →
    j.coordinates.Planned

/-- What every later journal of an operation keeps. -/
structure Forward (j j' : Journal) : Prop where
  operationRef : j'.operationRef = j.operationRef
  target : j'.target = j.target
  desired : j'.desired = j.desired
  coordinates : j.coordinates.Extends j'.coordinates
  phase : j.phase.Leads j'.phase
  history : j.requestHistory <+: j'.requestHistory

theorem Forward.refl (j : Journal) : Forward j j :=
  ⟨rfl, rfl, rfl, .refl _, .refl _, List.prefix_rfl⟩

theorem Forward.trans {j j' j'' : Journal} (h : Forward j j') (h' : Forward j' j'') :
    Forward j j'' :=
  ⟨h'.operationRef.trans h.operationRef, h'.target.trans h.target, h'.desired.trans h.desired,
    h.coordinates.trans h'.coordinates, h.phase.trans h'.phase, h.history.trans h'.history⟩

/-! ### What one step preserves -/

section Extends

variable {c c' : Coordinates}

theorem Coordinates.Extends.planId (h : c.Extends c') {v : Coordinate} (hv : c.planId = some v) :
    c'.planId = some v := by
  have := h .planId (by decide) v.json (by simp [value?, hv])
  simpa [value?, Coordinate.json_inj] using this

theorem Coordinates.Extends.approvalRequestId (h : c.Extends c') {v : Coordinate}
    (hv : c.approvalRequestId = some v) : c'.approvalRequestId = some v := by
  have := h .approvalRequestId (by decide) v.json (by simp [value?, hv])
  simpa [value?, Coordinate.json_inj] using this

theorem Coordinates.Extends.executionRequestId (h : c.Extends c') {v : Coordinate}
    (hv : c.executionRequestId = some v) : c'.executionRequestId = some v := by
  have := h .executionRequestId (by decide) v.json (by simp [value?, hv])
  simpa [value?, Coordinate.json_inj] using this

theorem Coordinates.Extends.runId (h : c.Extends c') {v : Coordinate} (hv : c.runId = some v) :
    c'.runId = some v := by
  have := h .runId (by decide) v.json (by simp [value?, hv])
  simpa [value?, Coordinate.json_inj] using this

theorem Coordinates.Extends.claimGeneration (h : c.Extends c') {v : ℕ}
    (hv : c.claimGeneration = some v) : c'.claimGeneration = some v := by
  have := h .claimGeneration (by decide) (natJson v) (by simp [value?, hv])
  obtain ⟨w, hw, heq⟩ := Option.map_eq_some_iff.mp this
  rw [hw, natJson_injective heq]

/-- Agreement survives the extension of the coordinates. -/
theorem Projection.Agrees.mono {p : Projection} (hp : p.Agrees c) (h : c.Extends c') :
    p.Agrees c' := by
  cases p with
  | prepare planId approvalRequestId =>
    exact ⟨h.planId hp.1, fun a ha => h.approvalRequestId (hp.2 a ha)⟩
  | admission executionRequestId => exact h.executionRequestId hp
  | claim runId claimGeneration => exact ⟨h.runId hp.1, h.claimGeneration hp.2⟩
  | execute runId _ _ _ _ => exact h.runId hp
  | _ => trivial

/-- A projection agrees with the coordinates it has been merged into. -/
theorem Projection.agrees_update (c : Coordinates) (p : Projection) : p.Agrees (c.update p) := by
  cases p with
  | prepare planId approvalRequestId =>
    refine ⟨rfl, fun a ha => ?_⟩
    simp [Coordinates.update, ha]
  | _ => simp [Agrees, Coordinates.update]

end Extends

/-- A text coordinate is what is read under its name. -/
theorem Coordinates.get_runId (c : Coordinates) : c.get .runId = textJson c.runId :=
  rfl

/-- Merging an accepted response overwrites no write-once coordinate. -/
theorem JournalInv.extends_update {ref : OperationRef} {j : Journal} (hj : JournalInv ref j)
    {p : Pending} (hp : j.pendingRequest = some p) {response body : Fields}
    {projection : Projection}
    (hbound : responseIsBound p.routeId response p.pathParameters body j.coordinates
      j.target.workspaceId = .ok true)
    (hproj : responseCoordinates p.routeId response = .ok projection) :
    j.coordinates.Extends (j.coordinates.update projection) := by
  have hpending := hj.valid.pending p hp
  have hphase := hpending.phase
  obtain ⟨hroute, -⟩ := responseCoordinates_ok hproj
  rw [← hroute] at hphase
  cases projection with
  | prepare planId approvalRequestId =>
    have hplanning : j.phase = .planning := by simpa [pendingPhases, Projection.route] using hphase
    intro n _ v hv
    have := hj.valid.planning hplanning n
    rw [Coordinates.has, hv] at this
    cases this
  | admission executionRequestId =>
    have hnone := hj.unadmitted (by
      simp only [pendingPhases, Projection.route, List.mem_cons, List.not_mem_nil, or_false] at hphase
      rcases hphase with h | h <;> simp [h])
    intro n hn v hv
    cases n <;> first | exact hv | simp [Coordinates.value?, hnone] at hv
  | claim runId claimGeneration =>
    have hnone := hj.unclaimed (by
      have : j.phase = .admitted := by simpa [pendingPhases, Projection.route] using hphase
      simp [this])
    intro n hn v hv
    cases n <;> first | exact hv | simp [Coordinates.value?, hnone.1, hnone.2] at hv
  | execute runId runStatus coordinatorStatus effects activityId =>
    have hexec : p.routeId = .execute := hroute.symm
    rw [hexec] at hproj hbound
    obtain ⟨hrun, -⟩ := bound_execute hbound
    obtain ⟨hrunId, -, -⟩ := responseCoordinates_execute hproj
    have hmatch := (hpending.other (by rw [hexec]; exact CommandRoute.noConfusion)).2
    rw [hexec] at hmatch
    simp only [pendingMatches, Bool.and_eq_true, ← hrun, hrunId, Coordinate.json_pyEq,
      Coordinates.get_runId] at hmatch
    have hsame : j.coordinates.runId = some runId := textJson_injective hmatch.1.1
    intro n hn v hv
    cases n <;> first
      | exact hv
      | exact absurd hn (by decide)
      | simpa [Coordinates.value?, Coordinates.update, hsame] using hv
  | _ =>
    intro n hn v hv
    cases n <;> first | exact hv | exact absurd hn (by decide)

/-- The phase of a valid journal with a pending request is the phase its history has reached. -/
theorem JournalInv.traced_of_pending {ref : OperationRef} {j : Journal} (hj : JournalInv ref j)
    {p : Pending} (hp : j.pendingRequest = some p) : tracePhase j.requestHistory = some j.phase := by
  obtain ⟨phase, htrace, hsettles⟩ := hj.trace
  rwa [hsettles.eq_of_pending (hj.valid.pending p hp).phase] at htrace

/-- Only preparation and decision lead to a phase before the admission. -/
theorem route_of_unadmitted {route : CommandRoute} {phase : Phase} (h : phase ∈ route.targets)
    (hphase : phase ∈ [Phase.planning, .prepared, .noChanges, .approved]) :
    route = .prepare ∨ route = .decide := by
  cases route <;> simp_all [CommandRoute.targets]
  rcases h with rfl | rfl | rfl <;> simp at hphase

/-- Only preparation, decision and admission lead to a phase before the claim. -/
theorem route_of_unclaimed {route : CommandRoute} {phase : Phase} (h : phase ∈ route.targets)
    (hphase : phase ∈ [Phase.planning, .prepared, .noChanges, .approved, .admitted]) :
    route = .prepare ∨ route = .decide ∨ route = .admission := by
  cases route <;> simp_all [CommandRoute.targets]
  rcases h with rfl | rfl | rfl <;> simp at hphase

/-- Only an admission writes the execution request. -/
theorem Coordinates.executionRequestId_update {c : Coordinates} {p : Projection}
    (h : p.route ≠ .admission) : (c.update p).executionRequestId = c.executionRequestId := by
  cases p <;> first | rfl | exact absurd rfl h

/-- Only a claim and an execute step write the run. -/
theorem Coordinates.run_update {c : Coordinates} {p : Projection} (h : p.route ≠ .claim)
    (h' : p.route ≠ .execute) :
    (c.update p).runId = c.runId ∧ (c.update p).claimGeneration = c.claimGeneration := by
  cases p <;> first | exact ⟨rfl, rfl⟩ | exact absurd rfl h | exact absurd rfl h'

/-- No response gives the session. -/
theorem Coordinates.sessionId_update (c : Coordinates) (p : Projection) :
    (c.update p).sessionId = c.sessionId := by
  cases p <;> rfl

/-- Recording adds the key of the request. -/
theorem recordedKeys_recorded (j : Journal) (p : Pending) (response : Fields)
    (projection : Projection) :
    (recorded j p response projection).recordedKeys = j.recordedKeys ++ [p.idempotencyKey] := by
  simp [recorded, Journal.recordedKeys]

/-- A merged advancement is the one the coordinates name. -/
theorem Coordinates.advanced_update {c : Coordinates} {p : Projection} {graphId projectionId : Coordinate}
    {revision : ℕ} (hp : p = .advance graphId projectionId revision) :
    (c.update p).advancedGraphId = some graphId ∧
      (c.update p).advancedProjectionId = some projectionId ∧
        (c.update p).advancedRevision = some revision := by
  subst hp
  exact ⟨rfl, rfl, rfl⟩

section Preservation

variable {rt : Runtime} {docs : Set (List UInt8)} {ref : OperationRef} {sent : List Call}
  {j j' : Journal}

/-- An intended request keeps the invariant. -/
theorem JournalInv.intend (hj : JournalInv ref j) {p : Pending}
    (hroom : j.requestHistory.length < maximumRequestRecords)
    (hfresh : p.idempotencyKey ∉ j.recordedKeys)
    (happroval : p.routeId = .admission → j.coordinates.approvalRequestId.isSome)
    (hplanned : p.routeId = .decide ∨ p.routeId = .admission → j.coordinates.Planned)
    (hvalid : validateJournal { j with pendingRequest := some p } ref = .ok ()) :
    JournalInv ref { j with pendingRequest := some p } where
  valid := validateJournal_eq_ok.mp hvalid
  trace := hj.trace
  fresh := by
    intro q hq
    cases hq
    exact hfresh
  nodup := hj.nodup
  room := fun _ => hroom
  agree := hj.agree
  advanced := hj.advanced
  unadmitted := hj.unadmitted
  unclaimed := hj.unclaimed
  approval := by
    rintro (h | ⟨q, hq, hadmit⟩)
    · exact hj.approval (.inl h)
    · cases hq
      exact happroval hadmit
  session := hj.session
  planned := by
    intro q hq
    cases hq
    exact hplanned

/-- A recorded response keeps the invariant. -/
theorem JournalInv.record (hj : JournalInv ref j) {p : Pending} {response body : Fields}
    {projection : Projection} (hp : j.pendingRequest = some p)
    (hbound : responseIsBound p.routeId response p.pathParameters body j.coordinates
      j.target.workspaceId = .ok true)
    (hproj : responseCoordinates p.routeId response = .ok projection)
    (hvalid : validateJournal (recorded j p response projection) ref = .ok ()) :
    JournalInv ref (recorded j p response projection) := by
  obtain ⟨hroute, hphaseAfter⟩ := responseCoordinates_ok hproj
  have hpending := (hj.valid.pending p hp).phase
  have hext := hj.extends_update hp hbound hproj
  have htargets : phaseAfter p.routeId response ∈ p.routeId.targets :=
    hphaseAfter ▸ Projection.phase_mem_targets hroute
  have hlast : ∀ h (r : Record), (recorded j p response projection).requestHistory = h ++ [r] →
      r.response = projection := by
    intro h r heq
    obtain ⟨-, hr⟩ := List.append_inj' heq rfl
    cases hr
    rfl
  refine ⟨validateJournal_eq_ok.mp hvalid, ?_, ?_, ?_, ?_, ?_, ?_, ?_, ?_, ?_, ?_, ?_⟩
  · refine ⟨_, tracePhase_concat.mpr ⟨_, hj.traced_of_pending hp, ?_⟩, .same _⟩
    exact after_eq_some.mpr ⟨hroute, bound_consistent hbound hproj, hpending, hphaseAfter.symm⟩
  · intro q hq
    cases hq
  · rw [recordedKeys_recorded, ← List.concat_eq_append]
    exact List.Nodup.concat (hj.fresh p hp) hj.nodup
  · intro h
    cases h
  · intro r hr
    rcases List.mem_append.mp hr with hr | hr
    · exact (hj.agree r hr).mono hext
    · obtain rfl := List.mem_singleton.mp hr
      exact Projection.agrees_update _ _
  · intro h r graphId projectionId revision heq hresp
    exact Coordinates.advanced_update ((hlast h r heq).symm.trans hresp)
  · intro hmem
    have hbefore : projection.route ≠ .admission ∧
        j.phase ∈ [Phase.planning, .prepared, .noChanges, .approved] := by
      rw [hroute]
      rcases route_of_unadmitted htargets hmem with h | h <;> rw [h] at hpending ⊢ <;>
        simp_all [pendingPhases]
    exact (Coordinates.executionRequestId_update hbefore.1).trans (hj.unadmitted hbefore.2)
  · intro hmem
    have hbefore : projection.route ≠ .claim ∧ projection.route ≠ .execute ∧
        j.phase ∈ [Phase.planning, .prepared, .noChanges, .approved, .admitted] := by
      rw [hroute]
      rcases route_of_unclaimed htargets hmem with h | h | h <;> rw [h] at hpending ⊢ <;>
        simp_all [pendingPhases]
      rcases hpending with h | h <;> simp [h]
    obtain ⟨hrun, hgeneration⟩ := hj.unclaimed hbefore.2.2
    have hsame : (j.coordinates.update projection).runId = j.coordinates.runId ∧
        (j.coordinates.update projection).claimGeneration = j.coordinates.claimGeneration :=
      Coordinates.run_update hbefore.1 hbefore.2.1
    exact ⟨hsame.1.trans hrun, hsame.2.trans hgeneration⟩
  · rintro (h | ⟨q, hq, -⟩)
    · have hsome : j.coordinates.approvalRequestId.isSome := by
        by_cases hadmit : projection.route = .admission
        · exact hj.approval (.inr ⟨p, hp, hroute.symm.trans hadmit⟩)
        · have hsame : (recorded j p response projection).coordinates.executionRequestId =
              j.coordinates.executionRequestId := Coordinates.executionRequestId_update hadmit
          exact hj.approval (.inl (hsame ▸ h))
      obtain ⟨approvalRequestId, happroval⟩ := Option.isSome_iff_exists.mp hsome
      exact Option.isSome_iff_exists.mpr ⟨_, hext.approvalRequestId happroval⟩
    · cases hq
  · intro hsession
    have hbefore : j.coordinates.has .sessionId = true := by
      simpa [Coordinates.has, Coordinates.value?, recorded, Coordinates.sessionId_update]
        using hsession
    exact (hj.session hbefore).mono hext
  · intro q hq
    cases hq

/-- Settling keeps the invariant. -/
theorem JournalInv.settle (hj : JournalInv ref j) {coordinates : Coordinates} {phase : Phase}
    {result : Option ClientResult} (hext : j.coordinates.Extends coordinates)
    (hother : ∀ n ∉ planCoordinates, coordinates.value? n = j.coordinates.value? n)
    (hplanned : coordinates = j.coordinates ∨ coordinates.Planned)
    (hphase : Settles j.phase phase)
    (hvalid : validateJournal
      { j with coordinates := coordinates, phase := phase, lastResult := result } ref = .ok ()) :
    JournalInv ref { j with coordinates := coordinates, phase := phase, lastResult := result } := by
  have htext : ∀ {a b : Option Coordinate}, a.map Coordinate.json = b.map Coordinate.json → a = b :=
    fun h => Option.map_injective (fun _ _ => Coordinate.json_injective) h
  have hnumber : ∀ {a b : Option ℕ}, a.map natJson = b.map natJson → a = b :=
    fun h => Option.map_injective (fun _ _ => natJson_injective) h
  have hexec : coordinates.executionRequestId = j.coordinates.executionRequestId :=
    htext (hother .executionRequestId (by decide))
  have hrun : coordinates.runId = j.coordinates.runId := htext (hother .runId (by decide))
  have hgeneration : coordinates.claimGeneration = j.coordinates.claimGeneration :=
    hnumber (hother .claimGeneration (by decide))
  have happroval : coordinates.approvalRequestId = j.coordinates.approvalRequestId :=
    htext (hother .approvalRequestId (by decide))
  -- A phase before the admission, or the claim, is settled only from such a phase.
  have hbefore : ∀ phases : List Phase, .prepared ∈ phases → .converged ∉ phases →
      .attentionRequired ∉ phases → phase ∈ phases → j.phase ∈ phases := by
    intro phases hprepared hconverged hattention hmem
    generalize j.phase = before at hphase
    cases hphase with
    | same => exact hmem
    | noChanges => exact hprepared
    | review => exact absurd hmem hattention
    | converged => exact absurd hmem hconverged
  refine ⟨validateJournal_eq_ok.mp hvalid, ?_, hj.fresh, hj.nodup, hj.room, ?_, ?_, ?_, ?_, ?_,
    ?_, fun p hp hroute => (hj.planned p hp hroute).mono hext⟩
  · obtain ⟨traced, htrace, hsettles⟩ := hj.trace
    exact ⟨traced, htrace, hsettles.trans hphase⟩
  · exact fun r hr => (hj.agree r hr).mono hext
  · intro h r graphId projectionId revision heq hresp
    obtain ⟨h₁, h₂, h₃⟩ := hj.advanced h r graphId projectionId revision heq hresp
    exact ⟨(htext (hother .advancedGraphId (by decide))).trans h₁,
      (htext (hother .advancedProjectionId (by decide))).trans h₂,
      (hnumber (hother .advancedRevision (by decide))).trans h₃⟩
  · intro hmem
    exact hexec.trans (hj.unadmitted (hbefore _ (by decide) (by decide) (by decide) hmem))
  · intro hmem
    obtain ⟨h₁, h₂⟩ := hj.unclaimed (hbefore _ (by decide) (by decide) (by decide) hmem)
    exact ⟨hrun.trans h₁, hgeneration.trans h₂⟩
  · intro h
    have := hj.approval (by rwa [hexec] at h)
    rwa [happroval]
  · rcases hplanned with rfl | hplanned
    · exact hj.session
    · exact fun _ => hplanned

/-- **Every step keeps the invariant.** -/
theorem JournalStep.inv (h : JournalStep rt docs ref sent j j') (hj : JournalInv ref j) :
    JournalInv ref j' := by
  cases h with
  | intend p hnone hroom hfresh happroval hplanned hvalid =>
    exact hj.intend hroom hfresh happroval hplanned hvalid
  | record p call response projection hp hcall hmatch hbound hproj hvalid =>
    exact hj.record hp hbound hproj hvalid
  | settle coordinates phase result hext hother hplanned hphase hvalid =>
    exact hj.settle hext hother hplanned hphase hvalid

/-- **Every step moves forward.** -/
theorem JournalStep.advances (h : JournalStep rt docs ref sent j j') (hj : JournalInv ref j) :
    Forward j j' := by
  cases h with
  | intend p => exact ⟨rfl, rfl, rfl, .refl _, .refl _, List.prefix_rfl⟩
  | record p call response projection hp hcall hmatch hbound hproj hvalid =>
    obtain ⟨hroute, hphase⟩ := responseCoordinates_ok hproj
    have htargets : phaseAfter p.routeId response ∈ p.routeId.targets :=
      hphase ▸ Projection.phase_mem_targets hroute
    exact ⟨rfl, rfl, rfl, hj.extends_update hp hbound hproj,
      leads_of_pending (hj.valid.pending p hp).phase htargets, List.prefix_append _ _⟩
  | settle coordinates phase result hext hother hplanned hphase hvalid =>
    exact ⟨rfl, rfl, rfl, hext, hphase.leads, List.prefix_rfl⟩

end Preservation

end Client

end ControlPlaneKit
