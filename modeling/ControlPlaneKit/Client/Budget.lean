import ControlPlaneKit.Client.Guarantees
import ControlPlaneKit.Client.Recording

/-!
# The budget of records

`_mutate` and `_dispatch_pending` refuse a request once the history holds
`MAXIMUM_REQUEST_RECORDS` records, and neither looks at what the operation still owes. The number
of steps of an execution is the server's choice, so a run can succeed with its last record: then
the operation stops without its advancement. Up to that record the advancement goes through.
-/

namespace ControlPlaneKit

namespace Client

open Interaction

/-! ### Room for the advancement -/

section Room

variable {rt : Runtime} {docs : Set (List UInt8)} {ref : OperationRef} {c d : Directory}
  {j : Journal} {w : World}

/-- The advancement that is owed goes through: with a valid request under a new key, a bound
response, and documents within their bound, it is persisted, dispatched and recorded. -/
def Advances (rt : Runtime) (docs : Set (List UInt8)) (ref : OperationRef) (w : World)
    (j : Journal) : Prop :=
  ∀ (profile : ClientProfile) (path : PathParameters) (body : Fields) (key : OperationRef)
    (digest : Digest) (response : Fields) (projection : Projection),
    let p := intended .advance path body key .worker digest none
    j.target = profile.target rt → canonicalDigest rt body = .ok digest →
    p.Valid j.phase j.target j.desired j.coordinates → key ∉ j.recordedKeys →
    responseIsBound .advance response path body j.coordinates profile.workspaceId = .ok true →
    responseCoordinates .advance response = .ok projection →
    Json.Fits rt.floatText maximumJournalBytes (Journal.json { j with pendingRequest := some p }) →
    Json.Fits rt.floatText maximumJournalBytes (recorded j p response projection).json →
      Returns docs ref w (mutate rt profile j .advance path body key .worker none)
        [wrote ref { j with pendingRequest := some p },
          ⟨.call (commandCall profile j .advance path body .worker), .reply response⟩,
          wrote ref (recorded j p response projection)]
        ⟨some (recorded j p response projection),
          w.dispatched ++ [commandCall profile j .advance path body .worker]⟩
        (response, recorded j p response projection)

/-- With room for one more record, the advancement goes through. -/
theorem WorldInv.advances (hw : WorldInv rt docs ref w) (hj : w.journal = some j)
    (hroom : j.requestHistory.length < maximumRequestRecords) : Advances rt docs ref w j := by
  intro profile path body key digest response projection p htarget hdigest hp hfresh hbound hproj
    hintends hrecords
  have hinv : JournalInv ref j := hw.journal j hj
  have hid : j.operationRef = ref := hinv.valid.identity
  have hvalid : Journal.Valid { j with pendingRequest := some p } ref := hinv.valid.intend hp
  have hworkspace : j.target.workspaceId = profile.workspaceId := by rw [htarget]; rfl
  have hpending : JournalInv ref { j with pendingRequest := some p } :=
    hinv.intend hroom hfresh (by simp [p, intended]) (by simp [p, intended])
      (validateJournal_eq_ok.mpr hvalid)
  have hrecorded : (recorded { j with pendingRequest := some p } p response projection).Valid ref :=
    hpending.recorded_valid rfl hroom (fun _ => rfl) (by rw [hworkspace]; exact hbound) hproj
  exact returns_mutate hj hid hroom hdigest (by simp) rfl (hvalid.encodes hintends) hbound hproj
    (hrecorded.encodes hrecords)

/-- With the budget spent, no later state of the operation has a pending request. -/
theorem Directory.Reachable.spent (hc : Directory.Reachable rt docs c)
    (hj : (c.state ref).journal = some j)
    (hfull : j.requestHistory.length = maximumRequestRecords)
    (hd : Directory.Reaches rt docs c d) :
    ∃ j', (d.state ref).journal = some j' ∧ j'.pendingRequest = none := by
  obtain ⟨j', hj', hforward⟩ := (Directory.Reaches.leads hc hd ref).1 j hj
  have hinv : WorldInv rt docs ref (d.state ref) := Reachable.inv ⟨d, hc.trans hd, rfl⟩
  have hlong : j.requestHistory.length ≤ j'.requestHistory.length := hforward.history.length_le
  refine ⟨j', hj', Option.not_isSome_iff_eq_none.mp fun hsome => ?_⟩
  have hroom := (hinv.journal j' hj').room hsome
  omega

/-- **The history of a journal** has at most as many records as the budget. With fewer, the
advancement of an executed run goes through; with as many, no command of the operation is
dispatched any more. -/
theorem Directory.Reachable.budget (hc : Directory.Reachable rt docs c)
    (hj : (c.state ref).journal = some j) :
    j.requestHistory.length ≤ maximumRequestRecords ∧
      (j.requestHistory.length < maximumRequestRecords → Advances rt docs ref (c.state ref) j) ∧
      (j.requestHistory.length = maximumRequestRecords →
        ∀ d i e d', Directory.Reaches rt docs c d → Directory.Step rt docs d i (some e) d' →
          ∀ call, ¬ Dispatches ref call e) := by
  have hinv : WorldInv rt docs ref (c.state ref) := Reachable.inv ⟨c, hc, rfl⟩
  refine ⟨(hinv.journal j hj).valid.budget, hinv.advances hj,
    fun hfull d i e d' hd hstep call he => ?_⟩
  obtain ⟨j', hj', hnone⟩ := Directory.Reachable.spent hc hj hfull hd
  obtain ⟨k, p, hk, hp, -, -⟩ := Directory.Reachable.dispatchable (hc.trans hd) hstep he
  obtain rfl : j' = k := Option.some.inj (hj'.symm.trans hk)
  rw [hnone] at hp
  cases hp

end Room

/-! ### An execution of as many steps as there is room for -/

namespace Scenario

variable {rt : Runtime} {profile : ClientProfile} {docs : Set (List UInt8)} {s : Scenario}
  {tick : ℕ → OperationRef}

/-- The response to a step after which the run goes on. -/
def progress (s : Scenario) : Fields :=
  [("run_id", s.runId.json), ("run_status", (Coordinate.literal "running" running_size).json),
    ("coordinator_status", (Coordinate.literal "progressed").json), ("effects_attempted", .int 1),
    ("activity_id", (Coordinate.literal "activity").json)]

/-- What is recorded of it. -/
def progressed (s : Scenario) : Projection :=
  .execute s.runId (.literal "running" running_size) (.literal "progressed") 1
    (some (.literal "activity"))

/-- The scenario in which an execute step has this key. -/
def keyed (s : Scenario) (key : OperationRef) : Scenario :=
  { s with key := Function.update s.key .execute key }

@[simp]
theorem keyed_execute (s : Scenario) (key : OperationRef) : (s.keyed key).key .execute = key := by
  simp [keyed]

/-- The keys of the steps differ, and the recorded texts are short. -/
structure Stepping (s : Scenario) (tick : ℕ → OperationRef) : Prop where
  keys : ∀ m < 124, ∀ n < 124, tick m = tick n → m = n
  apart : ∀ n route, tick n ≠ s.key route
  short : ∀ c ∈ [s.planId, s.approvalId, s.requestId, s.runId, s.goal.authoredGraphId,
    s.goal.realizedProjectionId], c.text.utf8ByteSize ≤ 22

theorem keyed_fair (hs : s.Fair rt docs) (ht : s.Stepping tick) (n : ℕ) :
    (s.keyed (tick n)).Fair rt docs :=
  { hs with
    keys := by
      intro a b hab
      simp only [keyed, Function.update_apply] at hab
      split at hab <;> split at hab
      · rename_i ha hb
        exact ha.trans hb.symm
      · exact absurd hab (ht.apart n b)
      · exact absurd hab.symm (ht.apart n a)
      · exact hs.keys hab }

/-- The coordinates after so many steps. -/
def steppedCoordinates (s : Scenario) : ℕ → Coordinates
  | 0 => s.coordinates (before .execute)
  | _ + 1 => (s.coordinates (before .execute)).update s.progressed

/-- The phase after so many steps. -/
def steppedPhase : ℕ → Phase
  | 0 => .started
  | _ + 1 => .executing

/-- The request of a step. -/
def stepRequest (rt : Runtime) (profile : ClientProfile) (s : Scenario) (key : OperationRef) :
    Pending :=
  (s.keyed key).request rt profile .execute

/-- The call of a step. -/
def stepCall (profile : ClientProfile) (s : Scenario) (key : OperationRef) : Call :=
  (s.keyed key).commandOf profile .execute

/-- The record of a step. -/
def stepRecord (rt : Runtime) (s : Scenario) (projection : Projection) (key : OperationRef) :
    Record :=
  ⟨.execute, key, (s.keyed key).digest rt .execute, projection⟩

/-- The journal after so many steps. -/
def stepped (rt : Runtime) (profile : ClientProfile) (s : Scenario) (tick : ℕ → OperationRef)
    (n : ℕ) : Journal where
  operationRef := s.ref
  target := profile.target rt
  desired := s.source rt
  phase := steppedPhase n
  pendingRequest := none
  coordinates := s.steppedCoordinates n
  requestHistory := (.prepare :: before .execute).map (s.record rt) ++
    (List.range n).map fun i => s.stepRecord rt s.progressed (tick i)
  lastResult := some (s.prepared profile)

/-- The world after so many steps. -/
def worldStepped (rt : Runtime) (profile : ClientProfile) (s : Scenario) (tick : ℕ → OperationRef)
    (n : ℕ) : World :=
  ⟨some (s.stepped rt profile tick n), (.prepare :: before .execute).map (s.commandOf profile) ++
    (List.range n).map fun i => s.stepCall profile (tick i)⟩

/-- A step is recorded: the next journal. -/
theorem recorded_stepped (n : ℕ) :
    recorded (s.stepped rt profile tick n) (s.stepRequest rt profile (tick n)) s.progress
      s.progressed = s.stepped rt profile tick (n + 1) := by
  have hphase : phaseAfter .execute s.progress = .executing := by
    simp [phaseAfter, progress, Coordinate.literal_json, Json.pyEq_str]
  have hcoordinates : (s.steppedCoordinates n).update s.progressed =
      s.steppedCoordinates (n + 1) := by
    cases n <;> rfl
  simp only [recorded, stepped, stepRequest, request, intended, hphase, hcoordinates, steppedPhase,
    List.range_succ, List.map_append, List.append_assoc]
  rfl

/-! ### Its journals are valid -/

theorem stepped_suits (n : ℕ) : (s.steppedCoordinates n).Suits (steppedPhase n) := by
  cases n with
  | zero => exact suits_before .execute rfl
  | succ n =>
    constructor <;>
      simp [steppedPhase, steppedCoordinates, before, coordinates, planned, Coordinates.update,
        projection, progressed, requiredByPhase, planCoordinates, needsPlanCoordinates,
        Coordinates.has, Coordinates.get, Coordinates.value?, Coordinate.literal_json]

theorem stepped_ids (n : ℕ) : (s.steppedCoordinates n).planId = some s.planId ∧
    (s.steppedCoordinates n).approvalRequestId = some s.approvalId := by
  cases n <;> exact s.coordinates_ids _

theorem stepped_length (n : ℕ) : (s.stepped rt profile tick n).requestHistory.length = n + 4 := by
  simp only [stepped, before, List.length_append, List.length_map, List.length_range,
    List.length_cons, List.length_nil]
  omega

theorem stepped_valid (hs : s.Fair rt docs) {n : ℕ} (hn : n ≤ 124) :
    (s.stepped rt profile tick n).Valid s.ref := by
  have hbase : (s.journal rt profile [] .prepared).Valid s.ref :=
    journal_valid hs (suits_before .admission rfl) (by decide)
  have hlength : (s.stepped rt profile tick n).requestHistory.length ≤ maximumRequestRecords := by
    have hmax : maximumRequestRecords = 128 := rfl
    rw [stepped_length]
    omega
  refine hbase.move (stepped_suits n) hlength fun r hr => ?_
  obtain rfl : s.prepared profile = r := Option.some.inj hr
  exact validateResult_prepared (stepped_ids n)

/-- The request of a step is valid where the step is taken. -/
theorem stepRequest_valid (n : ℕ) (key : OperationRef) :
    (s.stepRequest rt profile key).Valid (steppedPhase n) (profile.target rt) (s.source rt)
      (s.steppedCoordinates n) := by
  have h : (s.stepRequest rt profile key).Valid .started (profile.target rt) (s.source rt)
      (s.coordinates (before .execute)) := request_valid (s := s.keyed key) .execute
  have hphase : steppedPhase n ∈ pendingPhases .execute := by
    cases n <;> simp [steppedPhase, pendingPhases]
  have hmatches : ∀ path body, pendingMatches path body (s.steppedCoordinates n) .execute =
      pendingMatches path body (s.coordinates (before .execute)) .execute := by
    intro path body
    cases n <;> rfl
  refine { h with phase := hphase, other := fun hne => ?_ }
  obtain ⟨hsource, hmatch⟩ := h.other hne
  exact ⟨hsource, (hmatches _ _).trans hmatch⟩

/-! ### Its journals are within their bound -/

/-- A few members with short names and values. -/
theorem fits_fewMembers {members : List (Text × Json)} (hfew : members.length ≤ 5)
    (h : ∀ x ∈ members, x.1.codes.length ≤ 22 ∧ Json.Fits rt.floatText 266 x.2) :
    Json.Fits rt.floatText 2700 (.obj members) := by
  have hmembers := Json.fits_obj (Json.FitsMembers.of_forall (fun x hx => (h x hx).1)
    fun x hx => (h x hx).2)
  have hlength := Nat.mul_le_mul_right (12 * 22 + 266 + 4) hfew
  exact hmembers.mono ((Nat.add_le_add_right hlength 2).trans (by decide))

/-- What is recorded of the commands is short. -/
theorem fits_shortProjection (hs : s.Fair rt docs) (ht : s.Stepping tick) {p : Projection}
    (hp : p = s.progressed ∨ ∃ route, p = s.projection route) :
    Json.Fits rt.floatText 2700 p.json := by
  have htext : ∀ c : Coordinate, c.text.utf8ByteSize ≤ 22 → Json.Fits rt.floatText 266 c.json :=
    fun c hc => Json.fits_str hc
  have hshort := ht.short
  simp only [List.forall_mem_cons] at hshort
  obtain ⟨hplan, happroval, hrequest, hrun, hgraph, hprojection, -⟩ := hshort
  have hgeneration : Json.Fits rt.floatText 266 (natJson s.generation) :=
    (fits_number hs.generation).mono (by decide)
  have hrevision : Json.Fits rt.floatText 266 (natJson s.revision) :=
    (fits_number hs.revision).mono (by decide)
  have hnumber : ∀ n : ℕ, n ≤ 1 → Json.Fits rt.floatText 266 (natJson n) := by
    intro n hn
    have hbrief : Brief n := by
      obtain rfl | rfl : n = 0 ∨ n = 1 := by omega
      all_goals
        unfold Brief
        decide
    exact (fits_number hbrief).mono (by decide)
  rcases hp with rfl | ⟨route, rfl⟩
  · refine fits_fewMembers (by simp) ?_
    simp only [Option.map_some, Option.toList_some, List.forall_mem_cons]
    exact ⟨⟨by decide, htext _ hrun⟩, ⟨by decide, htext _ (by decide)⟩,
      ⟨by decide, htext _ (by decide)⟩, ⟨by decide, hnumber 1 le_rfl⟩,
      ⟨by decide, htext _ (by decide)⟩, by simp⟩
  · cases route with
    | prepare =>
      refine fits_fewMembers (by simp) ?_
      simp only [Option.map_some, Option.toList_some, List.forall_mem_cons]
      exact ⟨⟨by decide, htext _ hplan⟩, ⟨by decide, htext _ happroval⟩, by simp⟩
    | decide =>
      refine fits_fewMembers (by simp) ?_
      simp only [List.forall_mem_cons]
      exact ⟨⟨by decide, htext _ (by decide)⟩, by simp⟩
    | admission =>
      refine fits_fewMembers (by simp) ?_
      simp only [List.forall_mem_cons]
      exact ⟨⟨by decide, htext _ hrequest⟩, by simp⟩
    | claim =>
      refine fits_fewMembers (by simp) ?_
      simp only [List.forall_mem_cons]
      exact ⟨⟨by decide, htext _ hrun⟩, ⟨by decide, hgeneration⟩, by simp⟩
    | start =>
      refine fits_fewMembers (by simp) ?_
      simp only [List.forall_mem_cons]
      exact ⟨⟨by decide, htext _ (by decide)⟩, by simp⟩
    | execute =>
      refine fits_fewMembers (by simp) ?_
      simp only [Option.map_none, Option.toList_none, List.forall_mem_cons]
      exact ⟨⟨by decide, htext _ hrun⟩, ⟨by decide, htext _ (by decide)⟩,
        ⟨by decide, htext _ (by decide)⟩, ⟨by decide, hnumber 0 (by decide)⟩, by simp⟩
    | advance =>
      refine fits_fewMembers (by simp) ?_
      simp only [List.forall_mem_cons]
      exact ⟨⟨by decide, htext _ hgraph⟩, ⟨by decide, htext _ hprojection⟩,
        ⟨by decide, hrevision⟩, by simp⟩

/-- A record of a short response. -/
theorem fits_shortRecord {r : Record} (h : Json.Fits rt.floatText 2700 r.response.json) :
    Json.Fits rt.floatText 4908 r.json := by
  have hroute : r.routeId.routeId.utf8ByteSize ≤ 40 := by cases r.routeId <;> decide
  have hresponse := Json.FitsMembers.cons
    (show (Text.utf8 "response").codes.length ≤ 8 by decide) h .nil
  have hdigest := Json.FitsMembers.cons
    (show (Text.utf8 "body_sha256").codes.length ≤ 11 by decide) (fits_digest r.bodySha256) hresponse
  have hkey := Json.FitsMembers.cons
    (show (Text.utf8 "idempotency_key").codes.length ≤ 15 by decide)
    (fits_reference r.idempotencyKey) hdigest
  have hall := Json.FitsMembers.cons
    (show (Text.utf8 "route_id").codes.length ≤ 8 by decide) (Json.fits_str hroute) hkey
  exact (Json.fits_obj hall).mono (by decide)

/-- A history of short responses, as long as the budget allows. -/
theorem fits_shortHistory {h : List Record} (hlength : h.length ≤ maximumRequestRecords)
    (hshort : ∀ r ∈ h, Json.Fits rt.floatText 2700 r.response.json) :
    Json.Fits rt.floatText 640000 (.arr (h.map Record.json)) := by
  have hrecords : ∀ x ∈ h.map Record.json, Json.Fits rt.floatText 4908 x := by
    intro x hx
    obtain ⟨r, hr, rfl⟩ := List.mem_map.mp hx
    exact fits_shortRecord (hshort r hr)
  have harr := Json.fits_arr hrecords
  rw [List.length_map] at harr
  have hfew := Nat.mul_le_mul_right (4908 + 1) hlength
  exact harr.mono ((Nat.add_le_add_right hfew 2).trans (by decide))

theorem stepped_short (hs : s.Fair rt docs) (ht : s.Stepping tick) (n : ℕ) :
    ∀ r ∈ (s.stepped rt profile tick n).requestHistory,
      Json.Fits rt.floatText 2700 r.response.json := by
  intro r hr
  rcases List.mem_append.mp hr with hr | hr
  · obtain ⟨route, -, rfl⟩ := List.mem_map.mp hr
    exact fits_shortProjection hs ht (.inr ⟨route, rfl⟩)
  · obtain ⟨i, -, rfl⟩ := List.mem_map.mp hr
    exact fits_shortProjection hs ht (.inl rfl)

theorem steppedCoordinates_brief (hs : s.Fair rt docs) (n : ℕ) : (s.steppedCoordinates n).Brief := by
  cases n with
  | zero => exact coordinates_brief hs _
  | succ n =>
    have hone : Brief 1 := by unfold Brief; decide
    exact (coordinates_brief hs _).update (show s.progressed.Brief from hone)

theorem stepped_fits (hs : s.Fair rt docs) (ht : s.Stepping tick) {n : ℕ} (hn : n ≤ 124)
    {pending : Option Pending} (hpending : ∀ p, pending = some p → p.Brief rt.floatText) :
    Json.Fits rt.floatText maximumJournalBytes
      (Journal.json { s.stepped rt profile tick n with pendingRequest := pending }) := by
  have hvalid : (s.stepped rt profile tick n).Valid s.ref := stepped_valid hs hn
  have hhistory : Json.Fits rt.floatText 640000
      (.arr ((s.stepped rt profile tick n).requestHistory.map Record.json)) :=
    fits_shortHistory hvalid.budget (stepped_short hs ht n)
  have hfits : Json.Fits rt.floatText (maximumJournalBytes - 8192)
      (Journal.json { s.stepped rt profile tick n with pendingRequest := pending }) := by
    refine fits_journal (source_brief hs) (steppedCoordinates_brief hs n) hpending hhistory ?_
    rintro result ⟨⟩
    rfl
  exact hfits.mono (Nat.sub_le _ _)

theorem stepped_encodes (hs : s.Fair rt docs) (ht : s.Stepping tick) {n : ℕ} (hn : n ≤ 124) :
    (s.stepped rt profile tick n).Encodes rt.floatText s.ref :=
  (stepped_valid hs hn).encodes (stepped_fits hs ht hn fun p hp => by cases hp)

/-- The request of a step is persisted. -/
theorem intended_encodes (hs : s.Fair rt docs) (ht : s.Stepping tick) {n : ℕ} (hn : n < 124) :
    Journal.Encodes rt.floatText s.ref { s.stepped rt profile tick n with
      pendingRequest := some (s.stepRequest rt profile (tick n)) } := by
  have hvalid : (s.stepped rt profile tick n).Valid s.ref := stepped_valid hs hn.le
  refine (hvalid.intend (stepRequest_valid n _)).encodes (stepped_fits hs ht hn.le ?_)
  rintro p ⟨⟩
  exact (body_fits (keyed_fair hs ht n) .execute).2

/-! ### The last record -/

/-- The journal after the step that completes the run, with the last record there is room for. -/
def spent (rt : Runtime) (profile : ClientProfile) (s : Scenario) (tick : ℕ → OperationRef) :
    Journal :=
  { s.stepped rt profile tick 123 with
    phase := .executed
    coordinates := (s.steppedCoordinates 123).update (s.projection .execute)
    requestHistory := (s.stepped rt profile tick 123).requestHistory ++
      [s.stepRecord rt (s.projection .execute) (tick 123)] }

/-- The world after it. -/
def worldSpent (rt : Runtime) (profile : ClientProfile) (s : Scenario) (tick : ℕ → OperationRef) :
    World :=
  ⟨some (s.spent rt profile tick),
    (s.worldStepped rt profile tick 123).dispatched ++ [s.stepCall profile (tick 123)]⟩

theorem recorded_spent :
    recorded (s.stepped rt profile tick 123) (s.stepRequest rt profile (tick 123))
      (s.response profile .execute) (s.projection .execute) = s.spent rt profile tick := by
  have hphase : phaseAfter .execute (s.response profile .execute) = .executed := by
    simp [phaseAfter, response, Coordinate.literal_json, Json.pyEq_str]
  simp only [recorded, spent, stepRequest, request, intended, hphase]
  rfl

theorem spent_length : (s.spent rt profile tick).requestHistory.length = maximumRequestRecords := by
  simp only [spent, List.length_append, stepped_length, List.length_singleton]
  rfl

theorem spent_encodes (hs : s.Fair rt docs) (ht : s.Stepping tick) :
    (s.spent rt profile tick).Encodes rt.floatText s.ref := by
  have hsuits : ((s.steppedCoordinates 123).update (s.projection .execute)).Suits .executed := by
    constructor <;>
      simp [steppedCoordinates, before, coordinates, planned, Coordinates.update, projection,
        progressed, requiredByPhase, planCoordinates, needsPlanCoordinates, Coordinates.has,
        Coordinates.get, Coordinates.value?, Coordinate.literal_json]
  have hstepped : (s.stepped rt profile tick 123).Valid s.ref := stepped_valid hs (by decide)
  have hvalid : (s.spent rt profile tick).Valid s.ref := by
    refine hstepped.move hsuits spent_length.le fun r hr => ?_
    obtain rfl : s.prepared profile = r := Option.some.inj hr
    exact validateResult_prepared (stepped_ids 123)
  have hcoordinates : (s.spent rt profile tick).coordinates.Brief :=
    (steppedCoordinates_brief hs 123).update (projection_brief hs .execute)
  have hshort : ∀ r ∈ (s.spent rt profile tick).requestHistory,
      Json.Fits rt.floatText 2700 r.response.json := by
    intro r hr
    rcases List.mem_append.mp hr with hr | hr
    · exact stepped_short hs ht 123 r hr
    · rw [List.mem_singleton.mp hr]
      exact fits_shortProjection hs ht (.inr ⟨.execute, rfl⟩)
  refine hvalid.encodes ((fits_journal (source_brief hs) hcoordinates (fun p hp => by cases hp)
    (fits_shortHistory spent_length.le hshort) ?_).mono (Nat.sub_le _ _))
  rintro result ⟨⟩
  rfl

/-! ### The steps -/

/-- The key of a step is new. -/
theorem tick_fresh (ht : s.Stepping tick) {n : ℕ} (hn : n < 124) :
    (s.worldStepped rt profile tick n).Fresh (.utf8 (tick n).text) := by
  have htext : ∀ a b : OperationRef, Text.utf8 a.text = .utf8 b.text → a = b := by
    intro a b h
    exact OperationRef.json_injective (congrArg Json.str h)
  have hearlier : ∀ i ∈ List.range n, tick n ≠ tick i := by
    intro i hi hsame
    have hlt : i < n := List.mem_range.mp hi
    have := ht.keys n hn i (hlt.trans hn) hsame
    omega
  refine ⟨?_, ?_⟩
  · rintro j ⟨⟩
    refine ⟨fun key hkey hsame => ?_, ?_⟩
    · simp only [Journal.recordedKeys, stepped, List.map_append, List.map_map,
        List.mem_append] at hkey
      rcases hkey with hkey | hkey
      · obtain ⟨route, -, rfl⟩ := List.mem_map.mp hkey
        exact ht.apart n route (htext _ _ hsame)
      · obtain ⟨i, hi, rfl⟩ := List.mem_map.mp hkey
        exact hearlier i hi (htext _ _ hsame)
    · rintro key ⟨⟩
  · intro call hcall hkey
    rcases List.mem_append.mp hcall with hcall | hcall
    · obtain ⟨route, -, rfl⟩ := List.mem_map.mp hcall
      rw [commandOf_key] at hkey
      exact ht.apart n route (OperationRef.json_injective hkey.symm)
    · obtain ⟨i, hi, rfl⟩ := List.mem_map.mp hcall
      rw [stepCall, commandOf_key, keyed_execute] at hkey
      exact hearlier i hi (OperationRef.json_injective hkey.symm)

/-- The events of a step, from the drawing of its key to this journal. -/
def tickEvents (rt : Runtime) (profile : ClientProfile) (s : Scenario) (tick : ℕ → OperationRef)
    (n : ℕ) (response : Fields) (j : Journal) : Trace :=
  ⟨.identity, .utf8 (tick n).text⟩ ::
    [wrote s.ref { s.stepped rt profile tick n with
        pendingRequest := some (s.stepRequest rt profile (tick n)) },
      ⟨.call (s.stepCall profile (tick n)), .reply response⟩, wrote s.ref j]

/-- **A step is intended, dispatched and recorded**, and the execution goes on with its answer. -/
theorem returns_tick (hs : s.Fair rt docs) (ht : s.Stepping tick) {n steps : ℕ} (hn : n < 124)
    {response : Fields} {projection : Projection} {j j' : Journal} {status : Coordinate} {tr : Trace}
    {w' : World}
    (hrecorded : recorded (s.stepped rt profile tick n) (s.stepRequest rt profile (tick n)) response
      projection = j)
    (hencodes : j.Encodes rt.floatText s.ref)
    (hbound : responseIsBound .execute response (s.path profile .execute)
      ((s.keyed (tick n)).body .execute) (s.steppedCoordinates n) profile.workspaceId = .ok true)
    (hproj : responseCoordinates .execute response = .ok projection)
    (hstatus : text response "coordinator_status" = .ok status)
    (hrest : Returns docs s.ref ⟨some j, (s.worldStepped rt profile tick n).dispatched ++
        [s.stepCall profile (tick n)]⟩
      (if status.text = "completed" then
        if (response.get "run_status").pyEq (.str "succeeded") then Pure.pure j
        else stop rt profile j .notStarted .notAttempted .planRuns
      else if status.text = "progressed" then
        executeSteps rt profile s.runId s.generation steps j
      else stop rt profile j (stoppedExecution status) .notAttempted .runEvents) tr w' j') :
    Returns docs s.ref (s.worldStepped rt profile tick n)
      (executeSteps rt profile s.runId s.generation (steps + 1) (s.stepped rt profile tick n))
      (s.tickEvents rt profile tick n response j ++ tr) w' j' := by
  have hlength : (s.stepped rt profile tick n).requestHistory.length < maximumRequestRecords := by
    have hmax : maximumRequestRecords = 128 := rfl
    rw [stepped_length]
    omega
  have hkey : (s.keyed (tick n)).key .execute = tick n := keyed_execute s (tick n)
  have hbody : (s.keyed (tick n)).body .execute = [(.utf8 "claim_generation", natJson s.generation),
      (.utf8 "max_effects", .int 1), (.utf8 "idempotency_key", (tick n).json)] := by
    simp only [body, hkey]
    rfl
  have hdigest : canonicalDigest rt ((s.keyed (tick n)).body .execute) =
      .ok ((s.keyed (tick n)).digest rt .execute) :=
    canonicalDigest_body profile (keyed_fair hs ht n) .execute
  -- The request of the tick is the one the loop intends.
  have hrequest : s.stepRequest rt profile (tick n) = intended .execute (s.path profile .execute)
      ((s.keyed (tick n)).body .execute) (tick n) .worker ((s.keyed (tick n)).digest rt .execute)
      none := by
    rw [stepRequest, request, hkey]
    rfl
  have hmutate : Returns docs s.ref (s.worldStepped rt profile tick n) _ _ _ _ :=
    returns_mutate rfl rfl hlength hdigest (by simp) hrequest (intended_encodes hs ht hn) hbound hproj
      (by rwa [hrecorded])
  rw [hrecorded, hbody] at hmutate
  unfold executeSteps
  refine Returns.bind (t := [_]) (returns_newKey (tick_fresh ht hn)) ?_
  refine Returns.bind (t := [_, _, _]) hmutate ?_
  exact Returns.lift_bind hstatus hrest

/-- The events are about one operation alone, and take no lock. -/
def Quiet (docs : Set (List UInt8)) (ref : OperationRef) (tr : Trace) : Prop :=
  (∀ e ∈ tr, OfOnly docs ref e) ∧ granted grants tr = 0

theorem Quiet.nil {ref : OperationRef} : Quiet docs ref [] :=
  ⟨by simp, rfl⟩

theorem Quiet.append {ref : OperationRef} {tr tr' : Trace} (h : Quiet docs ref tr)
    (h' : Quiet docs ref tr') : Quiet docs ref (tr ++ tr') := by
  refine ⟨fun e he => ?_, ?_⟩
  · rcases List.mem_append.mp he with he | he
    · exact h.1 e he
    · exact h'.1 e he
  · have hcount : granted grants (tr ++ tr') = granted grants tr + granted grants tr' :=
      List.countP_append
    rw [hcount, h.2, h'.2]

theorem tickEvents_quiet (n : ℕ) (response : Fields) (j : Journal) :
    Quiet docs s.ref (s.tickEvents rt profile tick n response j) := by
  refine ⟨fun e he => ?_, rfl⟩
  simp only [tickEvents, List.mem_cons, List.not_mem_nil, or_false] at he
  rcases he with rfl | rfl | rfl | rfl
  · exact .identity _
  · exact .write _ _
  · exact .call _ _ rfl
  · exact .write _ _

theorem stepEvents_quiet (route : CommandRoute) :
    Quiet docs s.ref (s.stepEvents rt profile route) :=
  ⟨stepEvents_ofOnly route, rfl⟩

/-- The response of a step that goes on is bound to it. -/
theorem progress_isBound (key : OperationRef) (c : Coordinates) :
    responseIsBound .execute s.progress (s.path profile .execute) ((s.keyed key).body .execute) c
      profile.workspaceId = .ok true := by
  have hmost : Json.atLeast 1 (.int 1) = some true := by
    simp only [Json.atLeast, Json.number?]
    decide
  have hmoving : (Json.str (.utf8 "progressed")).memberOf ["progressed", "in-flight"] =
    some true := rfl
  have hactivity : isTextCoordinate (.str (.utf8 "activity")) = true :=
    isTextCoordinate_json (.literal "activity")
  simp [responseIsBound, progress, path, body, executeIsBound, Coordinate.literal_json,
    Json.pyEq_str, pure, Except.pure, hmost, hmoving, hactivity]

theorem responseCoordinates_progress :
    responseCoordinates .execute s.progress = .ok s.progressed := by
  have hrunning : textCoordinate (.str (.utf8 "running")) = .ok (.literal "running") :=
    textCoordinate_json (.literal "running")
  have hstatus : textCoordinate (.str (.utf8 "progressed")) = .ok (.literal "progressed") :=
    textCoordinate_json (.literal "progressed")
  have hactivity : textCoordinate (.str (.utf8 "activity")) = .ok (.literal "activity") :=
    textCoordinate_json (.literal "activity")
  simp [responseCoordinates, progress, progressed, text, integer, bind, Except.bind, pure,
    Except.pure, Coordinate.literal_json, hrunning, hstatus, hactivity]

/-- **Step after step**, up to the last record there is room for. -/
theorem returns_steps (hs : s.Fair rt docs) (ht : s.Stepping tick) (k : ℕ) :
    ∀ n, n + k = 123 → ∃ tr, Quiet docs s.ref tr ∧
      Returns docs s.ref (s.worldStepped rt profile tick n)
        (executeSteps rt profile s.runId s.generation (k + 5) (s.stepped rt profile tick n)) tr
        (s.worldSpent rt profile tick) (s.spent rt profile tick) := by
  -- the induction is on the ticks that are left before the history is full
  induction k with
  | zero =>
    intro n hn
    obtain rfl : n = 123 := by omega
    have hbound : responseIsBound .execute (s.response profile .execute) (s.path profile .execute)
        ((s.keyed (tick 123)).body .execute) (s.steppedCoordinates 123) profile.workspaceId =
          .ok true :=
      (s.keyed (tick 123)).responseIsBound_response profile .execute hs.claimed
        (fun h => by cases h)
    have hcoordinator : text (s.response profile .execute) "coordinator_status" =
        .ok (.literal "completed") := by simp [text, response]
    have hstatus : ((s.response profile .execute).get "run_status").pyEq (.str "succeeded") =
        true := by simp [response, Coordinate.literal_json, Json.pyEq_str]
    refine ⟨_, (tickEvents_quiet 123 _ _).append .nil, returns_tick hs ht (by decide)
      recorded_spent (spent_encodes hs ht) hbound
      (s.responseCoordinates_response profile .execute hs.claimed) hcoordinator ?_⟩
    rw [if_pos (by rfl)]
    simp only [hstatus, if_true]
    exact .pure _
  | succ k ih =>
    intro n hn
    obtain ⟨tr, hquiet, hrest⟩ := ih (n + 1) (by omega)
    have hlt : n < 124 := by omega
    have hcoordinator : text s.progress "coordinator_status" = .ok (.literal "progressed") := by
      simp [text, progress]
    refine ⟨_, (tickEvents_quiet n _ _).append hquiet, returns_tick hs ht hlt (recorded_stepped n)
      (stepped_encodes hs ht (by omega)) (progress_isBound _ _) responseCoordinates_progress
      hcoordinator ?_⟩
    have hworld : (⟨some (s.stepped rt profile tick (n + 1)),
        (s.worldStepped rt profile tick n).dispatched ++ [s.stepCall profile (tick n)]⟩ : World) =
          s.worldStepped rt profile tick (n + 1) := by
      simp only [worldStepped, List.range_succ, List.map_append, List.append_assoc]
      rfl
    rw [hworld, if_neg (by decide), if_pos (by rfl)]
    exact hrest

/-- **A run that spends the whole budget is reachable.** -/
theorem reachable_spent (hs : s.Fair rt docs) (ht : s.Stepping tick) :
    Directory.Reachable rt docs (.only s.ref (s.worldSpent rt profile tick)) := by
  obtain ⟨tr, hquiet, hsteps⟩ :=
    (returns_steps hs ht 123 0 rfl : ∃ tr, Quiet docs s.ref tr ∧
      Returns docs s.ref (s.worldStepped rt profile tick 0)
        (executeSteps rt profile s.runId s.generation (123 + 5) (s.stepped rt profile tick 0)) tr
        (s.worldSpent rt profile tick) (s.spent rt profile tick))
  have hfirst : s.stepped rt profile tick 0 =
      s.journal rt profile [.admission, .claim, .start] .started := by
    simp [stepped, journal, steppedCoordinates, steppedPhase, before]
  have hworld : s.worldStepped rt profile tick 0 = s.worldBefore rt profile .execute := by
    simp only [worldStepped, hfirst, worldBefore, world, List.range_zero, List.map_nil,
      List.append_nil]
    rfl
  rw [hfirst, hworld] at hsteps
  have hexecute : Returns docs s.ref (s.worldBefore rt profile .execute)
      (executeRun rt profile (s.journal rt profile [.admission, .claim, .start] .started) s.runId
        s.generation) tr (s.worldSpent rt profile tick) (s.spent rt profile tick) := by
    unfold executeRun
    rw [if_neg (by simp [journal])]
    exact hsteps
  have hexec := exec_gates hs (exec_started hs (Exec.then_conclude hexecute (.stopped _ _)))
  have hevents : Quiet docs s.ref (s.stepEvents rt profile .admission ++
      (s.stepEvents rt profile .claim ++ (s.stepEvents rt profile .start ++ (tr ++ [])))) :=
    (stepEvents_quiet _).append ((stepEvents_quiet _).append ((stepEvents_quiet _).append
      (hquiet.append .nil)))
  refine (reachable_prepared hs).trans (Directory.Reaches.run
    (.apply profile (.utf8 s.ref.text) s.arguments) hexec (fun e he => ?_) ?_)
  · rcases List.mem_append.mp he with he | he
    · exact gateEvents_ofOnly e he
    · exact hevents.1 e he
  · have hcount : ∀ t u : Trace, granted grants (t ++ u) = granted grants t + granted grants u :=
      fun t u => List.countP_append
    rw [hcount, hevents.2]
    simp [granted, gateEvents, grants, answered]

end Scenario

/-! ### An instance -/

namespace Instance

/-- What the keys of the execute steps begin with. -/
def tickHead : List Char :=
  "00000000-0000-4000-8000-0000000001".toList

/-- The keys of the execute steps. -/
def tickText (n : ℕ) : String :=
  String.ofList (tickHead ++ [Nat.digitChar (n / 16 % 16), Nat.digitChar (n % 16)])

theorem isHexCharacter_digitChar {n : ℕ} (h : n < 16) : isHexCharacter (Nat.digitChar n) = true := by
  revert n
  decide

theorem tickText_valid (n : ℕ) : isUuid4 (tickText n) = true := by
  have hhigh : isHexCharacter (Nat.digitChar (n / 16 % 16)) = true :=
    isHexCharacter_digitChar (Nat.mod_lt _ (by decide))
  have hlow : isHexCharacter (Nat.digitChar (n % 16)) = true :=
    isHexCharacter_digitChar (Nat.mod_lt _ (by decide))
  have hlength : tickHead.length = 34 := rfl
  rw [isUuid4, tickText, String.toList_ofList, List.zipIdx_append, List.all_append, hlength,
    Bool.and_eq_true, Bool.and_eq_true]
  refine ⟨rfl, by decide, ?_⟩
  simp [hhigh, hlow]

def tick (n : ℕ) : OperationRef :=
  ⟨tickText n, tickText_valid n⟩

theorem stepping : scenario.Stepping tick where
  keys := by
    have hdigit : ∀ a < 16, ∀ b < 16, Nat.digitChar a = Nat.digitChar b → a = b := by decide
    intro m hm n hn hsame
    have htext : tickText m = tickText n := congrArg OperationRef.text hsame
    have hlist : (tickText m).toList = (tickText n).toList := congrArg String.toList htext
    simp only [tickText, String.toList_ofList, List.append_cancel_left_eq, List.cons.injEq,
      and_true] at hlist
    obtain ⟨hfirst, hsecond⟩ := hlist
    have hhigh := hdigit _ (Nat.mod_lt _ (by decide)) _ (Nat.mod_lt _ (by decide)) hfirst
    have hlow := hdigit _ (Nat.mod_lt _ (by decide)) _ (Nat.mod_lt _ (by decide)) hsecond
    omega
  apart := by
    intro n route hsame
    have htext : (tickText n).toList[33]? = (scenario.key route).text.toList[33]? :=
      congrArg (fun r => r.text.toList[33]?) hsame
    have hone : (tickText n).toList[33]? = some '1' := by
      rw [tickText, String.toList_ofList]
      rfl
    rw [hone] at htext
    cases route <;> exact absurd htext (by decide)
  short := by decide

/-- **The budget is not reserved**: the run below has succeeded with its last record, so not every
executed run has room for its advancement. -/
theorem executed_without_room : ¬ ∀ (rt : Runtime) (docs : Set (List UInt8)) (ref : OperationRef)
    (c : Directory) (j : Journal), Directory.Reachable rt docs c → (c.state ref).journal = some j →
      j.phase = .executed → j.requestHistory.length < maximumRequestRecords := by
  intro hroom
  have hreachable : Directory.Reachable runtime docs
      (.only scenario.ref (scenario.worldSpent runtime profile tick)) :=
    Scenario.reachable_spent fair stepping
  have hlt := hroom runtime docs scenario.ref _ (scenario.spent runtime profile tick) hreachable
    (congrArg World.journal Directory.only_state) rfl
  rw [Scenario.spent_length] at hlt
  omega

end Instance

open Instance in
theorem Directory.Reachable.budget_spent :
    (scenario.spent runtime profile tick).requestHistory.length ≤ maximumRequestRecords ∧
      ∀ d i e d', Directory.Reaches runtime Instance.docs
          (.only scenario.ref (scenario.worldSpent runtime profile tick)) d →
        Directory.Step runtime Instance.docs d i (some e) d' →
          ∀ call, ¬ Dispatches scenario.ref call e := by
  obtain ⟨hfew, -, hfull⟩ := Directory.Reachable.budget (Scenario.reachable_spent fair stepping)
    (congrArg World.journal Directory.only_state)
  exact ⟨hfew, hfull Scenario.spent_length⟩

end Client

end ControlPlaneKit
