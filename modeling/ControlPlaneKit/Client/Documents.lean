import ControlPlaneKit.Client.Validity

/-!
# Journal documents within their bound

`_encode_journal` refuses a document over `MAXIMUM_JOURNAL_BYTES`, and `_canonical_digest` a body
over `MAXIMUM_DESIRED_BYTES`. Texts are bounded already by their types, so both limits are met by
every journal of an ordinary operation: few records, a short path, numbers of ordinary size
(`Journal.Modest`). For those the encoder succeeds exactly where the validator does.
-/

namespace ControlPlaneKit

namespace Client

open Json

variable {floatText : ℚ → List Char}

/-! ### Members -/

/-- A number with few digits. -/
def Brief (n : ℕ) : Prop :=
  (toString (n : ℤ)).toList.length ≤ 64

theorem fits_coordinate (c : Coordinate) : Fits floatText 6146 c.json :=
  fits_str c.bounded

theorem fits_digest (d : Digest) : Fits floatText 770 d.json := by
  have hlength : d.hex.toList.length = 64 := by
    have := d.valid
    simp only [isSha256, Bool.and_eq_true, beq_iff_eq] at this
    exact this.1
  have : Fits floatText _ d.json := fits_text (.utf8 d.hex)
  rwa [Text.codes, List.length_map, hlength] at this

theorem fits_reference (r : OperationRef) : Fits floatText 434 r.json := by
  have hlength : r.text.toList.length = 36 := by
    have := r.valid
    simp only [isUuid4, Bool.and_eq_true, beq_iff_eq] at this
    exact this.1
  have : Fits floatText _ r.json := fits_text (.utf8 r.text)
  rwa [Text.codes, List.length_map, hlength] at this

theorem fits_number {n : ℕ} (h : Brief n) : Fits floatText 64 (natJson n) :=
  fits_int h

/-- A member that is left out when absent. -/
theorem fits_optional {name : String} {v : Option Json} {n : ℕ} (h : ∀ x, v = some x → Fits floatText n x)
    (hname : name.utf8ByteSize ≤ 64) : ∃ k ≤ n + 772, FitsMembers floatText k (optionalMember name v) := by
  cases v with
  | none => exact ⟨0, by omega, .nil⟩
  | some v =>
    have := FitsMembers.nil.member name (h v rfl) hname
    exact ⟨_, le_rfl, this⟩

/-! ### Coordinates and requests -/

/-- Coordinates whose numbers are brief. -/
structure Coordinates.Brief (c : Coordinates) : Prop where
  revision : ∀ n, c.desiredGraphRevision = some n → Client.Brief n
  generation : ∀ n, c.claimGeneration = some n → Client.Brief n
  effects : ∀ n, c.effectsAttempted = some n → Client.Brief n
  advanced : ∀ n, c.advancedRevision = some n → Client.Brief n

theorem Coordinates.Brief.value {c : Coordinates} (h : c.Brief) {n : CoordinateName} {v : Json}
    (hv : c.value? n = some v) : Fits floatText 6146 v := by
  have htext : ∀ {a : Option Coordinate}, a.map Coordinate.json = some v → Fits floatText 6146 v := by
    intro a ha
    obtain ⟨x, -, rfl⟩ := Option.map_eq_some_iff.mp ha
    exact fits_coordinate x
  have hnumber : ∀ {a : Option ℕ}, (∀ n, a = some n → Client.Brief n) → a.map natJson = some v →
      Fits floatText 6146 v := by
    intro a hbrief ha
    obtain ⟨x, hx, rfl⟩ := Option.map_eq_some_iff.mp ha
    exact (fits_number (hbrief x hx)).mono (by omega)
  cases n with
  | desiredGraphRevision => exact hnumber h.revision hv
  | claimGeneration => exact hnumber h.generation hv
  | effectsAttempted => exact hnumber h.effects hv
  | advancedRevision => exact hnumber h.advanced hv
  | _ => exact htext hv

theorem Coordinates.Brief.json {c : Coordinates} (h : c.Brief) :
    Fits floatText 131500 c.json := by
  have hmembers : ∀ x ∈ names.filterMap fun n => (c.value? n).map fun v => (Text.utf8 n.key, v),
      x.1.codes.length ≤ 64 ∧ Fits floatText 6146 x.2 := by
    intro x hx
    obtain ⟨n, hn, hx⟩ := List.mem_filterMap.mp hx
    obtain ⟨v, hv, rfl⟩ := Option.map_eq_some_iff.mp hx
    have hkey : ∀ n ∈ names, n.key.utf8ByteSize ≤ 64 := by decide
    exact ⟨(length_codes_le n.key).trans (hkey n hn), h.value hv⟩
  have hlength : (names.filterMap fun n => (c.value? n).map fun v => (Text.utf8 n.key, v)).length ≤
      19 := List.length_filterMap_le _ _
  have hfits := fits_obj (FitsMembers.of_forall (m := 64) (n := 6146)
    (fun x hx => (hmembers x hx).1) fun x hx => (hmembers x hx).2)
  have := Nat.mul_le_mul_right (12 * 64 + 6146 + 4) hlength
  exact hfits.mono ((Nat.add_le_add_right this 2).trans (by decide))

/-- Path parameters with few short names. -/
def PathParameters.Brief (path : PathParameters) : Prop :=
  path.length ≤ 2 ∧ ∀ m ∈ path, m.1.utf8ByteSize ≤ 64

theorem PathParameters.Brief.json {path : PathParameters} (h : path.Brief) :
    Fits floatText 13840 (.obj (path.map fun m => ((m.1 : Text), m.2.json))) := by
  have hmembers : ∀ x ∈ path.map fun m => ((m.1 : Text), m.2.json),
      x.1.codes.length ≤ 64 ∧ Fits floatText 6146 x.2 := by
    intro x hx
    obtain ⟨m, hm, rfl⟩ := List.mem_map.mp hx
    exact ⟨(length_codes_le m.1).trans (h.2 m hm), fits_coordinate m.2⟩
  have hfits := fits_obj (FitsMembers.of_forall (m := 64) (n := 6146)
    (fun x hx => (hmembers x hx).1) fun x hx => (hmembers x hx).2)
  rw [List.length_map] at hfits
  have := Nat.mul_le_mul_right (12 * 64 + 6146 + 4) h.1
  exact hfits.mono ((Nat.add_le_add_right this 2).trans (by decide))

/-- A reference to a desired graph with a short path. -/
structure DesiredSource.Brief (d : DesiredSource) : Prop where
  path : d.path.codes.length ≤ 1024
  size : Client.Brief d.size

theorem DesiredSource.Brief.json {d : DesiredSource} (h : d.Brief) :
    Fits floatText 16000 d.json := by
  have hpath : Fits floatText 12290 (.str d.path) := (fits_text d.path).mono
    (show 12 * d.path.codes.length + 2 ≤ 12290 by have := h.path; omega)
  have hmembers := ((FitsMembers.nil.member "sha256" (fits_digest d.sha256)).member
    "size" (fits_number h.size)).member "path" hpath
  exact (fits_obj hmembers).mono (by omega)

/-- A pending request with few short path names, a modest body and a short source. -/
structure Pending.Brief (floatText : ℚ → List Char) (p : Pending) : Prop where
  path : p.pathParameters.Brief
  body : Fits floatText 40000 (.obj p.body)
  source : ∀ d, p.desiredSource = some d → d.Brief

theorem Pending.Brief.json {p : Pending} (h : p.Brief floatText) : Fits floatText 80000 p.json := by
  have hroute : p.routeId.routeId.utf8ByteSize ≤ 64 := by cases p.routeId <;> decide
  have hrole : p.credentialRole.text.utf8ByteSize ≤ 64 := by cases p.credentialRole <;> decide
  have hsource : Fits floatText 16000 ((p.desiredSource.map DesiredSource.json).getD .null) := by
    cases hd : p.desiredSource with
    | none => exact fits_null.mono (by omega)
    | some d => exact (h.source d hd).json
  have hmembers := ((((((FitsMembers.nil.member "desired_source" hsource).member
    "body_sha256" (fits_digest p.bodySha256)).member "body" h.body).member
    "idempotency_key" (fits_reference p.idempotencyKey)).member
    "credential_role" (fits_str hrole)).member
    "path_parameters" h.path.json).member "route_id" (fits_str hroute)
  exact (fits_obj hmembers).mono (by decide)

/-! ### Records and results -/

/-- A projection whose numbers are brief. -/
def Projection.Brief : Projection → Prop
  | .claim _ claimGeneration => Client.Brief claimGeneration
  | .execute _ _ _ effectsAttempted _ => Client.Brief effectsAttempted
  | .advance _ _ revision => Client.Brief revision
  | _ => True

theorem Projection.Brief.json {p : Projection} (h : p.Brief) : Fits floatText 30000 p.json := by
  have hcoordinate : ∀ c : Coordinate, Fits floatText 6146 c.json := fits_coordinate
  have hoptional : ∀ (name : String) (c : Option Coordinate), name.utf8ByteSize ≤ 64 →
      ∃ k ≤ 6918, FitsMembers floatText k (c.map fun a => ((name : Text), a.json)).toList := by
    intro name c hname
    cases c with
    | none => exact ⟨0, by omega, .nil⟩
    | some c => exact ⟨_, by decide, FitsMembers.nil.member name (hcoordinate c) hname⟩
  cases p with
  | prepare planId approvalRequestId =>
    obtain ⟨k, hk, hlast⟩ := hoptional "approval_request_id" approvalRequestId (by decide)
    exact (fits_obj (hlast.member "plan_id" (hcoordinate planId))).mono (by omega)
  | decide state =>
    exact (fits_obj (FitsMembers.nil.member "approval_state" (hcoordinate state))).mono
      (by decide)
  | admission id =>
    exact (fits_obj (FitsMembers.nil.member "execution_request_id" (hcoordinate id))).mono
      (by decide)
  | claim runId generation =>
    have hmembers := (FitsMembers.nil.member "claim_generation"
      (fits_number h)).member "run_id" (hcoordinate runId)
    exact (fits_obj hmembers).mono (by decide)
  | start status =>
    exact (fits_obj (FitsMembers.nil.member "run_status" (hcoordinate status))).mono
      (by decide)
  | execute runId runStatus status effects activityId =>
    obtain ⟨k, hk, hlast⟩ := hoptional "activity_id" activityId (by decide)
    have hmembers := (((hlast.member "effects_attempted"
      (fits_number h)).member
      "coordinator_status" (hcoordinate status)).member
      "run_status" (hcoordinate runStatus)).member "run_id" (hcoordinate runId)
    exact (fits_obj hmembers).mono (by omega)
  | advance graphId projectionId revision =>
    have hmembers := ((FitsMembers.nil.member "advanced_revision"
      (fits_number h)).member
      "advanced_projection_id" (hcoordinate projectionId)).member
      "advanced_graph_id" (hcoordinate graphId)
    exact (fits_obj hmembers).mono (by decide)

theorem fits_record {r : Record} (h : r.response.Brief) : Fits floatText 36000 r.json := by
  have hroute : r.routeId.routeId.utf8ByteSize ≤ 64 := by cases r.routeId <;> decide
  have hresponse : Fits floatText 30000 r.response.json := h.json
  have hmembers := (((FitsMembers.nil.member "response" hresponse).member
    "body_sha256" (fits_digest r.bodySha256)).member
    "idempotency_key" (fits_reference r.idempotencyKey)).member
    "route_id" (fits_str hroute)
  exact (fits_obj hmembers).mono (by decide)

theorem fits_result {result : ClientResult} (h : result.changes = []) :
    Fits floatText 60000 result.descriptor := by
  have hstatus : result.status.text.utf8ByteSize ≤ 64 := by cases result.status <;> decide
  have hexecution : result.execution.text.utf8ByteSize ≤ 64 := by cases result.execution <;> decide
  have hadvancement : result.advancement.text.utf8ByteSize ≤ 64 := by
    cases result.advancement <;> decide
  have hroute : ∀ r : ReadRoute, r.routeId.utf8ByteSize ≤ 64 := by
    intro r
    cases r <;> decide
  have hschema : Fits floatText 770 (.str "cpk.client-result.v1") :=
    fits_str (show "cpk.client-result.v1".utf8ByteSize ≤ 64 by decide)
  have hunknown : Fits floatText 770 (.str "unknown") :=
    fits_str (show "unknown".utf8ByteSize ≤ 64 by decide)
  have hobservation := fits_obj ((FitsMembers.nil.member "freshness" hunknown).member "health" hunknown)
  have hchanges : Fits floatText 2 (.arr (result.changes.map Change.json)) := by
    rw [h]
    exact fits_arr (n := 0) (by simp)
  have hcommand : ∀ x, (if result.offersApply then some (.str "cpk apply") else none) = some x →
      Fits floatText 770 x := by
    intro x hx
    split at hx
    · cases hx
      exact fits_str (show "cpk apply".utf8ByteSize ≤ 64 by decide)
    · cases hx
  have hread : ∀ x, (result.nextPublicRead.map fun r => Json.str r.routeId) = some x →
      Fits floatText 770 x := by
    intro x hx
    obtain ⟨r, -, rfl⟩ := Option.map_eq_some_iff.mp hx
    exact fits_str (hroute r)
  have hcoordinate : ∀ (c : Option Coordinate) x, c.map Coordinate.json = some x →
      Fits floatText 6146 x := by
    intro c x hx
    obtain ⟨c, -, rfl⟩ := Option.map_eq_some_iff.mp hx
    exact fits_coordinate c
  have hdestructive : ∀ x, result.destructive.map Json.bool = some x → Fits floatText 5 x := by
    intro x hx
    obtain ⟨b, -, rfl⟩ := Option.map_eq_some_iff.mp hx
    exact fits_bool b
  obtain ⟨k₁, hk₁, h₁⟩ := fits_optional hcommand (show "command".utf8ByteSize ≤ 64 by decide)
  obtain ⟨k₂, hk₂, h₂⟩ := fits_optional hread (show "public_read".utf8ByteSize ≤ 64 by decide)
  obtain ⟨k₃, hk₃, h₃⟩ := fits_optional (hcoordinate result.planId)
    (show "plan_id".utf8ByteSize ≤ 64 by decide)
  obtain ⟨k₄, hk₄, h₄⟩ := fits_optional (hcoordinate result.approvalRequestId)
    (show "approval_request_id".utf8ByteSize ≤ 64 by decide)
  obtain ⟨k₅, hk₅, h₅⟩ := fits_optional (hcoordinate result.runId)
    (show "run_id".utf8ByteSize ≤ 64 by decide)
  obtain ⟨k₆, hk₆, h₆⟩ := fits_optional (hcoordinate result.requiredScope)
    (show "required_scope".utf8ByteSize ≤ 64 by decide)
  obtain ⟨k₇, hk₇, h₇⟩ := fits_optional hdestructive
    (show "destructive".utf8ByteSize ≤ 64 by decide)
  have hhead := ((((((((FitsMembers.nil.member "next" (fits_obj (h₁.append h₂))).member
    "changes" hchanges).member "observation" hobservation).member
    "advancement" (fits_str hadvancement)).member "execution" (fits_str hexecution)).member
    "workspace_id" (fits_coordinate result.workspaceId)).member
    "operation_ref" (fits_reference result.operationRef)).member
    "status" (fits_str hstatus)).member "schema" hschema
  have hall := (((((hhead.append h₃).append h₄).append h₅).append h₆).append h₇)
  exact (fits_obj hall).mono (by omega)

/-! ### Journals -/

/-- A journal of an ordinary operation. -/
structure Journal.Modest (floatText : ℚ → List Char) (j : Journal) : Prop where
  desired : j.desired.Brief
  coordinates : j.coordinates.Brief
  pending : ∀ p, j.pendingRequest = some p → p.Brief floatText
  few : j.requestHistory.length ≤ 16
  records : ∀ r ∈ j.requestHistory, r.response.Brief
  result : ∀ result, j.lastResult = some result → result.changes = []

/-- A journal fits with room to spare, whatever its history is, if that fits. -/
theorem fits_journal {j : Journal} (hdesired : j.desired.Brief) (hcoordinates : j.coordinates.Brief)
    (hpending : ∀ p, j.pendingRequest = some p → p.Brief floatText)
    (hhistory : Fits floatText 640000 (.arr (j.requestHistory.map Record.json)))
    (hresult : ∀ result, j.lastResult = some result → result.changes = []) :
    Fits floatText (maximumJournalBytes - 8192) j.json := by
  have hschema : Fits floatText 770 (.str "cpk.client-invocation.v1") :=
    fits_str (show "cpk.client-invocation.v1".utf8ByteSize ≤ 64 by decide)
  have hworkspace : Fits floatText 6146 j.target.workspaceId.json := fits_coordinate _
  have htarget := fits_obj ((FitsMembers.nil.member "workspace_id" hworkspace).member
    "endpoint_sha256" (fits_digest j.target.endpointSha256))
  have hphase : j.phase.text.utf8ByteSize ≤ 64 := by cases j.phase <;> decide
  have hrequest : Fits floatText 80000 ((j.pendingRequest.map Pending.json).getD .null) := by
    cases hp : j.pendingRequest with
    | none => exact fits_null.mono (by omega)
    | some p => exact (hpending p hp).json
  have hlast : Fits floatText 60000 ((j.lastResult.map ClientResult.descriptor).getD .null) := by
    cases hr : j.lastResult with
    | none => exact fits_null.mono (by omega)
    | some result => exact fits_result (hresult result hr)
  have hmembers := ((((((((FitsMembers.nil.member "last_result" hlast).member
    "request_history" hhistory).member "coordinates" hcoordinates.json).member
    "pending_request" hrequest).member "phase" (fits_str hphase)).member
    "desired" hdesired.json).member "target" htarget).member
    "operation_ref" (fits_reference j.operationRef)).member "schema" hschema
  exact (fits_obj hmembers).mono (by decide)

theorem Journal.Modest.json {j : Journal} (h : j.Modest floatText) :
    Fits floatText (maximumJournalBytes - 8192) j.json := by
  refine fits_journal h.desired h.coordinates h.pending ?_ h.result
  have hrecords : ∀ x ∈ j.requestHistory.map Record.json, Fits floatText 36000 x := by
    intro x hx
    obtain ⟨r, hr, rfl⟩ := List.mem_map.mp hx
    exact fits_record (h.records r hr)
  have harr := fits_arr hrecords
  rw [List.length_map] at harr
  have hfew := Nat.mul_le_mul_right (36000 + 1) h.few
  exact harr.mono ((Nat.add_le_add_right hfew 2).trans (by decide))

/-- The encoder accepts the journal. -/
def Journal.Encodes (floatText : ℚ → List Char) (ref : OperationRef) (j : Journal) : Prop :=
  ∃ raw, encodeJournal floatText ref j = .ok raw

theorem Journal.Valid.encodes {j : Journal} {ref : OperationRef} (hvalid : j.Valid ref)
    (hfits : Fits floatText maximumJournalBytes j.json) : j.Encodes floatText ref := by
  obtain ⟨raw, hraw, hlength⟩ := hfits
  refine ⟨asciiBytes raw, ?_⟩
  have hok := validateJournal_eq_ok.mpr hvalid
  simp only [encodeJournal, hok, hraw, if_pos hlength, bind, Except.bind]

/-- **The encoder accepts what the validator accepts**, for the journals of ordinary operations. -/
theorem Journal.Modest.encodes {j : Journal} (h : j.Modest floatText) {ref : OperationRef}
    (hvalid : j.Valid ref) : j.Encodes floatText ref :=
  hvalid.encodes (h.json.mono (Nat.sub_le _ _))

/-- A body of values that nest little. -/
theorem shallow_of_members {rt : Runtime} {body : Fields} (h : ∀ m ∈ body, m.2.depth ≤ 2) :
    (Json.obj body).depth ≤ rt.depthLimit :=
  (Json.depth_obj_le.mpr h).trans rt.nests

/-- A body within the bounds has a digest. -/
theorem canonicalDigest_ok {rt : Runtime} {body : Fields}
    (h : Fits rt.floatText maximumDesiredBytes (.obj body))
    (hshallow : (Json.obj body).depth ≤ rt.depthLimit) :
    ∃ digest, canonicalDigest rt body = .ok digest := by
  obtain ⟨raw, hraw, hlength⟩ := h
  refine ⟨rt.sha256 (asciiBytes raw), ?_⟩
  simp only [canonicalDigest, if_neg (Nat.not_lt.mpr hshallow), hraw, if_pos hlength]

end Client

end ControlPlaneKit
