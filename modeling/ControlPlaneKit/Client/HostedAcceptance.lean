import ControlPlaneKit.Client.Validity

/-!
# The hosted acceptance of an execute step

`_validate_execute_result` of the hosted activity script says which coordinator outcomes the wire
contract allows. The client has its own test for the same results, `_response_is_bound`; the
section below compares the two over all results.
-/

namespace ControlPlaneKit

namespace Client

/-! ### The validator -/

/-- `_nonempty_string`. -/
def isNonemptyString : Json → Bool
  | .str s => decide (0 < s.codes.length ∧ s.codes.length ≤ 4096)
  | _ => false

/-- The members of a result, one by one. -/
def hostedShape (result : Fields) (runId : Coordinate) : Bool :=
  result.keysAre ["run_id", "run_status", "coordinator_status", "effects_attempted", "activity_id"] &&
    (result.get "run_id").pyEq runId.json &&
    isNonemptyString (result.get "run_status") &&
    isNonemptyString (result.get "coordinator_status") &&
    (match result.get "effects_attempted" with
      | .int effects => decide (0 ≤ effects ∧ effects ≤ 1)
      | _ => false) &&
    ((result.get "activity_id").pyEq .null || isNonemptyString (result.get "activity_id"))

/-- The run statuses in which a coordinator may be blocked. -/
def blockedRunStatuses : List String :=
  ["paused", "cancelled", "compensating", "compensated", "partially_failed",
    "uncompensated_failure", "running"]

/-- The combinations of a coordinator status with the other members. -/
def hostedOutcome (status runStatus activity : Json) (effects : Int) : Bool :=
  if status.pyEq (.str "progressed") || status.pyEq (.str "in-flight") then
    runStatus.pyEq (.str "running") && !activity.pyEq .null
  else if status.pyEq (.str "completed") then
    runStatus.pyEq (.str "succeeded") && activity.pyEq .null
  else if status.pyEq (.str "failed") then
    runStatus.pyEq (.str "failed") && !(effects == 0 && !activity.pyEq .null)
  else if status.pyEq (.str "unsupported") then
    runStatus.pyEq (.str "failed") && effects == 1 && !activity.pyEq .null
  else if status.pyEq (.str "uncertain") then
    runStatus.pyEq (.str "running") && !activity.pyEq .null
  else if status.pyEq (.str "blocked") then
    (blockedRunStatuses.any fun s => runStatus.pyEq (.str s)) && activity.pyEq .null
  else false

/-- `_validate_execute_result`. -/
def validateExecuteResult (result : Fields) (runId : Coordinate) : Except String Json :=
  if hostedShape result runId then
    match result.get "effects_attempted" with
    | .int effects =>
      if hostedOutcome (result.get "coordinator_status") (result.get "run_status")
          (result.get "activity_id") effects then
        .ok (result.get "coordinator_status")
      else .error "execution result is invalid"
    | _ => .error "execution result is invalid"
  else .error "execution result is invalid"

/-! ### The comparison -/

/-- What the client asks beyond the wire contract: a blocked run is running, and the activity of an
outcome that names one is a text coordinate. -/
structure ClientResolves (result : Fields) : Prop where
  blocked : result.get "coordinator_status" = .str "blocked" →
    result.get "run_status" = .str "running"
  activity : (result.get "coordinator_status" = .str "progressed" ∨
      result.get "coordinator_status" = .str "in-flight" ∨
      result.get "coordinator_status" = .str "unsupported") →
    isTextCoordinate (result.get "activity_id") = true

/-- What an accepted result consists of. -/
theorem validateExecuteResult_ok {result : Fields} {runId : Coordinate} {status : Json}
    (h : validateExecuteResult result runId = .ok status) :
    status = result.get "coordinator_status" ∧ result.get "run_id" = runId.json ∧
      ∃ effects, result.get "effects_attempted" = .int effects ∧ 0 ≤ effects ∧ effects ≤ 1 ∧
        hostedOutcome (result.get "coordinator_status") (result.get "run_status")
          (result.get "activity_id") effects = true := by
  unfold validateExecuteResult at h
  split at h
  · rename_i hshape
    split at h
    · rename_i effects heffects
      split at h
      · rename_i houtcome
        cases h
        simp only [hostedShape, heffects, Bool.and_eq_true, decide_eq_true_eq,
          Coordinate.pyEq_json] at hshape
        obtain ⟨⟨⟨⟨⟨-, hrun⟩, -⟩, -⟩, hle⟩, -⟩ := hshape
        exact ⟨rfl, hrun, effects, heffects, hle.1, hle.2, houtcome⟩
      · cases h
    · cases h
  · cases h

/-- Membership of a known text. -/
theorem memberOf_str (s : String) (names : List String) :
    (Json.str s).memberOf names = some (names.contains s) := by
  simp only [Json.memberOf, Option.some.injEq]
  rw [Bool.eq_iff_iff, List.any_eq_true, List.contains_iff_mem]
  constructor
  · rintro ⟨n, hn, heq⟩
    have : Json.str s = .str n := Json.pyEq_str.mp heq
    simp only [Json.str.injEq, Text.utf8.injEq] at this
    exact this ▸ hn
  · exact fun h => ⟨s, h, Json.pyEq_str.mpr rfl⟩

theorem str_pyEq_str (s t : String) : (Json.str s).pyEq (.str t) = decide (s = t) := by
  rw [Bool.eq_iff_iff, Json.pyEq_str, decide_eq_true_iff]
  simp

/-- The client's test of a result whose run and effects are as they should be. -/
theorem responseIsBound_execute {result : Fields} {runId workspaceId : Coordinate} {effects : Int}
    {path : PathParameters} {body : Fields} {coordinates : Coordinates}
    (hrun : result.get "run_id" = runId.json) (hpath : path.get "run_id" = runId.json)
    (hmost : body.get "max_effects" = .int 1) (heffects : result.get "effects_attempted" = .int effects)
    (hpos : 0 ≤ effects) (hle : effects ≤ 1) :
    responseIsBound .execute result path body coordinates workspaceId =
      executeIsBound (result.get "coordinator_status") (result.get "run_status")
        (result.get "activity_id") effects := by
  have hhas : body.has "max_effects" = true := by
    cases hlookup : List.lookup (Text.utf8 "max_effects") body with
    | none => simp [Fields.get, hlookup] at hmost
    | some v => simp [Fields.has, hlookup]
  have hrunEq : (result.get "run_id").pyEq (path.get "run_id") = true := by
    rw [hrun, hpath]
    exact Coordinate.pyEq_json.mpr rfl
  have hleast : (Json.int 1).atLeast effects = some true := by
    have hle' : (effects : ℚ) ≤ 1 := by exact_mod_cast hle
    simp [Json.atLeast, Json.number?, hle']
  simp only [responseIsBound, hrunEq, heffects, hpos, hhas, hmost, hleast, if_true]

/-- The client's alternatives, on an outcome that the wire contract allows. -/
theorem executeIsBound_iff {status runStatus activity : Json} {effects : Int}
    (h : hostedOutcome status runStatus activity effects = true) :
    executeIsBound status runStatus activity effects = .ok true ↔
      (status = .str "blocked" → runStatus = .str "running") ∧
        ((status = .str "progressed" ∨ status = .str "in-flight" ∨ status = .str "unsupported") →
          isTextCoordinate activity = true) := by
  unfold hostedOutcome at h
  split at h
  · -- A step that goes on: the client wants a text coordinate for its activity.
    rename_i hstatus
    simp only [Bool.or_eq_true, Bool.and_eq_true, Json.pyEq_str] at hstatus h
    obtain ⟨rfl, -⟩ := h
    cases hactivity : isTextCoordinate activity <;> rcases hstatus with rfl | rfl <;>
      simp [executeIsBound, memberOf_str, str_pyEq_str, hactivity, pure, Except.pure]
  split at h
  · rename_i hstatus
    simp only [Bool.and_eq_true, Json.pyEq_str, Json.pyEq_null] at hstatus h
    obtain ⟨rfl, rfl⟩ := h
    subst hstatus
    simp [executeIsBound, str_pyEq_str, Json.pyEq_null, pure, Except.pure]
  split at h
  · rename_i hstatus
    simp only [Bool.and_eq_true, Json.pyEq_str] at hstatus h
    obtain ⟨rfl, -⟩ := h
    subst hstatus
    simp [executeIsBound, memberOf_str, str_pyEq_str, pure, Except.pure]
  split at h
  · rename_i hstatus
    simp only [Bool.and_eq_true, Json.pyEq_str, beq_iff_eq] at hstatus h
    obtain ⟨⟨rfl, rfl⟩, -⟩ := h
    subst hstatus
    cases hactivity : isTextCoordinate activity <;>
      simp [executeIsBound, memberOf_str, str_pyEq_str, hactivity, pure, Except.pure]
  split at h
  · rename_i hstatus
    simp only [Bool.and_eq_true, Json.pyEq_str] at hstatus h
    obtain ⟨rfl, -⟩ := h
    subst hstatus
    simp [executeIsBound, memberOf_str, str_pyEq_str, pure, Except.pure]
  split at h
  · -- Of the statuses of a blocked run the client only knows the running one.
    rename_i hstatus
    simp only [Bool.and_eq_true, Json.pyEq_str, List.any_eq_true, Json.pyEq_null] at hstatus h
    obtain ⟨⟨s, hs, rfl⟩, rfl⟩ := h
    subst hstatus
    simp only [blockedRunStatuses, List.mem_cons, List.not_mem_nil, or_false] at hs
    rcases hs with rfl | rfl | rfl | rfl | rfl | rfl | rfl <;>
      simp [executeIsBound, memberOf_str, str_pyEq_str, pure, Except.pure]
  · cases h

/-- **The client accepts what the wire contract allows** exactly where the outcome is one it
resolves. -/
theorem responseIsBound_hosted {result : Fields} {runId workspaceId : Coordinate} {status : Json}
    {path : PathParameters} {body : Fields} {coordinates : Coordinates}
    (hhosted : validateExecuteResult result runId = .ok status)
    (hpath : path.get "run_id" = runId.json) (hmost : body.get "max_effects" = .int 1) :
    responseIsBound .execute result path body coordinates workspaceId = .ok true ↔
      ClientResolves result := by
  obtain ⟨-, hrun, effects, heffects, hpos, hle, houtcome⟩ := validateExecuteResult_ok hhosted
  rw [responseIsBound_execute hrun hpath hmost heffects hpos hle, executeIsBound_iff houtcome]
  exact ⟨fun h => ⟨h.1, h.2⟩, fun h => ⟨h.blocked, h.activity⟩⟩

namespace Instance

/-- A run. -/
def runId : Coordinate :=
  ⟨"run-1", by decide, by decide⟩

/-- A result of an execute step of the run. -/
def executeResult (status runStatus : String) : Fields :=
  [("run_id", runId.json), ("run_status", .str runStatus), ("coordinator_status", .str status),
    ("effects_attempted", .int 0), ("activity_id", .null)]

/-- A step that completed the run. -/
theorem bound_hosted_completed :
    responseIsBound .execute (executeResult "completed" "succeeded") [("run_id", runId)]
      [("max_effects", .int 1)] {} runId = .ok true ↔
        ClientResolves (executeResult "completed" "succeeded") :=
  have hhosted : validateExecuteResult (executeResult "completed" "succeeded") runId =
      .ok (.str "completed") := rfl
  responseIsBound_hosted hhosted rfl rfl

/-- A run that was paused is blocked by the wire contract, and unresolved for the client. -/
theorem bound_hosted_paused : ¬ ∀ (result : Fields) (runId workspaceId : Coordinate) (status : Json)
    (path : PathParameters) (body : Fields) (coordinates : Coordinates),
    validateExecuteResult result runId = .ok status → path.get "run_id" = runId.json →
      body.get "max_effects" = .int 1 →
        responseIsBound .execute result path body coordinates workspaceId = .ok true := by
  intro h
  have hbound := h (executeResult "blocked" "paused") runId runId (.str "blocked")
    [("run_id", runId)] [("max_effects", .int 1)] {} rfl rfl rfl
  have hrefused : responseIsBound .execute (executeResult "blocked" "paused") [("run_id", runId)]
      [("max_effects", .int 1)] {} runId = .ok false := rfl
  rw [hrefused] at hbound
  cases hbound

end Instance

end Client

end ControlPlaneKit
