import ControlPlaneKit.Client.Foresight
import ControlPlaneKit.Client.HealthyStatus

/-!
# A step that fails

The execution of a scenario whose first step fails. The response arrives and `apply` reports the
failure; or it is lost, and the next `apply` replays the request, with every read answered.
-/

namespace ControlPlaneKit

namespace Client

open Interaction

namespace Scenario

variable {rt : Runtime} {profile : ClientProfile} {docs : Set (List UInt8)} {s : Scenario}

/-! ### The step -/

/-- The response to a step that fails. -/
def failure (s : Scenario) : Fields :=
  [("run_id", s.runId.json), ("run_status", (Coordinate.literal "failed").json),
    ("coordinator_status", (Coordinate.literal "failed").json), ("effects_attempted", .int 1),
    ("activity_id", .null)]

/-- What is recorded of it. -/
def failed (s : Scenario) : Projection :=
  .execute s.runId (.literal "failed") (.literal "failed") 1 none

/-- The journal in front of the step. -/
abbrev started (rt : Runtime) (profile : ClientProfile) (s : Scenario) : Journal :=
  s.journal rt profile (before .execute) (phaseBefore .execute)

/-- The journal in which the step is pending. -/
def steppingJournal (rt : Runtime) (profile : ClientProfile) (s : Scenario) : Journal :=
  { s.started rt profile with pendingRequest := some (s.request rt profile .execute) }

/-- The journal in which the failure is recorded. -/
def failedJournal (rt : Runtime) (profile : ClientProfile) (s : Scenario) : Journal :=
  recorded (s.started rt profile) (s.request rt profile .execute) s.failure s.failed

/-- The report of the failure. -/
def failedResult (rt : Runtime) (profile : ClientProfile) (s : Scenario) : ClientResult :=
  attentionResult profile (s.failedJournal rt profile) .failed .notAttempted .runEvents

/-- The journal in which the failure has been reported. -/
def reportedJournal (rt : Runtime) (profile : ClientProfile) (s : Scenario) : Journal :=
  { s.failedJournal rt profile with lastResult := some (s.failedResult rt profile) }

/-- The response is bound to the step. -/
theorem failure_isBound (c : Coordinates) :
    responseIsBound .execute s.failure (s.path profile .execute) (s.body .execute) c
      profile.workspaceId = .ok true := by
  have hmost : Json.atLeast 1 (.int 1) = some true := by
    simp only [Json.atLeast, Json.number?]
    decide
  have hmoving : (Json.str (.utf8 "failed")).memberOf ["progressed", "in-flight"] = some false := rfl
  simp [responseIsBound, failure, path, body, executeIsBound, Coordinate.literal_json, Json.pyEq_str,
    pure, Except.pure, hmost, hmoving]

theorem responseCoordinates_failure : responseCoordinates .execute s.failure = .ok s.failed := by
  have hfailed : textCoordinate (.str (.utf8 "failed")) = .ok (.literal "failed") :=
    textCoordinate_json (.literal "failed")
  simp [responseCoordinates, failure, failed, text, integer, bind, Except.bind, pure, Except.pure,
    Coordinate.literal_json, hfailed]

theorem phaseAfter_failure : phaseAfter .execute s.failure = .attentionRequired := by
  simp [phaseAfter, failure, Coordinate.literal_json, Json.pyEq_str]

/-! ### Its journals -/

theorem started_valid (hs : s.Fair rt docs) : (s.started rt profile).Valid s.ref :=
  journal_valid hs (suits_before .execute rfl) (by decide)

theorem started_modest (hs : s.Fair rt docs) : (s.started rt profile).Modest rt.floatText :=
  journal_modest hs (by decide)

theorem stepping_valid (hs : s.Fair rt docs) : (s.steppingJournal rt profile).Valid s.ref :=
  (started_valid hs).intend (request_valid .execute)

theorem stepping_encodes (hs : s.Fair rt docs) :
    (s.steppingJournal rt profile).Encodes rt.floatText s.ref :=
  ((started_modest hs).intend (body_fits hs .execute).2).encodes (stepping_valid hs)

theorem failed_suits :
    ((s.coordinates (before .execute)).update s.failed).Suits .attentionRequired := by
  constructor <;> simp [needsPlanCoordinates, requiredByPhase]

theorem failed_valid (hs : s.Fair rt docs) : (s.failedJournal rt profile).Valid s.ref := by
  have hlength : (s.failedJournal rt profile).requestHistory.length ≤ maximumRequestRecords := by
    simp [failedJournal, recorded, journal, before, maximumRequestRecords]
  have hresult : ∀ r, some (s.prepared profile) = some r → validateResult r s.ref
      (profile.target rt) ((s.coordinates (before .execute)).update s.failed) = .ok () := by
    rintro r ⟨⟩
    exact validateResult_prepared (s.coordinates_ids (before .execute))
  have h : Journal.Valid _ s.ref := (started_valid hs).move failed_suits hlength hresult
  unfold failedJournal recorded
  rw [show (s.request rt profile .execute).routeId = .execute from rfl, phaseAfter_failure]
  exact h

theorem failed_modest (hs : s.Fair rt docs) :
    (s.failedJournal rt profile).Modest rt.floatText := by
  have hbrief : s.failed.Brief := show Brief 1 by unfold Brief; decide
  exact (started_modest hs).recorded hbrief (by simp [started, journal, before])

theorem reported_valid (hs : s.Fair rt docs) : (s.reportedJournal rt profile).Valid s.ref := by
  refine { failed_valid hs with result := ?_ }
  rintro result ⟨⟩
  simp [validateResult, failedResult, attentionResult, projectJournal, reportedJournal, failedJournal,
    recorded, journal, ClientProfile.target]

theorem reported_modest (hs : s.Fair rt docs) :
    (s.reportedJournal rt profile).Modest rt.floatText := by
  refine { failed_modest hs with result := ?_ }
  rintro result ⟨⟩
  rfl

/-! ### The step is dispatched -/

/-- The world in which the step has been dispatched. -/
def steppingWorld (rt : Runtime) (profile : ClientProfile) (s : Scenario) : World :=
  ⟨some (s.steppingJournal rt profile),
    (s.worldBefore rt profile .execute).dispatched ++ [s.commandOf profile .execute]⟩

/-- The world in which the failure is recorded, after so many calls. -/
def failedWorld (rt : Runtime) (profile : ClientProfile) (s : Scenario) (calls : List Call) : World :=
  ⟨some (s.failedJournal rt profile), calls⟩

/-- The first `apply`, up to the step. -/
def untilStep (rt : Runtime) (profile : ClientProfile) (s : Scenario) : Trace :=
  s.gateEvents rt profile ++ (s.stepEvents rt profile .admission ++ (s.stepEvents rt profile .claim ++
    (s.stepEvents rt profile .start ++ [⟨.identity, .utf8 (s.key .execute).text⟩,
      wrote s.ref (s.steppingJournal rt profile)])))

/-- The step as `apply` mutates. -/
abbrev mutation (rt : Runtime) (profile : ClientProfile) (s : Scenario) : Block (Fields × Journal) :=
  mutate rt profile (s.started rt profile) .execute (s.path profile .execute) (s.body .execute)
    (s.key .execute) (mutationRole .execute) none

theorem failed_encodes (hs : s.Fair rt docs) :
    (s.failedJournal rt profile).Encodes rt.floatText s.ref :=
  (failed_modest hs).encodes (failed_valid hs)

/-- The response to the step arrives. -/
theorem returns_failure (hs : s.Fair rt docs) :
    Returns docs s.ref (s.worldBefore rt profile .execute) (s.mutation rt profile)
      [wrote s.ref (s.steppingJournal rt profile),
        ⟨.call (s.commandOf profile .execute), .reply s.failure⟩,
        wrote s.ref (s.failedJournal rt profile)]
      (s.failedWorld rt profile (s.steppingWorld rt profile).dispatched)
      (s.failure, s.failedJournal rt profile) := by
  have hroom : (s.started rt profile).requestHistory.length < maximumRequestRecords := by
    simp [started, journal, before, maximumRequestRecords]
  exact returns_mutate rfl rfl hroom (canonicalDigest_body profile hs .execute) (by simp) rfl
    (stepping_encodes hs) (failure_isBound _) responseCoordinates_failure (failed_encodes hs)

/-- The response to the step is lost. -/
theorem quits_lost (hs : s.Fair rt docs) (message : String) :
    Quits docs s.ref (s.worldBefore rt profile .execute) (s.mutation rt profile)
      [wrote s.ref (s.steppingJournal rt profile),
        ⟨.call (s.commandOf profile .execute), .unresolved message⟩]
      (s.steppingWorld rt profile)
      (attentionResult profile (s.steppingJournal rt profile) .unverified .notAttempted
        (nextRead (s.steppingJournal rt profile))) := by
  have hroom : ¬ maximumRequestRecords ≤ (s.started rt profile).requestHistory.length := by
    simp [started, journal, before, maximumRequestRecords]
  unfold mutation mutate
  rw [if_neg hroom]
  refine Returns.quits (t := []) (.lift (canonicalDigest_body profile hs .execute)) ?_
  rw [if_neg (by simp)]
  refine Returns.quits (t := [_]) (returns_encoded rfl (stepping_encodes hs)) ?_
  change Quits docs s.ref _ (dispatchPending rt profile (s.steppingJournal rt profile)
    (s.body .execute)) _ _ _
  rw [dispatchPending_eq (p := s.request rt profile .execute) rfl]
  exact .performed (if_pos ⟨rfl, rfl⟩).symm (.raised _ _)

/-- The execution draws its key and mutates. -/
theorem executeRun_started :
    executeRun rt profile (s.started rt profile) s.runId s.generation =
      executeSteps rt profile s.runId s.generation (127 + 1) (s.started rt profile) :=
  if_neg (by simp [started, journal, phaseBefore])

/-- Where its response arrives, the failure is reported. -/
theorem quits_executeRun (hs : s.Fair rt docs) :
    Quits docs s.ref (s.worldBefore rt profile .execute)
      (executeRun rt profile (s.started rt profile) s.runId s.generation)
      (⟨.identity, .utf8 (s.key .execute).text⟩ :: [wrote s.ref (s.steppingJournal rt profile),
        ⟨.call (s.commandOf profile .execute), .reply s.failure⟩,
        wrote s.ref (s.failedJournal rt profile), wrote s.ref (s.reportedJournal rt profile)])
      ((s.failedWorld rt profile (s.steppingWorld rt profile).dispatched).store
        (s.reportedJournal rt profile))
      (s.failedResult rt profile) := by
  have hstatus : text s.failure "coordinator_status" = .ok (.literal "failed") := by
    simp [text, failure]
  rw [executeRun_started]
  unfold executeSteps
  refine Returns.quits (t := [_]) (returns_key hs (notMem_before rfl)) ?_
  refine Returns.quits (t := [_, _, _]) (returns_failure hs) ?_
  refine Returns.quits (t := []) (.lift hstatus) ?_
  rw [if_neg (by decide), if_neg (by decide)]
  exact quits_stop rfl rfl (reported_valid hs) (reported_modest hs)

/-- The first `apply` ends as its step does. -/
theorem exec_untilStep (hs : s.Fair rt docs) {tr : Trace} {w' : World} {result : ClientResult}
    (hexecute : Quits docs s.ref (s.worldBefore rt profile .execute)
      (executeRun rt profile (s.started rt profile) s.runId s.generation)
      (⟨.identity, .utf8 (s.key .execute).text⟩ :: wrote s.ref (s.steppingJournal rt profile) :: tr) w'
      result) :
    Exec (answers docs s.ref) (s.world rt profile [] .prepared)
      (Client.apply rt profile (.utf8 s.ref.text) s.arguments) (s.untilStep rt profile ++ tr) w'
      (some (.ok result)) := by
  have h : Exec (answers docs s.ref) (s.world rt profile [] .prepared)
      (Client.apply rt profile (.utf8 s.ref.text) s.arguments) _ w' (some (.ok result)) :=
    exec_gates hs (exec_started hs (Quits.conclude (Quits.bind hexecute)))
  simpa only [untilStep, List.append_assoc, List.cons_append, List.nil_append] using h

/-- **The failure is reported** by the `apply` whose step failed. -/
theorem exec_failed (hs : s.Fair rt docs) :
    Exec (answers docs s.ref) (s.world rt profile [] .prepared)
      (Client.apply rt profile (.utf8 s.ref.text) s.arguments)
      (s.untilStep rt profile ++ ⟨.call (s.commandOf profile .execute), .reply s.failure⟩ ::
        [wrote s.ref (s.failedJournal rt profile), wrote s.ref (s.reportedJournal rt profile)])
      ((s.failedWorld rt profile (s.steppingWorld rt profile).dispatched).store
        (s.reportedJournal rt profile))
      (some (.ok (s.failedResult rt profile))) :=
  exec_untilStep hs (quits_executeRun hs)

/-- The `apply` whose response is lost. -/
theorem exec_lost (hs : s.Fair rt docs) (message : String) :
    Exec (answers docs s.ref) (s.world rt profile [] .prepared)
      (Client.apply rt profile (.utf8 s.ref.text) s.arguments)
      (s.untilStep rt profile ++ ⟨.call (s.commandOf profile .execute), .unresolved message⟩ :: [])
      (s.steppingWorld rt profile)
      (some (.ok (attentionResult profile (s.steppingJournal rt profile) .unverified .notAttempted
        (nextRead (s.steppingJournal rt profile))))) := by
  refine exec_untilStep hs ?_
  rw [executeRun_started]
  unfold executeSteps
  exact Returns.quits (t := [_]) (returns_key hs (notMem_before rfl)) (Quits.bind (quits_lost hs message))

/-! ### The step is replayed -/

theorem follows_stepping : s.Follows (s.steppingJournal rt profile) where
  reference := rfl
  plan := (s.coordinates_ids (before .execute)).1
  approval := (s.coordinates_ids (before .execute)).2
  run := rfl
  planned := fun _ hn => s.coordinates_plan (before .execute) hn

/-- The status of the failed run lets the replay through. -/
theorem returns_progressGate_stepping :
    Returns docs s.ref (s.steppingWorld rt profile)
      (progressGate rt profile (s.steppingJournal rt profile)) (s.statusEvents profile "failed" s.base)
      (s.steppingWorld rt profile) () := by
  have hscope : text (s.approval "approved") "required_scope" = .ok (.literal "plan:approve") := by
    rw [text]
    simp only [approval, Fields.get_cons]
    exact textCoordinate_json (.literal "plan:approve")
  have hkind : boolean (s.approval "approved") "destructive" = .ok false := by
    simp [boolean, approval]
  have hfailed : runExecution (.str "failed") = .ok .failed := rfl
  obtain ⟨result, hreport⟩ : ∃ result, observedStatus profile (s.steppingJournal rt profile) false {
      execution := some .failed
      advancement := if s.base = s.goal then some .advanced else none
      approval := some (s.approval "approved") } = .ok result := by
    simp only [observedStatus, steppingJournal, statusFromJournal, hscope, hkind]
    exact ⟨_, rfl⟩
  have hread : Returns docs s.ref (s.steppingWorld rt profile)
      (publicStatus rt profile (s.steppingJournal rt profile)) _ _ result :=
    returns_observed follows_stepping hfailed s.base hreport
  unfold progressGate
  rw [if_pos (show (s.steppingJournal rt profile).coordinates.has .runId = true from rfl)]
  refine Returns.bind (t := [_, _, _, _, _, _]) (u := []) hread ?_
  rw [if_neg (by simp [steppingJournal]), if_neg, if_neg]
  · exact .pure ()
  · simp [steppingJournal, started, journal, phaseBefore]
  · simp [steppingJournal, started, journal, phaseBefore]

/-- The pending step is dispatched again, and its response recorded. -/
theorem returns_replayPending (hs : s.Fair rt docs) :
    Returns docs s.ref (s.steppingWorld rt profile)
      (replayPending rt profile (s.steppingJournal rt profile))
      [⟨.call (s.commandOf profile .execute), .reply s.failure⟩,
        wrote s.ref (s.failedJournal rt profile)]
      (s.failedWorld rt profile
        ((s.steppingWorld rt profile).dispatched ++ [s.commandOf profile .execute]))
      (s.failure, s.failedJournal rt profile) := by
  have hroom : (s.steppingJournal rt profile).requestHistory.length < maximumRequestRecords := by
    simp [steppingJournal, started, journal, before, maximumRequestRecords]
  have hdigest : s.digest rt .execute = (s.request rt profile .execute).bodySha256 := rfl
  unfold replayPending
  refine Returns.bind (t := []) (.pure (s.body .execute)) ?_
  refine Returns.lift_bind (canonicalDigest_body profile hs .execute) ?_
  rw [if_neg (not_not.mpr hdigest)]
  exact returns_dispatch (p := s.request rt profile .execute) rfl rfl rfl hroom (failure_isBound _)
    responseCoordinates_failure (failed_encodes hs)

theorem returns_recoverPending (hs : s.Fair rt docs) :
    Returns docs s.ref (s.steppingWorld rt profile)
      (recoverPending rt profile (s.steppingJournal rt profile))
      [⟨.call (s.commandOf profile .execute), .reply s.failure⟩,
        wrote s.ref (s.failedJournal rt profile)]
      (s.failedWorld rt profile
        ((s.steppingWorld rt profile).dispatched ++ [s.commandOf profile .execute]))
      (s.failedJournal rt profile) := by
  unfold recoverPending
  rw [if_pos (by rfl)]
  exact Returns.bind (t := [_, _]) (u := []) (returns_replayPending hs) (.pure _)

/-- The report of the replay. -/
def replayedResult (rt : Runtime) (profile : ClientProfile) (s : Scenario) : ClientResult :=
  projectJournal profile (s.failedJournal rt profile) true none none none [] none

/-- **The failure is replayed** by the next `apply`, which reports what the phase says. -/
theorem exec_replayed (hs : s.Fair rt docs) :
    Exec (answers docs s.ref) (s.steppingWorld rt profile)
      (Client.apply rt profile (.utf8 s.ref.text) s.arguments)
      (s.againEvents profile (s.steppingJournal rt profile) "failed" s.base ++
        ⟨.call (s.commandOf profile .execute), .reply s.failure⟩ ::
          [wrote s.ref (s.failedJournal rt profile)])
      (s.failedWorld rt profile
        ((s.steppingWorld rt profile).dispatched ++ [s.commandOf profile .execute]))
      (some (.ok (s.replayedResult rt profile))) := by
  have hphase : (s.failedJournal rt profile).phase = .attentionRequired := phaseAfter_failure (s := s)
  have hchanges : (s.failedJournal rt profile).phase ≠ .noChanges := by
    rw [hphase]
    exact Phase.noConfusion
  refine exec_again follows_stepping (by simp [steppingJournal, request, intended]) rfl
    (stepping_valid hs) rfl returns_progressGate_stepping ?_
  unfold applyCommands
  refine Returns.quits (t := [_, _]) (u := []) (returns_recoverPending hs) (Quits.bind ?_)
  unfold stopIfOver
  rw [if_neg hchanges, if_pos hphase]
  exact .raised _ _

/-! ### What both invocations read -/

/-- The plan that the first invocation reads. -/
theorem untilStep_shows {planId : Coordinate} {plan : Fields} {e : Event Op Op.Answer}
    (he : e ∈ s.untilStep rt profile) (hshown : ShowsPlan planId plan e) : plan = s.plan := by
  obtain ⟨path, response, ⟨call, rfl, hroute, -⟩, -, hplan⟩ := hshown
  simp only [untilStep, gateEvents, stepEvents, commandEvents, List.cons_append, List.nil_append,
    List.mem_cons, List.not_mem_nil, or_false] at he
  rcases he with he | he | he | he | he | he | he | he | he | he | he | he | he | he | he | he | he |
    he <;> cases he <;> cases hroute
  simpa using hplan.symm

/-- The plan that the second invocation reads. -/
theorem again_shows {planId : Coordinate} {plan : Fields} {e : Event Op Op.Answer}
    (he : e ∈ s.againEvents profile (s.steppingJournal rt profile) "failed" s.base)
    (hshown : ShowsPlan planId plan e) : plan = s.plan := by
  obtain ⟨path, response, ⟨call, rfl, hroute, -⟩, -, hplan⟩ := hshown
  simp only [againEvents, statusEvents, List.cons_append, List.nil_append, List.mem_cons,
    List.not_mem_nil, or_false] at he
  rcases he with he | he | he | he | he | he | he | he | he | he <;> cases he <;> cases hroute
  all_goals simpa using hplan.symm

end Scenario

end Client

end ControlPlaneKit
