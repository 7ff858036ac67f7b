import ControlPlaneKit.Client.Foresight
import ControlPlaneKit.Client.StartedWork

/-!
# A lost response and its replay

`apply` acts on the response of a command it sends, and on the journal alone once it has replayed
one: behind a replay it goes on with what the phase says (`resumed`). `Midway` says that the two
programs are one wherever the response leads to a phase that is not over. A response that ends an
execution is the exception: sent, it is reported as what it says; replayed, as work that has not
started.
-/

namespace ControlPlaneKit

namespace Client

open Interaction

/-! ### What is left behind a command -/

section Programs

variable (rt : Runtime) (profile : ClientProfile) (plan : Fields) (planId : Coordinate)

/-- What is left of `apply` behind a replay that was recorded. -/
def resumed (journal : Journal) : Block ClientResult := do
  stopIfOver profile journal
  applyFromAdmission rt profile journal plan planId

/-- What is left of `apply` behind the execution. -/
def fromExecuted (runId : Coordinate) (generation : Nat) (journal : Journal) :
    Block ClientResult := do
  let journal ← advanceCurrent rt profile journal plan planId runId generation
  readBack rt profile journal plan

/-- What is left of `apply` behind the start. -/
def fromStarted (runId : Coordinate) (generation : Nat) (journal : Journal) :
    Block ClientResult := do
  let journal ← executeRun rt profile journal runId generation
  fromExecuted rt profile plan planId runId generation journal

/-- What is left of `apply` behind the claim. -/
def fromClaimed (journal : Journal) : Block ClientResult := do
  let runId ← lift (textCoordinate (journal.coordinates.get .runId))
  let generation ← lift (claimGeneration journal)
  let journal ← startRun rt profile journal runId generation
  fromStarted rt profile plan planId runId generation journal

/-- What is left of `apply` behind the admission. -/
def fromAdmitted (journal : Journal) : Block ClientResult := do
  let journal ← claimRun rt profile journal
  fromClaimed rt profile plan planId journal

end Programs

/-- The journal knows its run, under this claim. -/
structure Journal.Runs (j : Journal) (runId : Coordinate) (generation : ℕ) : Prop where
  admitted : j.coordinates.has .executionRequestId = true
  runId : j.coordinates.runId = some runId
  generation : claimGeneration j = .ok generation

section Resumed

variable {rt : Runtime} {profile : ClientProfile} {plan : Fields} {planId runId : Coordinate}
  {generation : ℕ} {j : Journal}

/-- In a phase that is not over the rest of `apply` is its part from the admission on. -/
theorem resumed_open (hchanges : j.phase ≠ .noChanges) (hattention : j.phase ≠ .attentionRequired) :
    resumed rt profile plan planId j = applyFromAdmission rt profile j plan planId := by
  unfold resumed stopIfOver
  rw [if_neg hchanges, if_neg hattention]
  rfl

theorem resumed_admitted (hchanges : j.phase ≠ .noChanges) (hattention : j.phase ≠ .attentionRequired)
    (hadmitted : j.coordinates.has .executionRequestId = true) :
    resumed rt profile plan planId j = fromAdmitted rt profile plan planId j := by
  rw [resumed_open hchanges hattention]
  unfold applyFromAdmission admitDeployment
  rw [if_pos hadmitted]
  rfl

theorem resumed_claimed (hchanges : j.phase ≠ .noChanges) (hattention : j.phase ≠ .attentionRequired)
    (hadmitted : j.coordinates.has .executionRequestId = true)
    (hclaimed : j.coordinates.has .runId = true) :
    resumed rt profile plan planId j = fromClaimed rt profile plan planId j := by
  rw [resumed_admitted hchanges hattention hadmitted]
  unfold fromAdmitted claimRun
  rw [if_pos hclaimed]
  rfl

/-- Behind the start only the execution is left to do. -/
theorem resumed_started (hphase : j.phase ∈ [Phase.started, .executing, .executed, .advanced])
    (hruns : j.Runs runId generation) :
    resumed rt profile plan planId j = fromStarted rt profile plan planId runId generation j := by
  have hopen : j.phase ≠ .noChanges ∧ j.phase ≠ .attentionRequired ∧
      [Phase.claimed, .prepared, .approved, .admitted].contains j.phase = false := by
    revert hphase
    cases j.phase <;> decide
  have hclaimed : j.coordinates.has .runId = true := by
    simp [Coordinates.has, Coordinates.value?, hruns.runId]
  have hrunId : textCoordinate (j.coordinates.get .runId) = .ok runId := by
    simp [Coordinates.get, Coordinates.value?, hruns.runId]
  rw [resumed_claimed hopen.1 hopen.2.1 hruns.admitted hclaimed]
  unfold fromClaimed startRun
  rw [hrunId, hruns.generation, hopen.2.2]
  rfl

/-- Behind a completed execution only the advancement is left to do. -/
theorem resumed_executed (hphase : j.phase ∈ [Phase.executed, .advanced])
    (hruns : j.Runs runId generation) :
    resumed rt profile plan planId j = fromExecuted rt profile plan planId runId generation j := by
  have hdone : j.phase ∈ [Phase.started, .executing, .executed, .advanced] ∧
      [Phase.executed, .advanced, .converged].contains j.phase = true := by
    revert hphase
    cases j.phase <;> decide
  rw [resumed_started hdone.1 hruns]
  unfold fromStarted executeRun
  rw [hdone.2]
  rfl

/-- Behind the advancement only the read-back is left to do. -/
theorem resumed_advanced (hphase : j.phase = .advanced) (hruns : j.Runs runId generation) :
    resumed rt profile plan planId j = readBack rt profile j plan := by
  rw [resumed_executed (by rw [hphase]; decide) hruns]
  unfold fromExecuted advanceCurrent
  rw [if_pos hphase]
  rfl

end Resumed

/-- The execution value that `apply` reports for a response that ends the execution it sent. -/
def endedExecution (response : Fields) : Execution :=
  match text response "coordinator_status" with
  | .ok status => stoppedExecution status
  | .error _ => .unverified

theorem endedExecution_ne_notStarted (response : Fields) : endedExecution response ≠ .notStarted := by
  unfold endedExecution
  split
  · exact stoppedExecution_ne_notStarted _
  · exact Execution.noConfusion

theorem endedExecution_text {response : Fields} {status : Coordinate}
    (hstatus : text response "coordinator_status" = .ok status) :
    endedExecution response = stoppedExecution status := by
  unfold endedExecution
  rw [hstatus]

/-! ### The state of an apply that goes on -/

section Underway

variable (rt : Runtime) (ref : OperationRef) (profile : ClientProfile) (j₀ : Journal)

/-- An `apply` goes on with the durable journal `j`, for the plan it has read. -/
structure Standing (planId : Coordinate) (plan : Fields) (h : Trace) (w : World) (j : Journal) :
    Prop where
  durable : w.journal = some j
  identity : j.operationRef = ref
  session : j.coordinates.has .sessionId = true
  named : j.coordinates.planId = some planId
  shown : ∃ e ∈ h, ShowsPlan planId plan e
  counted : 0 < j.requestHistory.length

/-- What was pending in the loaded journal `j₀`, if anything, has been replayed. -/
structure Underway (planId : Coordinate) (plan : Fields) (h : Trace) (w : World) (j : Journal) : Prop
    extends Standing ref planId plan h w j where
  sent : j₀.pendingRequest = none ∨ 0 < commands h

/-- What is known where a request is dispatched. It is pending in the durable journal. Behind a
response that does not end the operation `apply` goes on as behind a replay, and behind any response
if this is one; any other response that ends the operation is reported at once. -/
structure Midway (h : Trace) (w : World) (call : Call) (next : CallAnswer → Block ClientResult)
    (j : Journal) (p : Pending) (plan : Fields) (planId : Coordinate) : Prop where
  durable : w.journal = some j
  identity : j.operationRef = ref
  pending : j.pendingRequest = some p
  request : call = pendingCall profile j p p.body
  session : j.coordinates.has .sessionId = true
  named : j.coordinates.planId = some planId
  shown : ∃ e ∈ h, ShowsPlan planId plan e
  first : commands h = 0 → j₀.pendingRequest.isSome → j₀.coordinates.has .sessionId = true → j = j₀
  lost : ∀ message, next (.unresolved message) = returnNow (unresolvedResult profile j p.routeId)
  resumes : ∀ response, (commands h = 0 ∧ j₀.pendingRequest.isSome) ∨
      phaseAfter p.routeId response ≠ .attentionRequired →
    next (.reply response) = settle rt profile j p p.body response >>= fun answered =>
      resumed rt profile plan planId answered.2
  ends : ∀ response, ¬ (commands h = 0 ∧ j₀.pendingRequest.isSome) →
      phaseAfter p.routeId response = .attentionRequired →
    next (.reply response) = settle rt profile j p p.body response >>= fun answered =>
      stop rt profile answered.2 (endedExecution response) .notAttempted .runEvents

/-- Every command of the block is dispatched midway. -/
def Redelivers : Watch ClientResult :=
  fun h w call next => ∃ j p plan planId, Midway rt ref profile j₀ h w call next j p plan planId

end Underway

variable {rt : Runtime} {docs : Set (List UInt8)} {ref : OperationRef} {profile : ClientProfile}
  {j₀ j : Journal} {planId runId : Coordinate} {plan : Fields} {generation : ℕ} {h : Trace}
  {w : World} {args : ApplyArguments}

theorem Standing.extend (hs : Standing ref planId plan h w j) (tr : Trace) :
    Standing ref planId plan (h ++ tr) w j := by
  obtain ⟨e, he, hshown⟩ := hs.shown
  exact ⟨hs.durable, hs.identity, hs.session, hs.named, ⟨e, List.mem_append_left _ he, hshown⟩,
    hs.counted⟩

theorem Underway.extend (hu : Underway ref j₀ planId plan h w j) (tr : Trace) :
    Underway ref j₀ planId plan (h ++ tr) w j := by
  refine ⟨hu.toStanding.extend tr, hu.sent.imp_right fun h => ?_⟩
  rw [commands_append]
  omega

/-- A recorded response keeps what is known. -/
theorem Standing.recorded (hs : Standing ref planId plan h w j) {p : Pending}
    {body response : Fields} {projection : Projection} {tr : Trace} {w' : World}
    (hroute : p.routeId ≠ .prepare) (ha : Accepted ref profile j p body response projection)
    (hdurable : w'.journal = some (recorded j p response projection)) (hsent : 0 < commands tr) :
    Underway ref j₀ planId plan (h ++ tr) w' (recorded j p response projection) := by
  obtain ⟨e, he, hshown⟩ := hs.shown
  have hne : projection.route ≠ .prepare := (responseCoordinates_ok ha.projected).1 ▸ hroute
  obtain ⟨hsame, -⟩ := Coordinates.update_plan (c := j.coordinates) hne
  have hsession : (j.coordinates.update projection).has .sessionId = true := by
    rw [Coordinates.has, hsame .sessionId (by decide)]
    exact hs.session
  have hnamed : (j.coordinates.update projection).planId = some planId := by
    have hvalue := hsame .planId (by decide)
    exact (Option.map_injective (fun _ _ => Coordinate.json_injective) hvalue).trans hs.named
  refine ⟨⟨hdurable, hs.identity, hsession, hnamed, ⟨e, List.mem_append_left _ he, hshown⟩, ?_⟩, .inr ?_⟩
  · simp [Client.recorded]
  · rw [commands_append]
    omega

/-! ### New commands -/

/-- The rule for a new command, behind which the block goes on with `k` and the rest with `K`. -/
theorem Underway.command (hu : Underway ref j₀ planId plan h w j) {route : CommandRoute}
    {path : PathParameters} {role : Role} {body : OperationRef → Fields} {α : Type}
    {k : OperationRef → Fields × Journal → Block α} {K : α → Block ClientResult}
    {R : Trace → World → α → Prop} (hroute : route ≠ .prepare)
    (hK : ∀ key digest response projection,
      Accepted ref profile j (intended route path (body key) key role digest none) (body key) response
        projection → phaseAfter route response ≠ .attentionRequired →
      (k key (response, recorded j (intended route path (body key) key role digest none) response
        projection) >>= K) = resumed rt profile plan planId
          (recorded j (intended route path (body key) key role digest none) response projection))
    (hend : route = .execute → ∀ key digest response projection,
      Accepted ref profile j (intended route path (body key) key role digest none) (body key) response
        projection → phaseAfter route response = .attentionRequired →
      (k key (response, recorded j (intended route path (body key) key role digest none) response
        projection) >>= K) = stop rt profile
          (recorded j (intended route path (body key) key role digest none) response projection)
          (endedExecution response) .notAttempted .runEvents)
    (hR : ∀ key digest response projection tr w',
      Accepted ref profile j (intended route path (body key) key role digest none) (body key) response
        projection →
      Underway ref j₀ planId plan (h ++ tr) w'
        (recorded j (intended route path (body key) key role digest none) response projection) →
      Foretells docs ref ((Redelivers rt ref profile j₀).before K) (k key (response,
        recorded j (intended route path (body key) key role digest none) response projection)) R
          (h ++ tr) w') :
    Foretells docs ref ((Redelivers rt ref profile j₀).before K)
      (do
        let key ← Client.newKey
        let answered ← Client.mutate rt profile j route path (body key) key role none
        k key answered) R h w := by
  refine .bind (.newKey fun value key => .bind ?_)
  refine .mutate hu.identity (fun digest => ?_) fun digest response projection tr w' ha hw' hsent => ?_
  · have hasked := (hu.extend [⟨.identity, value⟩]).extend [wrote ref { j with
      pendingRequest := some (intended route path (body key) key role digest none) }]
    have hbody : (intended route path (body key) key role digest none).body = body key := if_neg hroute
    -- The request is new: either nothing was pending, or the replay came first.
    have hnew : ¬ (commands (h ++ [⟨.identity, value⟩] ++ [wrote ref { j with
        pendingRequest := some (intended route path (body key) key role digest none) }]) = 0 ∧
          j₀.pendingRequest.isSome) := by
      rintro ⟨hnone, hsome⟩
      rcases hasked.sent with hidle | hsent
      · rw [hidle] at hsome
        cases hsome
      · omega
    refine ⟨_, intended route path (body key) key role digest none, plan, planId, rfl, hu.identity,
      rfl, ?_, hu.session, hu.named, hasked.shown, fun hnone hsome _ => absurd ⟨hnone, hsome⟩ hnew,
      fun message => rfl, fun response hresponse => ?_, fun response _ hphase => ?_⟩
    · rw [hbody]
      rfl
    · have hphase := hresponse.resolve_left hnew
      rw [hbody]
      change (_ >>= _) >>= _ = _
      rw [bind_assoc]
      refine Program.bind_congr fun tr answered hrun => ?_
      obtain ⟨projection, ha, rfl⟩ := settle_accepted hrun
      obtain rfl : j.operationRef = ref := hu.identity
      exact hK key digest response projection ⟨ha.bound, ha.projected, ha.room, ha.valid⟩ hphase
    · have hexecute : route = .execute := route_of_attention hphase
      rw [hbody]
      change (_ >>= _) >>= _ = _
      rw [bind_assoc]
      refine Program.bind_congr fun tr answered hrun => ?_
      obtain ⟨projection, ha, rfl⟩ := settle_accepted hrun
      obtain rfl : j.operationRef = ref := hu.identity
      exact hend hexecute key digest response projection ⟨ha.bound, ha.projected, ha.room, ha.valid⟩
        hphase
  · rw [List.append_assoc]
    refine hR key digest response projection _ w' ha (hu.toStanding.recorded hroute ha hw' ?_)
    rw [commands_append]
    omega

/-! ### The commands of apply -/

theorem recorded_phase {p : Pending} {response : Fields} {projection : Projection} :
    (recorded j p response projection).phase = phaseAfter p.routeId response :=
  rfl

theorem recorded_length {p : Pending} {response : Fields} {projection : Projection} :
    (recorded j p response projection).requestHistory.length = j.requestHistory.length + 1 := by
  simp [Client.recorded]

/-- The admission: behind it the claim is due. -/
theorem Underway.admitDeployment {R : Trace → World → Journal → Prop}
    (hu : Underway ref j₀ planId plan h w j)
    (hok : ∀ h' w' j', Underway ref j₀ planId plan h' w' j' →
      j'.coordinates.has .executionRequestId = true → R h' w' j') :
    Foretells docs ref ((Redelivers rt ref profile j₀).before (fromAdmitted rt profile plan planId))
      (Client.admitDeployment rt profile j plan planId) R h w := by
  unfold Client.admitDeployment
  split
  · rename_i hadmitted
    exact .pure (hok h w j hu hadmitted)
  · refine .bind (.lift fun sessionId _ => .bind (.lift fun approvalId _ => ?_))
    have hadmitted : ∀ {p : Pending} {body response : Fields} {projection : Projection},
        p.routeId = .admission → Accepted ref profile j p body response projection →
        (recorded j p response projection).coordinates.has .executionRequestId = true := by
      intro p body response projection hroute ha
      refine ha.valid.required _ ?_
      rw [recorded_phase, hroute]
      change _ ∈ requiredByPhase .admitted
      decide
    refine hu.command CommandRoute.noConfusion (fun key digest response projection ha _ => ?_)
      (fun hroute => CommandRoute.noConfusion hroute)
      fun key digest response projection tr w' ha hu' => .pure (hok _ _ _ hu' (hadmitted rfl ha))
    exact (resumed_admitted Phase.noConfusion Phase.noConfusion (hadmitted rfl ha)).symm

/-- The claim: behind it the run is known. -/
theorem Underway.claimRun {R : Trace → World → Journal → Prop}
    (hu : Underway ref j₀ planId plan h w j)
    (hadmitted : j.coordinates.has .executionRequestId = true)
    (hok : ∀ h' w' j', Underway ref j₀ planId plan h' w' j' →
      j'.coordinates.has .executionRequestId = true → R h' w' j') :
    Foretells docs ref ((Redelivers rt ref profile j₀).before (fromClaimed rt profile plan planId))
      (Client.claimRun rt profile j) R h w := by
  unfold Client.claimRun
  split
  · exact .pure (hok h w j hu hadmitted)
  · refine .bind (.lift fun requestId _ => ?_)
    have hclaimed : ∀ {p : Pending} {body response : Fields} {projection : Projection},
        p.routeId = .claim → Accepted ref profile j p body response projection →
        (recorded j p response projection).coordinates.has .executionRequestId = true ∧
          (recorded j p response projection).coordinates.has .runId = true := by
      intro p body response projection hroute ha
      have hrequired := ha.valid.required
      rw [recorded_phase, hroute] at hrequired
      change ∀ n ∈ requiredByPhase .claimed, _ at hrequired
      exact ⟨hrequired _ (by decide), hrequired _ (by decide)⟩
    refine hu.command CommandRoute.noConfusion (fun key digest response projection ha _ => ?_)
      (fun hroute => CommandRoute.noConfusion hroute)
      fun key digest response projection tr w' ha hu' => .pure (hok _ _ _ hu' (hclaimed rfl ha).1)
    obtain ⟨h₁, h₂⟩ := hclaimed rfl ha
    exact (resumed_claimed Phase.noConfusion Phase.noConfusion h₁ h₂).symm

/-- A response after the claim leaves the run and its claim alone. -/
theorem Journal.Runs.recorded (hruns : j.Runs runId generation) {p : Pending} {body response : Fields}
    {projection : Projection} (hroute : p.routeId ∈ [CommandRoute.start, .execute, .advance])
    (hpath : p.pathParameters.get "run_id" = runId.json)
    (ha : Accepted ref profile j p body response projection) :
    (recorded j p response projection).Runs runId generation := by
  obtain ⟨hprojection, -⟩ := responseCoordinates_ok ha.projected
  have hbound := ha.bound
  have hproj := ha.projected
  rw [← hprojection] at hroute hbound hproj
  cases projection with
  | start runStatus => exact ⟨hruns.admitted, hruns.runId, hruns.generation⟩
  | advance graphId projectionId revision => exact ⟨hruns.admitted, hruns.runId, hruns.generation⟩
  | execute runId' runStatus coordinatorStatus effects activityId =>
    obtain ⟨hrun, -⟩ := responseCoordinates_execute hproj
    obtain ⟨hsame, -⟩ := bound_execute hbound
    have hid : runId' = runId := Coordinate.json_injective (hrun.symm.trans (hsame.trans hpath))
    exact ⟨hruns.admitted, congrArg some hid, hruns.generation⟩
  | _ => simp [Projection.route] at hroute

theorem get_run (workspaceId runId : Coordinate) :
    PathParameters.get [("workspace_id", workspaceId), ("run_id", runId)] "run_id" = runId.json := by
  rfl

/-- The start: behind it the execution is due. -/
theorem Underway.startRun {R : Trace → World → Journal → Prop}
    (hu : Underway ref j₀ planId plan h w j) (hruns : j.Runs runId generation)
    (hok : ∀ h' w' j', Underway ref j₀ planId plan h' w' j' → j'.Runs runId generation → R h' w' j') :
    Foretells docs ref ((Redelivers rt ref profile j₀).before
        (fromStarted rt profile plan planId runId generation))
      (Client.startRun rt profile j runId generation) R h w := by
  unfold Client.startRun
  split
  swap
  · exact .pure (hok h w j hu hruns)
  have hmem : CommandRoute.start ∈ [CommandRoute.start, .execute, .advance] := by decide
  refine hu.command CommandRoute.noConfusion (fun key digest response projection ha _ => ?_)
    (fun hroute => CommandRoute.noConfusion hroute) fun key digest response projection tr w' ha hu' => ?_
  · dsimp only
    rw [if_pos (Json.pyEq_str.mpr (bound_start ha.bound))]
    exact (resumed_started List.mem_cons_self (hruns.recorded hmem (get_run _ _) ha)).symm
  · dsimp only
    rw [if_pos (Json.pyEq_str.mpr (bound_start ha.bound))]
    exact .pure (hok _ _ _ hu' (hruns.recorded hmem (get_run _ _) ha))

/-- The phase behind a step, by its coordinator status. -/
theorem phaseAfter_execute {response : Fields} {status : Coordinate}
    (hstatus : response.get "coordinator_status" = status.json) :
    phaseAfter .execute response = if status.text = "completed" then .executed
      else if status.text = "progressed" then .executing else .attentionRequired := by
  unfold phaseAfter
  simp only [hstatus, Coordinate.json, Json.pyEq_str, Json.str.injEq, Text.utf8.injEq]

theorem not_runs_stop {α : Type} {execution : Execution} {advancement : Advancement} {next : ReadRoute}
    {tr : Trace} {a : α} :
    ¬ (stop rt profile j execution advancement next : Block α).Runs tr (.ok a) := by
  intro hrun
  obtain ⟨result, tr₁, tr₂, -, -, hreturned⟩ := hrun.bind_ok
  cases hreturned

/-- A command whose block goes on has been answered, and the response recorded. -/
theorem mutate_accepted {route : CommandRoute} {path : PathParameters} {body : Fields}
    {key : OperationRef} {role : Role} {source : Option DesiredSource} {tr : Trace}
    {answered : Fields × Journal}
    (hrun : (mutate rt profile j route path body key role source).Runs tr (.ok answered)) :
    ∃ digest response projection,
      Accepted j.operationRef profile j (intended route path body key role digest source) body response
        projection ∧ answered = (response, recorded j (intended route path body key role digest source)
          response projection) := by
  unfold mutate at hrun
  split at hrun
  · exact absurd hrun not_runs_stop
  obtain ⟨digest, tr₁, tr₂, rfl, h₁, hrest⟩ := hrun.bind_ok
  split at hrest
  · cases hrest
  obtain ⟨u, tr₃, tr₄, rfl, h₂, hdispatch⟩ := hrest.bind_ok
  rw [dispatchPending_eq (p := intended route path body key role digest source) rfl] at hdispatch
  cases hdispatch with
  | @perform _ _ a tr _ hrun =>
    cases a with
    | reply response =>
      obtain ⟨projection, ha, rfl⟩ := settle_accepted hrun
      exact ⟨digest, response, projection, ⟨ha.bound, ha.projected, ha.room, ha.valid⟩, rfl⟩
    | _ => cases hrun

/-- The steps left do not matter as long as the history is the narrower bound. -/
theorem executeSteps_steps {steps steps' : ℕ} (hlength : j.requestHistory.length ≤ maximumRequestRecords)
    (hsteps : maximumRequestRecords < j.requestHistory.length + steps)
    (hsteps' : maximumRequestRecords < j.requestHistory.length + steps') :
    executeSteps rt profile runId generation steps j =
      executeSteps rt profile runId generation steps' j := by
  induction steps generalizing steps' j with
  | zero => omega
  | succ steps ih =>
    cases steps' with
    | zero => omega
    | succ steps' =>
      unfold executeSteps
      refine Program.bind_congr fun tr key _ => Program.bind_congr fun tr answered hrun => ?_
      obtain ⟨digest, response, projection, ha, rfl⟩ := mutate_accepted hrun
      have hroom := ha.room
      refine Program.bind_congr fun tr status _ => ?_
      rw [ih (by rw [recorded_length]; omega) (by rw [recorded_length]; omega)
        (by rw [recorded_length]; omega : maximumRequestRecords < _ + steps')]

theorem stop_bind {α β : Type} {execution : Execution} {advancement : Advancement} {next : ReadRoute}
    {f : α → Block β} : (stop rt profile j execution advancement next >>= f) =
      stop rt profile j execution advancement next := by
  unfold stop
  rw [bind_assoc]
  rfl

theorem step_status {response : Fields} {projection : Projection}
    (h : responseCoordinates .execute response = .ok projection) :
    ∃ status, text response "coordinator_status" = .ok status := by
  obtain ⟨runId, -, h⟩ := Raise.bind_eq_ok.mp h
  obtain ⟨runStatus, -, h⟩ := Raise.bind_eq_ok.mp h
  obtain ⟨status, hstatus, -⟩ := Raise.bind_eq_ok.mp h
  exact ⟨status, hstatus⟩

/-- What the loop of the execute steps makes of a response. -/
def afterStep (rt : Runtime) (profile : ClientProfile) (runId : Coordinate) (generation steps : ℕ)
    (executed : Fields) (journal : Journal) : Block Journal := do
  let status ← lift (text executed "coordinator_status")
  if status.text = "completed" then
    if (executed.get "run_status").pyEq (.str "succeeded") then return journal
    else stop rt profile journal .notStarted .notAttempted .planRuns
  else if status.text = "progressed" then executeSteps rt profile runId generation steps journal
  else stop rt profile journal (stoppedExecution status) .notAttempted .runEvents

section AfterStep

variable {p : Pending} {body response : Fields} {projection : Projection} {steps : ℕ}

/-- A step that completes the execution, or progresses, leads on as its replay does. -/
theorem afterStep_resumed (hroute : p.routeId = .execute) (hruns : j.Runs runId generation)
    (hpath : p.pathParameters.get "run_id" = runId.json)
    (ha : Accepted ref profile j p body response projection)
    (hsteps : maximumRequestRecords < j.requestHistory.length + (steps + 1))
    (hphase : phaseAfter p.routeId response ≠ .attentionRequired) :
    (afterStep rt profile runId generation steps response (recorded j p response projection) >>=
        fromExecuted rt profile plan planId runId generation) =
      resumed rt profile plan planId (recorded j p response projection) := by
  have hbound := ha.bound
  have hproj := ha.projected
  have hnext := hruns.recorded (by rw [hroute]; decide) hpath ha
  have hrecorded : (recorded j p response projection).phase = phaseAfter p.routeId response := rfl
  rw [hroute] at hbound hproj hphase hrecorded
  obtain ⟨status, hstatus⟩ := step_status hproj
  rw [phaseAfter_execute (text_ok hstatus)] at hphase hrecorded
  unfold afterStep
  rw [hstatus]
  by_cases hcompleted : status.text = "completed"
  · -- The execution is over, and its run succeeded.
    rw [if_pos hcompleted] at hrecorded
    have hsucceeded := bound_completed hbound (text_ok hstatus) hcompleted
    rw [resumed_executed (by rw [hrecorded]; decide) hnext]
    change ((if _ then _ else _) >>= _) = _
    rw [if_pos hcompleted, if_pos (Json.pyEq_str.mpr hsucceeded)]
    rfl
  · by_cases hprogressed : status.text = "progressed"
    · -- The loop goes on; a replay starts it anew.
      rw [if_neg hcompleted, if_pos hprogressed] at hrecorded
      have hroom := ha.room
      rw [resumed_started (by rw [hrecorded]; decide) hnext]
      unfold fromStarted executeRun
      change ((if _ then _ else _) >>= _) = _
      rw [if_neg hcompleted, if_pos hprogressed, hrecorded, executeSteps_steps
        (by rw [recorded_length]; omega) (by rw [recorded_length]; omega)
        (by rw [recorded_length]; omega :
          maximumRequestRecords < (recorded j p response projection).requestHistory.length +
            maximumRequestRecords)]
      rfl
    · rw [if_neg hcompleted, if_neg hprogressed] at hphase
      exact absurd rfl hphase

/-- Any other step is reported at once. -/
theorem afterStep_ended (hroute : p.routeId = .execute)
    (ha : Accepted ref profile j p body response projection)
    (hphase : phaseAfter p.routeId response = .attentionRequired) {α : Type}
    {f : Journal → Block α} :
    (afterStep rt profile runId generation steps response (recorded j p response projection) >>= f) =
      stop rt profile (recorded j p response projection) (endedExecution response) .notAttempted
        .runEvents := by
  have hproj := ha.projected
  rw [hroute] at hproj hphase
  obtain ⟨status, hstatus⟩ := step_status hproj
  rw [phaseAfter_execute (text_ok hstatus)] at hphase
  unfold afterStep
  rw [endedExecution_text hstatus, hstatus]
  change ((if _ then _ else _) >>= _) = _
  by_cases hcompleted : status.text = "completed"
  · rw [if_pos hcompleted] at hphase
    cases hphase
  · by_cases hprogressed : status.text = "progressed"
    · rw [if_neg hcompleted, if_pos hprogressed] at hphase
      cases hphase
    · rw [if_neg hcompleted, if_neg hprogressed]
      exact stop_bind

end AfterStep

/-- The execution: every step is a command of its own. -/
theorem Underway.executeSteps {steps : ℕ} {R : Trace → World → Journal → Prop}
    (hu : Underway ref j₀ planId plan h w j) (hruns : j.Runs runId generation)
    (hsteps : maximumRequestRecords < j.requestHistory.length + steps)
    (hok : ∀ h' w' j', Underway ref j₀ planId plan h' w' j' → j'.Runs runId generation → R h' w' j') :
    Foretells docs ref ((Redelivers rt ref profile j₀).before
        (fromExecuted rt profile plan planId runId generation))
      (Client.executeSteps rt profile runId generation steps j) R h w := by
  -- a step fills one record, so the loop cannot end before the budget does
  induction steps generalizing h w j with
  | zero => exact .stop
  | succ steps ih =>
    unfold Client.executeSteps
    have hmem : CommandRoute.execute ∈ [CommandRoute.start, .execute, .advance] := by decide
    refine hu.command (k := fun _ answered => afterStep rt profile runId generation steps answered.1
      answered.2) CommandRoute.noConfusion
      (fun key digest response projection ha hphase =>
        afterStep_resumed rfl hruns (get_run _ _) ha hsteps hphase)
      (fun _ key digest response projection ha hphase => afterStep_ended rfl ha hphase)
      fun key digest response projection tr w' ha hu' => ?_
    have hnext := hruns.recorded hmem (get_run _ _) ha
    refine .bind (.lift fun status hstatus => ?_)
    split
    · rename_i hcompleted
      rw [if_pos (Json.pyEq_str.mpr (bound_completed ha.bound (text_ok hstatus) hcompleted))]
      exact .pure (hok _ _ _ hu' hnext)
    split
    · exact ih hu' hnext (by rw [recorded_length]; omega)
    · exact .stop

/-- The execution. -/
theorem Underway.executeRun {R : Trace → World → Journal → Prop}
    (hu : Underway ref j₀ planId plan h w j) (hruns : j.Runs runId generation)
    (hok : ∀ h' w' j', Underway ref j₀ planId plan h' w' j' → j'.Runs runId generation → R h' w' j') :
    Foretells docs ref ((Redelivers rt ref profile j₀).before
        (fromExecuted rt profile plan planId runId generation))
      (Client.executeRun rt profile j runId generation) R h w := by
  unfold Client.executeRun
  split
  · exact .pure (hok h w j hu hruns)
  · have hcounted := hu.counted
    exact hu.executeSteps hruns (by omega) hok

/-- The advancement: behind it the read-back is due. -/
theorem Underway.advanceCurrent {R : Trace → World → Journal → Prop}
    (hu : Underway ref j₀ planId plan h w j) (hruns : j.Runs runId generation)
    (hok : ∀ h' w' j', Underway ref j₀ planId plan h' w' j' → R h' w' j') :
    Foretells docs ref ((Redelivers rt ref profile j₀).before fun j => readBack rt profile j plan)
      (Client.advanceCurrent rt profile j plan planId runId generation) R h w := by
  unfold Client.advanceCurrent
  split
  · exact .pure (hok h w j hu)
  have hblock : Reads (do
      let workspace ← readWorkspace profile j.operationRef
      Client.lift (currentPointer workspace)) :=
    (reads_readWorkspace profile _).bind fun _ => .lift _
  refine .bind (.exceptUnresolved hblock (fun tr current _ _ => ?_) fun _ _ => .stop)
  cases current with
  | none => exact .stop
  | some current =>
    refine .bind (.lift fun baseGraphId _ => .bind (.lift fun baseProjectionId _ => ?_))
    split
    · exact .stop
    refine .bind (.lift fun graphId _ => .bind (.lift fun projectionId _ => .bind (.lift
      fun revision _ => ?_)))
    have hmem : CommandRoute.advance ∈ [CommandRoute.start, .execute, .advance] := by decide
    refine (hu.extend tr).command CommandRoute.noConfusion
      (fun key digest response projection ha _ => ?_) (fun hroute => CommandRoute.noConfusion hroute)
      fun key digest response projection tr w' ha hu' => .pure (hok _ _ _ hu')
    exact (resumed_advanced rfl (hruns.recorded hmem (get_run _ _) ha)).symm

/-- The part of `apply` from the admission on. -/
theorem Underway.applyFromAdmission (hu : Underway ref j₀ planId plan h w j) :
    Foretells docs ref (Redelivers rt ref profile j₀)
      (Client.applyFromAdmission rt profile j plan planId) (fun _ _ _ => True) h w := by
  refine .bind (p := Client.admitDeployment rt profile j plan planId) (hu.admitDeployment
    fun h w j hu hadmitted => .bind (hu.claimRun hadmitted fun h w j hu hadmitted => ?_))
  refine .bind (.lift fun runId hrunId => .bind (.lift fun generation hgeneration => ?_))
  have hruns : j.Runs runId generation :=
    ⟨hadmitted, textJson_injective (textCoordinate_ok hrunId), hgeneration⟩
  refine .bind (hu.startRun hruns fun h w j hu hruns => .bind (hu.executeRun hruns
    fun h w j hu hruns => .bind (hu.advanceCurrent hruns fun h w j hu => ?_)))
  obtain rfl : j.operationRef = ref := hu.identity
  have hreads := reads_readPublic profile j.operationRef .currentGraph (workspacePath profile) []
  unfold Client.readBack
  refine .bind (.exceptUnresolved hreads (fun tr observed _ _ => ?_) fun _ _ => .stop)
  split
  · exact .bind (.writeJournal fun _ => .pure trivial)
  · exact .stop

/-- The approval decision: behind it the admission is due. -/
theorem Underway.decideIf {decides : Bool} (hu : Underway ref j₀ planId plan h w j)
    {R : Trace → World → Journal → Prop}
    (hok : ∀ h' w' j', Underway ref j₀ planId plan h' w' j' → R h' w' j') :
    Foretells docs ref ((Redelivers rt ref profile j₀).before
        fun j => Client.applyFromAdmission rt profile j plan planId)
      (Client.decideIf rt profile decides j plan) R h w := by
  unfold Client.decideIf
  split
  swap
  · exact .pure (hok h w j hu)
  unfold decideApproval
  split
  · exact .raise
  refine .bind (.lift fun sessionId _ => ?_)
  refine hu.command CommandRoute.noConfusion (fun key digest response projection ha _ => ?_)
    (fun hroute => CommandRoute.noConfusion hroute) fun key digest response projection tr w' ha hu' => ?_
  · dsimp only
    rw [if_pos (Json.pyEq_str.mpr (bound_decide ha.bound))]
    exact (resumed_open Phase.noConfusion Phase.noConfusion).symm
  · dsimp only
    rw [if_pos (Json.pyEq_str.mpr (bound_decide ha.bound))]
    exact .pure (hok _ _ _ hu')

/-! ### The whole invocation -/

/-- Behind its gates an `apply` replays what is pending and goes on. -/
theorem Standing.applyCommands {approvalPending : Bool} (hs : Standing ref planId plan h w j)
    (hunsent : commands h = 0) (hpending : j.pendingRequest = j₀.pendingRequest)
    (hsame : j₀.coordinates.has .sessionId = true → j = j₀)
    (hprepare : ∀ p, j.pendingRequest = some p → p.routeId ≠ .prepare) :
    Foretells docs ref (Redelivers rt ref profile j₀)
      (Client.applyCommands rt profile j plan planId approvalPending) (fun _ _ _ => True) h w := by
  have hrest : ∀ {decides : Bool} {h : Trace} {w : World} {j : Journal},
      Underway ref j₀ planId plan h w j → Foretells docs ref (Redelivers rt ref profile j₀)
        (do
          stopIfOver profile j
          let journal ← Client.decideIf rt profile decides j plan
          Client.applyFromAdmission rt profile journal plan planId) (fun _ _ _ => True) h w := by
    intro decides h w j hu
    refine .bind ?_
    unfold stopIfOver
    split
    · exact .returnNow
    split
    · exact .returnNow
    · exact .pure (.bind (hu.decideIf fun h w j hu => hu.applyFromAdmission))
  unfold Client.applyCommands
  cases hp : j.pendingRequest with
  | none =>
    unfold recoverPending
    rw [hp]
    exact hrest ⟨hs, .inl (hpending.symm.trans hp)⟩
  | some p =>
    unfold recoverPending replayPending replayBody
    rw [hp]
    simp only [Option.isSome_some, Option.isNone_some, Bool.and_false, if_true,
      if_neg (hprepare p hp)]
    refine .bind (.bind (.bind (.pure (.bind (.lift fun digest hdigest => ?_)))))
    split
    · exact .stop
    refine .dispatchPending hs.identity hp ?_ fun response projection tr w' ha hw' hsent =>
      .pure (hrest (hs.recorded (hprepare p hp) ha hw' hsent))
    refine ⟨j, p, plan, planId, hs.durable, hs.identity, hp, rfl, hs.session, hs.named, hs.shown,
      fun _ _ => hsame, fun message => rfl, fun response _ => ?_, fun response hnew _ => ?_⟩
    swap
    · exact absurd ⟨hunsent, by rw [← hpending, hp]; rfl⟩ hnew
    change (_ >>= _) >>= _ = _
    rw [bind_assoc]
    rfl

/-- A journal with a plan has recorded its preparation. -/
theorem JournalInv.counted (hj : JournalInv ref j) (hplan : j.coordinates.planId = some planId) :
    0 < j.requestHistory.length := by
  obtain ⟨phase, htrace, hsettles⟩ := hj.trace
  by_contra hnone
  rw [List.length_eq_zero_iff.mp (by omega : j.requestHistory.length = 0)] at htrace
  obtain rfl : phase = .planning := (Option.some.inj htrace).symm
  have hphase : j.phase = .planning := by
    generalize j.phase = phase at hsettles
    cases hsettles
    rfl
  have habsent := hj.valid.planning hphase .planId
  simp [Coordinates.has, Coordinates.value?, hplan] at habsent

/-- The gates of `apply` dispatch nothing, and what follows them is `applyCommands`. -/
theorem Standing.gates (hs : Standing ref planId plan h w j) (hunsent : commands h = 0)
    (hpending : j.pendingRequest = j₀.pendingRequest)
    (hsame : j₀.coordinates.has .sessionId = true → j = j₀)
    (hprepare : ∀ p, j.pendingRequest = some p → p.routeId ≠ .prepare) :
    Foretells docs ref (Redelivers rt ref profile j₀)
      (do
        let approvalPending ← approvalGate rt profile j plan planId args
        progressGate rt profile j
        Client.applyCommands rt profile j plan planId approvalPending) (fun _ _ _ => True) h w := by
  -- The gates read only, so the journal stands as before behind them.
  have hprogress : ∀ {h : Trace} {flag : Bool}, Standing ref planId plan h w j → commands h = 0 →
      Foretells docs ref (Redelivers rt ref profile j₀)
        (do
          progressGate rt profile j
          Client.applyCommands rt profile j plan planId flag) (fun _ _ _ => True) h w := by
    intro h flag hs hunsent
    unfold progressGate
    refine .bind ?_
    split
    swap
    · exact .pure (hs.applyCommands hunsent hpending hsame hprepare)
    refine .bind (.reads (reads_publicStatus rt profile j).neutral fun tr observed _ hcount => ?_)
    split
    · exact .returnNow
    split
    · exact .stop
    split
    · exact .stop
    · exact .pure ((hs.extend tr).applyCommands (by rw [commands_append, hunsent, hcount]) hpending
        hsame hprepare)
  refine .bind ?_
  unfold approvalGate
  split
  · exact .pure (hprogress hs hunsent)
  rename_i approvalId _
  have hblock : Reads (do
      let approval ← approvalDetail profile j.operationRef approvalId
      Client.lift (validateApproval plan approvalId approval)
      return approval) :=
    (reads_approvalDetail profile _ _).bind fun _ => (Reads.lift _).bind fun _ => .pure _
  refine .bind (.exceptUnresolved hblock (fun tr approval _ hcount => ?_) fun _ _ => .stop)
  have hgo : ∀ flag, Foretells docs ref (Redelivers rt ref profile j₀)
      (do
        progressGate rt profile j
        Client.applyCommands rt profile j plan planId flag) (fun _ _ _ => True) (h ++ tr) w :=
    fun _ => hprogress (hs.extend tr) (by rw [commands_append, hunsent, hcount])
  split
  · refine .bind (.lift fun destructive _ => ?_)
    dsimp only
    generalize (if destructive = true then args.approveDestructivePlan else args.approvePlan) = supplied
    generalize (if destructive = true then args.approvePlan else args.approveDestructivePlan) = wrong
    split
    · exact .raise
    split
    · exact .raise
    split
    · exact .stop
    · exact .pure (hgo true)
  split
  · exact .pure (hgo false)
  · exact .stop

/-- `apply` inside the lock. -/
theorem foretells_applyLocked (hj : w.journal = some j₀) (hinv : JournalInv ref j₀)
    (hunsent : commands h = 0) :
    Foretells docs ref (Redelivers rt ref profile j₀) (applyLocked rt profile ref args)
      (fun _ _ _ => True) h w := by
  have hidentity : j₀.operationRef = ref := hinv.valid.identity
  unfold applyLocked load readJournal
  refine .bind (.bind (.perform trivial fun a w' hanswer => ?_))
  obtain ⟨rfl, hfound⟩ := hanswer
  cases a with
  | failed message => exact .raise
  | found j =>
  obtain rfl : j₀ = j := Option.some.inj (hj.symm.trans (hfound rfl j rfl))
  refine .bind (.lift fun _ _ => .pure ?_)
  split
  · exact .raise
  refine .pure ?_
  have hloaded : commands (h ++ [⟨.read ref, .found j₀⟩]) = 0 := by
    rw [commands_append, hunsent]
    rfl
  split
  · exact .raise
  rename_i hprepare
  refine .bind (.lift fun planId hplanId => ?_)
  have hplanId : j₀.coordinates.planId = some planId := textJson_injective (textCoordinate_ok hplanId)
  split
  · exact .raise
  -- The plan is read first, and it is the plan of the rest.
  have hplan : Reads (do
      let plan ← planDetail profile j₀.operationRef planId
      Client.lift (validatePlan j₀ plan)
      return plan) :=
    (reads_planDetail profile _ _).bind fun _ => (Reads.lift _).bind fun _ => .pure _
  refine .bind (.exceptUnresolved hplan (fun tr plan hr hcount => ?_) fun _ _ => .stop)
  have hshown : ∃ e ∈ tr, ShowsPlan planId plan e := by
    obtain ⟨plan', tr₁, tr₂, rfl, h₁, h₂⟩ := hr.bind_ok
    obtain ⟨u, tr₃, tr₄, rfl, h₃, h₄⟩ := h₂.bind_ok
    obtain ⟨rfl, rfl⟩ := runs_pure_ok.mp h₄
    obtain ⟨e, rfl, hshown⟩ := runs_planDetail_ok h₁
    exact ⟨e, by simp, hshown⟩
  have hagrees : PlanAgrees j₀ plan := by
    obtain ⟨plan', tr₁, tr₂, -, -, h₂⟩ := hr.bind_ok
    obtain ⟨u, tr₃, tr₄, -, h₃, h₄⟩ := h₂.bind_ok
    obtain ⟨-, rfl⟩ := runs_pure_ok.mp h₄
    exact validatePlan_ok.mp (runs_lift_ok.mp h₃).2
  have hcounted := hinv.counted hplanId
  have hprepare : ∀ p, j₀.pendingRequest = some p → p.routeId ≠ .prepare := by
    intro p hp hroute
    rw [hp, Option.map_some, hroute] at hprepare
    exact hprepare rfl
  have hshown' : ∀ tr', ∃ e ∈ h ++ [⟨.read ref, .found j₀⟩] ++ tr ++ tr', ShowsPlan planId plan e := by
    obtain ⟨e, he, hshown⟩ := hshown
    exact fun tr' => ⟨e, List.mem_append_left _ (List.mem_append_right _ he), hshown⟩
  have hread : commands (h ++ [⟨.read ref, .found j₀⟩] ++ tr) = 0 := by
    rw [commands_append, hloaded, hcount]
  refine .bind ?_
  unfold retainPlan
  split
  · rename_i hsession
    refine .pure (Standing.gates ⟨hj, hidentity, hsession, hplanId, ?_, hcounted⟩ hread rfl
      (fun _ => rfl) hprepare)
    simpa using hshown' []
  · rename_i hsession
    refine .bind (.lift fun c hc => ?_)
    have hvalue := (recordPlan_value hc).1
    have hsession' : c.has .sessionId = true := by
      rw [Coordinates.has, hvalue .sessionId (by decide)]
      rfl
    have hnamed : c.planId = some planId := by
      have hsame := hagrees .planId (by decide) (by
        simp [Coordinates.has, Coordinates.value?, hplanId])
      rw [Coordinates.pyEq_get rfl] at hsame
      have hget : (c.planId.map Coordinate.json) = some planId.json := by
        refine (hvalue .planId (by decide)).trans (congrArg some (hsame.trans ?_))
        simp [Coordinates.get, Coordinates.value?, hplanId]
      obtain ⟨v, hv, hjson⟩ := Option.map_eq_some_iff.mp hget
      rw [hv, Coordinate.json_injective hjson]
    subst hidentity
    refine .bind (.writeJournal fun _ => .pure (Standing.gates ⟨rfl, rfl, hsession', hnamed,
      hshown' _, hcounted⟩ ?_ rfl (fun h => absurd h hsession) hprepare))
    rw [commands_append, hread]
    rfl

end Client

end ControlPlaneKit
