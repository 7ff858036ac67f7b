import ControlPlaneKit.Interaction.Runs
import ControlPlaneKit.Python.Codes
import ControlPlaneKit.Python.Dumps

/-!
# Phase reporting

`run_source_live_phases` runs the phases of a scenario in order and writes an append-only ledger of
records. The first phase to fail ends the run: the phases after it are skipped, the cleanup is
called once, and the primary failure is raised whatever the cleanup did.
`runSourceLivePhases_story` says that the ledger of every run tells which of the two ways it went.
-/

namespace ControlPlaneKit

namespace SourceLive

namespace Phases

open Interaction Program

/-! ### Bounded names and evidence -/

/-- A character of `[a-z0-9]`. -/
def isNameStart (c : Char) : Bool :=
  ('a' ≤ c && c ≤ 'z') || ('0' ≤ c && c ≤ '9')

/-- `_NAME.fullmatch`: `[a-z0-9][a-z0-9._-]{0,127}`. -/
def isName : List Char → Bool :=
  isBounded isNameStart (fun c => isNameStart c || "._-".toList.contains c) 127

/-- What `_bounded_name` returns. -/
structure BoundedName where
  text : String
  bounded : isName text.toList = true
deriving DecidableEq

/-- A character of `[A-Za-z0-9]`. -/
def isIdentifierStart (c : Char) : Bool :=
  isNameStart c || ('A' ≤ c && c ≤ 'Z')

/-- `_IDENTIFIER.fullmatch`: `[A-Za-z0-9][-A-Za-z0-9._:/]{0,255}`. -/
def isIdentifier : List Char → Bool :=
  isBounded isIdentifierStart (fun c => isIdentifierStart c || "._:-/".toList.contains c) 255

/-- `_UNSAFE_MARKERS`. -/
def unsafeMarkers : List String :=
  ["secret://", "bearer ", "private key", "begin private", "password"]

/-- `marker in text`. -/
def occursIn (marker text : List Char) : Bool :=
  text.tails.any marker.isPrefixOf

/-- What `_bounded_identifier` returns; an identifier is ASCII, so `lower` is that of ASCII. -/
structure BoundedIdentifier where
  text : String
  bounded : isIdentifier text.toList = true
  safe : unsafeMarkers.any (fun marker =>
    occursIn marker.toList (text.toList.map Char.toLower)) = false
deriving DecidableEq

/-- `_KEY_STATUSES`. -/
inductive KeyStatus where
  | active
  | verifyOnly
  | retired
  | revoked
deriving DecidableEq

def KeyStatus.text : KeyStatus → String
  | .active => "active"
  | .verifyOnly => "verify-only"
  | .retired => "retired"
  | .revoked => "revoked"

/-- `_ACCESS_PATHS`. -/
inductive AccessPath where
  | runtimePrivate
  | namedPublicIngress
deriving DecidableEq

def AccessPath.text : AccessPath → String
  | .runtimePrivate => "runtime-private"
  | .namedPublicIngress => "named-public-ingress"

/-- `_COMPONENT_HEALTH`. -/
inductive ComponentHealth where
  | unknown
  | starting
  | healthy
  | degraded
  | unhealthy
  | absent
deriving DecidableEq

def ComponentHealth.text : ComponentHealth → String
  | .unknown => "unknown"
  | .starting => "starting"
  | .healthy => "healthy"
  | .degraded => "degraded"
  | .unhealthy => "unhealthy"
  | .absent => "absent"

/-- `_RESOURCE_STAGES`. -/
inductive ResourceStage where
  | planned
  | creating
  | active
  | removing
  | removed
  | uncertain
deriving DecidableEq

def ResourceStage.text : ResourceStage → String
  | .planned => "planned"
  | .creating => "creating"
  | .active => "active"
  | .removing => "removing"
  | .removed => "removed"
  | .uncertain => "uncertain"

structure SourceLivePhaseEvidence where
  operationId : Option BoundedIdentifier := none
  sessionId : Option BoundedIdentifier := none
  runId : Option BoundedIdentifier := none
  currentGraphId : Option BoundedIdentifier := none
  keyId : Option BoundedIdentifier := none
  keyStatus : Option KeyStatus := none
  accessPath : Option AccessPath := none
  componentHealth : Option ComponentHealth := none
  resourceStage : Option ResourceStage := none
deriving DecidableEq

/-- One item of a descriptor, left out where it is `None`. -/
def describe (key : String) (value : Option String) : Fields :=
  (value.map fun text => ((key : Text), Json.str text)).toList

/-- `descriptor`. -/
def SourceLivePhaseEvidence.descriptor (e : SourceLivePhaseEvidence) : Fields :=
  describe "operation_id" (e.operationId.map (·.text)) ++
  describe "session_id" (e.sessionId.map (·.text)) ++
  describe "run_id" (e.runId.map (·.text)) ++
  describe "current_graph_id" (e.currentGraphId.map (·.text)) ++
  describe "key_id" (e.keyId.map (·.text)) ++
  describe "key_status" (e.keyStatus.map (·.text)) ++
  describe "access_path" (e.accessPath.map (·.text)) ++
  describe "component_health" (e.componentHealth.map (·.text)) ++
  describe "resource_stage" (e.resourceStage.map (·.text))

/-! ### The ledger -/

/-- The statuses of a record. -/
inductive Status where
  | started
  | succeeded
  | failed
  | skipped
deriving DecidableEq

def Status.text : Status → String
  | .started => "started"
  | .succeeded => "succeeded"
  | .failed => "failed"
  | .skipped => "skipped"

/-- What a record says, its sequence number aside. -/
structure Entry where
  phase : BoundedName
  component : BoundedName
  status : Status
  evidence : Option SourceLivePhaseEvidence := none
  errorCode : Option BoundedName := none
deriving DecidableEq

/-- A record of the ledger. -/
structure Record where
  sequence : ℕ
  entry : Entry
deriving DecidableEq

/-- The item for the evidence, left out where it is empty. -/
def describeEvidence : Option SourceLivePhaseEvidence → Fields
  | some evidence =>
    if evidence.descriptor.isEmpty then [] else [("evidence", .obj evidence.descriptor)]
  | none => []

/-- The descriptor that `_emit` builds. -/
def Record.descriptor (r : Record) : Fields :=
  ([("schema", .str "cpk.source-live-phase"), ("sequence", .int r.sequence),
    ("phase", .str r.entry.phase.text), ("status", .str r.entry.status.text),
    ("component", .str r.entry.component.text)] : Fields) ++
  describeEvidence r.entry.evidence ++ describe "error_code" (r.entry.errorCode.map (·.text))

/-- The line that `_emit` writes; a descriptor holds no floats. -/
def Record.line (r : Record) : List Char :=
  Json.dumps (fun _ => []) (.obj r.descriptor) ++ ['\n']

/-! ### Calls to the outside -/

/-- What a callable raises. -/
inductive Thrown where
  | invariant (code : BoundedName)
  | exception
deriving DecidableEq

/-- `SourceLiveRunFailed`, or an index out of range. -/
inductive Failure where
  | runFailed (primaryCode : BoundedName) (cleanupCode : Option BoundedName)
  | indexError
deriving DecidableEq

/-- How the action of a phase ends. -/
inductive ActionOutcome where
  | evidence (evidence : SourceLivePhaseEvidence)
  | wrongType
  | raised (thrown : Thrown)
deriving DecidableEq

/-- How the cleanup ends. -/
inductive CleanupOutcome where
  | returned
  | raised (thrown : Thrown)
deriving DecidableEq

section Ledger

variable {α : Type}

/-- A phase, with a handle to its action. -/
structure SourceLivePhase (α : Type) where
  name : BoundedName
  component : BoundedName
  action : α

/-- The calls of a run. -/
inductive Call (α : Type) where
  | action (handle : α)
  | cleanup
  | write (line : List Char)
  | flush

/-- The answers to a call; what is written is written. -/
@[reducible]
def Call.Answer : Call α → Type
  | .action _ => ActionOutcome
  | .cleanup => CleanupOutcome
  | .write _ => Unit
  | .flush => Unit

/-- `_emit`, from the sequence number of the last record to that of the new one. -/
def emit (sequence : ℕ) (entry : Entry) : Program (Call α) Call.Answer Failure ℕ :=
  .perform (.write (Record.line ⟨sequence + 1, entry⟩)) fun _ =>
    .perform .flush fun _ => .pure (sequence + 1)

/-- `ledger.started`. -/
def started (phase component : BoundedName) : Entry :=
  { phase := phase, component := component, status := .started }

/-- `ledger.succeeded`. -/
def succeeded (phase component : BoundedName) (evidence : SourceLivePhaseEvidence) : Entry :=
  { phase := phase, component := component, status := .succeeded, evidence := some evidence }

/-- `ledger.failed`. -/
def failed (phase component errorCode : BoundedName) : Entry :=
  { phase := phase, component := component, status := .failed, errorCode := some errorCode }

/-- `ledger.skipped`. -/
def skipped (phase component errorCode : BoundedName) : Entry :=
  { phase := phase, component := component, status := .skipped, errorCode := some errorCode }

/-! ### The run -/

/-- The constants of the source. -/
def phaseResultMalformed : BoundedName := ⟨"phase-result-malformed", by decide⟩
def unexpectedError : BoundedName := ⟨"unexpected-error", by decide⟩
def priorPhaseFailed : BoundedName := ⟨"prior-phase-failed", by decide⟩
def unexpectedCleanupError : BoundedName := ⟨"unexpected-cleanup-error", by decide⟩
def abortCleanup : BoundedName := ⟨"abort-cleanup", by decide⟩
def cpkServer : BoundedName := ⟨"cpk-server", by decide⟩

/-- The body of the `try` over an action. -/
def callAction (action : α) : Program (Call α) Call.Answer Thrown SourceLivePhaseEvidence :=
  .perform (.action action) fun
    | .evidence evidence => .pure evidence
    | .wrongType => .raise (.invariant phaseResultMalformed)
    | .raised thrown => .raise thrown

/-- The body of the `try` over the cleanup. -/
def callCleanup : Program (Call α) Call.Answer Thrown Unit :=
  .perform .cleanup fun
    | .returned => .pure ()
    | .raised thrown => .raise thrown

/-- The loop over the phases after the failed one. -/
def skipPhases : List (SourceLivePhase α) → ℕ → Program (Call α) Call.Answer Failure ℕ
  | [], sequence => .pure sequence
  | phase :: phases, sequence => do
    let sequence ← emit sequence (skipped phase.name phase.component priorPhaseFailed)
    skipPhases phases sequence

/-- The code of a failed cleanup. -/
def cleanupCode : Program (Call α) Call.Answer Failure (Option BoundedName) :=
  (callCleanup >>= fun _ => .pure none).handle fun
    | .invariant code => .pure (some code)
    | .exception => .pure (some unexpectedCleanupError)

/-- `_finish_failed_run`. -/
def finishFailedRun (phases : List (SourceLivePhase α)) (failedIndex : ℕ)
    (primaryCode : BoundedName) (sequence : ℕ) :
    Program (Call α) Call.Answer Failure SourceLivePhaseEvidence :=
  match phases[failedIndex]? with
  | none => .raise .indexError
  | some failedPhase => do
    let sequence ← emit sequence (failed failedPhase.name failedPhase.component primaryCode)
    let sequence ← skipPhases (phases.drop (failedIndex + 1)) sequence
    let sequence ← emit sequence (started abortCleanup cpkServer)
    let code ← cleanupCode
    match code with
    | none =>
      let _ ← emit sequence (succeeded abortCleanup cpkServer { resourceStage := some .removed })
      .raise (.runFailed primaryCode none)
    | some code =>
      let _ ← emit sequence (failed abortCleanup cpkServer code)
      .raise (.runFailed primaryCode (some code))

/-- The `except` clauses over an action. -/
def handleThrown (phases : List (SourceLivePhase α)) (index sequence : ℕ) :
    Thrown → Program (Call α) Call.Answer Failure SourceLivePhaseEvidence
  | .invariant code => finishFailedRun phases index code sequence
  | .exception => finishFailedRun phases index unexpectedError sequence

/-- The loop of `run_source_live_phases`, over the phases from an index on. -/
def runFrom (phases : List (SourceLivePhase α)) : List (SourceLivePhase α) → ℕ → ℕ →
    List SourceLivePhaseEvidence →
    Program (Call α) Call.Answer Failure (List SourceLivePhaseEvidence)
  | [], _, _, completed => .pure completed
  | phase :: rest, index, sequence, completed => do
    let sequence ← emit sequence (started phase.name phase.component)
    let evidence ← (callAction phase.action).handle (handleThrown phases index sequence)
    let sequence ← emit sequence (succeeded phase.name phase.component evidence)
    runFrom phases rest (index + 1) sequence (completed ++ [evidence])

/-- `run_source_live_phases`, on a fresh ledger. -/
def runSourceLivePhases (phases : List (SourceLivePhase α)) :
    Program (Call α) Call.Answer Failure (List SourceLivePhaseEvidence) :=
  runFrom phases phases 0 0 []

/-! ### What a run leaves -/

/-- The events of a run. -/
abbrev Trace (α : Type) := List (Event (Call α) Call.Answer)

/-- The lines that were written. -/
def written (tr : Trace α) : List (List Char) :=
  tr.filterMap fun
    | ⟨.write line, _⟩ => some line
    | _ => none

/-- The actions that were called, with what they did. -/
def actionsOf (tr : Trace α) : List (α × ActionOutcome) :=
  tr.filterMap fun
    | ⟨.action action, outcome⟩ => some (action, outcome)
    | _ => none

/-- The calls of the cleanup, with what they did. -/
def cleanupsOf (tr : Trace α) : List CleanupOutcome :=
  tr.filterMap fun
    | ⟨.cleanup, outcome⟩ => some outcome
    | _ => none

/-- The code of what a callable raises. -/
def Thrown.code (unexpected : BoundedName) : Thrown → BoundedName
  | .invariant code => code
  | .exception => unexpected

/-- The primary code of a phase whose action ends so; none where it returns evidence. -/
def ActionOutcome.code? : ActionOutcome → Option BoundedName
  | .evidence _ => none
  | .wrongType => some phaseResultMalformed
  | .raised thrown => some (thrown.code unexpectedError)

/-- The code of a cleanup that ends so; none where it returns. -/
def CleanupOutcome.code? : CleanupOutcome → Option BoundedName
  | .returned => none
  | .raised thrown => some (thrown.code unexpectedCleanupError)

/-- The record that ends the cleanup. -/
def cleanupEntry : Option BoundedName → Entry
  | none => succeeded abortCleanup cpkServer { resourceStage := some .removed }
  | some code => failed abortCleanup cpkServer code

/-- The records of phases that succeeded. -/
def succeededEntries (phases : List (SourceLivePhase α)) (evidence : List SourceLivePhaseEvidence) :
    List Entry :=
  (List.zipWith (fun phase e => [started phase.name phase.component,
    succeeded phase.name phase.component e]) phases evidence).flatten

/-- The calls of the actions of phases that succeeded. -/
def succeededActions (phases : List (SourceLivePhase α)) (evidence : List SourceLivePhaseEvidence) :
    List (α × ActionOutcome) :=
  List.zipWith (fun phase e => (phase.action, .evidence e)) phases evidence

/-- The records of phases that were skipped. -/
def skippedEntries (phases : List (SourceLivePhase α)) : List Entry :=
  phases.map fun phase => skipped phase.name phase.component priorPhaseFailed

/-- The records of these entries, after a sequence number. -/
def number (sequence : ℕ) (entries : List Entry) : List Record :=
  (entries.zipIdx (sequence + 1)).map fun numbered => ⟨numbered.2, numbered.1⟩

/-- What part of a run tells: its records after a sequence number, and its calls. -/
structure Tells (tr : Trace α) (sequence : ℕ) (entries : List Entry)
    (actions : List (α × ActionOutcome)) (cleanups : List CleanupOutcome) : Prop where
  written : written tr = (number sequence entries).map Record.line
  actions : actionsOf tr = actions
  cleanups : cleanupsOf tr = cleanups

section Tells

variable {tr tr' : Trace α} {sequence : ℕ} {entries entries' : List Entry}
  {actions actions' : List (α × ActionOutcome)} {cleanups cleanups' : List CleanupOutcome}

theorem map_sequence_number :
    (number sequence entries).map (·.sequence) = List.range' (sequence + 1) entries.length := by
  rw [number, List.map_map, ← List.zipIdx_map_snd]
  rfl

theorem map_entry_number : (number sequence entries).map (·.entry) = entries := by
  rw [number, List.map_map]
  exact List.zipIdx_map_fst _ _

theorem number_append : number sequence (entries ++ entries') =
    number sequence entries ++ number (sequence + entries.length) entries' := by
  rw [number, number, number, List.zipIdx_append, List.map_append, Nat.add_right_comm]

theorem tells_nil : Tells ([] : Trace α) sequence [] [] [] :=
  ⟨rfl, rfl, rfl⟩

theorem Tells.append (h : Tells tr sequence entries actions cleanups)
    (h' : Tells tr' (sequence + entries.length) entries' actions' cleanups') :
    Tells (tr ++ tr') sequence (entries ++ entries') (actions ++ actions')
      (cleanups ++ cleanups') where
  written := by
    rw [number_append, List.map_append, ← h.written, ← h'.written]
    exact List.filterMap_append
  actions := by
    rw [← h.actions, ← h'.actions]
    exact List.filterMap_append
  cleanups := by
    rw [← h.cleanups, ← h'.cleanups]
    exact List.filterMap_append

theorem tells_action (action : α) (outcome : ActionOutcome) :
    Tells [⟨.action action, outcome⟩] sequence [] [(action, outcome)] [] :=
  ⟨rfl, rfl, rfl⟩

theorem tells_cleanup (outcome : CleanupOutcome) :
    Tells ([⟨.cleanup, outcome⟩] : Trace α) sequence [] [] [outcome] :=
  ⟨rfl, rfl, rfl⟩

end Tells

/-! ### Runs -/

section Runs

variable {phases rest before : List (SourceLivePhase α)} {phase : SourceLivePhase α} {action : α}
  {tr : Trace α} {sequence index : ℕ} {entry : Entry} {code : BoundedName}

theorem runs_emit_bind {β : Type} {f : ℕ → Program (Call α) Call.Answer Failure β}
    {r : Except Failure β} (h : (emit sequence entry >>= f).Runs tr r) :
    ∃ tr₁ tr₂, tr = tr₁ ++ tr₂ ∧ Tells tr₁ sequence [entry] [] [] ∧
      (f (sequence + 1)).Runs tr₂ r := by
  cases h with
  | perform h =>
    cases h with
    | perform h => exact ⟨[_, _], _, rfl, ⟨rfl, rfl, rfl⟩, h⟩

/-- A last record before an exception. -/
theorem runs_emit_raise {β : Type} {e : Failure} {r : Except Failure β}
    (h : (emit sequence entry >>= fun _ => .raise e).Runs tr r) :
    Tells tr sequence [entry] [] [] ∧ r = .error e := by
  obtain ⟨tr₁, tr₂, rfl, htold, h⟩ := runs_emit_bind h
  cases h
  exact ⟨htold.append tells_nil, rfl⟩

theorem runs_skipPhases_bind {β : Type} {f : ℕ → Program (Call α) Call.Answer Failure β}
    {r : Except Failure β} (h : (skipPhases phases sequence >>= f).Runs tr r) :
    ∃ tr₁ tr₂, tr = tr₁ ++ tr₂ ∧ Tells tr₁ sequence (skippedEntries phases) [] [] ∧
      (f (sequence + (skippedEntries phases).length)).Runs tr₂ r := by
  induction phases generalizing sequence tr with
  | nil => exact ⟨[], tr, rfl, tells_nil, h⟩
  | cons phase phases ih =>
    rw [skipPhases, bind_assoc] at h
    obtain ⟨tr₁, tr₂, rfl, htold, h⟩ := runs_emit_bind h
    obtain ⟨tr₂, tr₃, rfl, hrest, h⟩ := ih h
    refine ⟨tr₁ ++ tr₂, tr₃, (List.append_assoc ..).symm, htold.append hrest, ?_⟩
    rwa [Nat.add_assoc, Nat.add_comm 1] at h

theorem runs_cleanupCode_bind {β : Type}
    {f : Option BoundedName → Program (Call α) Call.Answer Failure β} {r : Except Failure β}
    (h : (cleanupCode >>= f).Runs tr r) :
    ∃ outcome tr₂, tr = ⟨.cleanup, outcome⟩ :: tr₂ ∧ (f outcome.code?).Runs tr₂ r := by
  cases h with
  | @perform _ _ outcome _ _ h =>
    refine ⟨outcome, _, rfl, ?_⟩
    cases outcome with
    | returned => exact h
    | raised thrown =>
      cases thrown with
      | invariant code => exact h
      | exception => exact h

/-- The records of a run that failed, from the failure on. -/
def failedEntries (phase : SourceLivePhase α) (later : List (SourceLivePhase α))
    (code : BoundedName) (cleanupCode : Option BoundedName) : List Entry :=
  failed phase.name phase.component code :: skippedEntries later ++
    [started abortCleanup cpkServer, cleanupEntry cleanupCode]

/-- A failed run skips the later phases, cleans up once and keeps the primary code. -/
theorem runs_finishFailedRun {r : Except Failure SourceLivePhaseEvidence}
    (hphase : phases[index]? = some phase)
    (h : (finishFailedRun phases index code sequence).Runs tr r) :
    ∃ outcome, Tells tr sequence
        (failedEntries phase (phases.drop (index + 1)) code outcome.code?) [] [outcome] ∧
      r = .error (.runFailed code outcome.code?) := by
  rw [finishFailedRun, hphase] at h
  obtain ⟨tr₁, tr₂, rfl, hfailed, h⟩ := runs_emit_bind h
  obtain ⟨tr₂, tr₃, rfl, hskipped, h⟩ := runs_skipPhases_bind h
  obtain ⟨tr₃, tr₄, rfl, hstarted, h⟩ := runs_emit_bind h
  obtain ⟨outcome, tr₅, rfl, hend⟩ := runs_cleanupCode_bind h
  refine ⟨outcome, ?_⟩
  have hcleaned : Tells (⟨.cleanup, outcome⟩ :: tr₅)
        (sequence + 1 + (skippedEntries (phases.drop (index + 1))).length + 1)
        [cleanupEntry outcome.code?] [] [outcome] ∧
      r = .error (.runFailed code outcome.code?) := by
    cases hcode : outcome.code? with
    | none =>
      rw [hcode] at hend
      obtain ⟨hended, rfl⟩ := runs_emit_raise hend
      exact ⟨(tells_cleanup outcome).append hended, rfl⟩
    | some cleanupCode =>
      rw [hcode] at hend
      obtain ⟨hended, rfl⟩ := runs_emit_raise hend
      exact ⟨(tells_cleanup outcome).append hended, rfl⟩
  exact ⟨hfailed.append (hskipped.append (hstarted.append hcleaned.1)), hcleaned.2⟩

/-- The action of a phase returns evidence, or its exception is handled. -/
theorem runs_guarded {r : Except Failure SourceLivePhaseEvidence}
    (h : ((callAction action).handle (handleThrown phases index sequence)).Runs tr r) :
    (∃ evidence, tr = [⟨.action action, .evidence evidence⟩] ∧ r = .ok evidence) ∨
      ∃ outcome code tr', tr = ⟨.action action, outcome⟩ :: tr' ∧ outcome.code? = some code ∧
        (finishFailedRun phases index code sequence).Runs tr' r := by
  cases h with
  | @perform _ _ outcome _ _ h =>
    cases outcome with
    | evidence evidence =>
      cases h
      exact .inl ⟨evidence, rfl, rfl⟩
    | wrongType => exact .inr ⟨.wrongType, _, _, rfl, rfl, h⟩
    | raised thrown =>
      cases thrown with
      | invariant code => exact .inr ⟨.raised (.invariant code), _, _, rfl, rfl, h⟩
      | exception => exact .inr ⟨.raised .exception, _, _, rfl, rfl, h⟩

/-- The run of the phases from an index on: all of them succeed, or the first to fail ends it. -/
theorem runs_runFrom {completed : List SourceLivePhaseEvidence}
    {r : Except Failure (List SourceLivePhaseEvidence)} (hphases : phases = before ++ rest)
    (hindex : index = before.length)
    (h : (runFrom phases rest index sequence completed).Runs tr r) :
    (∃ evidence, evidence.length = rest.length ∧
      Tells tr sequence (succeededEntries rest evidence) (succeededActions rest evidence) [] ∧
        r = .ok (completed ++ evidence)) ∨
      ∃ done phase later evidence outcome code cleanup, rest = done ++ phase :: later ∧
        evidence.length = done.length ∧ outcome.code? = some code ∧
        Tells tr sequence
          (succeededEntries done evidence ++ started phase.name phase.component ::
            failedEntries phase later code cleanup.code?)
          (succeededActions done evidence ++ [(phase.action, outcome)]) [cleanup] ∧
        r = .error (.runFailed code cleanup.code?) := by
  induction rest generalizing before index sequence completed tr with
  | nil =>
    cases h
    exact .inl ⟨[], rfl, tells_nil, by rw [List.append_nil]⟩
  | cons phase rest ih =>
    have hat : phases[index]? = some phase := by
      rw [hphases, hindex, List.getElem?_append_right (le_refl _), Nat.sub_self]
      rfl
    have hdrop : phases.drop (index + 1) = rest := by
      rw [hphases, hindex, List.drop_length_add_append]
      rfl
    obtain ⟨tr₁, tr₂, rfl, hstarted, h⟩ := runs_emit_bind h
    rcases h.bind_cases with ⟨e, hguarded, rfl⟩ | ⟨evidence, tr₂, tr₃, rfl, hguarded, hrest⟩
    · -- the action fails: this is the first phase to do so
      rcases runs_guarded hguarded with ⟨_, -, he⟩ | ⟨outcome, code, tr', rfl, hcode, hfinish⟩
      · cases he
      · obtain ⟨cleanup, hfailed, he⟩ := runs_finishFailedRun hat hfinish
        cases he
        rw [hdrop] at hfailed
        exact .inr ⟨[], phase, rest, [], outcome, code, cleanup, rfl, rfl, hcode,
          hstarted.append ((tells_action phase.action outcome).append hfailed), rfl⟩
    · rcases runs_guarded hguarded with ⟨_, rfl, he⟩ | ⟨_, _, tr', rfl, -, hfinish⟩
      · cases he
        obtain ⟨tr₄, tr₅, rfl, hsucceeded, hrest⟩ := runs_emit_bind hrest
        -- this phase succeeded; the rest is a run of its own
        have hone := hstarted.append
          ((tells_action phase.action (.evidence evidence)).append hsucceeded)
        have hbefore : phases = (before ++ [phase]) ++ rest := by
          rw [hphases, List.append_assoc]
          rfl
        have hnext : index + 1 = (before ++ [phase]).length := by
          rw [hindex, List.length_append]
          rfl
        rcases ih hbefore hnext hrest with ⟨evidences, hlength, htold, rfl⟩ |
          ⟨done, failedPhase, later, evidences, outcome, code, cleanup, rfl, hlength, hcode, htold,
            hr⟩
        · refine .inl ⟨evidence :: evidences, congrArg (· + 1) hlength, ?_, ?_⟩
          · have hall := hone.append htold
            simp only [List.append_assoc] at hall ⊢
            exact hall
          · rw [List.append_assoc]
            rfl
        · refine .inr ⟨phase :: done, failedPhase, later, evidence :: evidences, outcome, code,
            cleanup, rfl, congrArg (· + 1) hlength, hcode, ?_, hr⟩
          have hall := hone.append htold
          simp only [List.append_assoc] at hall ⊢
          exact hall
      · -- an exception of the run is not caught again
        obtain ⟨cleanup, -, he⟩ := runs_finishFailedRun hat hfinish
        cases he

/-- **The phase ledger tells the whole story**: its records are numbered without gaps, and say of
every phase that it succeeded; or of the phases before the first failure that they succeeded, of the
failed one that it failed, of the later ones that they were skipped, and how the one cleanup ended. -/
theorem runSourceLivePhases_story {r : Except Failure (List SourceLivePhaseEvidence)}
    (h : (runSourceLivePhases phases).Runs tr r) :
    ∃ records : List Record, written tr = records.map Record.line ∧
      records.map (·.sequence) = List.range' 1 records.length ∧
      ((∃ evidence, evidence.length = phases.length ∧
          records.map (·.entry) = succeededEntries phases evidence ∧
          actionsOf tr = succeededActions phases evidence ∧ cleanupsOf tr = [] ∧
          r = .ok evidence) ∨
        ∃ done phase later evidence outcome code cleanup, phases = done ++ phase :: later ∧
          evidence.length = done.length ∧ outcome.code? = some code ∧
          records.map (·.entry) =
            succeededEntries done evidence ++ started phase.name phase.component ::
              failedEntries phase later code cleanup.code? ∧
          actionsOf tr = succeededActions done evidence ++ [(phase.action, outcome)] ∧
          cleanupsOf tr = [cleanup] ∧ r = .error (.runFailed code cleanup.code?)) := by
  have hnumber : ∀ entries, (number 0 entries).map (·.sequence) =
      List.range' 1 (number 0 entries).length := by
    intro entries
    rw [map_sequence_number, number, List.length_map, List.length_zipIdx]
  rcases runs_runFrom (List.nil_append phases).symm rfl h with ⟨evidence, hlength, htold, hr⟩ |
    ⟨done, phase, later, evidence, outcome, code, cleanup, hsplit, hlength, hcode, htold, hr⟩
  · exact ⟨_, htold.written, hnumber _, .inl
      ⟨evidence, hlength, map_entry_number, htold.actions, htold.cleanups, hr⟩⟩
  · exact ⟨_, htold.written, hnumber _, .inr ⟨done, phase, later, evidence, outcome, code, cleanup,
      hsplit, hlength, hcode, map_entry_number, htold.actions, htold.cleanups, hr⟩⟩

end Runs

end Ledger

namespace Instance

/-- The code of a failure. -/
def gatewayNotReady : BoundedName :=
  ⟨"gateway-not-ready", by decide⟩

/-- Three phases, whose actions are numbered. -/
def phases : List (SourceLivePhase ℕ) :=
  [⟨⟨"operation", by decide⟩, cpkServer, 0⟩, ⟨⟨"gateway-ready", by decide⟩, cpkServer, 1⟩,
    ⟨⟨"public-probe", by decide⟩, cpkServer, 2⟩]

/-- The second action fails, and so does the cleanup. -/
def respond : List (Event (Call ℕ) Call.Answer) → (call : Call ℕ) → call.Answer
  | _, .action 1 => .raised (.invariant gatewayNotReady)
  | _, .action _ => .evidence {}
  | _, .cleanup => .raised .exception
  | _, .write _ => ()
  | _, .flush => ()

/-- The run with these answers. -/
def run : Trace ℕ × Except Failure (List SourceLivePhaseEvidence) :=
  (runSourceLivePhases phases).scripted respond []

theorem runSourceLivePhases_gatewayNotReady :
    run.2 = .error (.runFailed gatewayNotReady (some unexpectedCleanupError)) ∧
      ∃ records : List Record, written run.1 = records.map Record.line ∧
        records.map (·.sequence) = List.range' 1 records.length ∧
        ((∃ evidence, evidence.length = phases.length ∧
            records.map (·.entry) = succeededEntries phases evidence ∧
            actionsOf run.1 = succeededActions phases evidence ∧ cleanupsOf run.1 = [] ∧
            run.2 = .ok evidence) ∨
          ∃ done phase later evidence outcome code cleanup, phases = done ++ phase :: later ∧
            evidence.length = done.length ∧ outcome.code? = some code ∧
            records.map (·.entry) =
              succeededEntries done evidence ++ started phase.name phase.component ::
                failedEntries phase later code cleanup.code? ∧
            actionsOf run.1 = succeededActions done evidence ++ [(phase.action, outcome)] ∧
            cleanupsOf run.1 = [cleanup] ∧ run.2 = .error (.runFailed code cleanup.code?)) :=
  ⟨rfl, runSourceLivePhases_story (runs_scripted respond (runSourceLivePhases phases) [])⟩

end Instance

end Phases

end SourceLive

end ControlPlaneKit
