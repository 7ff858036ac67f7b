import ControlPlaneKit.Python.Raise
import ControlPlaneKit.Python.Same
import ControlPlaneKit.SourceLive.Abort
import ControlPlaneKit.SourceLive.Phases

/-!
# Evidence of a failed connector

Before a connector is stopped and removed, the database rows of its run are decoded: the rows have to
agree on one identity, its plan on one activity and the events on one that carries the activity's
id. `decodeExactConnectorRunEvidence_exact` says what an effect rests on, and that the order of the
rows does not matter.
-/

namespace ControlPlaneKit

namespace SourceLive

namespace Connector

/-- The exceptions of the decoders. -/
inductive Raised where
  | runtimeError (message : String)
  | keyError (key : String)
  | valueError
deriving DecidableEq

/-- A row of the database: the objects in its columns have distinct keys. -/
structure Row where
  columns : List Json
  dicts : ∀ v ∈ columns, v.isDict = true

/-- `row[:6]`. -/
def Row.identity (row : Row) : List Json :=
  row.columns.take 6

/-- `row[6]`, of a row with seven columns. -/
def Row.event (row : Row) : Json :=
  row.columns.getD 6 .null

def uncertainRun : Raised :=
  .runtimeError "connector run evidence is uncertain"

def uncertainEffect : Raised :=
  .runtimeError "failed connector evidence is uncertain"

/-- The first tests of both decoders: `identity`, where all rows share it. -/
def sharedIdentity (uncertain : Raised) (rows : List Row) : Except Raised (List Json) :=
  match rows with
  | [] => .error uncertain
  | first :: _ =>
    if rows.any fun row => row.columns.length != 7 then .error uncertain
    else if rows.any fun row => !Json.sameItems row.identity first.identity then .error uncertain
    else .ok first.identity

/-! ### Exact effects -/

/-- `re.fullmatch(r"[A-Za-z0-9][A-Za-z0-9._:-]{0,255}", value)`. -/
def isEvidenceText : List Char → Bool :=
  isBounded Phases.isIdentifierStart
    (fun c => Phases.isIdentifierStart c || "._:-".toList.contains c) 255

/-- The test of `ExactFailedDockerNodeEffect` on one of its values. -/
def evidenceText : Json → Except Raised String
  | .str (.utf8 value) =>
    if isEvidenceText value.toList then .ok value else .error uncertainEffect
  | _ => .error uncertainEffect

/-- `ExactFailedDockerNodeEffect(...)`. -/
def makeEffect (workspaceId runId planId desiredGraphId activityId runtimeId nodeId
    containerName : Json) : Except Raised ExactFailedDockerNodeEffect := do
  let workspaceId ← evidenceText workspaceId
  let runId ← evidenceText runId
  let planId ← evidenceText planId
  let desiredGraphId ← evidenceText desiredGraphId
  let activityId ← evidenceText activityId
  let runtimeId ← evidenceText runtimeId
  let nodeId ← evidenceText nodeId
  let containerName ← evidenceText containerName
  return ⟨workspaceId, runId, planId, desiredGraphId, activityId, runtimeId, nodeId, containerName⟩

/-- `evidence[key]`. -/
def item (evidence : Fields) (key : String) : Except Raised Json :=
  if evidence.has key then .ok (evidence.get key) else .error (.keyError key)

/-- The `try` statement around the effect: every exception becomes the one of the decoder. -/
def rewrap {α : Type} : Except Raised α → Except Raised α
  | .ok a => .ok a
  | .error _ => .error uncertainEffect

/-! ### The decoders -/

/-- The test of an activity of the plan. -/
def isConnectorStart (connectorNodeId : Text) (activity : Json) : Bool :=
  activity.members?.any fun activity =>
    (activity.get "operation").members?.any fun operation =>
      (operation.get "target").members?.any fun target =>
        (operation.get "kind").pyEq (.str "start-node") &&
          (target.get "kind").pyEq (.str "node") &&
            (target.get "node_id").pyEq (.str connectorNodeId)

/-- The id of the one activity that matched. -/
def soleActivityId : List Json → Except Raised Json
  | [.obj activity] => .ok (Fields.get activity "activity_id")
  | _ => .error uncertainEffect

/-- The id of the one matching activity of a plan. -/
def connectorActivityId (connectorNodeId : Text) (planPayload : Fields) : Except Raised Json :=
  match planPayload.get "activities" with
  | .arr activities => soleActivityId (activities.filter (isConnectorStart connectorNodeId))
  | _ => .error uncertainEffect

/-- The test of the event of a row. -/
def carriesActivity (activityId event : Json) : Bool :=
  event.members?.any fun event => (event.get "activity_id").pyEq activityId

/-- The evidence of the one event that matched. -/
def soleEvidence : List Json → Except Raised Json
  | [.obj event] => .ok (Fields.get event "evidence")
  | _ => .error uncertainEffect

/-- The effect that the evidence of an event shows. -/
def shownEffect (connectorNodeId : Text) (workspaceId runId planId desiredGraphId activityId : Json) :
    Json → Except Raised ExactFailedDockerNodeEffect
  | .obj evidence =>
    if (Fields.get evidence "node_id").pyEq (.str connectorNodeId) then
      rewrap do
        let runtimeId ← item evidence "runtime_id"
        let nodeId ← item evidence "node_id"
        let containerName ← item evidence "container"
        makeEffect workspaceId runId planId desiredGraphId activityId runtimeId nodeId containerName
    else .error uncertainEffect
  | _ => .error uncertainEffect

section Decoders

variable (expectedWorkspaceId expectedRunId connectorNodeId acceptedGraphId : Text)

/-- `_decode_exact_failed_connector_effect`, once the rows share an identity. -/
def failedEffect (runId runStatus workspaceId planId desiredGraphId planPayload : Json)
    (events : List Json) : Except Raised ExactFailedDockerNodeEffect :=
  if runId.pyEq (.str expectedRunId) && runStatus.pyEq (.str "failed") &&
      workspaceId.pyEq (.str expectedWorkspaceId) then
    match planPayload with
    | .obj planPayload => do
      let activityId ← connectorActivityId connectorNodeId planPayload
      let evidence ← soleEvidence (events.filter (carriesActivity activityId))
      shownEffect connectorNodeId workspaceId runId planId desiredGraphId activityId evidence
    | _ => .error uncertainEffect
  else .error uncertainEffect

/-- `_decode_exact_failed_connector_effect`. -/
def decodeExactFailedConnectorEffect (rows : List Row) :
    Except Raised ExactFailedDockerNodeEffect := do
  let identity ← sharedIdentity uncertainEffect rows
  match identity with
  | [runId, runStatus, workspaceId, planId, desiredGraphId, planPayload] =>
    failedEffect expectedWorkspaceId expectedRunId connectorNodeId runId runStatus workspaceId planId
      desiredGraphId planPayload (rows.map Row.event)
  | _ => .error .valueError

/-- The test of a run that succeeded. -/
def isSucceededRun (runId workspaceId planId desiredGraphId payload : Json) : Bool :=
  runId.pyEq (.str expectedRunId) && workspaceId.pyEq (.str expectedWorkspaceId) &&
    desiredGraphId.pyEq (.str acceptedGraphId) &&
    (match planId with
      | .str text => text != .utf8 ""
      | _ => false) &&
    (match payload with
      | .obj _ => true
      | _ => false)

/-- `_decode_exact_connector_run_evidence`. -/
def decodeExactConnectorRunEvidence (rows : List Row) :
    Except Raised (Option ExactFailedDockerNodeEffect) := do
  let identity ← sharedIdentity uncertainRun rows
  match identity with
  | [runId, runStatus, workspaceId, planId, desiredGraphId, payload] =>
    if runStatus.pyEq (.str "succeeded") then
      if isSucceededRun expectedWorkspaceId expectedRunId acceptedGraphId runId workspaceId planId
          desiredGraphId payload then .ok none
      else .error uncertainRun
    else if runStatus.pyEq (.str "failed") then do
      let effect ← decodeExactFailedConnectorEffect expectedWorkspaceId expectedRunId connectorNodeId
        rows
      return some effect
    else .error uncertainRun
  | _ => .error .valueError

end Decoders

/-! ### Rows that share an identity -/

section Shared

variable {uncertain : Raised} {rows rows' : List Row} {identity : List Json}

/-- All rows have seven columns, the first six of which are those of the identity. -/
def Shares (rows : List Row) (identity : List Json) : Prop :=
  ∀ row ∈ rows, row.columns.length = 7 ∧ Json.sameItems row.identity identity = true

theorem Row.dicts_identity (row : Row) : ∀ v ∈ row.identity, v.isDict = true :=
  fun v hv => row.dicts v (List.mem_of_mem_take hv)

theorem shares_iff : ((rows.any fun row => row.columns.length != 7) = false ∧
    (rows.any fun row => !Json.sameItems row.identity identity) = false) ↔ Shares rows identity := by
  rw [List.any_eq_false, List.any_eq_false, ← forall₂_and]
  refine forall₂_congr fun row _ => and_congr ?_ ?_
  · rw [bne_iff_ne, not_not]
  · rw [Bool.not_eq_true', Bool.not_eq_false]

/-- The identity is that of the first row, where all rows share it. -/
theorem sharedIdentity_cons {first : Row} : sharedIdentity uncertain (first :: rows) = .ok identity ↔
    Shares (first :: rows) first.identity ∧ identity = first.identity := by
  rw [← shares_iff]
  change (if _ then _ else if _ then _ else _) = _ ↔ _
  split
  · next hcolumns => simp [hcolumns]
  · next hcolumns =>
    split
    · next hidentity => simp [hidentity]
    · next hidentity =>
      rw [Bool.not_eq_true] at hcolumns hidentity
      rw [Except.ok.injEq]
      exact ⟨fun h => ⟨⟨hcolumns, hidentity⟩, h.symm⟩, fun h => h.2.symm⟩

theorem sharedIdentity_ok (h : sharedIdentity uncertain rows = .ok identity) :
    Shares rows identity ∧ ∃ first ∈ rows, identity = first.identity := by
  cases rows with
  | nil => cases h
  | cons first rest =>
    obtain ⟨hshares, rfl⟩ := sharedIdentity_cons.mp h
    exact ⟨hshares, first, List.mem_cons_self, rfl⟩

theorem sharedIdentity_error {e : Raised} (h : sharedIdentity uncertain rows = .error e) :
    e = uncertain := by
  unfold sharedIdentity at h
  split at h
  · exact (Except.error.inj h).symm
  · split at h
    · exact (Except.error.inj h).symm
    · split at h
      · exact (Except.error.inj h).symm
      · cases h

/-- An identity has six columns. -/
theorem length_sharedIdentity (h : sharedIdentity uncertain rows = .ok identity) :
    identity.length = 6 := by
  obtain ⟨hshares, first, hfirst, rfl⟩ := sharedIdentity_ok h
  rw [Row.identity, List.length_take, (hshares first hfirst).1]
  rfl

theorem sharedIdentity_other (uncertain' : Raised)
    (h : sharedIdentity uncertain rows = .ok identity) :
    sharedIdentity uncertain' rows = .ok identity := by
  cases rows with
  | nil => cases h
  | cons first rest => exact sharedIdentity_cons.mpr (sharedIdentity_cons.mp h)

/-- Rows in another order share an identity too. -/
theorem sharedIdentity_perm (hperm : rows.Perm rows')
    (h : sharedIdentity uncertain rows = .ok identity) :
    ∃ identity', sharedIdentity uncertain rows' = .ok identity' ∧
      List.Forall₂ Json.Alike identity identity' := by
  obtain ⟨hshares, first, hfirst, rfl⟩ := sharedIdentity_ok h
  cases rows' with
  | nil =>
    rw [List.perm_nil.mp hperm] at hfirst
    cases hfirst
  | cons first' rest =>
    have hsame := (hshares first' (hperm.mem_iff.mpr List.mem_cons_self)).2
    have hsymm := Json.sameItems_symm first'.dicts_identity first.dicts_identity hsame
    refine ⟨_, sharedIdentity_cons.mpr ⟨fun row hrow => ?_, rfl⟩,
      Json.forall₂_alike first.dicts_identity first'.dicts_identity hsymm⟩
    obtain ⟨hlength, hrow⟩ := hshares row (hperm.mem_iff.mpr hrow)
    exact ⟨hlength, Json.sameItems_trans hrow hsymm⟩

end Shared

/-! ### Alike identities give the same effect -/

section Alike

variable {connectorNodeId : Text} {a b : Json} {ms ns : Fields}

theorem evidenceText_congr (h : Json.Alike a b) : evidenceText a = evidenceText b := by
  cases a with
  | str s =>
    rw [h.str]
  | _ =>
    cases b with
    | str s => cases h.symm.str
    | _ => rfl

theorem isConnectorStart_congr (h : Json.Alike a b) :
    isConnectorStart connectorNodeId a = isConnectorStart connectorNodeId b :=
  h.any_members fun _ _ hactivity => (hactivity.get _).any_members fun _ _ hoperation =>
    (hoperation.get _).any_members fun _ _ htarget => by
      rw [(hoperation.get _).pyEq_str, (htarget.get _).pyEq_str, (htarget.get _).pyEq_str]

theorem soleActivityId_congr {xs ys : List Json} (h : List.Forall₂ Json.Alike xs ys) :
    (soleActivityId xs = .error uncertainEffect ∧ soleActivityId ys = .error uncertainEffect) ∨
      ∃ id id', soleActivityId xs = .ok id ∧ soleActivityId ys = .ok id' ∧ Json.Alike id id' := by
  cases h with
  | nil => exact .inl ⟨rfl, rfl⟩
  | @cons x y xs ys hxy hrest =>
    cases hrest with
    | nil =>
      cases x with
      | obj ms =>
        obtain ⟨ns, rfl⟩ := hxy.obj
        exact .inr ⟨_, _, rfl, rfl, hxy.get "activity_id"⟩
      | _ =>
        cases y with
        | obj ns =>
          obtain ⟨ms, hms⟩ := hxy.symm.obj
          cases hms
        | _ => exact .inl ⟨rfl, rfl⟩
    | cons _ _ => cases x <;> cases y <;> exact .inl ⟨rfl, rfl⟩

variable (connectorNodeId) in
/-- Alike plans have no matching activity, or alike ids of it. -/
theorem connectorActivityId_congr (h : Json.Alike (.obj ms) (.obj ns)) :
    (connectorActivityId connectorNodeId ms = .error uncertainEffect ∧
      connectorActivityId connectorNodeId ns = .error uncertainEffect) ∨
    ∃ id id', connectorActivityId connectorNodeId ms = .ok id ∧
      connectorActivityId connectorNodeId ns = .ok id' ∧ Json.Alike id id' := by
  have hactivities := h.get "activities"
  unfold connectorActivityId
  cases hms : ms.get "activities" with
  | arr activities =>
    rw [hms] at hactivities
    obtain ⟨activities', hns, halike⟩ := hactivities.arr
    rw [hns]
    exact soleActivityId_congr
      (List.rel_filter (fun _ _ hxy => Bool.eq_iff_iff.mp (isConnectorStart_congr hxy)) halike)
  | _ =>
    cases hns : ns.get "activities" with
    | arr activities' =>
      rw [hms, hns] at hactivities
      obtain ⟨activities, hactivities', -⟩ := hactivities.symm.arr
      cases hactivities'
    | _ => exact .inl ⟨rfl, rfl⟩

theorem carriesActivity_congr (h : Json.Alike a b) : carriesActivity a = carriesActivity b := by
  funext event
  unfold carriesActivity
  congr 1
  funext event
  exact h.pyEq

variable {workspaceId runId planId desiredGraphId activityId workspaceId' runId' planId'
  desiredGraphId' activityId' runStatus runStatus' payload payload' : Json}
  {expectedWorkspaceId expectedRunId acceptedGraphId : Text} {events events' : List Json}

theorem shownEffect_congr (hworkspace : Json.Alike workspaceId workspaceId')
    (hrun : Json.Alike runId runId') (hplan : Json.Alike planId planId')
    (hgraph : Json.Alike desiredGraphId desiredGraphId')
    (hactivity : Json.Alike activityId activityId') (evidence : Json) :
    shownEffect connectorNodeId workspaceId runId planId desiredGraphId activityId evidence =
      shownEffect connectorNodeId workspaceId' runId' planId' desiredGraphId' activityId' evidence := by
  have hmake : ∀ runtimeId nodeId containerName,
      makeEffect workspaceId runId planId desiredGraphId activityId runtimeId nodeId containerName =
        makeEffect workspaceId' runId' planId' desiredGraphId' activityId' runtimeId nodeId
          containerName := by
    intro runtimeId nodeId containerName
    unfold makeEffect
    rw [evidenceText_congr hworkspace, evidenceText_congr hrun, evidenceText_congr hplan,
      evidenceText_congr hgraph, evidenceText_congr hactivity]
  cases evidence with
  | obj evidence =>
    unfold shownEffect
    simp only [hmake]
  | _ => rfl

theorem soleEvidence_perm (h : events.Perm events') : soleEvidence events = soleEvidence events' := by
  rcases events with _ | ⟨x, _ | ⟨y, events⟩⟩
  · rw [List.nil_perm.mp h]
  · rw [List.singleton_perm.mp h]
  · rcases events' with _ | ⟨x', _ | ⟨y', events'⟩⟩
    · cases List.perm_nil.mp h
    · cases List.perm_singleton.mp h
    · cases x <;> cases x' <;> rfl

/-- The effect depends on the identity up to alike values, and not on the order of the events. -/
theorem failedEffect_congr (hrun : Json.Alike runId runId') (hstatus : Json.Alike runStatus runStatus')
    (hworkspace : Json.Alike workspaceId workspaceId') (hplan : Json.Alike planId planId')
    (hgraph : Json.Alike desiredGraphId desiredGraphId') (hpayload : Json.Alike payload payload')
    (hevents : events.Perm events') :
    failedEffect expectedWorkspaceId expectedRunId connectorNodeId runId runStatus workspaceId planId
        desiredGraphId payload events =
      failedEffect expectedWorkspaceId expectedRunId connectorNodeId runId' runStatus' workspaceId'
        planId' desiredGraphId' payload' events' := by
  unfold failedEffect
  rw [hrun.pyEq_str, hstatus.pyEq_str, hworkspace.pyEq_str]
  congr 1
  cases payload with
  | obj ms =>
    obtain ⟨ns, rfl⟩ := hpayload.obj
    rcases connectorActivityId_congr connectorNodeId hpayload with ⟨hms, hns⟩ | ⟨id, id', hms, hns, hid⟩
    · simp only [hms, hns, Raise.error_bind]
    · simp only [hms, hns, Raise.ok_bind, carriesActivity_congr hid,
        soleEvidence_perm (hevents.filter _), shownEffect_congr hworkspace hrun hplan hgraph hid]
  | _ =>
    cases payload' with
    | obj ns =>
      obtain ⟨ms, hms⟩ := hpayload.symm.obj
      cases hms
    | _ => rfl

theorem isSucceededRun_congr (hrun : Json.Alike runId runId')
    (hworkspace : Json.Alike workspaceId workspaceId') (hplan : Json.Alike planId planId')
    (hgraph : Json.Alike desiredGraphId desiredGraphId') (hpayload : Json.Alike payload payload') :
    isSucceededRun expectedWorkspaceId expectedRunId acceptedGraphId runId workspaceId planId
        desiredGraphId payload =
      isSucceededRun expectedWorkspaceId expectedRunId acceptedGraphId runId' workspaceId' planId'
        desiredGraphId' payload' := by
  unfold isSucceededRun
  rw [hrun.pyEq_str, hworkspace.pyEq_str, hgraph.pyEq_str]
  congr 1
  · congr 1
    cases planId with
    | str text => rw [hplan.str]
    | _ =>
      cases planId' with
      | str text => cases hplan.symm.str
      | _ => rfl
  · cases payload with
    | obj ms =>
      obtain ⟨ns, rfl⟩ := hpayload.obj
      rfl
    | _ =>
      cases payload' with
      | obj ns =>
        obtain ⟨ms, hms⟩ := hpayload.symm.obj
        cases hms
      | _ => rfl

end Alike

/-! ### The order of the rows -/

section Order

variable {expectedWorkspaceId expectedRunId connectorNodeId acceptedGraphId : Text}
  {uncertain : Raised} {rows rows' : List Row}

/-- Rows in another order are refused too, or share an alike identity of six columns. -/
theorem sharedIdentity_cases (uncertain : Raised) (hperm : rows.Perm rows') :
    (sharedIdentity uncertain rows = .error uncertain ∧
      sharedIdentity uncertain rows' = .error uncertain) ∨
    ∃ a b c d e f a' b' c' d' e' f', sharedIdentity uncertain rows = .ok [a, b, c, d, e, f] ∧
      sharedIdentity uncertain rows' = .ok [a', b', c', d', e', f'] ∧ Json.Alike a a' ∧
      Json.Alike b b' ∧ Json.Alike c c' ∧ Json.Alike d d' ∧ Json.Alike e e' ∧ Json.Alike f f' := by
  cases hidentity : sharedIdentity uncertain rows with
  | error e =>
    refine .inl ⟨congrArg _ (sharedIdentity_error hidentity), ?_⟩
    cases hidentity' : sharedIdentity uncertain rows' with
    | error e' => exact congrArg _ (sharedIdentity_error hidentity')
    | ok identity' =>
      obtain ⟨identity, hok, -⟩ := sharedIdentity_perm hperm.symm hidentity'
      rw [hidentity] at hok
      cases hok
  | ok identity =>
    obtain ⟨identity', hidentity', halike⟩ := sharedIdentity_perm hperm hidentity
    have hlength := length_sharedIdentity hidentity
    rcases halike with _ | ⟨ha, _ | ⟨hb, _ | ⟨hc, _ | ⟨hd, _ | ⟨he, _ | ⟨hf, hrest⟩⟩⟩⟩⟩⟩ <;>
      simp only [List.length_nil, List.length_cons] at hlength <;> try omega
    cases hrest with
    | nil => exact .inr ⟨_, _, _, _, _, _, _, _, _, _, _, _, rfl, hidentity', ha, hb, hc, hd, he, hf⟩
    | cons _ _ =>
      simp only [List.length_cons] at hlength
      omega

theorem decodeExactFailedConnectorEffect_perm (hperm : rows.Perm rows') :
    decodeExactFailedConnectorEffect expectedWorkspaceId expectedRunId connectorNodeId rows =
      decodeExactFailedConnectorEffect expectedWorkspaceId expectedRunId connectorNodeId rows' := by
  unfold decodeExactFailedConnectorEffect
  rcases sharedIdentity_cases uncertainEffect hperm with ⟨h, h'⟩ |
    ⟨a, b, c, d, e, f, a', b', c', d', e', f', h, h', ha, hb, hc, hd, he, hf⟩
  · rw [h, h']
    rfl
  · rw [h, h']
    exact failedEffect_congr ha hb hc hd he hf (hperm.map _)

theorem decodeExactConnectorRunEvidence_perm (hperm : rows.Perm rows') :
    decodeExactConnectorRunEvidence expectedWorkspaceId expectedRunId connectorNodeId
        acceptedGraphId rows =
      decodeExactConnectorRunEvidence expectedWorkspaceId expectedRunId connectorNodeId
        acceptedGraphId rows' := by
  unfold decodeExactConnectorRunEvidence
  rcases sharedIdentity_cases uncertainRun hperm with ⟨h, h'⟩ |
    ⟨a, b, c, d, e, f, a', b', c', d', e', f', h, h', ha, hb, hc, hd, he, hf⟩
  · rw [h, h']
    rfl
  · rw [h, h', Raise.ok_bind, Raise.ok_bind]
    dsimp only
    rw [hb.pyEq_str, hb.pyEq_str, isSucceededRun_congr ha hc hd he hf,
      decodeExactFailedConnectorEffect_perm hperm]

end Order

/-! ### What a result rests on -/

section Exact

variable {expectedWorkspaceId expectedRunId connectorNodeId acceptedGraphId : Text}
  {rows : List Row} {effect : ExactFailedDockerNodeEffect}
  {runId runStatus workspaceId planId desiredGraphId activityId payload evidence v : Json}
  {events : List Json} {e : Raised} {s : String}

/-- The texts of an effect. -/
def effectTexts (effect : ExactFailedDockerNodeEffect) : List String :=
  [effect.workspaceId, effect.runId, effect.planId, effect.desiredGraphId, effect.activityId,
    effect.runtimeId, effect.nodeId, effect.containerName]

/-- The evidence for an effect: the rows share the identity of a failed run, whose plan starts the
connector's node in one activity, one row has the event of this activity, and the texts are of the
form that the effect asks for. -/
structure FailedConnector (expectedWorkspaceId expectedRunId connectorNodeId : Text)
    (rows : List Row) (effect : ExactFailedDockerNodeEffect) : Prop where
  workspace : .utf8 effect.workspaceId = expectedWorkspaceId
  run : .utf8 effect.runId = expectedRunId
  node : .utf8 effect.nodeId = connectorNodeId
  texts : ∀ text ∈ effectTexts effect, isEvidenceText text.toList = true
  plan : ∃ payload activities activity, (Json.obj payload).isDict = true ∧
    Shares rows [.str effect.runId, .str "failed", .str effect.workspaceId, .str effect.planId,
      .str effect.desiredGraphId, .obj payload] ∧
    Fields.get payload "activities" = .arr activities ∧
    activities.filter (isConnectorStart connectorNodeId) = [.obj activity] ∧
    Fields.get activity "activity_id" = .str effect.activityId
  event : ∃ row event evidence,
    rows.filter (fun row => carriesActivity (.str effect.activityId) row.event) = [row] ∧
    row.event = .obj event ∧ Fields.get event "evidence" = .obj evidence ∧
    Fields.get evidence "runtime_id" = .str effect.runtimeId ∧
    Fields.get evidence "node_id" = .str effect.nodeId ∧
    Fields.get evidence "container" = .str effect.containerName

/-- The evidence for a run that succeeded. -/
def SucceededRun (expectedWorkspaceId expectedRunId acceptedGraphId : Text) (rows : List Row) :
    Prop :=
  rows ≠ [] ∧ ∃ planId payload, planId ≠ .utf8 "" ∧ (Json.obj payload).isDict = true ∧
    Shares rows [.str expectedRunId, .str "succeeded", .str expectedWorkspaceId, .str planId,
      .str acceptedGraphId, .obj payload]

theorem evidenceText_eq_ok : evidenceText v = .ok s ↔ v = .str s ∧ isEvidenceText s.toList = true := by
  constructor
  · intro h
    unfold evidenceText at h
    split at h
    · split at h
      · next htext =>
        obtain rfl := Except.ok.inj h
        exact ⟨rfl, htext⟩
      · cases h
    · cases h
  · rintro ⟨rfl, htext⟩
    exact if_pos htext

theorem item_ok {evidence : Fields} {key : String} (h : item evidence key = .ok v) :
    evidence.get key = v := by
  unfold item at h
  split at h
  · exact Except.ok.inj h
  · cases h

theorem item_of_get {evidence : Fields} {key : String} (h : evidence.get key = .str s) :
    item evidence key = .ok (.str s) := by
  rw [item, if_pos (Fields.has_of_get h Json.noConfusion), h]

theorem rewrap_ok {α : Type} {x : Except Raised α} {a : α} (h : rewrap x = .ok a) : x = .ok a := by
  cases x with
  | ok b => exact h
  | error e => cases h

theorem rewrap_error {α : Type} {x : Except Raised α} (h : rewrap x = .error e) :
    e = uncertainEffect := by
  cases x with
  | ok b => cases h
  | error e' => exact (Except.error.inj h).symm

theorem makeEffect_ok {runtimeId nodeId containerName : Json}
    (h : makeEffect workspaceId runId planId desiredGraphId activityId runtimeId nodeId
      containerName = .ok effect) :
    (workspaceId = .str effect.workspaceId ∧ runId = .str effect.runId ∧
      planId = .str effect.planId ∧ desiredGraphId = .str effect.desiredGraphId ∧
      activityId = .str effect.activityId) ∧
    (runtimeId = .str effect.runtimeId ∧ nodeId = .str effect.nodeId ∧
      containerName = .str effect.containerName) ∧
    ∀ text ∈ effectTexts effect, isEvidenceText text.toList = true := by
  unfold makeEffect at h
  obtain ⟨workspaceText, hworkspace, h⟩ := Raise.bind_eq_ok.mp h
  obtain ⟨runText, hrun, h⟩ := Raise.bind_eq_ok.mp h
  obtain ⟨planText, hplan, h⟩ := Raise.bind_eq_ok.mp h
  obtain ⟨graphText, hgraph, h⟩ := Raise.bind_eq_ok.mp h
  obtain ⟨activityText, hactivity, h⟩ := Raise.bind_eq_ok.mp h
  obtain ⟨runtimeText, hruntime, h⟩ := Raise.bind_eq_ok.mp h
  obtain ⟨nodeText, hnode, h⟩ := Raise.bind_eq_ok.mp h
  obtain ⟨containerText, hcontainer, h⟩ := Raise.bind_eq_ok.mp h
  cases h
  rw [evidenceText_eq_ok] at hworkspace hrun hplan hgraph hactivity hruntime hnode hcontainer
  refine ⟨⟨hworkspace.1, hrun.1, hplan.1, hgraph.1, hactivity.1⟩,
    ⟨hruntime.1, hnode.1, hcontainer.1⟩, ?_⟩
  simp only [effectTexts, List.forall_mem_cons]
  exact ⟨hworkspace.2, hrun.2, hplan.2, hgraph.2, hactivity.2, hruntime.2, hnode.2, hcontainer.2,
    List.forall_mem_nil _⟩

/-- Texts of this form make their effect. -/
theorem makeEffect_texts (h : ∀ text ∈ effectTexts effect, isEvidenceText text.toList = true) :
    makeEffect (.str effect.workspaceId) (.str effect.runId) (.str effect.planId)
      (.str effect.desiredGraphId) (.str effect.activityId) (.str effect.runtimeId)
      (.str effect.nodeId) (.str effect.containerName) = .ok effect := by
  have htext : ∀ text ∈ effectTexts effect, evidenceText (.str text) = .ok text :=
    fun text hmem => evidenceText_eq_ok.mpr ⟨rfl, h text hmem⟩
  simp only [effectTexts, List.forall_mem_cons] at htext
  obtain ⟨hworkspace, hrun, hplan, hgraph, hactivity, hruntime, hnode, hcontainer, -⟩ := htext
  simp only [makeEffect, hworkspace, hrun, hplan, hgraph, hactivity, hruntime, hnode, hcontainer,
    Raise.ok_bind]
  rfl

theorem shownEffect_ok (h : shownEffect connectorNodeId workspaceId runId planId desiredGraphId
      activityId evidence = .ok effect) :
    (workspaceId = .str effect.workspaceId ∧ runId = .str effect.runId ∧
      planId = .str effect.planId ∧ desiredGraphId = .str effect.desiredGraphId ∧
      activityId = .str effect.activityId) ∧
    .utf8 effect.nodeId = connectorNodeId ∧
    (∀ text ∈ effectTexts effect, isEvidenceText text.toList = true) ∧ ∃ members, evidence = .obj members ∧
      Fields.get members "runtime_id" = .str effect.runtimeId ∧
      Fields.get members "node_id" = .str effect.nodeId ∧
      Fields.get members "container" = .str effect.containerName := by
  unfold shownEffect at h
  split at h
  · next members =>
    split at h
    · next hnode =>
      have h := rewrap_ok h
      obtain ⟨runtimeId, hruntime, h⟩ := Raise.bind_eq_ok.mp h
      obtain ⟨nodeId, hnodeId, h⟩ := Raise.bind_eq_ok.mp h
      obtain ⟨containerName, hcontainer, h⟩ := Raise.bind_eq_ok.mp h
      obtain ⟨hidentity, ⟨rfl, rfl, rfl⟩, htexts⟩ := makeEffect_ok h
      have hnode := Json.pyEq_str.mp hnode
      rw [item_ok hnodeId] at hnode
      exact ⟨hidentity, Json.str.inj hnode, htexts, members, rfl, item_ok hruntime, item_ok hnodeId,
        item_ok hcontainer⟩
    · cases h
  · cases h

theorem shownEffect_of {members : Fields} (hconnector : .utf8 effect.nodeId = connectorNodeId)
    (htexts : ∀ text ∈ effectTexts effect, isEvidenceText text.toList = true)
    (hruntime : members.get "runtime_id" = .str effect.runtimeId)
    (hnode : members.get "node_id" = .str effect.nodeId)
    (hcontainer : members.get "container" = .str effect.containerName) :
    shownEffect connectorNodeId (.str effect.workspaceId) (.str effect.runId) (.str effect.planId)
      (.str effect.desiredGraphId) (.str effect.activityId) (.obj members) = .ok effect := by
  have hshown : (members.get "node_id").pyEq (.str connectorNodeId) = true :=
    Json.pyEq_str.mpr (hnode.trans (congrArg Json.str hconnector))
  rw [shownEffect, if_pos hshown, item_of_get hruntime, item_of_get hnode, item_of_get hcontainer]
  exact congrArg rewrap (makeEffect_texts htexts)

theorem soleActivityId_ok {activities : List Json} (h : soleActivityId activities = .ok v) :
    ∃ activity, activities = [.obj activity] ∧ Fields.get activity "activity_id" = v := by
  unfold soleActivityId at h
  split at h
  · exact ⟨_, rfl, Except.ok.inj h⟩
  · cases h

theorem soleEvidence_ok (h : soleEvidence events = .ok v) :
    ∃ event, events = [.obj event] ∧ Fields.get event "evidence" = v := by
  unfold soleEvidence at h
  split at h
  · exact ⟨_, rfl, Except.ok.inj h⟩
  · cases h

theorem connectorActivityId_ok {members : Fields}
    (h : connectorActivityId connectorNodeId members = .ok v) :
    ∃ activities activity, members.get "activities" = .arr activities ∧
      activities.filter (isConnectorStart connectorNodeId) = [.obj activity] ∧
      Fields.get activity "activity_id" = v := by
  unfold connectorActivityId at h
  split at h
  · next activities hactivities =>
    obtain ⟨activity, hfilter, hid⟩ := soleActivityId_ok h
    exact ⟨activities, activity, hactivities, hfilter, hid⟩
  · cases h

/-- Exactly one row has an event that passes a test. -/
theorem filter_event_singleton {p : Json → Bool} {event : Json}
    (h : (rows.map Row.event).filter p = [event]) :
    ∃ row, rows.filter (fun row => p row.event) = [row] ∧ row.event = event := by
  rw [List.filter_map] at h
  exact List.map_eq_singleton_iff.mp h

theorem failedEffect_ok (hdict : ∀ members, payload = .obj members → payload.isDict = true)
    (hshares : Shares rows [runId, runStatus, workspaceId, planId,
      desiredGraphId, payload])
    (h : failedEffect expectedWorkspaceId expectedRunId connectorNodeId runId runStatus workspaceId
      planId desiredGraphId payload (rows.map Row.event) = .ok effect) :
    FailedConnector expectedWorkspaceId expectedRunId connectorNodeId rows effect := by
  unfold failedEffect at h
  split at h
  · next htests =>
    rw [Bool.and_eq_true, Bool.and_eq_true, Json.pyEq_str, Json.pyEq_str, Json.pyEq_str] at htests
    obtain ⟨⟨rfl, rfl⟩, rfl⟩ := htests
    split at h
    · next members =>
      obtain ⟨activityId, hactivity, h⟩ := Raise.bind_eq_ok.mp h
      obtain ⟨evidence, hevidence, h⟩ := Raise.bind_eq_ok.mp h
      obtain ⟨⟨hworkspace, hrun, rfl, rfl, rfl⟩, hnode, htexts, shown, rfl, hruntime, hnodeId,
        hcontainer⟩ := shownEffect_ok h
      obtain ⟨activities, activity, hactivities, hfilter, hid⟩ := connectorActivityId_ok hactivity
      obtain ⟨event, hevents, hshown⟩ := soleEvidence_ok hevidence
      obtain ⟨row, hrow, hevent⟩ := filter_event_singleton hevents
      rw [hworkspace, hrun] at hshares
      exact ⟨(Json.str.inj hworkspace).symm, (Json.str.inj hrun).symm, hnode, htexts,
        ⟨members, activities, activity, hdict members rfl, hshares, hactivities, hfilter, hid⟩,
        ⟨row, event, shown, hrow, hevent, hshown, hruntime, hnodeId, hcontainer⟩⟩
    · cases h
  · cases h

/-! ### Every other case raises -/

theorem shownEffect_error (h : shownEffect connectorNodeId workspaceId runId planId desiredGraphId
    activityId evidence = .error e) : e = uncertainEffect := by
  unfold shownEffect at h
  split at h
  · split at h
    · exact rewrap_error h
    · exact (Except.error.inj h).symm
  · exact (Except.error.inj h).symm

theorem connectorActivityId_error {members : Fields}
    (h : connectorActivityId connectorNodeId members = .error e) : e = uncertainEffect := by
  unfold connectorActivityId soleActivityId at h
  split at h
  · split at h
    · cases h
    · exact (Except.error.inj h).symm
  · exact (Except.error.inj h).symm

theorem soleEvidence_error (h : soleEvidence events = .error e) : e = uncertainEffect := by
  unfold soleEvidence at h
  split at h
  · cases h
  · exact (Except.error.inj h).symm

theorem failedEffect_error
    (h : failedEffect expectedWorkspaceId expectedRunId connectorNodeId runId runStatus workspaceId
      planId desiredGraphId payload events = .error e) : e = uncertainEffect := by
  unfold failedEffect at h
  split at h
  · split at h
    · rcases Raise.bind_eq_error.mp h with h | ⟨activityId, -, h⟩
      · exact connectorActivityId_error h
      · rcases Raise.bind_eq_error.mp h with h | ⟨evidence, -, h⟩
        · exact soleEvidence_error h
        · exact shownEffect_error h
    · exact (Except.error.inj h).symm
  · exact (Except.error.inj h).symm

theorem decodeExactFailedConnectorEffect_of_shared
    (h : sharedIdentity uncertainRun rows = .ok [runId, runStatus, workspaceId, planId,
      desiredGraphId, payload]) :
    decodeExactFailedConnectorEffect expectedWorkspaceId expectedRunId connectorNodeId rows =
      failedEffect expectedWorkspaceId expectedRunId connectorNodeId runId runStatus workspaceId
        planId desiredGraphId payload (rows.map Row.event) := by
  rw [decodeExactFailedConnectorEffect, sharedIdentity_other uncertainEffect h]
  rfl

theorem isSucceededRun_shares (hdict : ∀ members, payload = .obj members → payload.isDict = true)
    (hshares : Shares rows [runId, .str "succeeded", workspaceId, planId, desiredGraphId, payload])
    (hrows : rows ≠ [])
    (h : isSucceededRun expectedWorkspaceId expectedRunId acceptedGraphId runId workspaceId planId
      desiredGraphId payload = true) :
    SucceededRun expectedWorkspaceId expectedRunId acceptedGraphId rows := by
  unfold isSucceededRun at h
  simp only [Bool.and_eq_true, Json.pyEq_str] at h
  obtain ⟨⟨⟨⟨rfl, rfl⟩, rfl⟩, hplan⟩, hpayload⟩ := h
  split at hplan
  · split at hpayload
    · exact ⟨hrows, _, _, bne_iff_ne.mp hplan, hdict _ rfl, hshares⟩
    · cases hpayload
  · cases hplan

/-- The three ways in which the decoder ends. -/
theorem decodeExactConnectorRunEvidence_cases :
    (∃ effect, decodeExactConnectorRunEvidence expectedWorkspaceId expectedRunId connectorNodeId
        acceptedGraphId rows = .ok (some effect) ∧
      FailedConnector expectedWorkspaceId expectedRunId connectorNodeId rows effect) ∨
    (decodeExactConnectorRunEvidence expectedWorkspaceId expectedRunId connectorNodeId
        acceptedGraphId rows = .ok none ∧
      SucceededRun expectedWorkspaceId expectedRunId acceptedGraphId rows) ∨
    ∃ message, decodeExactConnectorRunEvidence expectedWorkspaceId expectedRunId connectorNodeId
      acceptedGraphId rows = .error (.runtimeError message) := by
  rcases sharedIdentity_cases uncertainRun (List.Perm.refl rows) with ⟨hidentity, -⟩ |
    ⟨runId, runStatus, workspaceId, planId, desiredGraphId, payload, _, _, _, _, _, _, hidentity, -⟩
  · rw [decodeExactConnectorRunEvidence, hidentity]
    exact .inr (.inr ⟨_, rfl⟩)
  obtain ⟨hshares, first, hfirst, hcolumns⟩ := sharedIdentity_ok hidentity
  have hdict : ∀ members, payload = .obj members → payload.isDict = true := fun _ _ =>
    first.dicts_identity payload (hcolumns ▸ by simp)
  rw [decodeExactConnectorRunEvidence, hidentity, Raise.ok_bind]
  dsimp only
  by_cases hsucceeded : runStatus.pyEq (.str "succeeded") = true
  · rw [if_pos hsucceeded]
    obtain rfl := Json.pyEq_str.mp hsucceeded
    split
    · next htests =>
      exact .inr (.inl ⟨rfl, isSucceededRun_shares hdict hshares (List.ne_nil_of_mem hfirst) htests⟩)
    · exact .inr (.inr ⟨_, rfl⟩)
  rw [if_neg hsucceeded]
  split
  · rw [decodeExactFailedConnectorEffect_of_shared hidentity]
    cases heffect : failedEffect expectedWorkspaceId expectedRunId connectorNodeId runId runStatus
        workspaceId planId desiredGraphId payload (rows.map Row.event) with
    | ok effect => exact .inl ⟨effect, rfl, failedEffect_ok hdict hshares heffect⟩
    | error e =>
      rw [failedEffect_error heffect]
      exact .inr (.inr ⟨_, rfl⟩)
  · exact .inr (.inr ⟨_, rfl⟩)

/-! ### The evidence suffices -/

/-- Rows that share an identity are decoded with an alike one. -/
theorem sharedIdentity_of_shares (uncertain : Raised)
    (hshares : Shares rows [runId, runStatus, workspaceId, planId, desiredGraphId, payload])
    (hrows : rows ≠ [])
    (hdicts : ∀ v ∈ [runId, runStatus, workspaceId, planId, desiredGraphId, payload],
      v.isDict = true) :
    ∃ a b c d e f, sharedIdentity uncertain rows = .ok [a, b, c, d, e, f] ∧ Json.Alike a runId ∧
      Json.Alike b runStatus ∧ Json.Alike c workspaceId ∧ Json.Alike d planId ∧
      Json.Alike e desiredGraphId ∧ Json.Alike f payload := by
  cases rows with
  | nil => exact absurd rfl hrows
  | cons first rest =>
    have hsame := (hshares first List.mem_cons_self).2
    have halike := Json.forall₂_alike first.dicts_identity hdicts hsame
    have hsymm := Json.sameItems_symm first.dicts_identity hdicts hsame
    have hidentity : sharedIdentity uncertain (first :: rest) = .ok first.identity := by
      refine sharedIdentity_cons.mpr ⟨fun row hrow => ?_, rfl⟩
      obtain ⟨hlength, hrow⟩ := hshares row hrow
      exact ⟨hlength, Json.sameItems_trans hrow hsymm⟩
    generalize first.identity = identity at hidentity halike
    rcases halike with _ | ⟨ha, _ | ⟨hb, _ | ⟨hc, _ | ⟨hd, _ | ⟨he, _ | ⟨hf, hrest⟩⟩⟩⟩⟩⟩
    cases hrest
    exact ⟨_, _, _, _, _, _, hidentity, ha, hb, hc, hd, he, hf⟩

/-- The evidence for an effect gives the effect. -/
theorem FailedConnector.failedEffect
    (h : FailedConnector expectedWorkspaceId expectedRunId connectorNodeId rows effect)
    {members activity : Fields} {items : List Json}
    (hactivities : members.get "activities" = .arr items)
    (hfilter : items.filter (isConnectorStart connectorNodeId) = [.obj activity])
    (hid : activity.get "activity_id" = .str effect.activityId) :
    failedEffect expectedWorkspaceId expectedRunId connectorNodeId (.str effect.runId)
      (.str "failed") (.str effect.workspaceId) (.str effect.planId) (.str effect.desiredGraphId)
      (.obj members) (rows.map Row.event) = .ok effect := by
  obtain ⟨row, event, evidence, hrow, hevent, hevidence, hruntime, hnode, hcontainer⟩ := h.event
  have htests : ((Json.str effect.runId).pyEq (.str expectedRunId) &&
      (Json.str "failed").pyEq (.str "failed") &&
      (Json.str effect.workspaceId).pyEq (.str expectedWorkspaceId)) = true := by
    rw [Bool.and_eq_true, Bool.and_eq_true, Json.pyEq_str, Json.pyEq_str, Json.pyEq_str]
    exact ⟨⟨congrArg Json.str h.run, rfl⟩, congrArg Json.str h.workspace⟩
  have hactivity : connectorActivityId connectorNodeId members = .ok (.str effect.activityId) := by
    rw [connectorActivityId, hactivities]
    dsimp only
    rw [hfilter]
    exact congrArg _ hid
  have hevents : soleEvidence ((rows.map Row.event).filter (carriesActivity (.str effect.activityId))) =
      .ok (.obj evidence) := by
    have hfiltered : (rows.map Row.event).filter (carriesActivity (.str effect.activityId)) =
        [.obj event] := by
      rw [List.filter_map]
      exact (congrArg (List.map Row.event) hrow).trans (congrArg (fun v => [v]) hevent)
    rw [hfiltered]
    exact congrArg _ hevidence
  rw [Connector.failedEffect, if_pos htests, hactivity, Raise.ok_bind, hevents, Raise.ok_bind]
  exact shownEffect_of h.node h.texts hruntime hnode hcontainer

/-- **Evidence for a failed connector is decoded to its effect.** -/
theorem FailedConnector.decoded
    (h : FailedConnector expectedWorkspaceId expectedRunId connectorNodeId rows effect) :
    decodeExactConnectorRunEvidence expectedWorkspaceId expectedRunId connectorNodeId
      acceptedGraphId rows = .ok (some effect) := by
  obtain ⟨members, items, activity, hdict, hshares, hactivities, hfilter, hid⟩ := h.plan
  have hrows : rows ≠ [] := by
    rintro rfl
    obtain ⟨row, _, _, hrow, -⟩ := h.event
    cases hrow
  have hdicts : ∀ v ∈ [Json.str effect.runId, .str "failed", .str effect.workspaceId,
      .str effect.planId, .str effect.desiredGraphId, .obj members], v.isDict = true := by
    simp only [List.forall_mem_cons]
    exact ⟨rfl, rfl, rfl, rfl, rfl, hdict, List.forall_mem_nil _⟩
  obtain ⟨a, b, c, d, e, f, hidentity, ha, hb, hc, hd, he, hf⟩ :=
    sharedIdentity_of_shares uncertainRun hshares hrows hdicts
  rw [decodeExactConnectorRunEvidence, hidentity, Raise.ok_bind]
  dsimp only
  rw [hb.pyEq_str, hb.pyEq_str, if_neg (by decide), if_pos (by decide),
    decodeExactFailedConnectorEffect_of_shared hidentity,
    failedEffect_congr ha hb hc hd he hf (List.Perm.refl _), h.failedEffect hactivities hfilter hid]
  rfl

/-- **Evidence for a run that succeeded is decoded to no effect.** -/
theorem SucceededRun.decoded
    (h : SucceededRun expectedWorkspaceId expectedRunId acceptedGraphId rows) :
    decodeExactConnectorRunEvidence expectedWorkspaceId expectedRunId connectorNodeId
      acceptedGraphId rows = .ok none := by
  obtain ⟨hrows, planId, members, hplan, hdict, hshares⟩ := h
  have hdicts : ∀ v ∈ [Json.str expectedRunId, .str "succeeded", .str expectedWorkspaceId,
      .str planId, .str acceptedGraphId, .obj members], v.isDict = true := by
    simp only [List.forall_mem_cons]
    exact ⟨rfl, rfl, rfl, rfl, rfl, hdict, List.forall_mem_nil _⟩
  obtain ⟨a, b, c, d, e, f, hidentity, ha, hb, hc, hd, he, hf⟩ :=
    sharedIdentity_of_shares uncertainRun hshares hrows hdicts
  have htests : isSucceededRun expectedWorkspaceId expectedRunId acceptedGraphId (.str expectedRunId)
      (.str expectedWorkspaceId) (.str planId) (.str acceptedGraphId) (.obj members) = true := by
    simp [isSucceededRun, Json.pyEq_str, hplan]
  rw [decodeExactConnectorRunEvidence, hidentity, Raise.ok_bind]
  dsimp only
  rw [hb.pyEq_str, if_pos (by decide), isSucceededRun_congr ha hc hd he hf, if_pos htests]

/-- **The evidence for a failed connector is exact**: an effect is what the evidence for it gives,
and none what a run that succeeded gives; everything else raises `RuntimeError`; the order of the
rows does not matter. -/
theorem decodeExactConnectorRunEvidence_exact
    (expectedWorkspaceId expectedRunId connectorNodeId acceptedGraphId : Text) (rows : List Row) :
    (∀ effect, decodeExactConnectorRunEvidence expectedWorkspaceId expectedRunId connectorNodeId
        acceptedGraphId rows = .ok (some effect) ↔
      FailedConnector expectedWorkspaceId expectedRunId connectorNodeId rows effect) ∧
    (decodeExactConnectorRunEvidence expectedWorkspaceId expectedRunId connectorNodeId
        acceptedGraphId rows = .ok none ↔
      SucceededRun expectedWorkspaceId expectedRunId acceptedGraphId rows) ∧
    (∀ e, decodeExactConnectorRunEvidence expectedWorkspaceId expectedRunId connectorNodeId
        acceptedGraphId rows = .error e → ∃ message, e = .runtimeError message) ∧
    ∀ rows', rows.Perm rows' →
      decodeExactConnectorRunEvidence expectedWorkspaceId expectedRunId connectorNodeId
          acceptedGraphId rows' =
        decodeExactConnectorRunEvidence expectedWorkspaceId expectedRunId connectorNodeId
          acceptedGraphId rows := by
  refine ⟨fun effect => ⟨fun hdecode => ?_, FailedConnector.decoded⟩,
    ⟨fun hdecode => ?_, SucceededRun.decoded⟩, fun e hdecode => ?_, fun rows' hperm =>
    (decodeExactConnectorRunEvidence_perm hperm).symm⟩
  all_goals
    rcases decodeExactConnectorRunEvidence_cases with ⟨effect', hcase, hfailed⟩ |
      ⟨hcase, hsucceeded⟩ | ⟨message, hcase⟩
    all_goals cases hdecode.symm.trans hcase
  · exact hfailed
  · exact hsucceeded
  · exact ⟨message, rfl⟩

end Exact

namespace Instance

/-- A plan that starts the connector's node. -/
def plan : Fields :=
  [("activities", .arr [.obj [("activity_id", .str "activity-1"), ("operation", .obj
    [("kind", .str "start-node"), ("target", .obj [("kind", .str "node"),
      ("node_id", .str "connector")])])]])]

/-- The event of its activity. -/
def event : Fields :=
  [("activity_id", .str "activity-1"), ("evidence", .obj [("runtime_id", .str "docker"),
    ("node_id", .str "connector"), ("container", .str "container-1")])]

/-- The row of a failed run. -/
def row : Row where
  columns := [.str "run-1", .str "failed", .str "workspace-1", .str "plan-1", .str "graph-1",
    .obj plan, .obj event]
  dicts := by decide

/-- The effect that the row shows. -/
def effect : ExactFailedDockerNodeEffect :=
  ⟨"workspace-1", "run-1", "plan-1", "graph-1", "activity-1", "docker", "connector", "container-1"⟩

/-- The row of a failed run is decoded to its effect, which rests on it. -/
theorem decodeExactConnectorRunEvidence_row :
    decodeExactConnectorRunEvidence "workspace-1" "run-1" "connector" "graph-1" [row] =
        .ok (some effect) ∧
      FailedConnector "workspace-1" "run-1" "connector" [row] effect := by
  have hdecoded : decodeExactConnectorRunEvidence "workspace-1" "run-1" "connector" "graph-1" [row] =
      .ok (some effect) := rfl
  exact ⟨hdecoded, ((decodeExactConnectorRunEvidence_exact "workspace-1" "run-1" "connector" "graph-1"
    [row]).1 effect).mp hdecoded⟩

end Instance

end Connector

end SourceLive

end ControlPlaneKit
