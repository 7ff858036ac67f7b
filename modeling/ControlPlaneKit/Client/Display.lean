import ControlPlaneKit.Client.Recording

/-!
# What a preparation displays

`_finish_prepare` shows the activities of the plan it reads, and stores what it shows with the
journal. `_plan_changes` bounds each text of an activity; the journal bounds the number of
activities and, after JSON escaping, the bytes of the document. A committed preparation is stored
exactly where its activities stay within both.
-/

namespace ControlPlaneKit

namespace Client

open Interaction

section Display

variable {rt : Runtime} {profile : ClientProfile} {docs : Set (List UInt8)} {ref : OperationRef}
  {j : Journal} {w : World}

/-! ### The size of a display -/

section Size

variable {floatText : ℚ → List Char}

/-- The characters of a displayed activity. -/
def Change.size (floatText : ℚ → List Char) (change : Change) : ℕ :=
  (change.json.size floatText).getD 0

/-- The characters of the displayed activities, with the commas between them. -/
def displaySize (floatText : ℚ → List Char) (changes : List Change) : ℕ :=
  (changes.map fun change => change.size floatText + 1).sum - 1

/-- The document is within the bound of a journal, with `n` characters to spare. -/
def Journal.Spares (floatText : ℚ → List Char) (j : Journal) (n : ℕ) : Prop :=
  ∃ size, j.json.size floatText = some size ∧ size + n ≤ maximumJournalBytes

/-- An activity consists of texts, so the encoder accepts it. -/
theorem Change.size_json (change : Change) :
    change.json.size floatText = some (change.size floatText) := by
  have htext : ∀ c : Coordinate, (c.json.size floatText).isSome = true := by
    intro c
    simp [Coordinate.json, Json.size, Json.encode]
  have htarget : ((Json.obj (change.target.map fun m =>
      ((m.1.text : Text), m.2.json))).size floatText).isSome = true := by
    refine Json.size_obj_isSome fun m hm => ?_
    obtain ⟨x, -, rfl⟩ := List.mem_map.mp hm
    exact htext _
  have hall : (change.json.size floatText).isSome = true := by
    refine Json.size_obj_isSome ?_
    simp only [List.forall_mem_cons]
    exact ⟨htext _, htext _, htarget, by simp⟩
  obtain ⟨n, hn⟩ := Option.isSome_iff_exists.mp hall
  rw [Change.size, hn]
  rfl

/-- Displayed activities lengthen the empty list by their size. -/
theorem longer_changes (changes : List Change) :
    Json.Longer floatText (displaySize floatText changes) (.arr [])
      (.arr (changes.map Change.json)) := by
  have hsizes : ∀ x ∈ changes.map Change.json,
      x.size floatText = some ((x.size floatText).getD 0) := by
    intro x hx
    obtain ⟨change, -, rfl⟩ := List.mem_map.mp hx
    rw [change.size_json]
    rfl
  have hnone : (Json.arr []).size floatText = some 2 := by
    rw [Json.size, Json.encode, Json.encodeItems]
    rfl
  rw [Json.Longer, Json.size_arr hsizes, hnone, List.map_map]
  refine congrArg some ?_
  rw [displaySize, Nat.add_comm]
  rfl

/-- So they lengthen the result, and the journal that stores it. -/
theorem longer_journal (j : Journal) (result : ClientResult) :
    Json.Longer floatText (displaySize floatText result.changes)
      { j with lastResult := some { result with changes := [] } }.json
      { j with lastResult := some result }.json := by
  have hdescriptor : Json.Longer floatText (displaySize floatText result.changes)
      ({ result with changes := [] } : ClientResult).descriptor result.descriptor :=
    (longer_changes result.changes).obj "changes" [_, _, _, _, _, _, _] (_ :: _)
  exact hdescriptor.obj "last_result" [_, _, _, _, _, _, _, _] []

/-- **A stored display is within the bound** exactly where the document has room for it. -/
theorem encodeJournal_showing {result : ClientResult}
    (hvalid : Journal.Valid { j with lastResult := some result } ref) :
    (∃ raw, encodeJournal floatText ref { j with lastResult := some result } = .ok raw) ↔
      Journal.Spares floatText { j with lastResult := some { result with changes := [] } }
        (displaySize floatText result.changes) := by
  have hlonger : Json.Longer floatText _ _ _ := longer_journal j result
  have hok := validateJournal_eq_ok.mpr hvalid
  simp only [encodeJournal, hok, bind, Except.bind, Journal.Spares]
  rw [Json.Longer, Json.size] at hlonger
  cases hraw : Json.encode floatText { j with lastResult := some result }.json with
  | none =>
    rw [hraw, Option.map_none, eq_comm, Option.map_eq_none_iff] at hlonger
    simp [hlonger]
  | some raw =>
    rw [hraw, Option.map_some, eq_comm, Option.map_eq_some_iff] at hlonger
    obtain ⟨size, hsize, hlength⟩ := hlonger
    simp only [hsize, Option.some.injEq, exists_eq_left', ← hlength]
    constructor
    · rintro ⟨bytes, hbytes⟩
      split at hbytes
      · assumption
      · cases hbytes
    · intro hroom
      exact ⟨_, if_pos hroom⟩

end Size

/-! ### Committed preparations -/

/-- The approval read of a preparation, with the approval it found. -/
inductive ApprovalRead (profile : ClientProfile) (ref : OperationRef) (plan : Fields) :
    Option Coordinate → Option Fields → Trace → Prop where
  | absent : ApprovalRead profile ref plan none none []
  | found {approvalId : Coordinate} {response approval : Fields}
      (hget : response.get "approval" = .obj approval)
      (hbound : validateApproval plan approvalId approval = .ok ()) :
      ApprovalRead profile ref plan (some approvalId) (some approval)
        [answered profile ref .approvalDetail (approvalPath profile approvalId) response]

/-- A preparation that the server has committed: the response to it, the plan and the approval
that `_finish_prepare` reads for the journal, and the result it builds from them. -/
structure Preparation (profile : ClientProfile) (j : Journal) where
  prepared : Fields
  status : Coordinate
  planId : Coordinate
  coordinates : Coordinates
  response : Fields
  plan : Fields
  changes : List Change
  planned : Coordinates
  approval : Option Fields
  reads : Trace
  result : ClientResult
  statusRead : text prepared "status" = .ok status
  known : ["no-changes", "review-blocked", "approval-required"].contains status.text = true
  planIdRead : text prepared "plan_id" = .ok planId
  coordinatesRead : preparedCoordinates j.coordinates prepared = .ok coordinates
  planRead : response.get "plan" = .obj plan
  planBound : validatePlan { j with coordinates := coordinates } plan = .ok ()
  changesRead : planChanges plan = .ok changes
  planRecorded : recordPlanCoordinates coordinates plan = .ok planned
  approvalRead : ApprovalRead profile j.operationRef plan planned.approvalRequestId approval reads
  built : planResult { j with coordinates := planned, phase := preparedPhase status } plan approval
    status changes = .ok result

/-- The result that shows these activities: the identity of the journal, the status of the
preparation, and what the approval says. -/
def shownResult (j : Journal) (planId : Option Coordinate) (approval : Option Fields)
    (status : Coordinate) (changes : List Change) : ClientResult where
  status :=
    if status.text = "no-changes" then .noChanges
    else if status.text = "review-blocked" then .attentionRequired
    else .planned
  operationRef := j.operationRef
  workspaceId := j.target.workspaceId
  planId := planId
  approvalRequestId := approval.bind fun a => (text a "request_id").toOption
  runId := none
  execution := .notStarted
  advancement := if status.text = "no-changes" then .unchanged else .notAttempted
  requiredScope := approval.bind fun a => (text a "required_scope").toOption
  destructive := approval.bind fun a => (boolean a "destructive").toOption
  changes := changes
  offersApply := status.text == "approval-required"
  nextPublicRead := some .planDetail

/-- What `_plan_result` builds. -/
theorem planResult_ok {j : Journal} {plan : Fields} {approval : Option Fields} {status : Coordinate}
    {changes : List Change} {result : ClientResult}
    (h : planResult j plan approval status changes = .ok result) :
    ∃ planId : Coordinate, text plan "plan_id" = .ok planId ∧
      (∀ a, approval = some a → ∃ id, text a "request_id" = .ok id) ∧
      result = shownResult j (some planId) approval status changes := by
  cases approval with
  | none =>
    obtain ⟨scope, hscope, h⟩ := Raise.bind_eq_ok.mp h
    cases hscope
    obtain ⟨planId, hplanId, h⟩ := Raise.bind_eq_ok.mp h
    obtain ⟨approvalRequestId, hnone, h⟩ := Raise.bind_eq_ok.mp h
    cases hnone
    cases h
    exact ⟨planId, hplanId, nofun, rfl⟩
  | some approval =>
    obtain ⟨scope, hscope, h⟩ := Raise.bind_eq_ok.mp h
    obtain ⟨destructive, hdestructive, h⟩ := Raise.bind_eq_ok.mp h
    obtain ⟨pair, hpair, h⟩ := Raise.bind_eq_ok.mp h
    cases hpair
    obtain ⟨planId, hplanId, h⟩ := Raise.bind_eq_ok.mp h
    obtain ⟨id, hid, h⟩ := Raise.bind_eq_ok.mp h
    cases h
    cases hrequest : text approval "request_id" with
    | error e =>
      rw [hrequest] at hid
      cases hid
    | ok request =>
      rw [hrequest] at hid
      cases hid
      refine ⟨planId, hplanId, ?_, ?_⟩
      · rintro a ⟨⟩
        exact ⟨request, hrequest⟩
      · simp only [shownResult, Option.bind_some, hscope, hdestructive, hrequest]
        rfl

namespace Preparation

variable (s : Preparation profile j)

/-- The journal that stores the result. -/
def journal : Journal :=
  { j with coordinates := s.planned, phase := preparedPhase s.status, lastResult := some s.result }

/-- The journal for a plan without activities: the coordinates of this plan, and a result that says
what was read besides the activities. -/
def frame : Journal :=
  { j with
    coordinates := s.planned, phase := preparedPhase s.status
    lastResult := some (shownResult j s.planned.planId s.approval s.status []) }

/-- What happens while the preparation is finished. -/
def events : Trace :=
  answered profile j.operationRef .planDetail (planPath profile s.planId) s.response ::
    (s.reads ++ [wrote j.operationRef s.journal])

/-- The result passes `_validate_result`, and it is written and returned. -/
def Stored (rt : Runtime) (docs : Set (List UInt8)) (w : World) : Prop :=
  validateResult s.result j.operationRef j.target s.planned = .ok () ∧
    (∃ raw, encodeJournal rt.floatText j.operationRef s.journal = .ok raw) ∧
      Returns docs j.operationRef w (finishPrepare rt profile j s.prepared) s.events
        (w.store s.journal) s.result

/-- Each activity that `_plan_changes` accepts has a target with a kind. -/
theorem validChangeTarget_of_planChanges {plan : Fields} {changes : List Change}
    (h : planChanges plan = .ok changes) :
    ∀ change ∈ changes, validChangeTarget change.target = true := by
  have hchange : ∀ activity change, planChange activity = .ok change →
      validChangeTarget change.target = true := by
    intro activity change hchange
    unfold planChange at hchange
    split at hchange
    · obtain ⟨operation, -, hchange⟩ := Raise.bind_eq_ok.mp hchange
      obtain ⟨target, -, hchange⟩ := Raise.bind_eq_ok.mp hchange
      obtain ⟨projected, -, hchange⟩ := Raise.bind_eq_ok.mp hchange
      split at hchange
      · cases hchange
      · rename_i hkind
        obtain ⟨-, -, hchange⟩ := Raise.bind_eq_ok.mp hchange
        obtain ⟨activityId, -, hchange⟩ := Raise.bind_eq_ok.mp hchange
        obtain ⟨kind, -, hchange⟩ := Raise.bind_eq_ok.mp hchange
        cases hchange
        simpa [validChangeTarget, Option.ne_none_iff_isSome] using hkind
    · cases hchange
  have hall : ∀ (activities : List Json) (changes : List Change),
      activities.mapM planChange = .ok changes →
      ∀ change ∈ changes, validChangeTarget change.target = true := by
    intro activities
    induction activities with
    | nil =>
      intro changes h
      cases h
      simp
    | cons activity activities ih =>
      intro changes h
      rw [List.mapM_cons] at h
      obtain ⟨first, hfirst, h⟩ := Raise.bind_eq_ok.mp h
      obtain ⟨rest, hrest, h⟩ := Raise.bind_eq_ok.mp h
      cases h
      rw [List.forall_mem_cons]
      exact ⟨hchange _ _ hfirst, ih rest hrest⟩
  obtain ⟨payload, -, h⟩ := Raise.bind_eq_ok.mp h
  split at h
  · split at h
    · exact hall _ _ h
    · cases h
  · cases h
    simp

/-- The result is about the operation of the journal, and shows the activities of the plan. -/
theorem shows : s.result.operationRef = j.operationRef ∧
    s.result.workspaceId = j.target.workspaceId ∧ s.result.changes = s.changes ∧
      s.result.runId = none := by
  obtain ⟨planId, -, -, hresult⟩ := planResult_ok s.built
  rw [hresult]
  exact ⟨rfl, rfl, rfl, rfl⟩

/-- The ids of the result are coordinates of the journal that stores it. -/
theorem ids : s.result.planId = s.planned.planId ∧ (s.result.approvalRequestId = none ∨
    s.result.approvalRequestId = s.planned.approvalRequestId) := by
  obtain ⟨planId, hplanId, hfound, hresult⟩ := planResult_ok s.built
  have hplanned := (recordPlan_value s.planRecorded).1 .planId (by decide)
  constructor
  · have hjson : s.planned.planId.map Coordinate.json = some planId.json :=
      hplanned.trans (congrArg some (text_ok hplanId))
    obtain ⟨id, hid, hsame⟩ := Option.map_eq_some_iff.mp hjson
    rw [hresult, hid, Coordinate.json_injective hsame]
    rfl
  · have hread := s.approvalRead
    generalize s.planned.approvalRequestId = approvalId at hread
    rw [hresult]
    generalize s.approval = approval at hread hfound
    generalize s.reads = reads at hread
    cases hread with
    | absent => exact .inl rfl
    | @found approvalId response approval hget hbound =>
      obtain ⟨id, hid⟩ := hfound approval rfl
      have hrequest : approval.get "request_id" = approvalId.json := by
        unfold validateApproval at hbound
        split at hbound
        · cases hbound
        · rename_i hids
          simp only [Bool.not_eq_eq_eq_not, Bool.not_true, Bool.not_eq_false, Bool.and_eq_true,
            Coordinate.pyEq_json] at hids
          exact hids.1
      refine .inr ?_
      rw [← Coordinate.json_injective ((text_ok hid).symm.trans hrequest), shownResult,
        Option.bind_some, hid]
      rfl

/-- Without its activities the stored journal is the frame. -/
theorem journal_frame :
    { s.journal with lastResult := some { s.result with changes := [] } } = s.frame := by
  obtain ⟨planId, -, -, hresult⟩ := planResult_ok s.built
  have hid := s.ids.1
  rw [hresult] at hid
  rw [frame, journal, hresult, ← hid]
  rfl

/-- The coordinates that are stored suit the phase that is stored. -/
theorem suits : s.planned.Suits (preparedPhase s.status) := by
  have hplan : s.planned.Planned := recordPlan_planned s.planRecorded
  have hphase : preparedPhase s.status ∈ [Phase.noChanges, .attentionRequired, .prepared] := by
    unfold preparedPhase
    split
    · decide
    · split <;> decide
  have hnone : ∀ phase ∈ [Phase.noChanges, .attentionRequired, .prepared],
      phase ≠ .planning ∧ requiredByPhase phase = [] ∧ phase ∉ [Phase.executed, .advanced, .converged] ∧
        phase ≠ .started ∧ phase ≠ .executing := by decide
  obtain ⟨hplanning, hrequired, hover, hstarted, hexecuting⟩ := hnone _ hphase
  exact ⟨fun h => absurd h hplanning, fun _ _ => hplan .planId (by decide), fun _ => hplan,
    by simp [hrequired], fun h => absurd h hover, fun h => absurd h hstarted,
    fun h => absurd h hexecuting, fun h => absurd (List.mem_cons_of_mem _ h) hover⟩

/-- **The number of activities** is all that `_validate_result` can find wrong. -/
theorem validateResult_iff : validateResult s.result j.operationRef j.target s.planned = .ok () ↔
    s.changes.length ≤ maximumRequestRecords := by
  obtain ⟨href, hworkspace, hchanges, hrun⟩ := s.shows
  obtain ⟨hplan, happroval⟩ := s.ids
  have htargets := validChangeTarget_of_planChanges s.changesRead
  simp only [validateResult, require_bind_eq_ok, require_eq_ok, href, hworkspace, hchanges, hrun,
    hplan, beq_self_eq_true, Bool.and_self, true_and, decide_eq_true_eq, Bool.and_eq_true,
    Option.isNone_none, Bool.true_or, and_true, Bool.or_true, List.all_eq_true, Bool.or_eq_true,
    beq_iff_eq, Option.isNone_iff_eq_none]
  exact ⟨fun h => h.1, fun h => ⟨h, htargets, happroval⟩⟩

/-- The approval is read where the preparation has one. -/
theorem returns_approval : Returns docs j.operationRef w
    (preparedApproval rt profile { j with coordinates := s.planned } s.plan) s.reads w s.approval := by
  have hread := s.approvalRead
  unfold preparedApproval
  simp only
  generalize s.planned.approvalRequestId = approvalId at hread
  generalize s.approval = approval at hread
  generalize s.reads = reads at hread
  cases hread with
  | absent => exact .pure none
  | found hget hbound =>
    refine .exceptUnresolved (Returns.bind (u := []) (returns_approvalDetail hget) ?_)
    exact .lift_bind hbound (.pure _)

/-- **A committed preparation is stored** exactly where its activities are few enough for a result
and short enough for a journal. -/
theorem stores_iff (hj : j.Valid j.operationRef) (hnone : j.pendingRequest = none)
    (hw : w.journal = some j) : s.Stored rt docs w ↔ s.changes.length ≤ maximumRequestRecords ∧
      s.frame.Spares rt.floatText (displaySize rt.floatText s.changes) := by
  have hresult := s.validateResult_iff
  have hchanges : s.result.changes = s.changes := s.shows.2.2.1
  -- Apart from its result, the journal is valid.
  have hvalid : s.changes.length ≤ maximumRequestRecords → s.journal.Valid j.operationRef := by
    intro hfew
    have hsame : s.journal = { j with
        coordinates := s.planned, phase := preparedPhase s.status, pendingRequest := none,
        requestHistory := j.requestHistory, lastResult := some s.result } := by
      rw [journal, hnone]
    rw [hsame]
    refine hj.move s.suits hj.budget ?_
    intro r hr
    rw [← Option.some.inj hr]
    exact hresult.mpr hfew
  have hencodes : s.changes.length ≤ maximumRequestRecords →
      ((∃ raw, encodeJournal rt.floatText j.operationRef s.journal = .ok raw) ↔
        s.frame.Spares rt.floatText (displaySize rt.floatText s.changes)) := by
    intro hfew
    have hshowing : Journal.Valid { s.journal with lastResult := some s.result } j.operationRef :=
      hvalid hfew
    have hiff : (∃ raw, encodeJournal rt.floatText j.operationRef
        { s.journal with lastResult := some s.result } = .ok raw) ↔ _ :=
      encodeJournal_showing hshowing
    rw [hchanges] at hiff
    exact s.journal_frame ▸ hiff
  constructor
  · rintro ⟨hok, hraw, -⟩
    exact ⟨hresult.mp hok, (hencodes (hresult.mp hok)).mp hraw⟩
  · rintro ⟨hfew, hroom⟩
    obtain ⟨raw, hraw⟩ := (hencodes hfew).mpr hroom
    refine ⟨hresult.mpr hfew, ⟨raw, hraw⟩, ?_⟩
    have hread : Returns docs j.operationRef w
        (preparedPlan rt profile { j with coordinates := s.coordinates } s.planId)
        [answered profile j.operationRef .planDetail (planPath profile s.planId) s.response] w
        (s.plan, s.changes) := by
      refine .exceptUnresolved ?_
      refine Returns.bind (u := []) (returns_planDetail s.planRead) ?_
      exact .lift_bind s.planBound (.lift_bind s.changesRead (.pure _))
    have hwrite : Returns docs j.operationRef w (writeJournal rt j.operationRef s.journal)
        [wrote j.operationRef s.journal] (w.store s.journal) () := by
      refine Returns.lift_bind hraw (.performed ?_ (.returned _ ()))
      simp only [answers, StoreAnswer.published, and_self, if_true]
      exact ⟨by rw [hw]; rfl, trivial⟩
    refine Returns.lift_bind s.statusRead ?_
    rw [if_pos s.known]
    refine Returns.lift_bind s.coordinatesRead (.lift_bind s.planIdRead ?_)
    refine Returns.bind (t := [_]) hread (.lift_bind s.planRecorded ?_)
    refine Returns.bind (t := s.reads) s.returns_approval (.lift_bind s.built ?_)
    exact Returns.bind (t := [_]) (u := []) hwrite (.pure _)

end Preparation

/-- **Displays in every reachable state**: the result of a committed preparation passes its
validation and is stored exactly where the plan has at most 128 activities and they fit into the
journal. -/
theorem Directory.Reachable.stored_iff {c : Directory} (hc : Directory.Reachable rt docs c)
    (hj : (c.state j.operationRef).journal = some j) (hnone : j.pendingRequest = none)
    (s : Preparation profile j) :
    s.Stored rt docs (c.state j.operationRef) ↔ s.changes.length ≤ maximumRequestRecords ∧
      s.frame.Spares rt.floatText (displaySize rt.floatText s.changes) := by
  have hinv : WorldInv rt docs j.operationRef (c.state j.operationRef) :=
    Reachable.inv ⟨c, hc, rfl⟩
  exact s.stores_iff (hinv.journal j hj).valid hnone hj

end Display

/-! ### A plan with activities -/

namespace Scenario

variable {rt : Runtime} {profile : ClientProfile} {docs : Set (List UInt8)} {s : Scenario}

/-- The plan with these activities. -/
def planShowing (s : Scenario) (activities : List Json) : Fields :=
  s.plan.dropLast ++ [(.utf8 "payload", .obj [(.utf8 "activities", .arr activities)])]

theorem get_planShowing (activities : List Json) {name : String} (hname : name ≠ "payload") :
    (s.planShowing activities).get name = s.plan.get name := by
  simp [planShowing, plan, hname]

theorem validatePlan_planShowing {j : Journal} {activities : List Json}
    (hj : validatePlan j s.plan = .ok ()) : validatePlan j (s.planShowing activities) = .ok () := by
  refine validatePlan_ok.mpr fun n hn hhas => ?_
  have hkey : ∀ n ∈ planCoordinates, n.key ≠ "payload" := by decide
  rw [get_planShowing activities (hkey n hn)]
  exact validatePlan_ok.mp hj n hn hhas

theorem recordPlanCoordinates_planShowing (activities : List Json) (c : Coordinates) :
    recordPlanCoordinates c (s.planShowing activities) = recordPlanCoordinates c s.plan := by
  simp [recordPlanCoordinates, text, integer, get_planShowing]

theorem validateApproval_planShowing (activities : List Json) (approval : Fields) :
    validateApproval (s.planShowing activities) s.approvalId approval =
      validateApproval s.plan s.approvalId approval := by
  simp [validateApproval, get_planShowing]

theorem planChanges_planShowing {activities : List Json} {changes : List Change}
    (h : activities.mapM planChange = .ok changes) :
    planChanges (s.planShowing activities) = .ok changes := by
  simp [planChanges, planShowing, plan, mapping, bind, Except.bind, Fields.has, h]

/-- The preparation may be abandoned once its response is recorded. -/
theorem reachable_preparedFirst (hs : s.Fair rt docs) : ∃ w,
    Directory.Reachable rt docs (.only s.ref w) ∧
      w.journal = some (s.preparedFirst rt profile) := by
  have hsplit : s.planEvents rt profile = ((s.planEvents rt profile).take 8 ++
      [wrote s.ref (s.preparedFirst rt profile)]) ++ (s.planEvents rt profile).drop 9 := rfl
  exact reachable_planning hs hsplit (by simp [granted, planEvents, grants, answered, wrote])

/-- The response to the preparation, with this verdict. -/
def answer (profile : ClientProfile) (s : Scenario) (verdict : Coordinate) : Fields :=
  [(.utf8 "workspace_id", profile.workspaceId.json), (.utf8 "status", verdict.json),
    (.utf8 "plan_id", s.planId.json), (.utf8 "approval_request_id", s.approvalId.json)]

/-- The preparation of the scenario with this verdict, for a plan with these activities. -/
def preparation (rt : Runtime) (profile : ClientProfile) (s : Scenario) {verdict : Coordinate}
    (hknown : ["no-changes", "review-blocked", "approval-required"].contains verdict.text = true)
    {activities : List Json} {changes : List Change}
    (h : activities.mapM planChange = .ok changes) :
    Preparation profile (s.preparedFirst rt profile) where
  prepared := s.answer profile verdict
  status := verdict
  planId := s.planId
  coordinates := (s.preparedFirst rt profile).coordinates
  response := [("plan", .obj (s.planShowing activities))]
  plan := s.planShowing activities
  changes := changes
  planned := s.planned
  approval := some (s.approval "pending")
  reads := [answered profile s.ref .approvalDetail (approvalPath profile s.approvalId)
    [("approval", .obj (s.approval "pending"))]]
  result := { s.prepared profile with
    status :=
      if verdict.text = "no-changes" then .noChanges
      else if verdict.text = "review-blocked" then .attentionRequired
      else .planned
    advancement := if verdict.text = "no-changes" then .unchanged else .notAttempted
    changes := changes
    offersApply := verdict.text == "approval-required" }
  statusRead := by simp [text, answer]
  known := hknown
  planIdRead := by simp [text, answer]
  coordinatesRead := by
    simp [preparedCoordinates, text, answer, preparedFirst, bind, Except.bind, pure, Except.pure,
      Fields.has]
  planRead := by simp
  planBound := validatePlan_planShowing (validatePlan_plan fun n hn hhas => by
    cases n <;> first
      | rfl
      | exact absurd hn (by decide)
      | cases hhas)
  changesRead := planChanges_planShowing h
  planRecorded := by
    rw [recordPlanCoordinates_planShowing, recordPlanCoordinates_plan]
    rfl
  approvalRead := .found (by simp) (by
    rw [validateApproval_planShowing]
    exact validateApproval_approval _)
  built := by
    have hscope : textCoordinate (.str (.utf8 "plan:approve")) = .ok (.literal "plan:approve") :=
      textCoordinate_json (.literal "plan:approve")
    simp [planResult, text, boolean, approval, get_planShowing, plan, prepared, bind, Except.bind,
      pure, Except.pure, hscope, preparedFirst, ClientProfile.target]

/-- A preparation that shows no activities leaves a modest journal. -/
theorem preparation_modest (hs : s.Fair rt docs) {verdict : Coordinate}
    (hknown : ["no-changes", "review-blocked", "approval-required"].contains verdict.text = true)
    {activities : List Json} (h : activities.mapM planChange = .ok []) :
    (s.preparation rt profile hknown h).journal.Modest rt.floatText := by
  have hmodest : (s.journal rt profile [] .prepared).Modest rt.floatText :=
    journal_modest hs (by decide)
  exact ⟨hmodest.desired, hmodest.coordinates, hmodest.pending, hmodest.few, hmodest.records, by
    rintro result ⟨⟩
    rfl⟩

end Scenario

namespace Instance

/-- An activity of a plan. -/
def activity : Json :=
  .obj [(.utf8 "activity_id", .str "activity-1"),
    (.utf8 "operation", .obj [(.utf8 "kind", .str "create"),
      (.utf8 "target", .obj [(.utf8 "kind", .str "node")])])]

/-- The activity as it is displayed. -/
def change : Change :=
  ⟨.literal "activity-1", .literal "create", [(.kind, .literal "node")]⟩

theorem planChange_activity : planChange activity = .ok change :=
  rfl

/-- A plan may repeat an activity any number of times. -/
theorem planChanges_replicate (n : ℕ) :
    (List.replicate n activity).mapM planChange = .ok (List.replicate n change) := by
  induction n with
  | zero => rfl
  | succ n ih =>
    rw [List.replicate_succ, List.mapM_cons, planChange_activity, ih]
    rfl

/-- A preparation that asks for approval. -/
def shown (n : ℕ) : Preparation profile (scenario.preparedFirst runtime profile) :=
  scenario.preparation runtime profile
    (show ["no-changes", "review-blocked", "approval-required"].contains
      (Coordinate.literal "approval-required" required_size).text = true from rfl) (planChanges_replicate n)

theorem size_change (floatText : ℚ → List Char) : change.size floatText ≤ 4000 := by
  have htext : ∀ c : Coordinate, c.text.utf8ByteSize ≤ 16 → Json.Fits floatText (12 * 16 + 2) c.json :=
    fun c hc => Json.fits_str hc
  have htarget := Json.fits_obj (Json.FitsMembers.nil.member "kind"
    (htext (.literal "node") (by decide)))
  obtain ⟨raw, hraw, hlength⟩ := Json.fits_obj (((Json.FitsMembers.nil.member "target" htarget).member
    "operation" (htext (.literal "create") (by decide))).member "activity_id"
    (htext (.literal "activity-1") (by decide)))
  have hjson : change.json.encode floatText = some raw := hraw
  rw [Change.size, Json.size, hjson]
  exact hlength.trans (by decide)

/-- **A preparation with activities is stored.** -/
theorem stored_prepared : ∃ w, Directory.Reachable runtime docs (.only scenario.ref w) ∧
    (shown 2).Stored runtime docs w := by
  obtain ⟨w, hw, hj⟩ := Scenario.reachable_preparedFirst fair
  refine ⟨w, hw, ?_⟩
  have hstate : (Directory.only scenario.ref w).state scenario.ref = w := Directory.only_state
  -- without its activities the journal is that of a preparation that shows none
  have hframe : (shown 2).frame = (shown 0).journal := (shown 2).journal_frame.symm
  obtain ⟨raw, hraw, hlength⟩ :=
    (Scenario.preparation_modest fair rfl (planChanges_replicate 0) : (shown 0).journal.Modest _).json
  have hsize : displaySize runtime.floatText (shown 2).changes ≤ 8192 := by
    have hchange := size_change runtime.floatText
    have hchanges : (shown 2).changes = [change, change] := rfl
    rw [hchanges, displaySize]
    simp only [List.map_cons, List.map_nil, List.sum_cons, List.sum_nil]
    omega
  have hstored : (shown 2).Stored runtime docs
      ((Directory.only scenario.ref w).state scenario.ref) := by
    refine (Directory.Reachable.stored_iff hw ?_ rfl _).mpr ⟨by decide, raw.length, ?_, ?_⟩
    · exact (congrArg World.journal hstate).trans hj
    · rw [hframe]
      exact congrArg (Option.map List.length) hraw
    · rw [maximumJournalBytes] at hlength ⊢
      omega
  rwa [hstate] at hstored

/-- One activity too many is accepted and displayed, and cannot be stored. -/
theorem manyActivities_unstored : ¬ ∀ (rt : Runtime) (docs : Set (List UInt8))
    (profile : ClientProfile) (j : Journal) (c : Directory) (s : Preparation profile j),
    Directory.Reachable rt docs c → (c.state j.operationRef).journal = some j →
    j.pendingRequest = none → s.Stored rt docs (c.state j.operationRef) := by
  intro hall
  obtain ⟨w, hw, hj⟩ := Scenario.reachable_preparedFirst fair
  have hstored := hall runtime docs profile (scenario.preparedFirst runtime profile) _ (shown 129) hw
    ((congrArg World.journal Directory.only_state).trans hj) rfl
  have hfew := (Preparation.validateResult_iff _).mp hstored.1
  have hmany : (shown 129).changes.length = 129 := List.length_replicate
  rw [hmany] at hfew
  exact absurd hfew (by decide)

end Instance

end Client

end ControlPlaneKit
