import ControlPlaneKit.Client.Accessors
import ControlPlaneKit.Client.StatusTruth

/-!
# Which failures leave the client

`Contains` is the rule for blocks: with `Digestible` answers, a block raises the client's own
exceptions only. `failures_contained` says so of all four invocations, whatever the journal holds.
-/

namespace ControlPlaneKit

namespace Client

open Interaction

/-- What a block may end with. -/
def Fits {α : Type} (R : α → Prop) : Except Exit α → Prop
  | .ok a => R a
  | .error (.returned _) => True
  | .error (.error e) => e.IsOwn

/-- With digestible answers, the block raises the client's own exceptions only, and its value
satisfies the postcondition. -/
def Contains {α : Type} (rt : Runtime) (R : α → Prop) (p : Block α) : Prop :=
  ∀ tr r, p.Runs tr r → (∀ e ∈ tr, Digestible rt e ∧ Opened e) → Fits R r

/-- The block raises the client's own exceptions only. -/
abbrev Contained {α : Type} (rt : Runtime) (p : Block α) : Prop :=
  Contains rt (fun _ => True) p

section Rules

variable {rt : Runtime} {α β : Type} {R R' : α → Prop} {p : Block α}

theorem Contains.pure {a : α} (ha : R a) : Contains rt R (Pure.pure a) := by
  intro tr r hr _
  obtain ⟨-, rfl⟩ := runs_pure.mp hr
  exact ha

theorem Contains.raise {e : ClientError} (he : e.IsOwn) : Contains rt R (Client.raise e) := by
  intro tr r hr _
  obtain ⟨-, rfl⟩ := runs_raise.mp hr
  exact he

theorem Contains.returnNow {result : ClientResult} : Contains rt R (Client.returnNow result) := by
  intro tr r hr _
  obtain ⟨-, rfl⟩ := runs_returnNow.mp hr
  trivial

theorem Contains.lift {x : Except ClientError α} (hx : Owns x) (hR : ∀ a, x = .ok a → R a) :
    Contains rt R (Client.lift x) := by
  cases x with
  | ok a => exact .pure (hR a rfl)
  | error e => exact .raise (hx e rfl)

theorem Contains.perform {op : Op} {next : op.Answer → Block α}
    (hnext : ∀ a, Digestible rt ⟨op, a⟩ → Opened ⟨op, a⟩ → Contains rt R (next a)) :
    Contains rt R (.perform op next) := by
  intro tr r hr hdigest
  cases hr with
  | perform hr =>
    rw [List.forall_mem_cons] at hdigest
    exact hnext _ hdigest.1.1 hdigest.1.2 _ r hr hdigest.2

theorem Contains.bind {f : α → Block β} {S : β → Prop} (hp : Contains rt R p)
    (hf : ∀ a, R a → Contains rt S (f a)) : Contains rt S (p >>= f) := by
  intro tr r hr hdigest
  rcases hr.bind_cases with ⟨e, h₁, rfl⟩ | ⟨a, tr₁, tr₂, rfl, h₁, h₂⟩
  · have hfits := hp tr _ h₁ hdigest
    cases e with
    | error e => exact hfits
    | returned result => trivial
  · rw [List.forall_mem_append] at hdigest
    exact hf a (hp tr₁ _ h₁ hdigest.1) tr₂ r h₂ hdigest.2

/-- A pure computation whose value is not looked at. -/
theorem Contains.lift_bind {x : Except ClientError α} {f : α → Block β} {S : β → Prop} (hx : Owns x)
    (hf : ∀ a, Contains rt S (f a)) : Contains rt S (Client.lift x >>= f) :=
  .bind (R := fun _ => True) (.lift hx fun _ _ => trivial) fun a _ => hf a

theorem Contains.mono (hp : Contains rt R p) (hR : ∀ a, R a → R' a) : Contains rt R' p := by
  intro tr r hr hdigest
  have hfits := hp tr r hr hdigest
  rcases r with (_ | _) | a
  · exact hfits
  · trivial
  · exact hR a hfits

theorem Contains.handle {g : Exit → Block α} (hp : Contains rt R p)
    (hg : ∀ e : ClientError, e.IsOwn → Contains rt R (g (.error e)))
    (hreturned : ∀ result, Contains rt R (g (.returned result))) : Contains rt R (p.handle g) := by
  intro tr r hr hdigest
  rcases hr.handle_cases with ⟨a, h₁, rfl⟩ | ⟨e, tr₁, tr₂, rfl, h₁, h₂⟩
  · exact hp tr _ h₁ hdigest
  · rw [List.forall_mem_append] at hdigest
    have hfits := hp tr₁ _ h₁ hdigest.1
    cases e with
    | error e => exact hg e hfits tr₂ r h₂ hdigest.2
    | returned result => exact hreturned result tr₂ r h₂ hdigest.2

theorem Contains.exceptUnresolved {handler : Block α} (hp : Contains rt R p) (hh : Contains rt R handler) :
    Contains rt R (Client.exceptUnresolved p handler) := by
  refine .handle hp (fun e he => ?_) fun _ => .returnNow
  dsimp only
  split
  · exact hh
  · exact .raise he

theorem Contains.exceptTransport {handler : Block α} (hp : Contains rt R p) (hh : Contains rt R handler) :
    Contains rt R (Client.exceptTransport p handler) := by
  refine .handle hp (fun e he => ?_) fun _ => .returnNow
  cases e with
  | transport message => exact hh
  | _ => exact .raise he

theorem Contains.returning {block : Block ClientResult} (hp : Contained rt block) :
    Contained rt (Client.returning block) :=
  .handle hp (fun _ he => .raise he) fun _ => .pure trivial

end Rules

/-! ### Reads -/

section Reads

variable {rt : Runtime} {profile : ClientProfile} {ref : OperationRef} {path : PathParameters}
  {α : Type} {R : α → Prop} {j : Journal}

theorem contains_callTransport {route : Route} {payload : Fields} {role : Role} :
    Contains rt (fun response => route.Readable response ∧ route.Turns rt response)
      (callTransport profile ref route path payload role) := by
  refine .perform fun a ha _ => ?_
  cases a with
  | reply response => exact .pure ha
  | unresolved message => exact .raise trivial
  | refused => exact .raise trivial
  | unconfigured message => exact .raise trivial

theorem contains_readPublic {route : ReadRoute} {payload : Fields} :
    Contains rt (fun response => (Route.read route).Readable response)
      (readPublic profile ref route path payload) :=
  contains_callTransport.mono fun _ h => h.1

/-- The pointers of a workspace can be read. -/
def WorkspaceReadable (workspace : Fields) : Prop :=
  ∀ name ∈ ["current_graph_id", "current_realized_projection_id", "desired_graph_id",
    "desired_realized_projection_id"], (workspace.get name).Encodable

theorem contains_readWorkspace : Contains rt WorkspaceReadable (readWorkspace profile ref) :=
  .bind contains_readPublic fun _ hreadable =>
    .lift owns_mapping fun workspace h => hreadable workspace (mapping_ok h)

theorem WorkspaceReadable.current {workspace : Fields} (h : WorkspaceReadable workspace) :
    Owns (currentPointer workspace) :=
  owns_pointer (h _ (by decide)) (h _ (by decide))

theorem WorkspaceReadable.desired {workspace : Fields} (h : WorkspaceReadable workspace) :
    Owns (desiredPointer workspace) :=
  owns_pointer (h _ (by decide)) (h _ (by decide))

theorem contains_planDetail {planId : Coordinate} :
    Contains rt PlanReadable (planDetail profile ref planId) :=
  .bind contains_readPublic fun _ hreadable =>
    .lift owns_mapping fun plan h => hreadable plan (mapping_ok h)

theorem contains_approvalDetail {approvalId : Coordinate} :
    Contains rt ApprovalReadable (approvalDetail profile ref approvalId) :=
  .bind contains_readPublic fun _ hreadable =>
    .lift owns_mapping fun approval h => hreadable approval (mapping_ok h)

/-- The statuses of the items can be looked up. -/
def ItemsReadable (route : ReadRoute) (items : List Json) : Prop :=
  route = .planRuns → ∀ item, .obj item ∈ items → (Fields.get item "status").Hashable

theorem contains_pageFrom {route : ReadRoute} (hroute : .read route ∈ pagedRoutes) (reads : ℕ)
    (items : List Json) (cursor : Option Fields)
    (seen : List (List Char)) (hitems : ItemsReadable route items) :
    Contains rt (ItemsReadable route) (pageFrom rt profile ref route path reads items cursor seen) := by
  -- the items read so far are readable; each page adds readable ones
  induction reads generalizing items cursor seen with
  | zero => exact .raise trivial
  | succ reads ih =>
    refine .bind contains_callTransport fun page hpage => ?_
    split
    · rename_i batch hbatch
      have hall : ItemsReadable route (items ++ batch) := by
        rintro rfl item hitem
        exact (List.mem_append.mp hitem).elim (hitems rfl item) (hpage.1 batch item hbatch)
      split
      · exact .raise trivial
      · split
        · exact .pure hall
        · next next hnext =>
          split
          · next hkey => exact .raise (owns_cursorKey (hpage.2 hroute next hnext) _ hkey)
          · split
            · exact .raise trivial
            · exact ih _ _ _ hall
        · exact .raise trivial
    · exact .raise trivial

theorem contains_readPages {route : ReadRoute} (hroute : .read route ∈ pagedRoutes) :
    Contains rt (ItemsReadable route) (readPages rt profile ref route path) :=
  contains_pageFrom hroute _ _ _ _ fun _ _ h => by cases h

theorem contained_newKey : Contained rt newKey :=
  .perform fun _ _ _ => .lift owns_canonicalOperationRef fun _ _ => trivial

theorem contains_readDesired {file : Text} (hfile : file.Openable) :
    Contains rt (fun x => (Json.obj x.2).depth < rt.depthLimit) (readDesired rt file) := by
  refine .perform fun a ha hopened => ?_
  cases a with
  | unavailable => exact .raise trivial
  | invalid => exact .raise trivial
  | valueError => exact absurd hfile hopened
  | content absolute raw =>
    dsimp only
    split
    · exact .raise trivial
    · split
      · exact .raise trivial
      · next hload => exact .pure (ha _ hload)
      · exact .raise trivial

/-! ### The store -/

theorem contained_writeJournal : Contained rt (writeJournal rt ref j) := by
  refine .bind (.lift owns_encodeJournal fun _ _ => trivial) fun _ _ => .perform fun a _ _ => ?_
  cases a with
  | stored => exact .pure trivial
  | failed message published => exact .raise trivial

theorem contained_createJournal : Contained rt (createJournal rt ref j) := by
  refine .bind (.lift owns_encodeJournal fun _ _ => trivial) fun _ _ => .perform fun a _ _ => ?_
  cases a with
  | stored => exact .pure trivial
  | failed message published => exact .raise trivial

theorem contained_mutationLock : Contained rt (mutationLock ref) := by
  refine .perform fun a _ _ => ?_
  cases a with
  | acquired => exact .pure trivial
  | refused message => exact .raise trivial

theorem contains_stop {execution : Execution} {advancement : Advancement} {next : ReadRoute} :
    Contains rt R (stop rt profile j execution advancement next) := by
  refine .bind (R := fun _ => True) ?_ fun _ _ => .returnNow
  unfold attention
  rw [if_pos rfl]
  exact .bind contained_writeJournal fun _ _ => .pure trivial

theorem contains_stopUnpersisted {execution : Execution} {advancement : Advancement}
    {next : ReadRoute} : Contains rt R (stopUnpersisted rt profile j execution advancement next) := by
  refine .bind (R := fun _ => True) ?_ fun _ _ => .returnNow
  unfold attention
  rw [if_neg Bool.false_ne_true]
  exact .pure trivial

/-- What a found journal holds pending can be sent again. -/
structure Resendable (rt : Runtime) (j : Journal) : Prop where
  comparable : ∀ p, j.pendingRequest = some p → Comparable p.body p.routeId
  pending : ∀ p, j.pendingRequest = some p → p.Resendable rt

theorem contains_load : Contains rt (Resendable rt) (load rt profile ref) := by
  unfold load readJournal
  refine .bind (R := Resendable rt) (.perform fun a ha _ => ?_) fun j hj => ?_
  · cases a with
    | failed message => exact .raise trivial
    | found j =>
      exact .bind (R := fun _ => j.Valid ref)
        (.lift owns_validateJournal fun _ h => validateJournal_eq_ok.mp h) fun _ hvalid =>
        .pure ⟨fun p hp => (hvalid.pending p hp).comparable, ha⟩
  · split
    · exact .raise trivial
    · exact .pure hj

end Reads

/-! ### Commands -/

section Commands

variable {rt : Runtime} {profile : ClientProfile} {ref : OperationRef} {j : Journal}

/-- What is read of an accepted response. -/
structure AcceptedReadable (route : CommandRoute) (response : Fields) : Prop where
  readable : (Route.command route).Readable response
  status : route = .execute → (response.get "coordinator_status").Encodable

theorem contains_dispatchPending {p : Pending} {body : Fields} (hp : j.pendingRequest = some p)
    (hbody : Comparable body p.routeId) :
    Contains rt (fun x => AcceptedReadable p.routeId x.1) (dispatchPending rt profile j body) := by
  unfold dispatchPending
  rw [hp]
  refine .bind (.exceptTransport contains_callTransport contains_stopUnpersisted)
    fun response ⟨hreadable, _⟩ => ?_
  refine .bind (R := fun bound => responseIsBound p.routeId response p.pathParameters body j.coordinates
    profile.workspaceId = .ok bound) (.lift (owns_responseIsBound hreadable hbody) fun _ h => h)
    fun bound hbound => ?_
  split
  · rename_i htrue
    rw [htrue] at hbound
    refine .lift_bind (owns_responseCoordinates hreadable hbody hbound) fun _ => ?_
    split
    · exact contains_stopUnpersisted
    · refine .bind contained_writeJournal fun _ _ => .pure ⟨hreadable, fun hroute => ?_⟩
      rw [hroute] at hbound
      obtain ⟨-, -, haccepted⟩ := bound_step hbound
      obtain ⟨status, -, hstatus, -⟩ := haccepted.texts
      rw [hstatus]
      exact status.encodable
  · exact contains_stopUnpersisted

theorem contains_mutate (route : CommandRoute) {path : PathParameters} {body : Fields}
    {key : OperationRef} {role : Role} {source : Option DesiredSource} (hbody : Comparable body route)
    (hshallow : (Json.obj body).depth ≤ rt.depthLimit) :
    Contains rt (fun x => AcceptedReadable route x.1)
      (mutate rt profile j route path body key role source) := by
  unfold mutate
  split
  · exact contains_stop
  · refine .lift_bind (owns_canonicalDigest hshallow) fun _ => ?_
    split
    · exact .raise trivial
    · refine .bind contained_writeJournal fun _ _ => ?_
      exact contains_dispatchPending (p := ⟨route, path, role, key, _, _, source⟩) rfl hbody

theorem contains_replayBody {p : Pending} (hj : Resendable rt j) (hp : j.pendingRequest = some p) :
    Contains rt (fun body => Comparable body p.routeId ∧ (Json.obj body).depth ≤ rt.depthLimit)
      (replayBody rt profile j p) := by
  have hresend := hj.pending p hp
  unfold replayBody
  split
  · rename_i hprepare
    split
    · exact .raise trivial
    · rename_i source hsource
      obtain ⟨hencodable, hopenable⟩ := hresend.path source hsource
      refine .bind (R := fun path : Coordinate => source.path = .utf8 path.text)
        (.lift (owns_textCoordinate hencodable) fun path h => Json.str.inj (textCoordinate_ok h))
        fun path hpath => ?_
      rw [hpath] at hopenable
      refine .bind (contains_readDesired hopenable) fun found hfound => ?_
      obtain ⟨verified, desired⟩ := found
      dsimp only
      split
      · exact contains_stop
      · refine .pure ⟨?_, shallow_set hresend.shallow hfound⟩
        rw [hprepare]
        trivial
  · exact .pure ⟨hj.comparable p hp, hresend.shallow⟩

theorem contains_replayPending {p : Pending} (hj : Resendable rt j) (hp : j.pendingRequest = some p) :
    Contains rt (fun x => AcceptedReadable p.routeId x.1) (replayPending rt profile j) := by
  unfold replayPending
  rw [hp]
  refine .bind (contains_replayBody hj hp) fun body hbody => ?_
  refine .lift_bind (owns_canonicalDigest hbody.2) fun _ => ?_
  split
  · exact contains_stop
  · exact contains_dispatchPending hp hbody.1

theorem contains_preparedPlan {planId : Coordinate} :
    Contains rt (fun x => PlanReadable x.1) (preparedPlan rt profile j planId) := by
  refine .exceptUnresolved (.bind contains_planDetail fun plan hplan => ?_) contains_stop
  refine .lift_bind owns_validatePlan fun _ => ?_
  exact .lift_bind (owns_planChanges hplan) fun _ =>
    .pure hplan

theorem request_of_validateApproval {plan approval : Fields} {approvalId : Coordinate} {u : Unit}
    (h : validateApproval plan approvalId approval = .ok u) :
    approval.get "request_id" = approvalId.json := by
  unfold validateApproval at h
  dsimp only at h
  split at h
  · cases h
  · rename_i hbound
    simp only [Bool.not_eq_true', Bool.not_eq_false, Bool.and_eq_true] at hbound
    exact Coordinate.pyEq_json.mp hbound.1

theorem contains_preparedApproval {plan : Fields} :
    Contains rt (fun approval => ∀ members, approval = some members → ApprovalReadable members ∧
      ∃ approvalId : Coordinate, Fields.get members "request_id" = approvalId.json)
      (preparedApproval rt profile j plan) := by
  unfold preparedApproval
  split
  · refine .pure ?_
    rintro members ⟨⟩
  · rename_i approvalId _
    refine .exceptUnresolved (.bind contains_approvalDetail fun approval happroval => ?_) contains_stop
    refine .bind (R := fun _ => Fields.get approval "request_id" = approvalId.json)
      (.lift (owns_validateApproval happroval) fun _ h => request_of_validateApproval h)
      fun _ hrequest => .pure ?_
    rintro members ⟨⟩
    exact ⟨happroval, approvalId, hrequest⟩

theorem owns_planResult {plan : Fields} {approval : Option Fields} {status : Coordinate}
    {changes : List Change} (hplan : PlanReadable plan)
    (happroval : ∀ members, approval = some members → ApprovalReadable members ∧
      ∃ approvalId : Coordinate, Fields.get members "request_id" = approvalId.json) :
    Owns (planResult j plan approval status changes) := by
  cases approval with
  | none =>
    exact .bind (.ok _) fun _ _ => .bind (hplan.text (by decide)) fun _ _ =>
      .bind (.ok _) fun _ _ => .ok _
  | some approval =>
    obtain ⟨hreadable, approvalId, hid⟩ := happroval approval rfl
    have hrequest : text approval "request_id" = .ok approvalId := by
      rw [text, hid, textCoordinate_json]
    unfold planResult
    dsimp only
    rw [hrequest]
    refine .bind (owns_text hreadable.scope) fun _ _ => .bind owns_boolean fun _ _ => ?_
    exact .bind (.ok _) fun _ _ => .bind (hplan.text (by decide)) fun _ _ =>
      .bind (.ok _) fun _ _ => .ok _

theorem contained_finishPrepare {prepared : Fields}
    (hprepared : (Route.command .prepare).Readable prepared) :
    Contained rt (finishPrepare rt profile j prepared) := by
  obtain ⟨hplanId, happrovalId, hstatus⟩ := hprepared
  unfold finishPrepare
  refine .lift_bind (owns_text hstatus) fun status => ?_
  split
  · have hcoordinates : Owns (preparedCoordinates j.coordinates prepared) := by
      refine .bind (owns_text hplanId) fun _ _ => ?_
      split
      · exact .bind (owns_text happrovalId) fun _ _ => .ok _
      · exact .ok _
    refine .lift_bind hcoordinates fun coordinates => ?_
    refine .lift_bind (owns_text hplanId) fun planId => ?_
    refine .bind contains_preparedPlan fun found hplan => ?_
    obtain ⟨plan, changes⟩ := found
    refine .lift_bind (owns_recordPlanCoordinates hplan) fun coordinates => ?_
    refine .bind contains_preparedApproval fun approval happroval => ?_
    refine .lift_bind (owns_planResult hplan happroval) fun result => ?_
    exact .bind contained_writeJournal fun _ _ => .pure trivial
  · exact contains_stop

end Commands

/-! ### Status -/

section Status

variable {rt : Runtime} {profile : ClientProfile} {j : Journal} {α : Type} {R : α → Prop}

/-- What was seen of the approval can be read. -/
def Observed.Readable (seen : Observed) : Prop :=
  ∀ members, seen.approval = some members → ApprovalReadable members

theorem contains_observe {seen : Observed} {block : Block α} (hseen : seen.Readable)
    (hblock : Contains rt R block) : Contains rt R (observe profile j seen block) :=
  .exceptUnresolved hblock <| .lift_bind (owns_statusFromJournal hseen) fun _ => .returnNow

theorem Observed.readable_initial : ({} : Observed).Readable := by
  rintro members ⟨⟩

theorem contains_observePlan :
    Contains rt (fun x => x.2.Readable ∧ x.2.approval = none) (observePlan profile j) := by
  unfold observePlan
  split
  · exact .pure ⟨Observed.readable_initial, rfl⟩
  · refine .bind (R := fun _ => True) ?_ fun found _ => ?_
    · refine contains_observe Observed.readable_initial (.bind contains_planDetail fun plan hplan => ?_)
      refine .lift_bind owns_validatePlan fun _ => ?_
      exact .lift_bind (owns_planChanges hplan) fun _ =>
        .pure trivial
    · obtain ⟨plan, changes⟩ := found
      refine .pure ⟨?_, rfl⟩
      rintro members ⟨⟩

theorem contains_observeApproval {plan : Option Fields} {seen : Observed} (hseen : seen.Readable) :
    Contains rt (fun x => x.2.Readable) (observeApproval profile j plan seen) := by
  unfold observeApproval
  split
  · exact .pure hseen
  · rename_i approvalId _
    refine .bind (R := fun x => ApprovalReadable x.2) ?_ fun found happroval => ?_
    · refine contains_observe hseen ?_
      cases plan with
      | none => exact .raise trivial
      | some plan => exact .bind contains_approvalDetail fun _ happroval => .pure happroval
    · obtain ⟨plan, approval⟩ := found
      have hseen' : Observed.Readable { seen with approval := some approval } := by
        rintro members ⟨⟩
        exact happroval
      refine .bind (R := fun _ => True) (contains_observe hseen'
        (.lift (owns_validateApproval happroval) fun _ _ => trivial)) fun _ _ => ?_
      obtain ⟨known, hknown⟩ : ∃ known, (Fields.get approval "state").memberOf ["pending", "approved"] =
        some known := memberOf_of_hashable happroval.state
      rw [hknown]
      exact .pure hseen'

theorem contains_observeRun {seen : Observed} (hseen : seen.Readable) :
    Contains rt (fun seen => seen.Readable) (observeRun rt profile j seen) := by
  unfold observeRun
  split
  · exact .pure hseen
  · rename_i runId _
    refine .bind (R := fun items => ItemsReadable .planRuns items) ?_ fun items hitems => ?_
    · refine contains_observe hseen ?_
      exact .lift_bind (owns_textCoordinate (encodable_coordinate _)) fun _ =>
          (contains_readPages (by decide))
    · split
      · rename_i item hmatching
        have hitem : .obj item ∈ items :=
          (mem_matchingRuns.mp (hmatching ▸ List.mem_singleton_self item)).1
        refine .lift_bind (owns_runExecution (hitems rfl item hitem)) fun execution => ?_
        have hseen' : Observed.Readable { seen with execution := some execution } := hseen
        exact .bind (R := fun _ => True) ((contains_observe hseen' (contains_readPages (by decide))).mono
          fun _ _ => trivial) fun _ _ => .pure hseen'
      · exact .returnNow

theorem contains_observePointer {current : Option Pointer} {seen : Observed} (hseen : seen.Readable) :
    Contains rt (fun seen => seen.Readable) (observePointer profile j current seen) := by
  unfold observePointer
  refine .bind (R := fun _ => True) ?_ fun current _ => .pure ?_
  · unfold observeCurrent
    split
    · exact .pure trivial
    · refine contains_observe hseen (.bind contains_readPublic fun observed hobserved => ?_)
      obtain ⟨hgraph, hprojection⟩ := hobserved
      refine .lift_bind (owns_text hgraph) fun _ => ?_
      exact .lift_bind (owns_text hprojection) fun _ =>
        .pure trivial
  · split
    · exact hseen
    · exact hseen

theorem contained_publicStatus : Contained rt (publicStatus rt profile j) := by
  refine .returning (.bind (R := fun _ => True) ?_ fun current _ => ?_)
  · exact contains_observe Observed.readable_initial
      (.bind contains_readWorkspace fun _ hworkspace => .lift hworkspace.current fun _ _ => trivial)
  refine .bind contains_observePlan fun found hfound => ?_
  obtain ⟨plan, seen⟩ := found
  refine .bind (contains_observeApproval hfound.1) fun found hfound => ?_
  obtain ⟨problem, seen⟩ := found
  refine .bind (contains_observeRun hfound) fun seen hseen => ?_
  refine .bind (contains_observePointer hseen) fun seen hseen => .lift ?_ fun _ _ => trivial
  unfold observedStatus
  split
  · exact owns_statusFromJournal hseen
  · exact owns_statusFromJournal hseen

end Status

/-! ### Apply -/

section Apply

variable {rt : Runtime} {profile : ClientProfile} {j : Journal} {plan : Fields}
  {planId runId : Coordinate} {generation : ℕ} {args : ApplyArguments}

theorem contains_confirmPlan : Contains rt PlanReadable (confirmPlan rt profile j planId) :=
  .exceptUnresolved (.bind contains_planDetail fun _ hplan =>
    .lift_bind owns_validatePlan fun _ => .pure hplan)
    contains_stop

theorem contains_retainPlan (hplan : PlanReadable plan) :
    Contains rt (fun j' => j'.pendingRequest = j.pendingRequest) (retainPlan rt j plan) := by
  unfold retainPlan
  split
  · exact .pure rfl
  · refine .lift_bind (owns_recordPlanCoordinates hplan) fun coordinates => ?_
    exact .bind contained_writeJournal fun _ _ => .pure rfl

theorem contained_approvalGate : Contained rt (approvalGate rt profile j plan planId args) := by
  unfold approvalGate
  split
  · exact .pure trivial
  · refine .bind (R := fun _ => True) ?_ fun approval _ => ?_
    · refine .exceptUnresolved (.bind contains_approvalDetail fun approval happroval => ?_) contains_stop
      exact .lift_bind (owns_validateApproval happroval) fun _ => .pure trivial
    · split
      · refine .lift_bind owns_boolean fun destructive => ?_
        dsimp only
        generalize (if destructive = true then args.approveDestructivePlan else args.approvePlan) = supplied
        generalize (if destructive = true then args.approvePlan else args.approveDestructivePlan) = wrong
        split
        · exact .raise trivial
        · split
          · exact .raise trivial
          · split
            · exact contains_stop
            · exact .pure trivial
      · split
        · exact .pure trivial
        · exact contains_stop

theorem contained_progressGate : Contained rt (progressGate rt profile j) := by
  unfold progressGate
  split
  · refine .bind contained_publicStatus fun observed _ => ?_
    split
    · exact .returnNow
    · split
      · exact contains_stop
      · split
        · exact contains_stop
        · exact .pure trivial
  · exact .pure trivial

theorem contained_recoverPending (hj : Resendable rt j) : Contained rt (recoverPending rt profile j) := by
  unfold recoverPending
  split
  · rename_i hsome
    obtain ⟨p, hp⟩ := Option.isSome_iff_exists.mp hsome
    exact .bind (contains_replayPending hj hp) fun _ _ => .pure trivial
  · exact .pure trivial

theorem contained_decideApproval (hplan : PlanReadable plan) :
    Contained rt (decideApproval rt profile j plan) := by
  unfold decideApproval
  split
  · exact .raise trivial
  · refine .lift_bind (hplan.text (by decide)) fun sessionId => .bind contained_newKey fun key _ => ?_
    refine .bind (contains_mutate .decide trivial
      (shallow_of_members (by simp [Json.depth]))) fun found _ => ?_
    obtain ⟨decided, next⟩ := found
    dsimp only
    split
    · exact .pure trivial
    · exact contains_stop

theorem contained_admitDeployment (hplan : PlanReadable plan) :
    Contained rt (admitDeployment rt profile j plan planId) := by
  unfold admitDeployment
  split
  · exact .pure trivial
  · refine .lift_bind (hplan.text (by decide)) fun sessionId => ?_
    refine .lift_bind (owns_textCoordinate (encodable_coordinate _)) fun approvalId =>
      .bind contained_newKey fun key _ => ?_
    exact .bind (contains_mutate .admission trivial
      (shallow_of_members (by simp [Json.depth, Json.depthItems]))) fun _ _ => .pure trivial

theorem contained_claimRun : Contained rt (claimRun rt profile j) := by
  unfold claimRun
  split
  · exact .pure trivial
  · refine .lift_bind (owns_textCoordinate (encodable_coordinate _)) fun requestId =>
      .bind contained_newKey fun key _ => ?_
    exact .bind (contains_mutate .claim trivial
      (shallow_of_members (by simp [Json.depth]))) fun _ _ => .pure trivial

theorem contained_startRun : Contained rt (startRun rt profile j runId generation) := by
  unfold startRun
  split
  · refine .bind contained_newKey fun key _ => ?_
    refine .bind (contains_mutate .start trivial
      (shallow_of_members (by simp))) fun found _ => ?_
    obtain ⟨started, next⟩ := found
    dsimp only
    split
    · exact .pure trivial
    · exact contains_stop
  · exact .pure trivial

/-- The body of an execute step counts its effects. -/
theorem comparable_execute {key : OperationRef} : Comparable [("claim_generation", natJson generation),
    ("max_effects", .int 1), ("idempotency_key", key.json)] .execute := by
  intro n
  simp [Fields.has, Json.atLeast, Json.number?]

theorem contained_executeSteps (steps : ℕ) :
    Contained rt (executeSteps rt profile runId generation steps j) := by
  induction steps generalizing j with
  | zero => exact contains_stop
  | succ steps ih =>
    unfold executeSteps
    refine .bind contained_newKey fun key _ => ?_
    refine .bind (contains_mutate .execute comparable_execute
      (shallow_of_members (by simp [Json.depth]))) fun found hfound => ?_
    obtain ⟨executed, next⟩ := found
    refine .lift_bind (owns_text (hfound.status rfl)) fun status => ?_
    split
    · split
      · exact .pure trivial
      · exact contains_stop
    · split
      · exact ih
      · exact contains_stop

theorem contained_executeRun : Contained rt (executeRun rt profile j runId generation) := by
  unfold executeRun
  split
  · exact .pure trivial
  · exact contained_executeSteps _

theorem contained_advanceCurrent (hplan : PlanReadable plan) :
    Contained rt (advanceCurrent rt profile j plan planId runId generation) := by
  unfold advanceCurrent
  split
  · exact .pure trivial
  · refine .bind (R := fun _ => True) ?_ fun current _ => ?_
    · exact .exceptUnresolved (.bind contains_readWorkspace fun _ hworkspace =>
        .lift hworkspace.current fun _ _ => trivial) contains_stop
    cases current with
    | none => exact contains_stop
    | some current =>
      refine .lift_bind (hplan.text (by decide)) fun baseGraphId => ?_
      refine .lift_bind (hplan.text (by decide)) fun baseProjectionId => ?_
      split
      · exact contains_stop
      · refine .lift_bind (hplan.text (by decide)) fun desiredGraphId => ?_
        refine .lift_bind (hplan.text (by decide)) fun desiredProjectionId => ?_
        refine .lift_bind owns_integer fun revision => .bind contained_newKey fun key _ => ?_
        refine .bind (contains_mutate .advance ⟨?_, ?_⟩
          (shallow_of_members (by simp))) fun _ _ => .pure trivial
        · exact desiredGraphId.encodable
        · exact desiredProjectionId.encodable

theorem contained_readBack : Contained rt (readBack rt profile j plan) := by
  unfold readBack
  refine .bind (R := fun _ => True) (.exceptUnresolved (contains_readPublic.mono fun _ _ => trivial)
    contains_stop) fun observed _ => ?_
  split
  · exact .bind contained_writeJournal fun _ _ => .pure trivial
  · exact contains_stop

theorem owns_claimGeneration : Owns (claimGeneration j) := by
  unfold claimGeneration
  split
  · split
    · exact .ok _
    · exact .error trivial
  · exact .error trivial

theorem contained_applyFromAdmission (hplan : PlanReadable plan) :
    Contained rt (applyFromAdmission rt profile j plan planId) := by
  unfold applyFromAdmission
  refine .bind (contained_admitDeployment hplan) fun _ _ => .bind contained_claimRun fun j _ => ?_
  refine .lift_bind (owns_textCoordinate (encodable_coordinate _)) fun runId => ?_
  refine .lift_bind owns_claimGeneration fun generation => ?_
  exact .bind contained_startRun fun _ _ => .bind contained_executeRun fun _ _ =>
    .bind (contained_advanceCurrent hplan) fun _ _ => contained_readBack

theorem contained_applyCommands {approvalPending : Bool} (hj : Resendable rt j)
    (hplan : PlanReadable plan) :
    Contained rt (applyCommands rt profile j plan planId approvalPending) := by
  unfold applyCommands
  refine .bind (contained_recoverPending hj) fun j _ => .bind (R := fun _ => True) ?_ fun _ _ =>
    .bind (R := fun _ => True) ?_ fun _ _ => contained_applyFromAdmission hplan
  · unfold stopIfOver
    split
    · exact .returnNow
    · split
      · exact .returnNow
      · exact .pure trivial
  · unfold decideIf
    split
    · exact contained_decideApproval hplan
    · exact .pure trivial

theorem contained_applyLocked {ref : OperationRef} : Contained rt (applyLocked rt profile ref args) := by
  unfold applyLocked
  refine .bind contains_load fun j hj => ?_
  split
  · exact .raise trivial
  · refine .lift_bind (owns_textCoordinate (encodable_coordinate _)) fun planId => ?_
    split
    · exact .raise trivial
    · refine .bind contains_confirmPlan fun plan hplan => .bind (contains_retainPlan hplan)
        fun j' hsame => .bind contained_approvalGate fun _ _ => .bind contained_progressGate fun _ _ =>
        contained_applyCommands ⟨?_, ?_⟩ hplan
      · rw [hsame]
        exact hj.comparable
      · rw [hsame]
        exact hj.pending

end Apply

/-! ### The invocations -/

section Invocations

variable {rt : Runtime} {docs : Set (List UInt8)} {ref : OperationRef}

/-- An invocation whose local input is well formed: the title of a plan can be encoded, and the path of
its desired graph opened. -/
inductive WellFormed (rt : Runtime) : Invocation → Prop where
  | plan (profile : ClientProfile) (desiredPath title : Text) (htitle : (Json.str title).Encodable)
      (hpath : desiredPath.Openable) : WellFormed rt (plan rt profile desiredPath title)
  | resumePrepare (profile : ClientProfile) (reference : Text) :
      WellFormed rt (resumePrepare rt profile reference)
  | apply (profile : ClientProfile) (reference : Text) (args : ApplyArguments) :
      WellFormed rt (apply rt profile reference args)
  | status (profile : ClientProfile) (reference : Text) : WellFormed rt (status rt profile reference)

/-- An invocation raises what its block raises. -/
theorem Contained.conclude {block : Block ClientResult} (hblock : Contained rt block) {tr : Trace}
    {e : ClientError} (hr : (Client.conclude block).Runs tr (.error e))
    (hdigest : ∀ event ∈ tr, Digestible rt event ∧ Opened event) : e.IsOwn := by
  rcases hr.handle_cases with ⟨a, -, ⟨⟩⟩ | ⟨exit, tr₁, tr₂, rfl, h₁, h₂⟩
  cases exit with
  | returned result => cases h₂
  | error e' =>
    cases h₂
    rw [List.append_nil] at hdigest
    exact hblock tr₁ _ h₁ hdigest

theorem owns_boundedTitle {title : Text} (htitle : (Json.str title).Encodable) :
    Owns (boundedTitle title) := by
  unfold boundedTitle
  split
  · split
    · exact .ok _
    · exact .error trivial
  · exact absurd rfl (htitle _)

theorem WellFormed.own {p : Invocation} (hp : WellFormed rt p) {tr : Trace} {e : ClientError}
    (hr : p.Runs tr (.error e)) (hdigest : ∀ event ∈ tr, Digestible rt event ∧ Opened event) :
    e.IsOwn := by
  cases hp with
  | plan profile desiredPath title htitle hpath =>
    refine Contained.conclude (.bind (contains_readDesired hpath) fun found hfound => ?_) hr hdigest
    obtain ⟨source, desired⟩ := found
    refine .bind (R := fun _ => True) (.perform fun _ _ _ => .pure trivial) fun reference _ => ?_
    refine .lift_bind owns_canonicalOperationRef fun ref => ?_
    refine .bind contains_readWorkspace fun workspace hworkspace => ?_
    refine .lift_bind hworkspace.current fun current => ?_
    cases current with
    | none => exact .raise trivial
    | some current =>
      refine .lift_bind hworkspace.desired fun _ => ?_
      refine .lift_bind owns_integer fun _ => ?_
      refine .lift_bind (owns_boundedTitle htitle) fun _ => ?_
      refine .bind contained_newKey fun key _ => .bind contained_mutationLock fun _ _ =>
        .bind contained_createJournal fun _ _ => ?_
      exact .bind (contains_mutate .prepare trivial (prepareBody_shallow hfound))
        fun _ hprepared => contained_finishPrepare hprepared.readable
  | resumePrepare profile reference =>
    refine Contained.conclude (.lift_bind owns_canonicalOperationRef fun ref =>
      .bind contained_mutationLock fun _ _ =>
      .bind contains_load fun j hj => ?_) hr hdigest
    split
    · rename_i hprepare
      obtain ⟨p, hp, hroute⟩ := Option.map_eq_some_iff.mp hprepare
      refine .bind (contains_replayPending hj hp) fun _ hprepared => contained_finishPrepare ?_
      rw [← hroute]
      exact hprepared.readable
    · exact .raise trivial
  | apply profile reference args =>
    refine Contained.conclude (.lift_bind owns_canonicalOperationRef fun ref => ?_) hr hdigest
    split
    · exact .raise trivial
    · exact .bind contained_mutationLock fun _ _ => contained_applyLocked
  | status profile reference =>
    exact Contained.conclude (.lift_bind owns_canonicalOperationRef fun ref =>
      .bind contains_load fun _ _ => contained_publicStatus) hr hdigest

/-- **The failures of the client are contained**: with digestible answers, every complete run of an
invocation, from any journal, ends with a result or with one of the client's own exceptions. -/
theorem failures_contained {p : Invocation} {w w' : World} {tr : Trace}
    {out : Except ClientError ClientResult} (hp : WellFormed rt p)
    (hrun : Exec (answers docs ref) w p tr w' (some out)) (hdigest : ∀ e ∈ tr, Digestible rt e) :
    ∀ e, out = .error e → e.IsOwn := by
  rintro e rfl
  have hopened := hrun.forall_event fun _ _ _ _ => opened_of_answers
  exact hp.own hrun.runs fun event he => ⟨hdigest event he, hopened event he⟩

end Invocations

namespace Scenario

variable {rt : Runtime} {profile : ClientProfile} {docs : Set (List UInt8)} {s : Scenario}
  {w : World} {j : Journal}

/-- A workspace whose current graph is named by a lone surrogate. -/
def loneWorkspace : Fields :=
  [("current_graph_id", .str (.surrogate [55296])), ("current_realized_projection_id", .str "p")]

/-- A status whose first read names the current graph by a lone surrogate. -/
def loneEvents (profile : ClientProfile) (s : Scenario) (j : Journal) : Trace :=
  [⟨.read s.ref, .found j⟩,
    answered profile s.ref .workspace (workspacePath profile) [("workspace", .obj loneWorkspace)]]

theorem exec_lone (hj : w.journal = some j) (hvalid : j.Valid s.ref)
    (htarget : j.target = profile.target rt) (hid : j.operationRef = s.ref) :
    Exec (answers docs s.ref) w (Client.status rt profile (.utf8 s.ref.text))
      (s.loneEvents profile j) w (some (.error .unicodeEncode)) := by
  have hget : Fields.get [("workspace", .obj loneWorkspace)] "workspace" = .obj loneWorkspace := by simp
  have hread : Exec (answers docs s.ref) w (do
      let workspace ← readWorkspace profile j.operationRef
      lift (currentPointer workspace))
      [answered profile s.ref .workspace (workspacePath profile) [("workspace", .obj loneWorkspace)]] w
      (some (.error (.error .unicodeEncode))) := by
    rw [hid]
    exact Exec.bind (returns_readWorkspace hget) (.raised _ _)
  refine Exec.then_conclude (t := []) (Returns.lift (canonicalOperationRef_text _)) ?_
  refine Exec.then_conclude (t := [_]) (returns_load hj hvalid htarget) ?_
  have hobserve : Exec (answers docs s.ref) w (observe profile j {} do
      let workspace ← readWorkspace profile j.operationRef
      lift (currentPointer workspace))
      [answered profile s.ref .workspace (workspacePath profile) [("workspace", .obj loneWorkspace)]] w
      (some (.error (.error .unicodeEncode))) := Exec.handle_error hread (.raised _ _)
  have hstatus : Exec (answers docs s.ref) w (publicStatus rt profile j)
      [answered profile s.ref .workspace (workspacePath profile) [("workspace", .obj loneWorkspace)]] w
      (some (.error (.error .unicodeEncode))) :=
    Exec.handle_error (Exec.bind_error hobserve) (.raised _ _)
  have hraised : Exec (answers docs s.ref) w (.raise .unicodeEncode : Invocation) [] w
      (some (.error .unicodeEncode)) := .raised _ _
  exact Exec.handle_error hstatus hraised

end Scenario

namespace Instance

/-- A lone surrogate in the name of the current graph escapes from `status`. -/
theorem failure_escapes : ¬ ∀ (rt : Runtime) (docs : Set (List UInt8)) (ref : OperationRef)
    (p : Invocation) (w w' : World) (tr : Trace) (out : Except ClientError ClientResult),
    Reachable rt docs ref w → WellFormed rt p → Exec (answers docs ref) w p tr w' (some out) →
    ∀ e, out = .error e → e.IsOwn := by
  intro h
  exact h runtime docs scenario.ref _ _ _ _ _ (Scenario.reachable_converged fair).only
    (.status profile _)
    (Scenario.exec_lone rfl (Scenario.convergedJournal_valid fair) rfl rfl) _ rfl

theorem failures_contained_other :
    (ClientError.input "execution confirmation does not match the prepared plan").IsOwn := by
  refine failures_contained (.apply profile _ otherArguments) exec_other ?_ _ rfl
  simp only [List.forall_mem_cons]
  refine ⟨trivial, ?_, List.forall_mem_nil _⟩
  rintro p ⟨⟩

end Instance

end Client

end ControlPlaneKit
