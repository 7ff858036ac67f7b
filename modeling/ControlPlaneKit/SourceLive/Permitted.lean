import ControlPlaneKit.SourceLive.Convergence
import Mathlib.Data.Prod.Lex

/-!
# Permitted calls

What may be said of a call of the convergence driver from the calls before it (`Permitted`): those
have passed their checks, its key is new, where it acts on a phase, the approval of the phase
was reviewed, decided and read back, and where it follows an advancement, the run, its events and
the response of the router were read (`Evidences`). `Drives` is the weakest precondition of a part of
the driver under which it makes permitted calls only, and its rules follow the parts of a program.

The keys of an invocation are sent in the order of their ranks, so that a key is new as long as
the calls before it are `Below` its rank.
-/

namespace ControlPlaneKit

namespace SourceLive

namespace Convergence

open Interaction Program

/-! ### What is said of a call -/

/-- The calls that have been made. -/
abbrev History :=
  List Invoked

/-- An argument of a call. -/
def Call.argument? (call : Call) (name : String) : Option Json :=
  call.arguments.lookup (.utf8 name)

/-- The member `key` of `v` is `x`. -/
def Has (v : Json) (key : String) (x : Json) : Prop :=
  item v key = .ok x

/-- The member `key` of `v` is the argument `name` of a call. -/
def Echoes (v : Json) (key : String) (call : Call) (name : String) : Prop :=
  ∃ x, Has v key x ∧ call.argument? name = some x

/-- The member `key` of `v` is a coordinate. -/
def HasCoordinate (v : Json) (key : String) : Prop :=
  ∃ t, Has v key (.str t) ∧ 0 < t.codes.length ∧ t.codes.length ≤ 256

/-- What is checked of the answer of a step before the next call. -/
def StepChecked (call : Call) (v : Json) : Step → Prop
  | .prepare => HasCoordinate v "plan_id"
  | .approve => Has v "state" (.str "approved")
  | .admission => HasCoordinate v "execution_request_id"
  | .claim => HasCoordinate v "run_id" ∧ ∃ n : ℤ, 0 < n ∧ Has v "claim_generation" (.int n)
  | .start => Has v "run_status" (.str "running")
  | .execute _ => Echoes v "run_id" call "run_id" ∧
      (Has v "coordinator_status" (.str "progressed") ∨
        Has v "coordinator_status" (.str "completed") ∧ Has v "run_status" (.str "succeeded"))
  | .advance => Echoes v "to_graph_id" call "desired_graph_id" ∧
      Echoes v "to_realized_projection_id" call "desired_realized_projection_id" ∧
      ∃ x y, Has v "desired_graph_revision" x ∧
        call.argument? "expected_desired_graph_revision" = some y ∧ x.pyEq y = true

/-- A workspace with a current graph. -/
def HasCurrent (v : Json) : Prop :=
  ∃ workspace p, Has v "workspace" workspace ∧ pointer workspace "current" = .ok (some p)

/-- The routes of `page`. -/
def pagedRoutes : List String :=
  ["read.activity", "read.session-plans", "read.plan-runs", "read.run-events",
    "read.observed-state"]

/-- The workspaces of two answers have the same pointers and the same revision. -/
def SameWorkspace (v v' : Json) : Prop :=
  ∃ workspace workspace' start start', Has v "workspace" workspace ∧
    Has v' "workspace" workspace' ∧ admitted workspace = .ok start ∧
    admitted workspace' = .ok start' ∧ start'.same start = true

/-- What is checked of the answer of a read before the next call, after the calls `h`. -/
structure ReadChecked (scenario : Scenario) (h : History) (call : Call) (v : Json) : Prop where
  page : call.route ∈ pagedRoutes → ∃ items : List Json, Has v "items" (.arr items) ∧
    items.length ≤ 100
  workspace : call.route = "read.workspace" → HasCurrent v ∧
    (scenario.retained = true → ∀ e ∈ h.head?, ∃ v₀, e.answer = .returned v₀ ∧ SameWorkspace v₀ v)
  plan : call.route = "read.plan-detail" → ∃ plan, Has v "plan" plan ∧
    ((∀ e ∈ h, ∀ p, e.op.key ≠ some (.phase p .prepare)) → Has plan "status" (.str "planned"))
  approval : call.route = "read.approval-detail" → ∃ approval, Has v "approval" approval ∧
    Echoes approval "request_id" call "approval_id" ∧
    (Has approval "state" (.str "pending") ∨ Has approval "state" (.str "approved"))
  graph : call.route = "read.current-graph" → ∀ e ∈ h.getLast?,
    (∃ p, e.op.key = some (.phase p .advance)) → Echoes v "graph_id" e.op "desired_graph_id" ∧
      Echoes v "realized_projection_id" e.op "desired_realized_projection_id"

/-- What is checked of the answer of a call with a key. -/
def CheckedAs (scenario : Scenario) (h : History) (call : Call) (v : Json) : Option Key → Prop
  | none => ReadChecked scenario h call v
  | some .workspace => HasCurrent v ∧ ∃ workspace, Has v "workspace" workspace ∧
      Has workspace "workspace_id" (.str scenario.workspaceId)
  | some .secretProvider => HasCoordinate v "registration_id"
  | some (.phase _ step) => StepChecked call v step
  | some _ => True

/-- What is checked of the answer of a call before the next one. -/
def Checked (scenario : Scenario) (h : History) (call : Call) (v : Json) : Prop :=
  CheckedAs scenario h call v call.key

/-- A call that has returned an object and passed its checks. -/
def Passed (scenario : Scenario) (h : History) (e : Invoked) : Prop :=
  ∃ members, e.answer = .returned (.obj members) ∧ Checked scenario h e.op (.obj members)

/-- Every call has passed. -/
def AllPassed (scenario : Scenario) (h : History) : Prop :=
  ∀ pre e post, h = pre ++ e :: post → Passed scenario pre e

/-- The approval was decided, and then read back as approved by another actor than the requester. -/
def ReadAsApproved (p : Phase) (e e' : Invoked) : Prop :=
  e.op.route = "command.approval.decide" ∧ e.op.key = some (.phase p .approve) ∧
  (∃ v, e.answer = .returned v ∧ Has v "state" (.str "approved")) ∧
  e'.op.route = "read.approval-detail" ∧
  ∃ v approval decision actor requester, e'.answer = .returned v ∧ Has v "approval" approval ∧
    Has approval "state" (.str "approved") ∧
    Echoes approval "request_id" e.op "approval_id" ∧ Has approval "decision" decision ∧
    Has decision "actor_id" actor ∧ Has approval "requested_by" requester ∧
    actor.pyEq requester = false

/-- The approval of a phase in the calls that have been made. -/
def IsApproved (p : Phase) (h : History) : Prop :=
  ∃ e e', [e, e'].Sublist h ∧ ReadAsApproved p e e'

/-- What is checked of a pending approval with the identity `approvalId` of a phase. -/
structure Pending (scenario : Scenario) (p : Phase) (approvalId approval : Json) : Prop where
  request : Has approval "request_id" approvalId
  state : Has approval "state" (.str "pending")
  scope : Has approval "required_scope" (.str "plan:approve") ∨
    Has approval "required_scope" (.str "plan:approve-destructive")
  destructive : scenario.retained = true → isDestructive approval = .ok true →
    scenario.destructiveApproved = true
  removal : p = .subsetRemoval ∨ p = .teardown → Has approval "destructive" (.bool true) ∧
    Has approval "required_scope" (.str "plan:approve-destructive")

/-- The pending approval of a phase was read before the decision `call`. -/
def Reviewed (scenario : Scenario) (p : Phase) (h : History) (call : Call) : Prop :=
  ∃ e ∈ h, e.op.route = "read.approval-detail" ∧ ∃ v approval approvalId, e.answer = .returned v ∧
    Has v "approval" approval ∧ call.argument? "approval_id" = some approvalId ∧
    Pending scenario p approvalId approval

/-- The desired graph of a plan was read, and then observed as the current one. -/
def ReadBack (planId : Text) (e e' : Invoked) : Prop :=
  e.op.route = "read.plan-detail" ∧ e.op.argument? "plan_id" = some (.str planId) ∧
  e'.op.route = "read.current-graph" ∧
  ∃ v plan v' graph projection, e.answer = .returned v ∧ Has v "plan" plan ∧
    Has plan "plan_id" (.str planId) ∧ Has plan "desired_graph_id" graph ∧
    Has plan "desired_realized_projection_id" projection ∧ e'.answer = .returned v' ∧
    Has v' "graph_id" graph ∧ Has v' "realized_projection_id" projection

/-! ### What is read after an advancement -/

/-- The items of a page. -/
def Answer.items : Answer → List Json
  | .returned v =>
    match item v "items" with
    | .ok (.arr items) => items
    | _ => []
  | .raised _ => []

/-- The items of the calls `es`. -/
def History.items (es : History) : List Json :=
  es.flatMap fun e => Answer.items e.answer

/-- `items` were read from all pages of `route` whose argument `name` is `x`. -/
def Listed (h : History) (route name : String) (x : Text) (items : List Json) : Prop :=
  ∃ es, es <:+: h ∧ (∀ e ∈ es, e.op.route = route ∧ e.op.argument? name = some (.str x)) ∧
    (∀ e ∈ es.head?, e.op.argument? "after" = none) ∧
    (∃ e ∈ es.getLast?, ∃ v, e.answer = .returned v ∧ getD v "next_cursor" .null = .ok .null) ∧
    items = History.items es

/-- The runs of a plan were read, and the run has succeeded. -/
def RunSucceeded (h : History) (planId runId : Text) : Prop :=
  ∃ runs run, Listed h "read.plan-runs" "plan_id" planId runs ∧ run ∈ runs ∧
    Has run "run_id" (.str runId) ∧ Has run "status" (.str "succeeded")

/-- The events of a run were read, and there are some. -/
def HasEvents (h : History) (runId : Text) : Prop :=
  ∃ events, Listed h "read.run-events" "run_id" runId events ∧ events ≠ []

/-- The plan of a phase was asked for and read. -/
structure Planned (phase : Phase) (desired : Json) (p : Prepared) (h : History) : Prop where
  asked : ∃ e ∈ h, e.op.key = some (.phase phase .prepare) ∧
    e.op.argument? "desired_graph" = some desired
  read : ∃ e ∈ h, e.op.route = "read.plan-detail" ∧
    e.op.argument? "plan_id" = some (.str p.planId) ∧
    ∃ v, e.answer = .returned v ∧ Has v "plan" p.plan
  activities : ∃ coordinates, planEvidence p.plan = .ok (coordinates, p.activities)

/-- Whether a plan checks the router. -/
def checksRouter (scenario : Scenario) (p : Prepared) : Bool :=
  (routerActivities scenario p).any fun activity => isText activity.operation "wait-for-healthy"

/-- The response of the router was observed after the run of a phase. -/
def Observed (scenario : Scenario) (h : History) (desired : Json) (p : Prepared)
    (runId graphId : Text) : Prop :=
  ∃ observations previous response,
    Listed h "read.observed-state" "workspace_id" scenario.workspaceId observations ∧
    observedResponse observations desired graphId runId scenario.routerId previous =
      .ok response ∧ (checksRouter scenario p = true → previous = none)

/-- What the desired graph of a phase requires was observed after its run: the response of the
router, except where the retained mode does not check it, and no nodes where none are desired. -/
def Responded (scenario : Scenario) (h : History) (phase : Phase) (planId runId graphId : Text) :
    Prop :=
  ∃ desired nodes p, Planned phase desired p h ∧ p.planId = planId ∧ Has desired "nodes" nodes ∧
    (truthy nodes = true → scenario.retained = true ∧ checksRouter scenario p = false ∨
      Observed scenario h desired p runId graphId) ∧
    (truthy nodes = false → ∃ e ∈ h, e.op.route = "read.current-graph" ∧ ∃ v descriptor left,
      e.answer = .returned v ∧ Has v "graph_descriptor" descriptor ∧
      Has descriptor "nodes" left ∧ truthy left = false)

/-- The advancement of a phase. -/
structure AdvancedBy (phase : Phase) (planId runId graphId : Text) (e : Invoked) : Prop where
  key : e.op.key = some (.phase phase .advance)
  plan : e.op.argument? "plan_id" = some (.str planId)
  run : e.op.argument? "run_id" = some (.str runId)
  graph : e.op.argument? "desired_graph_id" = some (.str graphId)

/-- The routes that come after the runs of an advanced plan. -/
def evidenceRoutes : List String :=
  ["read.run-events", "read.observed-state", "read.workspace"]

/-- What was read of an advanced phase before `route` is read. -/
structure Evidenced (scenario : Scenario) (h : History) (route : String) (phase : Phase)
    (planId runId graphId : Text) : Prop where
  succeeded : route ∈ evidenceRoutes → RunSucceeded h planId runId
  events : route = "read.observed-state" ∨ route = "read.workspace" → HasEvents h runId
  response : route = "read.workspace" → Responded scenario h phase planId runId graphId

/-- The last command of the calls that have been made. -/
def lastCommand? (h : History) : Option Invoked :=
  (h.filter fun e => e.op.key.isSome).getLast?

/-- A phase that was advanced last is evidenced before `route` is read. -/
def Evidences (scenario : Scenario) (h : History) (route : String) : Prop :=
  route ∈ evidenceRoutes → ∀ e ∈ lastCommand? h, ∀ p, e.op.key = some (.phase p .advance) →
    ∃ planId runId graphId, AdvancedBy p planId runId graphId e ∧
      Evidenced scenario h route p planId runId graphId

/-- A row that is done: without changes, or converged, read back and evidenced. -/
def Row.Settled (scenario : Scenario) (h : History) (row : Row) : Prop :=
  row.status = .noChanges ∨
    row.status = .converged ∧ (∃ e e', [e, e'].Sublist h ∧ ReadBack row.planId e e') ∧
      ∃ runId graphId, (∃ e ∈ h, AdvancedBy row.phase row.planId runId graphId e) ∧
        Evidenced scenario h "read.workspace" row.phase row.planId runId graphId

/-! ### Permitted calls -/

/-- The routes that follow an approval. -/
def gatedRoutes : List String :=
  ["command.deployment.admit", "command.run.claim", "command.run.start",
    "command.deployment.execute", "command.graph.advance-current"]

/-- What holds of a call that the driver makes after the calls `h`. -/
structure Permitted (around : Surroundings) (scenario : Scenario) (h : History) (call : Call) :
    Prop where
  passed : AllPassed scenario h
  authorized : call.authorization =
    if call.route = "command.approval.decide" then scenario.approverAuthorization
    else if call.route ∈ workerRoutes then scenario.workerAuthorization
    else scenario.authorization
  keyed : call.argument? "idempotency_key" = call.key.map fun k => .str (keyText around k)
  fresh : ∀ k, call.key = some k → ∀ e ∈ h, e.op.key ≠ some k
  gated : call.route ∈ gatedRoutes →
    ∃ p step, call.key = some (.phase p step) ∧ IsApproved p h
  decided : call.route = "command.approval.decide" →
    ∃ p, call.key = some (.phase p .approve) ∧ Reviewed scenario p h call
  evidenced : Evidences scenario h call.route

/-! ### Keys -/

theorem Phase.name_injective : Function.Injective Phase.name := by
  intro p q h
  cases p <;> cases q <;> first | rfl | simp [Phase.name] at h

theorem Product.name_injective : Function.Injective Product.name := by
  intro p q h
  cases p <;> cases q <;> first | rfl | simp [Product.name] at h

theorem toString_injective {m n : ℕ} (h : toString m = toString n) : m = n := by
  have hdigits : Nat.toDigits 10 m = Nat.toDigits 10 n := by
    simpa using congrArg String.toList h
  rw [← Nat.ofDigitChars_ten_toDigits (n := m), hdigits, Nat.ofDigitChars_ten_toDigits]

/-- No part of a key has a colon. -/
theorem Key.not_mem_segments (key : Key) : ∀ part ∈ key.segments.map String.toList, ':' ∉ part := by
  have hphase : ∀ p : Phase, ':' ∉ p.name.toList := by
    intro p
    cases p <;> decide
  have hproduct : ∀ p : Product, ':' ∉ p.name.toList := by
    intro p
    cases p <;> decide
  have hnat : ∀ n : ℕ, ':' ∉ Nat.toDigits 10 n := by
    intro n h
    have := Nat.isDigit_of_mem_toDigits (by decide) (le_refl _) h
    simp at this
  have hstep : ∀ step : Step, ∀ part ∈ step.segments.map String.toList, ':' ∉ part := by
    intro step
    cases step <;> simp [Step.segments, hnat]
  cases key with
  | phase p step => simpa [Key.segments, hphase p] using hstep step
  | product p => simp [Key.segments, hproduct p]
  | pullAuthority p => simp [Key.segments, hproduct p]
  | _ => simp [Key.segments]

theorem toList_intercalate (parts : List String) :
    (":".intercalate parts).toList = [':'].intercalate (parts.map String.toList) := by
  induction parts with
  | nil => simp
  | cons part parts ih =>
    cases parts with
    | nil => simp
    | cons next parts =>
      rw [String.intercalate_cons_cons, String.toList_append, String.toList_append, ih]
      simp [List.intercalate_cons_cons]

theorem Step.segments_injective : Function.Injective Step.segments := by
  intro s t h
  cases s <;> cases t <;> simp [Step.segments] at h ⊢
  exact toString_injective (by simpa using h)

/-- A key is determined by its parts. -/
theorem Key.segments_injective : Function.Injective Key.segments := by
  have hne : ∀ (p : Phase) (name : String), name ∈ ["workspace", "import", "secret-provider",
      "tunnel-reference", "authority", "delivery", "pull-authority"] → p.name ≠ name := by
    intro p
    cases p <;> decide
  have hne' : ∀ (p : Phase) (name : String), name ∈ ["workspace", "import", "secret-provider",
      "tunnel-reference", "authority", "delivery", "pull-authority"] → name ≠ p.name :=
    fun p name h => (hne p name h).symm
  intro k l h
  cases k with
  | phase p s =>
    cases l with
    | phase q t =>
      simp only [Key.segments, List.cons.injEq] at h
      rw [Phase.name_injective h.1, Step.segments_injective h.2]
    | _ => simp [Key.segments, hne] at h
  | product p =>
    cases l with
    | product q =>
      simp only [Key.segments, List.cons.injEq, and_true, true_and] at h
      rw [Product.name_injective h]
    | _ => simp [Key.segments, hne'] at h
  | pullAuthority p =>
    cases l with
    | pullAuthority q =>
      simp only [Key.segments, List.cons.injEq, and_true, true_and] at h
      rw [Product.name_injective h]
    | _ => simp [Key.segments, hne'] at h
  | _ => cases l <;> simp [Key.segments, hne'] at h ⊢

/-- Different keys have different texts. -/
theorem keyText_injective (around : Surroundings) : Function.Injective (keyText around) := by
  intro k l h
  have hjoined : (":".intercalate k.segments).toList = (":".intercalate l.segments).toList := by
    simpa [keyText, String.toList_append] using congrArg String.toList h
  rw [toList_intercalate, toList_intercalate] at hjoined
  have hsplit := congrArg (List.splitOn ':') hjoined
  rw [List.splitOn_intercalate _ k.not_mem_segments (by cases k <;> simp [Key.segments]),
    List.splitOn_intercalate _ l.not_mem_segments (by cases l <;> simp [Key.segments])] at hsplit
  have hparts := List.map_injective_iff.mpr (fun _ _ => String.toList_injective) hsplit
  exact Key.segments_injective hparts

/-! ### The order of the keys -/

/-- The place of a phase among the phases. -/
def Phase.ordinal : Phase → ℕ
  | .application => 0
  | .initial => 1
  | .multiAdd => 2
  | .rewire => 3
  | .subsetRemoval => 4
  | .noOp => 5
  | .teardown => 6

/-- The place of a document among the documents. -/
def Product.ordinal : Product → ℕ
  | .helloServer => 0
  | .httpActiveRouter => 1
  | .cloudflaredConnector => 2

/-- The place of a step among the steps of its phase. -/
def Step.rank : Step → ℕ ×ₗ ℕ
  | .prepare => toLex (0, 0)
  | .approve => toLex (1, 0)
  | .admission => toLex (2, 0)
  | .claim => toLex (3, 0)
  | .start => toLex (4, 0)
  | .execute n => toLex (5, n)
  | .advance => toLex (6, 0)

/-- The place of a key in an invocation. -/
def Key.rank : Key → ℕ ×ₗ ℕ ×ₗ ℕ
  | .workspace => toLex (0, toLex (0, 0))
  | .product p => toLex (1, toLex (p.ordinal, 0))
  | .secretProvider => toLex (2, toLex (0, 0))
  | .tunnelReference => toLex (3, toLex (0, 0))
  | .authority => toLex (4, toLex (0, 0))
  | .delivery => toLex (5, toLex (0, 0))
  | .pullAuthority p => toLex (6, toLex (p.ordinal, 0))
  | .phase p step => toLex (7 + p.ordinal, step.rank)

/-- The keys of the calls that were made come before `r`. -/
def Below (r : ℕ ×ₗ ℕ ×ₗ ℕ) (h : History) : Prop :=
  ∀ e ∈ h, ∀ k, e.op.key = some k → k.rank < r

/-- The driver may go on: every call has passed, and the keys from `r` on are free. -/
structure Going (scenario : Scenario) (r : ℕ ×ₗ ℕ ×ₗ ℕ) (h : History) : Prop where
  passed : AllPassed scenario h
  below : Below r h

/-- What the report says of the phases. -/
def State.rows (s : State) : List Row × Bool :=
  (s.report.transitions, s.report.converged)

section Rules

variable {around : Surroundings} {scenario : Scenario} {r r' : ℕ ×ₗ ℕ ×ₗ ℕ} {h : History}

theorem Going.mono (hg : Going scenario r h) (hr : r ≤ r') : Going scenario r' h :=
  ⟨hg.passed, fun e he k hk => lt_of_lt_of_le (hg.below e he k hk) hr⟩

theorem AllPassed.concat {e : Invoked} (hh : AllPassed scenario h)
    (he : Passed scenario h e) : AllPassed scenario (h ++ [e]) := by
  intro pre e' post heq
  rcases List.eq_nil_or_concat post with rfl | ⟨post, last, rfl⟩
  · obtain ⟨rfl, hlast⟩ := List.append_inj' heq rfl
    obtain rfl : e = e' := by simpa using hlast
    exact he
  · have hassoc : h ++ [e] = (pre ++ e' :: post) ++ [last] := by simpa using heq
    exact hh pre e' post (List.append_inj' hassoc rfl).1

/-- A call that has passed its checks. -/
theorem Going.concat {e : Invoked} (hg : Going scenario r h) (he : Passed scenario h e)
    (hr : r ≤ r') (hk : ∀ k, e.op.key = some k → k.rank < r') :
    Going scenario r' (h ++ [e]) := by
  refine ⟨hg.passed.concat he, fun e' he' => ?_⟩
  rcases List.mem_append.mp he' with he' | he'
  · exact (hg.mono hr).below e' he'
  · rw [List.mem_singleton.mp he']
    exact hk

theorem IsApproved.mono {p : Phase} {h' : History} (ha : IsApproved p h) (hh : h <+: h') :
    IsApproved p h' := by
  obtain ⟨e, e', hsub, hread⟩ := ha
  exact ⟨e, e', hsub.trans hh.sublist, hread⟩

theorem Listed.mono {route name : String} {x : Text} {items : List Json} {h' : History}
    (hl : Listed h route name x items) (hh : h <+: h') : Listed h' route name x items := by
  obtain ⟨es, hes, hrest⟩ := hl
  exact ⟨es, hes.trans hh.isInfix, hrest⟩

theorem RunSucceeded.mono {planId runId : Text} {h' : History} (hr : RunSucceeded h planId runId)
    (hh : h <+: h') : RunSucceeded h' planId runId := by
  obtain ⟨runs, run, hl, hrest⟩ := hr
  exact ⟨runs, run, hl.mono hh, hrest⟩

theorem HasEvents.mono {runId : Text} {h' : History} (he : HasEvents h runId) (hh : h <+: h') :
    HasEvents h' runId := by
  obtain ⟨events, hl, hne⟩ := he
  exact ⟨events, hl.mono hh, hne⟩

theorem Planned.mono {phase : Phase} {desired : Json} {p : Prepared} {h' : History}
    (hp : Planned phase desired p h) (hh : h <+: h') : Planned phase desired p h' := by
  obtain ⟨e, he, hasked⟩ := hp.asked
  obtain ⟨e', he', hread⟩ := hp.read
  exact ⟨⟨e, hh.subset he, hasked⟩, ⟨e', hh.subset he', hread⟩, hp.activities⟩

theorem Observed.mono {desired : Json} {p : Prepared} {runId graphId : Text} {h' : History}
    (ho : Observed scenario h desired p runId graphId) (hh : h <+: h') :
    Observed scenario h' desired p runId graphId := by
  obtain ⟨observations, previous, response, hl, hrest⟩ := ho
  exact ⟨observations, previous, response, hl.mono hh, hrest⟩

theorem Responded.mono {phase : Phase} {planId runId graphId : Text} {h' : History}
    (hr : Responded scenario h phase planId runId graphId) (hh : h <+: h') :
    Responded scenario h' phase planId runId graphId := by
  obtain ⟨desired, nodes, p, hp, hid, hnodes, hsome, hnone⟩ := hr
  refine ⟨desired, nodes, p, hp.mono hh, hid, hnodes, fun htrue => ?_, fun hfalse => ?_⟩
  · exact (hsome htrue).imp_right fun ho => ho.mono hh
  · obtain ⟨e, he, hrest⟩ := hnone hfalse
    exact ⟨e, hh.subset he, hrest⟩

theorem Evidenced.mono {route : String} {phase : Phase} {planId runId graphId : Text}
    {h' : History} (he : Evidenced scenario h route phase planId runId graphId) (hh : h <+: h') :
    Evidenced scenario h' route phase planId runId graphId where
  succeeded hroute := (he.succeeded hroute).mono hh
  events hroute := (he.events hroute).mono hh
  response hroute := (he.response hroute).mono hh

theorem Row.Settled.mono {row : Row} {h' : History} (hs : row.Settled scenario h)
    (hh : h <+: h') : row.Settled scenario h' := by
  rcases hs with hs | ⟨hs, ⟨e, e', hsub, hread⟩, runId, graphId, ⟨a, ha, hby⟩, he⟩
  · exact .inl hs
  · exact .inr ⟨hs, ⟨e, e', hsub.trans hh.sublist, hread⟩, runId, graphId,
      ⟨a, hh.subset ha, hby⟩, he.mono hh⟩

/-- Reads leave the last command alone. -/
theorem lastCommand?_append {es : History} (hes : ∀ e ∈ es, e.op.key = none) :
    lastCommand? (h ++ es) = lastCommand? h := by
  have hnil : (es.filter fun e => e.op.key.isSome) = [] := by
    refine List.filter_eq_nil_iff.mpr fun e he => ?_
    simp [hes e he]
  rw [lastCommand?, List.filter_append, hnil, List.append_nil, lastCommand?]

theorem lastCommand?_concat {e : Invoked} {k : Key} (he : e.op.key = some k) :
    lastCommand? (h ++ [e]) = some e := by
  simp [lastCommand?, List.filter_append, he]

theorem Evidences.append {route : String} {es : History} (he : Evidences scenario h route)
    (hes : ∀ e ∈ es, e.op.key = none) : Evidences scenario (h ++ es) route := by
  intro hroute e hlast p hkey
  rw [lastCommand?_append hes] at hlast
  obtain ⟨planId, runId, graphId, hby, hev⟩ := he hroute e hlast p hkey
  exact ⟨planId, runId, graphId, hby, hev.mono (List.prefix_append _ _)⟩

theorem Evidences.of_route {route : String} (hroute : route ∉ evidenceRoutes) :
    Evidences scenario h route :=
  fun hmem => absurd hmem hroute

/-- A phase whose last command was another one need not be evidenced. -/
theorem Evidences.of_last {route : String} (hlast : ∀ e ∈ lastCommand? h, ∀ p,
    e.op.key ≠ some (.phase p .advance)) : Evidences scenario h route :=
  fun _ e he p hkey => absurd hkey (hlast e he p)

/-! ### Rules for the driver -/

/-- Every operation of the world is possible. -/
abbrev anything : Semantics Call (fun _ => Answer) Unit :=
  fun _ _ _ _ => True

/-- Every call of `p` is permitted, and what it returns satisfies `Q`. -/
def Drives (around : Surroundings) (scenario : Scenario) {α : Type}
    (Q : α → State → History → Prop) (p : Drive α) (s : State) (h : History) : Prop :=
  Meets anything (fun h _ e _ => Permitted around scenario h e.op) (p s)
    (fun h _ result => ∀ a s, result = .ok (a, s) → Q a s h) h ()

variable {α β : Type} {Q : β → State → History → Prop} {s : State}

theorem Drives.pure {b : β} (hQ : Q b s h) : Drives around scenario Q (Pure.pure b) s h := by
  intro a s' heq
  cases heq
  exact hQ

theorem Drives.raise {doubt : Doubt} :
    Drives around scenario Q (Convergence.raise doubt) s h := by
  intro a s' heq
  cases heq

theorem Drives.bind {p : Drive α} {f : α → Drive β}
    (hp : Drives around scenario (fun a s h => Drives around scenario Q (f a) s h) p s h) :
    Drives around scenario Q (p >>= f) s h := by
  refine meets_bind.mpr (Meets.post hp fun h _ result hresult => ?_)
  cases result with
  | error e => exact fun _ _ heq => by cases heq
  | ok a => exact hresult _ _ rfl

/-- The calls before a part of the driver are still there after it. -/
theorem Drives.extending {p : Drive β}
    (hp : Drives around scenario (fun b s h' => h <+: h' → Q b s h') p s h) :
    Drives around scenario Q p s h := by
  have hkept := Meets.keep (I := fun h' _ => h <+: h')
    (fun h' _ e _ hh _ _ => hh.trans (List.prefix_append h' [e])) List.prefix_rfl hp
  exact hkept.mono (fun _ _ _ _ _ hG => hG.2) fun _ _ _ hQ b s' heq => hQ.2 b s' heq hQ.1

/-- A check that fails is an exception. -/
theorem Drives.check {x : Except Doubt β} (hx : ∀ b, x = .ok b → Q b s h) :
    Drives around scenario Q (check x) s h := by
  cases x with
  | error doubt => exact Drives.raise
  | ok b => exact Drives.pure (hx b rfl)

theorem Drives.whenever {Q : Unit → State → History → Prop} {condition : Bool} {p : Drive Unit}
    (hp : condition = true → Drives around scenario Q p s h)
    (hQ : condition = false → Q () s h) :
    Drives around scenario Q (whenever condition p) s h := by
  cases condition with
  | true => exact hp rfl
  | false => exact Drives.pure (hQ rfl)

theorem Drives.modify {Q : PUnit → State → History → Prop} {f : State → State} (hQ : Q ⟨⟩ (f s) h) :
    Drives around scenario Q (modify f) s h :=
  Drives.pure (s := f s) hQ

/-- A call that has returned an object. -/
structure Answered (around : Surroundings) (scenario : Scenario) (route : String)
    (key : Option Key) (arguments members : Fields) (e : Invoked) : Prop where
  route : e.op.route = route
  arguments : e.op.arguments = sent around scenario key arguments
  key : e.op.key = key
  answer : e.answer = .returned (.obj members)

/-- A permitted call returns an object, or it raises. -/
theorem Drives.send {Q : Json → State → History → Prop} {route : String} {key : Option Key}
    {arguments : Fields}
    (hpermitted : Permitted around scenario h
      ⟨route, key, sent around scenario key arguments, authorizationOf scenario route⟩)
    (next : ∀ e members, Answered around scenario route key arguments members e →
      Q (.obj members) { s with calls := s.calls + 1 } (h ++ [e])) :
    Drives around scenario Q (send around scenario route key arguments) s h := by
  refine Drives.bind (Drives.pure (Drives.bind (Drives.check fun _ _ => Drives.bind ?_)))
  intro a _ _
  refine ⟨hpermitted, ?_⟩
  intro b s' heq
  cases heq
  cases a with
  | raised doubt => exact Drives.raise
  | returned v =>
    cases v with
    | obj members => exact Drives.pure (next _ members ⟨rfl, rfl, rfl, rfl⟩)
    | _ => exact Drives.raise

end Rules

section Reads

variable {around : Surroundings} {scenario : Scenario} {r r' : ℕ ×ₗ ℕ ×ₗ ℕ} {h : History}
  {α β : Type} {Q : β → State → History → Prop} {s : State}

@[simp]
theorem lookup_argument (name key : String) (v : Json) (fields : Fields) :
    List.lookup (Text.utf8 name) (argument key v :: fields) =
      if name = key then some v else List.lookup (Text.utf8 name) fields := by
  by_cases hname : name = key
  · simp [argument, hname]
  · have hne : (Text.utf8 name == Text.utf8 key) = false := by simpa using hname
    simp [argument, List.lookup_cons, hname, hne]

/-- The arguments of a call name its key, if they do not do so themselves. -/
theorem Answered.argument? {route : String} {key : Option Key} {arguments members : Fields}
    {e : Invoked} (he : Answered around scenario route key arguments members e) {name : String}
    (hname : name ≠ "workspace_id") (hname' : name ≠ "idempotency_key") :
    e.op.argument? name = arguments.lookup (.utf8 name) := by
  rw [Call.argument?, he.arguments]
  cases key <;> simp [sent, hname, hname']

/-- A call that may be made in any phase. -/
theorem Going.permitted {route : String} {key : Option Key} {arguments : Fields}
    (hg : Going scenario r h) (hkey : ∀ k, key = some k → r ≤ k.rank)
    (hargs : key = none → arguments.lookup (.utf8 "idempotency_key") = none)
    (hgated : route ∈ gatedRoutes → ∃ p step, key = some (.phase p step) ∧ IsApproved p h)
    (hdecided : route = "command.approval.decide" → ∃ p, key = some (.phase p .approve) ∧
      Reviewed scenario p h
        ⟨route, key, sent around scenario key arguments, authorizationOf scenario route⟩)
    (hevidences : Evidences scenario h route) :
    Permitted around scenario h
      ⟨route, key, sent around scenario key arguments, authorizationOf scenario route⟩ where
  passed := hg.passed
  authorized := rfl
  keyed := by
    cases key with
    | none => simpa [Call.argument?, sent] using hargs rfl
    | some k => simp [Call.argument?, sent]
  fresh := by
    rintro k rfl e he hk
    exact absurd (hg.below e he k hk) (not_lt.mpr (hkey k rfl))
  gated := hgated
  decided := hdecided
  evidenced := hevidences

/-- A read is permitted at any time. -/
theorem Drives.read {Q : Json → State → History → Prop} {route : String} {arguments : Fields}
    (hg : Going scenario r h) (hroute : route ∉ "command.approval.decide" :: gatedRoutes)
    (hargs : arguments.lookup (.utf8 "idempotency_key") = none)
    (hevidences : Evidences scenario h route)
    (next : ∀ e members, Answered around scenario route none arguments members e →
      Q (.obj members) { s with calls := s.calls + 1 } (h ++ [e])) :
    Drives around scenario Q (call around scenario route arguments) s h := by
  refine Drives.send (hg.permitted ?_ (fun _ => hargs) ?_ ?_ hevidences) next
  · intro k hk
    cases hk
  · intro hgated
    exact absurd (List.mem_cons_of_mem _ hgated) hroute
  · intro hdecide
    exact absurd (hdecide ▸ List.mem_cons_self) hroute

/-- A read that has passed. -/
theorem Going.afterRead {route : String} {arguments members : Fields} {e : Invoked}
    (hg : Going scenario r h) (he : Answered around scenario route none arguments members e)
    (hchecked : ReadChecked scenario h e.op (.obj members)) : Going scenario r (h ++ [e]) := by
  refine hg.concat ⟨members, he.answer, ?_⟩ le_rfl fun k hk => ?_
  · rw [Checked, he.key]
    exact hchecked
  · rw [he.key] at hk
    cases hk

/-- A command with a free key that needs no approval. -/
theorem Drives.ungated {Q : Json → State → History → Prop} {route : String} (key : Key)
    {arguments : Fields} (hg : Going scenario key.rank h)
    (hroute : route ∉ "command.approval.decide" :: gatedRoutes ++ evidenceRoutes)
    (next : ∀ e members, Answered around scenario route (some key) arguments members e →
      Q (.obj members) { s with calls := s.calls + 1 } (h ++ [e])) :
    Drives around scenario Q (command around scenario route key arguments) s h := by
  obtain ⟨hroute, hevidence⟩ := not_or.mp (List.mem_append.not.mp hroute)
  refine Drives.send (hg.permitted ?_ ?_ ?_ ?_ (.of_route hevidence)) next
  · rintro k ⟨⟩
    exact le_rfl
  · intro hk
    cases hk
  · intro hgated
    exact absurd (List.mem_cons_of_mem _ hgated) hroute
  · intro hdecide
    exact absurd (hdecide ▸ List.mem_cons_self) hroute

/-- A command that has passed. -/
theorem Going.afterCommand {route : String} {key : Key} {arguments members : Fields}
    {e : Invoked} (hg : Going scenario key.rank h)
    (he : Answered around scenario route (some key) arguments members e) (hr : key.rank < r)
    (hchecked : CheckedAs scenario h e.op (.obj members) (some key)) :
    Going scenario r (h ++ [e]) := by
  refine hg.concat ⟨members, he.answer, ?_⟩ hr.le fun k hk => ?_
  · rw [Checked, he.key]
    exact hchecked
  · rw [he.key] at hk
    cases hk
    exact hr

theorem ReadChecked.paged {c : Call} {v : Json} {items : List Json}
    (hroute : c.route ∈ pagedRoutes) (hitems : Has v "items" (.arr items))
    (hlength : items.length ≤ 100) : ReadChecked scenario h c v where
  page _ := ⟨items, hitems, hlength⟩
  workspace heq := by simp [pagedRoutes, heq] at hroute
  plan heq := by simp [pagedRoutes, heq] at hroute
  approval heq := by simp [pagedRoutes, heq] at hroute
  graph heq := by simp [pagedRoutes, heq] at hroute

@[simp]
theorem require_eq_ok {b : Bool} {u : Unit} : require b = .ok u ↔ b = true := by
  cases b <;> simp [require]

/-- `es` are the calls of the pages of a read, from `cursor` on. -/
structure Paged (around : Surroundings) (scenario : Scenario) (route : String) (arguments : Fields)
    (cursor : Option Json) (es : History) : Prop where
  reads : ∀ e ∈ es, ∃ after members, Answered around scenario route none
    (argument "limit" (.int 100) :: (arguments ++ after)) members e
  first : ∀ e ∈ es.head?, e.op.argument? "after" = cursor
  last : ∃ e ∈ es.getLast?, ∃ v, e.answer = .returned v ∧ getD v "next_cursor" .null = .ok .null

theorem Paged.key {route : String} {arguments : Fields} {cursor : Option Json} {es : History}
    (hes : Paged around scenario route arguments cursor es) : ∀ e ∈ es, e.op.key = none := by
  intro e he
  obtain ⟨after, members, hanswered⟩ := hes.reads e he
  exact hanswered.key

/-- The pages of a read hold its items. -/
theorem Paged.listed {route name : String} {arguments : Fields} {x : Text} {es : History}
    (hes : Paged around scenario route arguments none es)
    (hname : ∀ after, Call.argument? ⟨route, none, sent around scenario none
      (argument "limit" (.int 100) :: (arguments ++ after)), authorizationOf scenario route⟩ name =
        some (.str x)) :
    Listed (h ++ es) route name x (History.items es) := by
  refine ⟨es, (List.suffix_append h es).isInfix, fun e he => ?_, hes.first, hes.last, rfl⟩
  obtain ⟨after, members, hanswered⟩ := hes.reads e he
  refine ⟨hanswered.route, ?_⟩
  rw [Call.argument?, hanswered.arguments]
  exact hname after

/-- The pages of a read leave everything but the number of calls alone. -/
theorem Drives.pages {Q : List Json → State → History → Prop} {route : String} {arguments : Fields}
    (hroute : route ∈ pagedRoutes)
    (hargs : ∀ name ∈ ["idempotency_key", "after"], arguments.lookup (.utf8 name) = none)
    {fuel : ℕ} {cursor : Option Json} {seen : List Text} {read : List Json}
    (hg : Going scenario r h) (hevidences : Evidences scenario h route)
    (next : ∀ n es, Going scenario r (h ++ es) →
      Paged around scenario route arguments cursor es →
      Q (read ++ History.items es) { s with calls := n } (h ++ es)) :
    Drives around scenario Q (pages around scenario route arguments fuel cursor seen read) s h := by
  induction fuel generalizing cursor seen read s h with
  | zero => exact Drives.raise
  | succ fuel ih =>
    have hkey : arguments.lookup (.utf8 "idempotency_key") = none := hargs _ (by simp)
    have hafter : arguments.lookup (.utf8 "after") = none := hargs _ (by simp)
    have hargs' : (argument "limit" (.int 100) ::
        (arguments ++ (cursor.map (argument "after")).toList)).lookup
          (.utf8 "idempotency_key") = none := by
      cases cursor <;> simp [List.lookup_append, hkey]
    have hargs'' : (argument "limit" (.int 100) ::
        (arguments ++ (cursor.map (argument "after")).toList)).lookup (.utf8 "after") =
          cursor := by
      cases cursor <;> simp [List.lookup_append, hafter]
    -- a paged route is no command, so nothing is spent on it
    have hcommand : route ∉ "command.approval.decide" :: gatedRoutes := by
      intro hmem
      simp [pagedRoutes] at hroute
      rcases hroute with rfl | rfl | rfl | rfl | rfl <;> simp [gatedRoutes] at hmem
    refine Drives.bind (Drives.read hg hcommand hargs' hevidences fun e members he => ?_)
    have hcursor : e.op.argument? "after" = cursor := by
      rw [he.argument? (by decide) (by decide), hargs'']
    refine Drives.bind (Drives.check fun batch hbatch => ?_)
    cases batch with
    | arr items =>
      have hitems : Answer.items e.answer = items := by
        rw [he.answer, Answer.items, hbatch]
      refine Drives.bind (Drives.check fun _ hlength => ?_)
      have hlength' : items.length ≤ 100 := by simpa using hlength
      have hg' := hg.afterRead he (.paged (he.route ▸ hroute) hbatch hlength')
      refine Drives.bind (Drives.check fun cursor' hnext => ?_)
      cases cursor' with
      | null =>
        refine Drives.pure ?_
        -- the last page has no cursor
        have hes : Paged around scenario route arguments cursor [e] := by
          refine ⟨fun e' he' => ?_, fun e' he' => ?_, e, rfl, _, he.answer, hnext⟩
          · rw [List.mem_singleton.mp he']
            exact ⟨_, members, he⟩
          · rw [← Option.some_inj.mp he']
            exact hcursor
        simpa [History.items, hitems] using next (s.calls + 1) [e] hg' hes
      | obj members' =>
        refine Drives.bind (Drives.check fun key _ => ?_)
        refine Drives.bind (Drives.check fun _ _ => ?_)
        -- the next page is read behind this one
        have hev : Evidences scenario (h ++ [e]) route := by
          refine hevidences.append fun e' he' => ?_
          rw [List.mem_singleton.mp he']
          exact he.key
        refine ih hg' hev fun n es hg'' hes => ?_
        have hassoc : h ++ [e] ++ es = h ++ e :: es := by simp
        rw [hassoc] at hg'' ⊢
        have hes' : Paged around scenario route arguments cursor (e :: es) := by
          refine ⟨List.forall_mem_cons.mpr ⟨⟨_, members, he⟩, hes.reads⟩, fun e' he' => ?_, ?_⟩
          · rw [← Option.some_inj.mp he']
            exact hcursor
          · obtain ⟨e', hlast, hrest⟩ := hes.last
            refine ⟨e', ?_, hrest⟩
            rw [List.getLast?_cons, Option.mem_def.mp hlast]
            rfl
        simpa [History.items, hitems] using next n (e :: es) hg'' hes'
      | _ => exact Drives.raise
    | _ => exact Drives.raise

end Reads

end Convergence

end SourceLive

end ControlPlaneKit
