import ControlPlaneKit.Client.Evidence

/-!
# The runs of the public status

`_public_status` makes up to six reads; each of them may stay unresolved, and then the report is
built from what was seen before it and from the journal's phase. `publicStatus_cases` lists how
a call can end, with the answers that its report rests on.
-/

namespace ControlPlaneKit

namespace Client

open Interaction

/-! ### Evidence in the answers -/

/-- The operation reads this route. -/
def ReadsRoute (route : ReadRoute) (op : Op) : Prop :=
  ∃ call, op = .call call ∧ call.route = .read route

/-- The items of an answered page of the plan's runs. -/
def pageItems (e : Event Op Op.Answer) : List Json :=
  match e with
  | ⟨.call call, .reply response⟩ =>
    if call.route = .read .planRuns then
      match response.get "items" with
      | .arr batch => batch
      | _ => []
    else []
  | _ => []

/-- All items of the answered pages of the plan's runs. -/
def runItems (tr : Trace) : List Json :=
  tr.flatMap pageItems

/-- The event answers the last page of the plan's runs. -/
def IsLastPage (e : Event Op Op.Answer) : Prop :=
  ∃ path response batch, IsAnswer .planRuns path response e ∧
    response.get "items" = .arr batch ∧ batch.length ≤ maximumPageItems ∧
      response.get "next_cursor" = .null

/-- The runs of the plan have been read to the end. -/
def RunsRead (tr : Trace) : Prop :=
  ∃ e ∈ tr, IsLastPage e

/-- A page of the plan's runs shows the run with this status. -/
def ShowsRun (runId : Coordinate) (status : Json) (e : Event Op Op.Answer) : Prop :=
  ∃ item, .obj item ∈ pageItems e ∧ Fields.get item "run_id" = runId.json ∧
    Fields.get item "status" = status

/-- The current graph is answered with this pointer. -/
def ShowsCurrent (pointer : Pointer) (e : Event Op Op.Answer) : Prop :=
  ∃ path response, IsAnswer .currentGraph path response e ∧
    response.get "graph_id" = pointer.authoredGraphId.json ∧
      response.get "realized_projection_id" = pointer.realizedProjectionId.json

/-- The workspace is answered with this current pointer. -/
def ShowsWorkspace (pointer : Option Pointer) (e : Event Op Op.Answer) : Prop :=
  ∃ path response workspace, IsAnswer .workspace path response e ∧
    response.get "workspace" = .obj workspace ∧ currentPointer workspace = .ok pointer

/-- The recorded desired pointer. -/
def Coordinates.desired? (c : Coordinates) : Option Pointer :=
  match c.desiredGraphId, c.desiredRealizedProjectionId with
  | some graphId, some projectionId => some ⟨graphId, projectionId⟩
  | _, _ => none

theorem isDesired_iff {c : Coordinates} {current : Option Pointer} :
    isDesired c current = true ↔ ∃ pointer, current = some pointer ∧ c.desired? = some pointer := by
  unfold isDesired Coordinates.desired?
  cases current with
  | none => simp
  | some current =>
    cases c.desiredGraphId with
    | none => simp
    | some graphId =>
      cases c.desiredRealizedProjectionId with
      | none => simp
      | some projectionId =>
        simp only [beq_iff_eq, Option.some.injEq, exists_eq_left']
        exact eq_comm

/-! ### Pages -/

section Pages

variable {rt : Runtime} {profile : ClientProfile} {ref : OperationRef} {path : PathParameters}

theorem uses_readPublic (route : ReadRoute) (payload : Fields) :
    (readPublic profile ref route path payload).Uses (ReadsRoute route) := by
  refine ⟨⟨_, rfl, rfl⟩, fun a => ?_⟩
  cases a <;> trivial

theorem uses_lift {α : Type} {P : Op → Prop} (x : Except ClientError α) : (lift x).Uses P := by
  cases x <;> trivial

theorem uses_pageFrom (route : ReadRoute) (reads : Nat) (items : List Json)
    (cursor : Option Fields) (seen : List (List Char)) :
    (pageFrom rt profile ref route path reads items cursor seen).Uses (ReadsRoute route) := by
  induction reads generalizing items cursor seen with
  | zero => trivial
  | succ reads ih =>
    refine (uses_readPublic route _).bind fun page => ?_
    split
    · split
      · trivial
      · split
        · trivial
        · split
          · trivial
          · split
            · trivial
            · exact ih _ _ _
        · trivial
    · trivial

/-- An answered read is its one event. -/
theorem runs_readPublic {route : ReadRoute} {payload : Fields} {tr : Trace}
    {r : Except Exit Fields} (h : (readPublic profile ref route path payload).Runs tr r) :
    ∃ a, tr = [⟨.call (readCall profile ref route path payload), a⟩] ∧
      ((∃ response, a = .reply response ∧ r = .ok response) ∨
        (∀ response, a ≠ .reply response) ∧ ∃ e, r = .error (.error e)) := by
  cases h with
  | @perform _ _ a _ _ h =>
    cases a with
    | reply response =>
      cases h
      exact ⟨_, rfl, .inl ⟨response, rfl, rfl⟩⟩
    | _ =>
      cases h
      exact ⟨_, rfl, .inr ⟨fun _ => CallAnswer.noConfusion, _, rfl⟩⟩

theorem runItems_append (tr tr' : Trace) : runItems (tr ++ tr') = runItems tr ++ runItems tr' :=
  List.flatMap_append

theorem runsRead_append {tr tr' : Trace} : RunsRead (tr ++ tr') ↔ RunsRead tr ∨ RunsRead tr' := by
  simp only [RunsRead, List.mem_append, or_and_right, exists_or]

theorem not_runsRead_nil : ¬ RunsRead [] := by
  rintro ⟨e, he, -⟩
  cases he

/-- An answered page. -/
def page (call : Call) (response : Fields) : Trace :=
  [⟨.call call, .reply response⟩]

theorem runItems_page {call : Call} {response : Fields} {batch : List Json}
    (hroute : call.route = .read .planRuns) (h : response.get "items" = .arr batch) :
    runItems (page call response) = batch := by
  simp [runItems, page, pageItems, hroute, h]

theorem runsRead_page {call : Call} {response : Fields} (hroute : call.route = .read .planRuns) :
    RunsRead (page call response) ↔ ∃ batch, response.get "items" = .arr batch ∧
      batch.length ≤ maximumPageItems ∧ response.get "next_cursor" = .null := by
  constructor
  · rintro ⟨e, he, path', response', batch, ⟨call', rfl, -⟩, hb⟩
    cases List.mem_singleton.mp he
    exact ⟨batch, hb⟩
  · rintro ⟨batch, hb⟩
    exact ⟨_, List.mem_singleton_self _, call.pathParameters, response, batch,
      ⟨call, rfl, hroute, rfl⟩, hb⟩

/-- The runs of a paginated read: it returns the items of its pages after the last one, and
raises before. -/
theorem runs_pageFrom {reads : Nat} {items : List Json} {cursor : Option Fields}
    {seen : List (List Char)} {tr : Trace} {r : Except Exit (List Json)}
    (h : (pageFrom rt profile ref .planRuns path reads items cursor seen).Runs tr r) :
    (RunsRead tr ∧ r = .ok (items ++ runItems tr)) ∨ (¬ RunsRead tr ∧ ∃ e, r = .error (.error e)) := by
  induction reads generalizing items cursor seen tr with
  | zero =>
    obtain ⟨rfl, rfl⟩ := runs_raise.mp h
    exact .inr ⟨not_runsRead_nil, _, rfl⟩
  | succ reads ih =>
    rcases h.bind_cases with ⟨e, h₁, rfl⟩ | ⟨response, tr₁, tr₂, rfl, h₁, h₂⟩
    · obtain ⟨a, rfl, ⟨response, -, hr⟩ | ⟨hne, e', he⟩⟩ := runs_readPublic h₁
      · cases hr
      · cases he
        refine .inr ⟨?_, _, rfl⟩
        rintro ⟨e₀, he₀, path, response, batch, ⟨call, rfl, -⟩, -⟩
        cases List.mem_singleton.mp he₀
        exact hne response rfl
    obtain rfl : tr₁ = page _ response := runs_readPublic_ok h₁
    rw [runsRead_append, runItems_append, runsRead_page rfl]
    -- A page that is not accepted is not the last one, and nothing is read after it.
    have hraise : ∀ {e}, (Client.raise e : Block (List Json)).Runs tr₂ r →
        (∀ batch, response.get "items" = .arr batch → batch.length ≤ maximumPageItems →
          response.get "next_cursor" ≠ .null) →
        ¬ ((∃ batch, response.get "items" = .arr batch ∧ batch.length ≤ maximumPageItems ∧
          response.get "next_cursor" = .null) ∨ RunsRead tr₂) ∧ ∃ e, r = .error (.error e) := by
      intro e he hpage
      obtain ⟨rfl, rfl⟩ := runs_raise.mp he
      refine ⟨?_, _, rfl⟩
      rintro (⟨batch, hbatch, hshort, hnull⟩ | hread)
      · exact hpage batch hbatch hshort hnull
      · exact not_runsRead_nil hread
    split at h₂
    swap
    · rename_i hne
      exact .inr (hraise h₂ fun batch hbatch => absurd hbatch (hne batch))
    rename_i batch hbatch
    rw [runItems_page rfl hbatch]
    split at h₂
    · rename_i hlong
      refine .inr (hraise h₂ fun batch' hbatch' hshort => ?_)
      cases hbatch.symm.trans hbatch'
      omega
    rename_i hshort
    split at h₂
    · rename_i hnull
      obtain ⟨rfl, rfl⟩ := runs_pure.mp h₂
      exact .inl ⟨.inl ⟨batch, hbatch, by omega, hnull⟩, by simp [runItems]⟩
    · rename_i next hnext
      have hmore : ∀ batch', response.get "items" = .arr batch' →
          batch'.length ≤ maximumPageItems → response.get "next_cursor" ≠ .null := by
        rw [hnext]
        exact fun _ _ _ => Json.noConfusion
      split at h₂
      · exact .inr (hraise h₂ hmore)
      · split at h₂
        · exact .inr (hraise h₂ hmore)
        · rcases ih h₂ with ⟨hread, rfl⟩ | ⟨hread, he⟩
          · exact .inl ⟨.inr hread, by rw [List.append_assoc]⟩
          · refine .inr ⟨?_, he⟩
            rintro (⟨batch', hbatch', hshort', hnull⟩ | h)
            · exact hmore batch' hbatch' hshort' hnull
            · exact hread h
    · rename_i hnull hobj
      exact .inr (hraise h₂ fun _ _ _ => hnull)

/-- The runs of the paginated read of the plan's runs. -/
theorem runs_readPages {tr : Trace} {r : Except Exit (List Json)}
    (h : (readPages rt profile ref .planRuns path).Runs tr r) :
    (RunsRead tr ∧ r = .ok (runItems tr)) ∨ (¬ RunsRead tr ∧ ∃ e, r = .error (.error e)) :=
  runs_pageFrom h

end Pages

/-! ### Routes that were read once or not at all -/

/-- Nothing was read from this route. -/
def Quiet (route : ReadRoute) (h : Trace) : Prop :=
  ∀ e ∈ h, ¬ ReadsRoute route e.op

/-- This is the one event that reads the route. -/
def Sole (route : ReadRoute) (e : Event Op Op.Answer) (h : Trace) : Prop :=
  e ∈ h ∧ ∀ e' ∈ h, ReadsRoute route e'.op → e' = e

section Quiet

variable {route route' : ReadRoute} {e : Event Op Op.Answer} {h h' : Trace}

theorem ReadsRoute.inj {op : Op} (hop : ReadsRoute route op) (hop' : ReadsRoute route' op) :
    route = route' := by
  obtain ⟨call, rfl, hroute⟩ := hop
  obtain ⟨call', heq, hroute'⟩ := hop'
  cases heq
  exact Route.read.inj (hroute.symm.trans hroute')

theorem Quiet.append (hh : Quiet route h) (hh' : Quiet route h') : Quiet route (h ++ h') :=
  fun e he => (List.mem_append.mp he).elim (hh e) (hh' e)

theorem quiet_of_uses {α : Type} {p : Block α} {r : Except Exit α}
    (hp : p.Uses (ReadsRoute route')) (hr : p.Runs h r) (hne : route' ≠ route) : Quiet route h :=
  fun e he hread => hne ((hr.uses hp e he).inj hread)

theorem Sole.append (hh : Sole route e h) (hh' : Quiet route h') : Sole route e (h ++ h') :=
  ⟨List.mem_append_left _ hh.1, fun e' he' hread => (List.mem_append.mp he').elim
    (fun he' => hh.2 e' he' hread) fun he' => absurd hread (hh' e' he')⟩

theorem Quiet.concat (hh : Quiet route h) (e : Event Op Op.Answer) : Sole route e (h ++ [e]) :=
  ⟨List.mem_append_right _ (List.mem_singleton_self _), fun e' he' hread =>
    (List.mem_append.mp he').elim (fun he' => absurd hread (hh e' he')) List.mem_singleton.mp⟩

theorem IsAnswer.reads {path : PathParameters} {response : Fields} (he : IsAnswer route path response e) :
    ReadsRoute route e.op := by
  obtain ⟨call, rfl, hroute, -⟩ := he
  exact ⟨call, rfl, hroute⟩

theorem Quiet.runItems (hh : Quiet .planRuns h) : runItems h = [] := by
  refine List.flatMap_eq_nil_iff.mpr fun e he => ?_
  unfold pageItems
  split
  · split
    · rename_i call response hroute
      exact absurd ⟨call, rfl, hroute⟩ (hh _ he)
    · rfl
  · rfl

theorem Quiet.not_runsRead (hh : Quiet .planRuns h) : ¬ RunsRead h := by
  rintro ⟨e, he, path, response, batch, hanswer, -⟩
  exact hh e he hanswer.reads

theorem Quiet.not_showsCurrent (hh : Quiet .currentGraph h) {pointer : Pointer} (he : e ∈ h) :
    ¬ ShowsCurrent pointer e := by
  rintro ⟨path, response, hanswer, -⟩
  exact hh e he hanswer.reads

end Quiet

/-! ### How a block of reads ends -/

/-- Every complete run of the block satisfies the postcondition, and every result it returns early
satisfies the exit condition. -/
def Ends {α : Type} (E : Trace → ClientResult → Prop) (p : Block α) (R : Trace → α → Prop)
    (h : Trace) : Prop :=
  ∀ tr r, p.Runs tr r →
    match r with
    | .ok a => R (h ++ tr) a
    | .error (.returned result) => E (h ++ tr) result
    | .error (.error _) => True

section Ends

variable {α β : Type} {E : Trace → ClientResult → Prop} {h : Trace}

theorem Ends.pure {R : Trace → α → Prop} {a : α} (ha : R h a) : Ends E (Pure.pure a) R h := by
  intro tr r hr
  obtain ⟨rfl, rfl⟩ := runs_pure.mp hr
  simpa using ha

theorem Ends.raise {R : Trace → α → Prop} {e : ClientError} : Ends E (Client.raise e) R h := by
  intro tr r hr
  obtain ⟨rfl, rfl⟩ := runs_raise.mp hr
  trivial

theorem Ends.returnNow {R : Trace → α → Prop} {result : ClientResult} (hE : E h result) :
    Ends E (Client.returnNow result) R h := by
  intro tr r hr
  obtain ⟨rfl, rfl⟩ := runs_returnNow.mp hr
  simpa using hE

theorem Ends.lift {R : Trace → α → Prop} {x : Except ClientError α} (hx : ∀ a, x = .ok a → R h a) :
    Ends E (Client.lift x) R h := by
  cases x with
  | ok a => exact .pure (hx a rfl)
  | error e => exact .raise

theorem Ends.bind {p : Block α} {f : α → Block β} {R : Trace → β → Prop}
    (hp : Ends E p (fun h a => Ends E (f a) R h) h) : Ends E (p >>= f) R h := by
  intro tr r hr
  rcases hr.bind_cases with ⟨e, h₁, rfl⟩ | ⟨a, tr₁, tr₂, rfl, h₁, h₂⟩
  · cases e with
    | error e => trivial
    | returned result => exact hp tr _ h₁
  · rw [← List.append_assoc]
    exact hp tr₁ _ h₁ tr₂ r h₂

theorem Ends.mono {p : Block α} {R R' : Trace → α → Prop} (hp : Ends E p R h)
    (hR : ∀ h a, R h a → R' h a) : Ends E p R' h := by
  intro tr r hr
  have := hp tr r hr
  rcases r with (_ | _) | _
  · trivial
  · exact this
  · exact hR _ _ this

theorem Ends.returning {block : Block ClientResult} (hblock : Ends E block E h) :
    Ends E (Client.returning block) E h := by
  intro tr r hr
  rcases hr.handle_cases with ⟨a, h₁, rfl⟩ | ⟨e, tr₁, tr₂, rfl, h₁, h₂⟩
  · exact hblock tr _ h₁
  · cases e with
    | error e =>
      obtain ⟨-, rfl⟩ := runs_raise.mp h₂
      trivial
    | returned result =>
      obtain ⟨rfl, rfl⟩ := runs_pure.mp h₂
      rw [List.append_nil]
      exact hblock tr₁ _ h₁

end Ends

end Client

end ControlPlaneKit
