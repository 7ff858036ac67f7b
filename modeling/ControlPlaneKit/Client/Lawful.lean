import ControlPlaneKit.Client.Protocol

/-!
# Lawful operations on an operation's world

The protocol of one operation, lifted from its journal to its world: an operation is `Lawful` if
it leaves the world alone, creates the journal, takes one step of the journal, or dispatches the
request that is pending in the durable journal. Lawful operations keep the invariant of the world
(`WorldInv`), which ties the dispatched commands to the journal: each of them is recorded or
pending, each record was dispatched, and calls with one key carry one request.
-/

namespace ControlPlaneKit

namespace Client

open Interaction

/-- A new journal. -/
structure Created (ref : OperationRef) (j : Journal) : Prop where
  valid : j.Valid ref
  phase : j.phase = .planning
  pending : j.pendingRequest = none
  coordinates : j.coordinates = {}
  history : j.requestHistory = []

/-- The call goes to a journal's target. -/
def OnTarget (rt : Runtime) (target : Target) (call : Call) : Prop :=
  rt.sha256 call.endpoint.toUTF8.toList = target.endpointSha256 ∧
    call.pathParameters.get "workspace_id" = target.workspaceId.json

/-- The call was made for a record of the history. -/
structure SentFor (rt : Runtime) (r : Record) (call : Call) : Prop where
  route : call.route = .command r.routeId
  key : call.key = r.idempotencyKey.json
  digest : canonicalDigest rt call.payload = .ok r.bodySha256

/-- The expected current graph of an advancement is the base of the plan. -/
def FromBase (c : Coordinates) (call : Call) : Prop :=
  ∃ graphId projectionId, c.baseGraphId = some graphId ∧
    c.baseRealizedProjectionId = some projectionId ∧
      call.payload.get "expected_current_graph_id" = graphId.json ∧
        call.payload.get "expected_current_realized_projection_id" = projectionId.json

section Worlds

variable (rt : Runtime) (docs : Set (List UInt8)) (ref : OperationRef)

/-- The call sends the request that is pending in the durable journal, to its target. -/
def Dispatchable (w : World) (call : Call) : Prop :=
  ∃ j p, w.journal = some j ∧ j.pendingRequest = some p ∧ Matches rt docs p call ∧
    OnTarget rt j.target call

/-- What a client may do to the world of an operation. -/
def Lawful (w : World) (e : Event Op Op.Answer) (w' : World) : Prop :=
  match e.op with
  | .create r j =>
    if r = ref then w' = w ∨ w.journal = none ∧ Created ref j ∧ w' = w.store j else w' = w
  | .write r j =>
    if r = ref then
      w' = w ∨ ∃ j₀, w.journal = some j₀ ∧ JournalStep rt docs ref w.dispatched j₀ j ∧
        w' = w.store j
    else w' = w
  | .call call =>
    if call.operationRef = ref ∧ !call.route.isRead then
      Dispatchable rt docs w call ∧ w' = w.dispatch call
    else w' = w
  | _ => w' = w

/-- The invariant of an operation's world. -/
structure WorldInv (w : World) : Prop where
  /-- Nothing is dispatched before the journal exists. -/
  undispatched : w.journal = none → w.dispatched = []
  /-- The journal satisfies its invariant. -/
  journal : ∀ j, w.journal = some j → JournalInv ref j
  /-- Every dispatched command is recorded, or it is the pending one. -/
  outstanding : ∀ j, w.journal = some j → ∀ call ∈ w.dispatched,
    (∃ key ∈ j.recordedKeys, call.key = key.json) ∨
      ∃ p, j.pendingRequest = some p ∧ Matches rt docs p call
  /-- Calls with one key carry one request. -/
  sameKey : Set.InjOn rt.sha256 docs → ∀ call ∈ w.dispatched, ∀ call' ∈ w.dispatched,
    call.key = call'.key → SameRequest call call'
  /-- Every dispatched command went to the journal's target. -/
  target : ∀ j, w.journal = some j → ∀ call ∈ w.dispatched, OnTarget rt j.target call
  /-- Every recorded command was dispatched. -/
  sent : ∀ j, w.journal = some j → ∀ r ∈ j.requestHistory, ∃ call ∈ w.dispatched,
    SentFor rt r call ∧ (r.routeId = .advance → FromBase j.coordinates call)

end Worlds

variable {rt : Runtime} {docs : Set (List UInt8)} {ref : OperationRef} {w w' : World}

theorem WorldInv.empty : WorldInv rt docs ref World.empty where
  undispatched := fun _ => rfl
  journal := by simp [World.empty]
  outstanding := by simp [World.empty]
  sameKey := by simp [World.empty]
  target := by simp [World.empty]
  sent := by simp [World.empty]

/-- A new journal satisfies the invariant. -/
theorem Created.inv {j : Journal} (h : Created ref j) : JournalInv ref j where
  valid := h.valid
  trace := ⟨.planning, by rw [h.history]; rfl, by rw [h.phase]; exact .same _⟩
  fresh := by simp [h.pending]
  nodup := by simp [Journal.recordedKeys, h.history]
  room := by simp [h.pending]
  agree := by simp [h.history]
  advanced := by simp [h.history]
  unadmitted := by simp [h.coordinates]
  unclaimed := by simp [h.coordinates]
  approval := by simp [h.coordinates, h.pending]
  session := by simp [h.coordinates, Coordinates.has, Coordinates.value?]
  planned := by simp [h.pending]

/-- Creating the journal keeps the invariant. -/
theorem WorldInv.create (hw : WorldInv rt docs ref w) {j : Journal} (hnone : w.journal = none)
    (hj : Created ref j) : WorldInv rt docs ref (w.store j) := by
  have hsent : (w.store j).dispatched = [] := hw.undispatched hnone
  refine ⟨by simp [World.store], ?_, ?_, ?_, ?_, ?_⟩
  · intro j' hj'
    cases hj'
    exact hj.inv
  · simp [hsent]
  · simp [hsent]
  · simp [hsent]
  · intro j' hj'
    cases hj'
    simp [hj.history]

/-- The base of the plan is written once. -/
theorem FromBase.mono {c c' : Coordinates} {call : Call} (h : FromBase c call)
    (hext : c.Extends c') : FromBase c' call := by
  obtain ⟨graphId, projectionId, hgraph, hprojection, hsent⟩ := h
  have hgraph' := hext .baseGraphId (by decide) graphId.json (by simp [Coordinates.value?, hgraph])
  have hprojection' := hext .baseRealizedProjectionId (by decide) projectionId.json
    (by simp [Coordinates.value?, hprojection])
  refine ⟨graphId, projectionId, ?_, ?_, hsent⟩
  · simpa [Coordinates.value?] using hgraph'
  · simpa [Coordinates.value?] using hprojection'

/-- The advancement a valid journal has pending expects the base of the plan. -/
theorem Matches.fromBase {j : Journal} {p : Pending} {call : Call} (hj : JournalInv ref j)
    (hp : j.pendingRequest = some p) (hroute : p.routeId = .advance)
    (hmatch : Matches rt docs p call) : FromBase j.coordinates call := by
  have hpending := hj.valid.pending p hp
  have hphase := hpending.phase
  rw [hroute] at hphase
  obtain hphase : j.phase = .executed := by simpa [pendingPhases] using hphase
  have hplan := hj.valid.plan (by rw [hphase]; rfl)
  have hbody : call.payload = p.body := by
    have := hmatch.carries
    unfold Carries at this
    rwa [if_neg (by rw [hroute]; exact CommandRoute.noConfusion)] at this
  have hmatches := (hpending.other (by rw [hroute]; exact CommandRoute.noConfusion)).2
  rw [hroute] at hmatches
  simp only [pendingMatches, Bool.and_eq_true] at hmatches
  obtain ⟨⟨⟨⟨⟨_, hgraph⟩, hprojection⟩, -⟩, -⟩, -⟩ := hmatches
  rw [Coordinates.pyEq_get rfl] at hgraph hprojection
  obtain ⟨g, hg⟩ := Option.isSome_iff_exists.mp (hplan .baseGraphId (by decide))
  obtain ⟨q, hq⟩ := Option.isSome_iff_exists.mp (hplan .baseRealizedProjectionId (by decide))
  obtain ⟨graphId, hgraphId, rfl⟩ := Option.map_eq_some_iff.mp hg
  obtain ⟨projectionId, hprojectionId, rfl⟩ := Option.map_eq_some_iff.mp hq
  refine ⟨graphId, projectionId, hgraphId, hprojectionId, ?_, ?_⟩
  · rw [hbody, hgraph, Coordinates.get, hg]
    rfl
  · rw [hbody, hprojection, Coordinates.get, hq]
    rfl

/-- A step of the journal keeps the invariant. -/
theorem WorldInv.write (hw : WorldInv rt docs ref w) {j j' : Journal} (hj : w.journal = some j)
    (hstep : JournalStep rt docs ref w.dispatched j j') : WorldInv rt docs ref (w.store j') := by
  have hinv := hw.journal j hj
  have hforward := hstep.advances hinv
  refine ⟨by simp [World.store], ?_, ?_, hw.sameKey, ?_, ?_⟩
  · intro k hk
    cases hk
    exact hstep.inv hinv
  · intro k hk call hcall
    cases hk
    have hold := hw.outstanding j hj call hcall
    cases hstep with
    | intend p hnone =>
      refine .inl (hold.resolve_right ?_)
      rintro ⟨q, hq, -⟩
      rw [hnone] at hq
      cases hq
    | record p call' response projection hp =>
      refine .inl ?_
      rw [recordedKeys_recorded]
      rcases hold with ⟨key, hkey, hcallKey⟩ | ⟨q, hq, hmatch⟩
      · exact ⟨key, List.mem_append_left _ hkey, hcallKey⟩
      · obtain rfl : p = q := Option.some.inj (hp.symm.trans hq)
        exact ⟨_, List.mem_append_right _ (List.mem_singleton_self _), hmatch.key⟩
    | settle => exact hold
  · intro k hk call hcall
    cases hk
    rw [hforward.target]
    exact hw.target j hj call hcall
  · intro k hk r hr
    cases hk
    have hold : ∀ r ∈ j.requestHistory, ∃ call ∈ w.dispatched,
        SentFor rt r call ∧ (r.routeId = .advance → FromBase j'.coordinates call) := by
      intro r hr
      obtain ⟨call, hcall, hsent, hbase⟩ := hw.sent j hj r hr
      exact ⟨call, hcall, hsent, fun h => (hbase h).mono hforward.coordinates⟩
    cases hstep with
    | intend => exact hold r hr
    | settle => exact hold r hr
    | record p call response projection hp hcall hmatch hbound hproj =>
      rcases List.mem_append.mp hr with hr | hr
      · exact hold r hr
      · obtain rfl := List.mem_singleton.mp hr
        refine ⟨call, hcall, ⟨hmatch.route, hmatch.key, hmatch.digest⟩, fun hroute => ?_⟩
        exact (hmatch.fromBase hinv hp hroute).mono hforward.coordinates

/-- Dispatching the pending request keeps the invariant. -/
theorem WorldInv.dispatch (hw : WorldInv rt docs ref w) {call : Call}
    (h : Dispatchable rt docs w call) : WorldInv rt docs ref (w.dispatch call) := by
  obtain ⟨j, p, hj, hp, hmatch, htarget⟩ := h
  have hinv := hw.journal j hj
  have hmem : ∀ c ∈ (w.dispatch call).dispatched, c ∈ w.dispatched ∨ c = call := by
    intro c hc
    simpa [World.dispatch] using hc
  have hnew : ∀ c ∈ (w.dispatch call).dispatched, c.key = call.key →
      Matches rt docs p c := by
    intro c hc hkey
    rcases hmem c hc with hc | rfl
    · rcases hw.outstanding j hj c hc with ⟨key, hrec, hckey⟩ | ⟨q, hq, hcmatch⟩
      · -- A recorded key is not the pending one.
        have hsame : key = p.idempotencyKey :=
          OperationRef.json_injective (hckey.symm.trans (hkey.trans hmatch.key))
        exact absurd (hsame ▸ hrec) (hinv.fresh p hp)
      · obtain rfl : p = q := Option.some.inj (hp.symm.trans hq)
        exact hcmatch
    · exact hmatch
  refine ⟨?_, hw.journal, ?_, ?_, ?_, ?_⟩
  · intro hnone
    cases hj.symm.trans hnone
  · intro k hk c hc
    obtain rfl : j = k := Option.some.inj (hj.symm.trans hk)
    rcases hmem c hc with hc | rfl
    · exact hw.outstanding j hj c hc
    · exact .inr ⟨p, hp, hmatch⟩
  · intro hinj c hc c' hc' hkey
    by_cases hcall : c.key = call.key
    · exact (hnew c hc hcall).sameRequest hinj (hnew c' hc' (hkey ▸ hcall))
    · have hold : ∀ c ∈ (w.dispatch call).dispatched, c.key ≠ call.key → c ∈ w.dispatched := by
        intro c hc hne
        exact (hmem c hc).resolve_right fun h => hne (h ▸ rfl)
      exact hw.sameKey hinj c (hold c hc hcall) c' (hold c' hc' (hkey ▸ hcall)) hkey
  · intro k hk c hc
    obtain rfl : j = k := Option.some.inj (hj.symm.trans hk)
    rcases hmem c hc with hc | rfl
    · exact hw.target j hj c hc
    · exact htarget
  · intro k hk r hr
    obtain ⟨c, hc, hsent⟩ := hw.sent k hk r hr
    exact ⟨c, List.mem_append_left _ hc, hsent⟩

/-- **Lawful operations keep the invariant.** -/
theorem Lawful.inv {e : Event Op Op.Answer} (h : Lawful rt docs ref w e w')
    (hw : WorldInv rt docs ref w) : WorldInv rt docs ref w' := by
  obtain ⟨op, answer⟩ := e
  cases op with
  | create r j =>
    simp only [Lawful] at h
    split at h
    · rcases h with rfl | ⟨hnone, hj, rfl⟩
      · exact hw
      · exact hw.create hnone hj
    · exact h ▸ hw
  | write r j =>
    simp only [Lawful] at h
    split at h
    · rcases h with rfl | ⟨j₀, hj₀, hstep, rfl⟩
      · exact hw
      · exact hw.write hj₀ hstep
    · exact h ▸ hw
  | call call =>
    simp only [Lawful] at h
    split at h
    · exact h.2 ▸ hw.dispatch h.1
    · exact h ▸ hw
  | _ => exact (show w' = w from h) ▸ hw

/-- What every later world of an operation keeps. -/
def World.Leads (w w' : World) : Prop :=
  (∀ j, w.journal = some j → ∃ j', w'.journal = some j' ∧ Forward j j') ∧
    w.dispatched <+: w'.dispatched

theorem World.Leads.refl (w : World) : w.Leads w :=
  ⟨fun j hj => ⟨j, hj, .refl j⟩, List.prefix_rfl⟩

theorem World.Leads.trans {w'' : World} (h : w.Leads w') (h' : w'.Leads w'') : w.Leads w'' := by
  refine ⟨fun j hj => ?_, h.2.trans h'.2⟩
  obtain ⟨j', hj', hforward⟩ := h.1 j hj
  obtain ⟨j'', hj'', hforward'⟩ := h'.1 j' hj'
  exact ⟨j'', hj'', hforward.trans hforward'⟩

/-- **Lawful operations move forward.** -/
theorem Lawful.leads {e : Event Op Op.Answer} (h : Lawful rt docs ref w e w')
    (hw : WorldInv rt docs ref w) : w.Leads w' := by
  obtain ⟨op, answer⟩ := e
  cases op with
  | create r j =>
    simp only [Lawful] at h
    split at h
    · rcases h with rfl | ⟨hnone, -, rfl⟩
      · exact .refl _
      · refine ⟨fun j hj => ?_, List.prefix_rfl⟩
        rw [hnone] at hj
        cases hj
    · exact h ▸ .refl _
  | write r j =>
    simp only [Lawful] at h
    split at h
    · rcases h with rfl | ⟨j₀, hj₀, hstep, rfl⟩
      · exact .refl _
      · refine ⟨fun k hk => ?_, List.prefix_rfl⟩
        obtain rfl : j₀ = k := Option.some.inj (hj₀.symm.trans hk)
        exact ⟨j, rfl, hstep.advances (hw.journal j₀ hj₀)⟩
    · exact h ▸ .refl _
  | call call =>
    simp only [Lawful] at h
    split at h
    · rw [h.2]
      exact ⟨fun j hj => ⟨j, hj, .refl j⟩, List.prefix_append _ _⟩
    · exact h ▸ .refl _
  | _ => exact (show w' = w from h) ▸ .refl _

end Client

end ControlPlaneKit
