import ControlPlaneKit.Client.Abides

/-!
# The rules for journal writes and commands

One rule for each method of the client that writes the journal or dispatches a command:
`writeJournal`, `stop`, `dispatchPending`, `mutate` and `replayPending`. Each is stated for an
in-memory journal that is the durable one (or, for the results that end an invocation, one that
is ahead of it by a settling step), and names what the rest of the invocation may assume.
-/

namespace ControlPlaneKit

namespace Client

open Interaction

/-! ### Results -/

/-- The result of `_attention`. -/
def attentionResult (profile : ClientProfile) (j : Journal) (execution : Execution)
    (advancement : Advancement) (next : ReadRoute) : ClientResult :=
  projectJournal profile j true (some execution) (some advancement) (some next) [] none

/-- The execution value reported for a command whose outcome is not known. -/
def unresolvedExecution (route : CommandRoute) : Execution :=
  if route = .start ∨ route = .execute then .unverified else .notStarted

/-- The advancement value reported for a command whose outcome is not known. -/
def unresolvedAdvancement (route : CommandRoute) : Advancement :=
  if route = .advance then .unverified else .notAttempted

/-- The result for a command whose outcome is not known. -/
def unresolvedResult (profile : ClientProfile) (j : Journal) (route : CommandRoute) :
    ClientResult :=
  attentionResult profile j (unresolvedExecution route) (unresolvedAdvancement route) (nextRead j)

/-- A journal in memory that is ahead of the durable one by a settling step. -/
structure Ahead (j₀ j : Journal) : Prop where
  operationRef : j.operationRef = j₀.operationRef
  target : j.target = j₀.target
  desired : j.desired = j₀.desired
  pending : j.pendingRequest = j₀.pendingRequest
  history : j.requestHistory = j₀.requestHistory
  extends_ : j₀.coordinates.Extends j.coordinates
  other : ∀ n ∉ planCoordinates, j.coordinates.value? n = j₀.coordinates.value? n
  planned : j.coordinates = j₀.coordinates ∨ j.coordinates.Planned
  phase : Settles j₀.phase j.phase

theorem Ahead.refl (j : Journal) : Ahead j j :=
  ⟨rfl, rfl, rfl, rfl, rfl, .refl _, fun _ _ => rfl, .inl rfl, .same _⟩

/-- What is ahead can be written, with any result. -/
theorem Ahead.step {rt : Runtime} {docs : Set (List UInt8)} {ref : OperationRef}
    {sent : List Call} {j₀ j : Journal} (h : Ahead j₀ j) (result : Option ClientResult)
    (hvalid : validateJournal { j with lastResult := result } ref = .ok ()) :
    JournalStep rt docs ref sent j₀ { j with lastResult := result } := by
  obtain ⟨operationRef, target, desired, phase, pending, coordinates, history, last⟩ := j
  obtain ⟨rfl, rfl, rfl, rfl, rfl, hext, hother, hplanned, hphase⟩ := h
  exact .settle j₀ coordinates phase result hext hother hplanned hphase hvalid

section Rules

variable {rt : Runtime} {docs : Set (List UInt8)} {ref : OperationRef} {T : Terms} {α : Type}
  {E : Trace → World → ClientResult → Prop} {h : Trace} {w : World}

/-- The journal that an invocation holds in memory is durable, and of its profile's target. -/
structure Holds (rt : Runtime) (profile : ClientProfile) (w : World) (j : Journal) : Prop where
  durable : w.journal = some j
  target : profile.target rt = j.target

theorem Holds.dispatch {profile : ClientProfile} {j : Journal} (hj : Holds rt profile w j)
    (call : Call) : Holds rt profile (w.dispatch call) j :=
  ⟨hj.durable, hj.target⟩

/-- A journal write that succeeded. -/
def wrote (ref : OperationRef) (j : Journal) : Event Op Op.Answer :=
  ⟨.write ref j, .stored⟩

/-- The rule for a journal write. -/
theorem Abides.write {R : Trace → World → Unit → Prop} {j : Journal}
    (hstep : WorldInv rt docs ref w → validateJournal j ref = .ok () →
      ∃ j₀, w.journal = some j₀ ∧ JournalStep rt docs ref w.dispatched j₀ j)
    (hallows : ∀ a, T.allows h ⟨.write ref j, a⟩)
    (hok : R (h ++ [wrote ref j]) (w.store j) ()) :
    Abides rt docs ref T E (writeJournal rt ref j) R h w := by
  unfold writeJournal
  refine .bind (.lift fun raw hraw => ?_)
  have hvalid := encodeJournal_valid hraw
  refine .perform (fun hw a w' hanswer => ⟨?_, rfl, hallows a⟩) fun a w' hanswer => ?_
  · simp only [answers, true_and] at hanswer
    simp only [Lawful, if_true]
    split at hanswer
    · obtain ⟨j₀, hj₀, hs⟩ := hstep hw hvalid
      exact .inr ⟨j₀, hj₀, hs, hanswer.2⟩
    · exact .inl hanswer
  · cases a with
    | stored =>
      have hsame : w' = w.store j := by
        simp only [answers, StoreAnswer.published, and_self, if_true] at hanswer
        exact hanswer.2
      exact .pure (hsame ▸ hok)
    | failed message published => exact .raise

/-- The rule for a result that ends the invocation and is kept in the journal. -/
theorem Abides.stop {profile : ClientProfile} {R : Trace → World → α → Prop} {j₀ j : Journal}
    {execution : Execution} {advancement : Advancement} {next : ReadRoute}
    (hj : w.journal = some j₀) (hahead : Ahead j₀ j)
    (hallows : ∀ j' a, j'.pendingRequest = j.pendingRequest → T.allows h ⟨.write ref j', a⟩)
    (hE : ∀ e w' result, w'.journal = some { j with lastResult := result } →
      E (h ++ [e]) w' (attentionResult profile j execution advancement next)) :
    Abides rt docs ref T E (Client.stop rt profile j execution advancement next) R h w := by
  refine .of_inv fun hw => ?_
  have href : j.operationRef = ref :=
    hahead.operationRef.trans (hw.journal j₀ hj).valid.identity
  subst href
  unfold Client.stop attention
  rw [if_pos rfl]
  refine .bind (.bind (.write (fun _ hvalid => ⟨j₀, hj, hahead.step _ hvalid⟩)
    (fun a => hallows _ a rfl) ?_))
  exact .pure (.returnNow (hE _ _ _ rfl))

/-- The call `_dispatch_pending` makes. -/
def pendingCall (profile : ClientProfile) (j : Journal) (p : Pending) (body : Fields) : Call :=
  ⟨j.operationRef, profile.endpoint, .command p.routeId, p.pathParameters, body, p.credentialRole⟩

/-- The answers after which the outcome of a command is not known. -/
def Unresolved (profile : ClientProfile) (j : Journal) (p : Pending) (body : Fields)
    (answer : CallAnswer) : Prop :=
  (∃ message, answer = .unresolved message) ∨ ∃ response, answer = .reply response ∧
    responseIsBound p.routeId response p.pathParameters body j.coordinates profile.workspaceId =
      .ok false

/-- The payload of a pending request carries its key. -/
theorem Carries.key {p : Pending} {payload : Fields} (hcarries : Carries rt docs p payload)
    {phase : Phase} {target : Target} {desired : DesiredSource} {coordinates : Coordinates}
    (hp : p.Valid phase target desired coordinates) :
    payload.get "idempotency_key" = p.idempotencyKey.json := by
  unfold Carries at hcarries
  split at hcarries
  · obtain ⟨source, raw, desired, -, -, -, -, hsame⟩ := hcarries
    rw [hsame.get, ← hp.key]
    have hne : Text.utf8 "idempotency_key" ≠ .utf8 "desired_graph" := by decide
    have hbeq : (Text.utf8 "idempotency_key" == Text.utf8 "desired_graph") = false := by
      rw [beq_eq_false_iff_ne]
      exact hne
    simp only [Fields.get, Fields.set, List.lookup_append, Fields.lookup_pop_of_ne _ hne,
      List.lookup_cons, hbeq, List.lookup_nil, Option.or_none]
  · rw [hcarries, hp.key]

/-- The call of a pending request may be dispatched. -/
theorem Holds.dispatchable {profile : ClientProfile} {j : Journal} (hj : Holds rt profile w j)
    (hw : WorldInv rt docs ref w) {p : Pending} (hp : j.pendingRequest = some p) {body : Fields}
    (hdigest : canonicalDigest rt body = .ok p.bodySha256) (hcarries : Carries rt docs p body) :
    Dispatchable rt docs w (pendingCall profile j p body) ∧
      Matches rt docs p (pendingCall profile j p body) := by
  have hpending := (hw.journal j hj.durable).valid.pending p hp
  have hmatch : Matches rt docs p (pendingCall profile j p body) :=
    ⟨rfl, rfl, rfl, hcarries.key hpending, hdigest, hcarries⟩
  exact ⟨⟨j, p, hj.durable, hp, hmatch, congrArg Target.endpointSha256 hj.target,
    hpending.workspace⟩, hmatch⟩

/-- The rule for dispatching the pending request. -/
theorem Abides.dispatchPending {profile : ClientProfile} {R : Trace → World → Fields × Journal → Prop}
    {j : Journal} {p : Pending} {body : Fields} (hj : Holds rt profile w j)
    (hp : j.pendingRequest = some p) (hdigest : canonicalDigest rt body = .ok p.bodySha256)
    (hcarries : Carries rt docs p body)
    (hallows : ∀ a, T.allows h ⟨.call (pendingCall profile j p body), a⟩)
    (hlost : ∀ a w', Unresolved profile j p body a → w'.journal = some j →
      E (h ++ [⟨.call (pendingCall profile j p body), a⟩]) w'
        (unresolvedResult profile j p.routeId))
    (hok : ∀ response projection w', responseIsBound p.routeId response p.pathParameters body
        j.coordinates profile.workspaceId = .ok true →
      responseCoordinates p.routeId response = .ok projection →
      Holds rt profile w' (recorded j p response projection) →
      R (h ++ [⟨.call (pendingCall profile j p body), .reply response⟩] ++
          [wrote ref (recorded j p response projection)]) w'
        (response, recorded j p response projection)) :
    Abides rt docs ref T E (Client.dispatchPending rt profile j body) R h w := by
  refine .of_inv fun hw => ?_
  obtain ⟨hdispatch, hmatch⟩ := hj.dispatchable hw hp hdigest hcarries
  have hinv := hw.journal j hj.durable
  have hworkspace : profile.workspaceId = j.target.workspaceId :=
    congrArg Target.workspaceId hj.target
  have hroom := hinv.room (by rw [hp]; rfl)
  obtain rfl : j.operationRef = ref := hinv.valid.identity
  have hlost' : ∀ a, Unresolved profile j p body a → ∀ {γ : Type} {R' : Trace → World → γ → Prop},
      Abides rt docs j.operationRef T E (stopUnresolved rt profile j p.routeId) R'
        (h ++ [⟨.call (pendingCall profile j p body), a⟩])
          (w.dispatch (pendingCall profile j p body)) :=
    fun a ha _ _ => .bind (.pure (.returnNow (hlost a _ ha hj.durable)))
  unfold Client.dispatchPending exceptTransport callTransport
  rw [hp]
  simp only [Program.handle_perform, Program.perform_bind]
  refine .perform (fun _ a w' hanswer => ?_) fun a w' hanswer => ?_
  · refine ⟨?_, .inr rfl, hallows a⟩
    simp only [answers, Route.isRead, Bool.not_false, and_self, if_true] at hanswer
    simp only [Lawful, Route.isRead, Bool.not_false, and_self, if_true]
    exact ⟨hdispatch, hanswer⟩
  obtain rfl : w' = w.dispatch (pendingCall profile j p body) := by
    simpa [answers, Route.isRead, pendingCall] using hanswer
  cases a with
  | unresolved message => exact .bind (hlost' _ (.inl ⟨message, rfl⟩))
  | refused => exact .bind .raise
  | unconfigured message => exact .bind .raise
  | reply response =>
    refine .bind (.pure (.bind (.lift fun bound hbound => ?_)))
    cases bound with
    | false => exact hlost' _ (.inr ⟨response, rfl, hbound⟩)
    | true =>
      simp only [if_true]
      refine .bind (.lift fun projection hproj => ?_)
      rw [if_neg (by omega)]
      refine .bind (.write (fun _ hvalid => ⟨j, hj.durable, ?_⟩) (fun a => T.free _ _ ?_) ?_)
      · exact .record j p _ response projection hp (by simp [World.dispatch]) hmatch
          (hworkspace ▸ hbound) hproj hvalid
      · rintro ⟨q, hq, -⟩
        cases hq
      · exact .pure (hok response projection _ hbound hproj ⟨rfl, hj.target⟩)

/-- The pending request of a command. -/
def intended (route : CommandRoute) (path : PathParameters) (body : Fields) (key : OperationRef)
    (role : Role) (digest : Digest) (source : Option DesiredSource) : Pending :=
  ⟨route, path, role, key, if route = .prepare then body.pop "desired_graph" else body, digest,
    source⟩

/-- The call of a new command. -/
def commandCall (profile : ClientProfile) (j : Journal) (route : CommandRoute)
    (path : PathParameters) (body : Fields) (role : Role) : Call :=
  ⟨j.operationRef, profile.endpoint, .command route, path, body, role⟩

/-- The rule for a new command. -/
theorem Abides.mutate {profile : ClientProfile} {R : Trace → World → Fields × Journal → Prop}
    {j : Journal} {route : CommandRoute} {path : PathParameters} {body : Fields}
    {key : OperationRef} {role : Role} {source : Option DesiredSource}
    (hj : Holds rt profile w j) (hnone : j.pendingRequest = none) (hkey : key ∉ j.recordedKeys)
    (happroval : route = .admission → j.coordinates.approvalRequestId.isSome)
    (hplanned : route = .decide ∨ route = .admission → j.coordinates.Planned)
    (hcarries : ∀ digest, Carries rt docs (intended route path body key role digest source) body)
    (hpermits : T.Permits route h)
    (hbudget : maximumRequestRecords ≤ j.requestHistory.length → ∀ e w' result,
      w'.journal = some { j with lastResult := result } →
      E (h ++ [e]) w' (attentionResult profile j .notStarted .notAttempted (nextRead j)))
    (hlost : ∀ digest e a w',
      Unresolved profile j (intended route path body key role digest source) body a →
      w'.journal =
        some { j with pendingRequest := some (intended route path body key role digest source) } →
      E (h ++ [e] ++ [⟨.call (commandCall profile j route path body role), a⟩]) w'
        (unresolvedResult profile j route))
    (hok : ∀ digest response projection w',
      responseIsBound route response path body j.coordinates profile.workspaceId = .ok true →
      responseCoordinates route response = .ok projection →
      Holds rt profile w'
        (recorded j (intended route path body key role digest source) response projection) →
      R (h ++ [wrote ref
            { j with pendingRequest := some (intended route path body key role digest source) }] ++
          [⟨.call (commandCall profile j route path body role), .reply response⟩] ++
          [wrote ref
            (recorded j (intended route path body key role digest source) response projection)])
        w' (response,
          recorded j (intended route path body key role digest source) response projection)) :
    Abides rt docs ref T E (Client.mutate rt profile j route path body key role source) R h w := by
  refine .of_inv fun hw => ?_
  obtain rfl : j.operationRef = ref := (hw.journal j hj.durable).valid.identity
  unfold Client.mutate
  split
  · -- The budget is exhausted; the pending request is still absent, so nothing is restricted.
    rename_i hfull
    refine .stop hj.durable (.refl j) (fun j' a hsame => T.free _ _ ?_) (hbudget hfull)
    rintro ⟨p, hp, -⟩
    rw [hsame, hnone] at hp
    cases hp
  · rename_i hroom
    refine .bind (.lift fun digest hdigest => ?_)
    split
    · exact .raise
    · refine .bind (.write (fun _ hvalid => ⟨j, hj.durable, ?_⟩) (fun a => ?_) ?_)
      · exact .intend j (intended route path body key role digest source) hnone
          (Nat.lt_of_not_le hroom) hkey happroval hplanned hvalid
      · exact hpermits h List.prefix_rfl _ ⟨_, rfl, rfl⟩
      · have hpending : Journal.pendingRequest { j with
            pendingRequest := some (intended route path body key role digest source) } =
              some (intended route path body key role digest source) := rfl
        refine .dispatchPending ⟨rfl, hj.target⟩ hpending hdigest (hcarries digest) (fun a => ?_)
          ?_ ?_
        · exact hpermits _ (List.prefix_append _ _) _ rfl
        · exact fun a w' ha hw' => hlost digest _ a w' ha hw'
        · exact fun response projection w' hbound hproj hholds =>
            hok digest response projection w' hbound hproj hholds

/-- The rule for replaying the pending request. -/
theorem Abides.replayPending {profile : ClientProfile} {R : Trace → World → Fields × Journal → Prop}
    {j : Journal} {p : Pending} (hj : Holds rt profile w j) (hp : j.pendingRequest = some p)
    (hallowsWrite : ∀ h' j' a, h <+: h' → j'.pendingRequest = some p →
      T.allows h' ⟨.write ref j', a⟩)
    (hallows : ∀ h' body a, h <+: h' → Matches rt docs p (pendingCall profile j p body) →
      T.allows h' ⟨.call (pendingCall profile j p body), a⟩)
    (hchanged : ∀ h' w' next, E h' w' (attentionResult profile j .unverified .notAttempted next))
    (hlost : ∀ h' body a w', h <+: h' → Unresolved profile j p body a → w'.journal = some j →
      E (h' ++ [⟨.call (pendingCall profile j p body), a⟩]) w'
        (unresolvedResult profile j p.routeId))
    (hok : ∀ h' body response projection w', h <+: h' → (p.routeId ≠ .prepare → h' = h) →
      Matches rt docs p (pendingCall profile j p body) →
      responseIsBound p.routeId response p.pathParameters body j.coordinates profile.workspaceId =
        .ok true →
      responseCoordinates p.routeId response = .ok projection →
      Holds rt profile w' (recorded j p response projection) →
      R (h' ++ [⟨.call (pendingCall profile j p body), .reply response⟩] ++
          [wrote ref (recorded j p response projection)]) w'
        (response, recorded j p response projection)) :
    Abides rt docs ref T E (Client.replayPending rt profile j) R h w := by
  refine .of_inv fun hw => ?_
  have hpending := (hw.journal j hj.durable).valid.pending p hp
  have hstop : ∀ {γ : Type} (h' : Trace) (R' : Trace → World → γ → Prop) next, h <+: h' →
      Abides rt docs ref T E
        (Client.stop rt profile j .unverified .notAttempted next) R' h' w := fun h' R' next hh =>
    .stop hj.durable (.refl j) (fun j' a hsame => hallowsWrite h' j' a hh (hsame.trans hp))
      fun e w' _ _ => hchanged _ _ _
  unfold Client.replayPending
  rw [hp]
  simp only
  -- Whatever body is rebuilt carries the request, and the digest is compared next.
  have hdispatch : ∀ h' body, h <+: h' → (p.routeId ≠ .prepare → h' = h) →
      Carries rt docs p body → Abides rt docs ref T E
      (do
        let digest ← Client.lift (canonicalDigest rt body)
        if digest ≠ p.bodySha256 then
          Client.stop rt profile j .unverified .notAttempted (nextRead j)
        else Client.dispatchPending rt profile j body) R h' w := by
    intro h' body hh hsame hcarries
    refine .bind (.lift fun digest hdigest => ?_)
    split
    · exact hstop h' _ _ hh
    · rename_i hdigests
      obtain rfl : digest = p.bodySha256 := not_not.mp hdigests
      obtain ⟨-, hmatch⟩ := hj.dispatchable hw hp hdigest hcarries
      exact .dispatchPending hj hp hdigest hcarries (fun a => hallows h' body a hh hmatch)
        (fun a w' ha hw' => hlost h' body a w' hh ha hw')
        (fun response projection w' hbound hproj hholds =>
          hok h' body response projection w' hh hsame hmatch hbound hproj hholds)
  refine .bind ?_
  unfold replayBody
  by_cases hroute : p.routeId = .prepare
  · rw [if_pos hroute]
    obtain ⟨hsource, -⟩ := hpending.prepare hroute
    rw [hsource]
    refine .bind (.lift fun path hpath => .bind (.readDesired fun absolute raw desired hraw hload => ?_))
    simp only
    split
    · exact hstop _ _ _ (List.prefix_append _ _)
    · rename_i hsame
      have hsame := not_not.mp hsame
      refine .pure (hdispatch _ _ (List.prefix_append _ _) (fun hne => absurd hroute hne) ?_)
      unfold Carries
      rw [if_pos hroute]
      exact ⟨_, raw, desired, hsource, hraw, congrArg DesiredSource.sha256 hsame, hload,
        Fields.Same.refl _⟩
  · rw [if_neg hroute]
    refine .pure (hdispatch _ _ List.prefix_rfl (fun _ => rfl) ?_)
    unfold Carries
    rw [if_neg hroute]

end Rules

end Client

end ControlPlaneKit
