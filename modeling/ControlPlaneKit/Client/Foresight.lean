import ControlPlaneKit.Interaction.Remainder
import ControlPlaneKit.Client.Discipline

/-!
# What is left of a block behind its commands

`Foretells F p R h w` looks ahead from a block: wherever it is about to dispatch a command, the
watch `F` relates the events so far, the world, the call and what is left of the block behind the
answer; where it goes on, its value satisfies `R`. What is left behind a command is a program of
the source again (`remainder`), so two invocations that dispatch the same request can be compared
by their text.
-/

namespace ControlPlaneKit

namespace Client

open Interaction

/-- What is watched at a command: the events before it, the world, the call, and what is left. -/
abbrev Watch (α : Type) :=
  Trace → World → Call → (CallAnswer → Block α) → Prop

/-- The watch on a first block that `f` continues. -/
def Watch.before {α β : Type} (F : Watch β) (f : α → Block β) : Watch α :=
  fun h w call next => F h w call fun a => next a >>= f

/-- The outlook that watches the commands only. -/
def Watch.outlook {α : Type} (F : Watch α) : Outlook Op Op.Answer World Exit α
  | h, w, .call call, next => call.route.isRead = false → F h w call next
  | _, _, _, _ => True

theorem Op.Neutral.watched {α : Type} {F : Watch α} {op : Op} (hop : op.Neutral) (h : Trace)
    (w : World) (next : op.Answer → Block α) : F.outlook h w op next := by
  cases op with
  | call call => exact fun hcommand => Bool.noConfusion (hcommand.symm.trans hop)
  | _ => trivial

theorem outlook_before {α β : Type} {F : Watch β} {f : α → Block β} {h : Trace} {w : World} {op : Op}
    {next : op.Answer → Block α} :
    (F.before f).outlook h w op next ↔ F.outlook.before f h w op next := by
  cases op <;> exact Iff.rfl

/-- Reads leave the world alone. -/
theorem exec_same {docs : Set (List UInt8)} {ref : OperationRef} {α : Type} {p : Block α} {w w' : World}
    {tr : Trace} {out : Option (Except Exit α)} (hrun : Exec (answers docs ref) w p tr w' out)
    (hp : p.Uses Op.Neutral) : w' = w := by
  refine hrun.keep (I := fun v => v = w) (fun v op a v' hop hsame hstep => ?_) hp rfl
  refine Eq.trans ?_ hsame
  cases op with
  | identity => exact hstep.2
  | read r => exact hstep.1
  | openDesired path => exact hstep.1
  | call call =>
    have hread : call.route.isRead = true := hop
    simpa [answers, hread] using hstep
  | _ => cases hop

section Foretells

variable (docs : Set (List UInt8)) (ref : OperationRef)

/-- The block foretells what its commands lead to. -/
def Foretells {α : Type} (F : Watch α) (p : Block α) (R : Trace → World → α → Prop) (h : Trace)
    (w : World) : Prop :=
  Foresees (answers docs ref) F.outlook p (fun h w r => match r with
    | .ok a => R h w a
    | .error _ => True) h w

variable {docs ref} {rt : Runtime} {profile : ClientProfile} {α β : Type} {F : Watch α} {h : Trace}
  {w : World} {j : Journal}

theorem Foretells.pure {R : Trace → World → α → Prop} {a : α} (ha : R h w a) :
    Foretells docs ref F (Pure.pure a) R h w :=
  ha

theorem Foretells.raise {R : Trace → World → α → Prop} {e : ClientError} :
    Foretells docs ref F (Client.raise e) R h w :=
  trivial

theorem Foretells.returnNow {R : Trace → World → α → Prop} {result : ClientResult} :
    Foretells docs ref F (Client.returnNow result) R h w :=
  trivial

theorem Foretells.lift {R : Trace → World → α → Prop} {x : Except ClientError α}
    (hx : ∀ a, x = .ok a → R h w a) : Foretells docs ref F (Client.lift x) R h w := by
  cases x with
  | ok a => exact hx a rfl
  | error e => trivial

/-- The rule for sequencing. -/
theorem Foretells.bind {F : Watch β} {p : Block α} {f : α → Block β} {R : Trace → World → β → Prop}
    (hp : Foretells docs ref (F.before f) p (fun h w a => Foretells docs ref F (f a) R h w) h w) :
    Foretells docs ref F (p >>= f) R h w := by
  refine foresees_bind ((Foresees.outlook hp fun h w op next hwatched =>
    outlook_before.mp hwatched).post fun h w r hr => ?_)
  cases r with
  | ok a => exact hr
  | error e => trivial

/-- The rule for one operation that is no command. -/
theorem Foretells.perform {op : Op} {next : op.Answer → Block α} {R : Trace → World → α → Prop}
    (hop : F.outlook h w op next)
    (hnext : ∀ a w', answers docs ref w op a w' →
      Foretells docs ref F (next a) R (h ++ [⟨op, a⟩]) w') :
    Foretells docs ref F (.perform op next) R h w :=
  ⟨hop, hnext⟩

/-- The rule for blocks that only read. -/
theorem Foretells.reads {p : Block α} {R : Trace → World → α → Prop} (hp : p.Uses Op.Neutral)
    (hok : ∀ tr a, p.Runs tr (.ok a) → commands tr = 0 → R (h ++ tr) w a) :
    Foretells docs ref F p R h w := by
  refine Foresees.of_exec (fun h w op next hop => hop.watched h w next) hp fun tr w' r hrun => ?_
  cases r with
  | error e => trivial
  | ok a =>
    have hsame := exec_same hrun hp
    subst hsame
    exact hok tr a hrun.runs (commands_of_neutral hp hrun.runs)

/-- The rule for a guarded block of reads that does not return early. -/
theorem Foretells.exceptUnresolved {block handler : Block α} {R : Trace → World → α → Prop}
    (hblock : Reads block) (hok : ∀ tr a, block.Runs tr (.ok a) → commands tr = 0 → R (h ++ tr) w a)
    (hhandler : ∀ h w, Foretells docs ref F handler R h w) :
    Foretells docs ref F (Client.exceptUnresolved block handler) R h w := by
  unfold Client.exceptUnresolved
  refine foresees_handle (Foresees.of_exec (fun h w op next hop => hop.watched h w _) hblock.neutral
    fun tr w' r hrun => ?_)
  have hsame := exec_same hrun hblock.neutral
  subst hsame
  rcases r with (e | result) | a
  · change Foretells docs ref F (if e.isUnresolved then handler else Client.raise e) R _ _
    split
    · exact hhandler _ _
    · trivial
  · exact absurd hrun.runs (hblock.stays tr result)
  · exact hok tr a hrun.runs (commands_of_neutral hblock.neutral hrun.runs)

/-- The rule for a journal write. -/
theorem Foretells.writeJournal {F : Watch Unit} {R : Trace → World → Unit → Prop}
    (hok : validateJournal j ref = .ok () → R (h ++ [wrote ref j]) (w.store j) ()) :
    Foretells docs ref F (Client.writeJournal rt ref j) R h w := by
  unfold Client.writeJournal
  refine .bind (.lift fun raw hraw => .perform trivial fun a w' hanswer => ?_)
  cases a with
  | failed message published => exact .raise
  | stored =>
    obtain ⟨-, rfl⟩ : w.journal.isSome ∧ w' = w.store j := by
      simpa [answers, StoreAnswer.published] using hanswer
    exact .pure (hok (encodeJournal_valid hraw))

/-- An attention result ends the invocation. -/
theorem Foretells.stop {R : Trace → World → α → Prop} {execution : Execution}
    {advancement : Advancement} {next : ReadRoute} :
    Foretells docs ref F (Client.stop rt profile j execution advancement next) R h w := by
  unfold Client.stop attention Client.writeJournal
  rw [if_pos rfl]
  refine .bind (.bind (.bind (.lift fun raw _ => .perform trivial fun a w' _ => ?_)))
  cases a with
  | failed message published => exact .raise
  | stored => exact .pure (.pure .returnNow)

theorem Foretells.newKey {F : Watch OperationRef} {R : Trace → World → OperationRef → Prop}
    (hok : ∀ value key, R (h ++ [⟨.identity, value⟩]) w key) :
    Foretells docs ref F Client.newKey R h w := by
  refine .perform trivial fun value w' hanswer => .lift fun key _ => ?_
  obtain ⟨-, rfl⟩ := hanswer
  exact hok value key

/-! ### Commands -/

/-- What is left of `_dispatch_pending` behind a response. -/
def settle (rt : Runtime) (profile : ClientProfile) (j : Journal) (p : Pending) (body : Fields)
    (response : Fields) : Block (Fields × Journal) := do
  let bound ← lift (responseIsBound p.routeId response p.pathParameters body j.coordinates
    profile.workspaceId)
  if bound then
    let projection ← lift (responseCoordinates p.routeId response)
    if maximumRequestRecords ≤ j.requestHistory.length then
      stopUnpersisted rt profile j .notStarted .notAttempted (nextRead j)
    else
      Client.writeJournal rt j.operationRef (recorded j p response projection)
      return (response, recorded j p response projection)
  else stopUnresolved rt profile j p.routeId

/-- What is left of `_dispatch_pending` behind its command. -/
def remainder (rt : Runtime) (profile : ClientProfile) (j : Journal) (p : Pending) (body : Fields) :
    CallAnswer → Block (Fields × Journal)
  | .reply response => settle rt profile j p body response
  | .unresolved _ => stopUnresolved rt profile j p.routeId
  | .refused => Client.raise .authorization
  | .unconfigured message => Client.raise (.configuration message)

theorem dispatchPending_eq {p : Pending} (hp : j.pendingRequest = some p) (body : Fields) :
    dispatchPending rt profile j body =
      .perform (.call (pendingCall profile j p body)) (remainder rt profile j p body) := by
  unfold dispatchPending
  rw [hp]
  refine congrArg (Program.perform _) (funext fun a => ?_)
  cases a <;> rfl

/-- The response is accepted and can be recorded. -/
structure Accepted (ref : OperationRef) (profile : ClientProfile) (j : Journal) (p : Pending)
    (body response : Fields) (projection : Projection) : Prop where
  bound : responseIsBound p.routeId response p.pathParameters body j.coordinates
    profile.workspaceId = .ok true
  projected : responseCoordinates p.routeId response = .ok projection
  room : j.requestHistory.length < maximumRequestRecords
  valid : (recorded j p response projection).Valid ref

/-- A response that is settled has been accepted. -/
theorem settle_accepted {p : Pending} {body response : Fields} {tr : Trace}
    {answered : Fields × Journal}
    (hrun : (settle rt profile j p body response).Runs tr (.ok answered)) : ∃ projection,
      Accepted j.operationRef profile j p body response projection ∧
        answered = (response, recorded j p response projection) := by
  obtain ⟨bound, tr₁, tr₂, rfl, h₁, hbranch⟩ := hrun.bind_ok
  obtain ⟨rfl, hbound⟩ := runs_lift_ok.mp h₁
  cases bound with
  | false =>
    rw [if_neg Bool.false_ne_true] at hbranch
    cases hbranch
  | true =>
    rw [if_pos rfl] at hbranch
    obtain ⟨projection, tr₃, tr₄, rfl, h₂, hrecord⟩ := hbranch.bind_ok
    obtain ⟨rfl, hproj⟩ := runs_lift_ok.mp h₂
    by_cases hroom : maximumRequestRecords ≤ j.requestHistory.length
    · rw [if_pos hroom] at hrecord
      cases hrecord
    · rw [if_neg hroom] at hrecord
      obtain ⟨u, tr₅, tr₆, rfl, hwrite, hreturn⟩ := hrecord.bind_ok
      obtain ⟨rfl, rfl⟩ := runs_pure_ok.mp hreturn
      obtain ⟨raw, tr₇, tr₈, rfl, h₃, -⟩ := hwrite.bind_ok
      obtain ⟨rfl, hraw⟩ := runs_lift_ok.mp h₃
      exact ⟨projection, ⟨hbound, hproj, Nat.lt_of_not_le hroom,
        validateJournal_eq_ok.mp (encodeJournal_valid hraw)⟩, rfl⟩

/-- The rule for the dispatch of the pending request. -/
theorem Foretells.dispatchPending {F : Watch (Fields × Journal)}
    {R : Trace → World → Fields × Journal → Prop}
    {p : Pending} {body : Fields} (href : j.operationRef = ref) (hp : j.pendingRequest = some p)
    (hF : F h w (pendingCall profile j p body) (remainder rt profile j p body))
    (hok : ∀ response projection tr w', Accepted ref profile j p body response projection →
      w'.journal = some (recorded j p response projection) → 0 < commands tr →
      R (h ++ tr) w' (response, recorded j p response projection)) :
    Foretells docs ref F (Client.dispatchPending rt profile j body) R h w := by
  subst href
  rw [dispatchPending_eq hp]
  refine ⟨fun _ => hF, fun a w' hanswer => ?_⟩
  obtain rfl : w' = w.dispatch (pendingCall profile j p body) := by
    simpa [answers, Route.isRead, pendingCall] using hanswer
  have hcount : ∀ tr : Trace, 0 < commands (⟨.call (pendingCall profile j p body), a⟩ :: tr) := by
    intro tr
    have hroute : (pendingCall profile j p body).route = .command p.routeId := rfl
    rw [← List.singleton_append, commands_append, commands_call hroute]
    omega
  change Foretells docs j.operationRef F _ R _ _
  cases a with
  | unresolved message => exact .bind (.pure .returnNow)
  | refused => exact .raise
  | unconfigured message => exact .raise
  | reply response =>
    refine .bind (.lift fun bound hbound => ?_)
    cases bound with
    | false => exact .bind (.pure .returnNow)
    | true =>
      rw [if_pos rfl]
      refine .bind (.lift fun projection hproj => ?_)
      split
      · exact .bind (.pure .returnNow)
      · rename_i hroom
        refine .bind (.writeJournal fun hvalid => .pure ?_)
        rw [List.append_assoc]
        exact hok response projection _ _ ⟨hbound, hproj, Nat.lt_of_not_le hroom,
          validateJournal_eq_ok.mp hvalid⟩ rfl (hcount _)

/-- The rule for a new command. -/
theorem Foretells.mutate {F : Watch (Fields × Journal)} {R : Trace → World → Fields × Journal → Prop}
    {route : CommandRoute} {path : PathParameters} {body : Fields} {key : OperationRef} {role : Role}
    {source : Option DesiredSource} (href : j.operationRef = ref)
    (hF : ∀ digest, F
      (h ++ [wrote ref { j with pendingRequest := some (intended route path body key role digest source) }])
      (w.store { j with pendingRequest := some (intended route path body key role digest source) })
      (commandCall profile j route path body role)
      (remainder rt profile
        { j with pendingRequest := some (intended route path body key role digest source) }
        (intended route path body key role digest source) body))
    (hok : ∀ digest response projection tr w',
      Accepted ref profile j (intended route path body key role digest source) body response projection →
      w'.journal = some (recorded j (intended route path body key role digest source) response
        projection) → 0 < commands tr →
      R (h ++ tr) w' (response, recorded j (intended route path body key role digest source) response
        projection)) :
    Foretells docs ref F (Client.mutate rt profile j route path body key role source) R h w := by
  subst href
  unfold Client.mutate
  split
  · exact .stop
  refine .bind (.lift fun digest _ => ?_)
  split
  · exact .raise
  refine .bind (.writeJournal fun _ => ?_)
  have hpending : Journal.pendingRequest { j with
      pendingRequest := some (intended route path body key role digest source) } =
        some (intended route path body key role digest source) := rfl
  refine .dispatchPending rfl hpending (hF digest) fun response projection tr w' ha hw' hsent => ?_
  have hcount : 0 < commands ([wrote j.operationRef { j with
      pendingRequest := some (intended route path body key role digest source) }] ++ tr) := by
    rw [commands_append]
    omega
  rw [List.append_assoc]
  exact hok digest response projection _ w' ⟨ha.bound, ha.projected, ha.room, ha.valid⟩ hw' hcount

end Foretells

end Client

end ControlPlaneKit
