import ControlPlaneKit.Client.Lawful

/-!
# Blocks that abide by the protocol

`Abides` is the weakest precondition of a block of the client that runs under the operation lock:
from a world that satisfies its invariant on, every operation is lawful, is one the lock covers,
and is allowed by the terms of the invocation; where the block goes on, its value satisfies the
postcondition, and where it ends the invocation with a result, that result satisfies the exit
condition. An invocation that raises, or dies, owes nothing further.

The rules follow the blocks of the client: reads leave the world alone, a journal write is one
step of the journal, a command is dispatched only while its request is pending in the durable
journal.
-/

namespace ControlPlaneKit

namespace Client

open Interaction

/-- The events of an invocation, oldest first. -/
abbrev Trace := List (Event Op Op.Answer)

/-! ### Operations under the lock -/

/-- The operations that leave every world alone. -/
def Op.Neutral : Op → Prop
  | .identity => True
  | .read _ => True
  | .openDesired _ => True
  | .call request => request.route.isRead = true
  | _ => False

/-- The operations the lock of `ref` covers. -/
def owned (ref : OperationRef) : Op → Prop
  | .lock _ => False
  | .create r _ => r = ref
  | .write r _ => r = ref
  | .call call => call.route.isRead = true ∨ call.operationRef = ref
  | _ => True

theorem Op.Neutral.owned {op : Op} (h : op.Neutral) (ref : OperationRef) : owned ref op := by
  cases op with
  | lock => cases h
  | create => cases h
  | write => cases h
  | call call => exact .inl h
  | _ => trivial

theorem Op.Neutral.grants {op : Op} (h : op.Neutral) (a : op.Answer) :
    Client.grants op a = none := by
  cases op with
  | lock => cases h
  | _ => rfl

/-- A neutral operation leaves the world alone, lawfully. -/
theorem Op.Neutral.lawful {rt : Runtime} {docs : Set (List UInt8)} {ref : OperationRef} {op : Op}
    (h : op.Neutral) {a : op.Answer} {w w' : World} (hstep : answers docs ref w op a w') :
    w' = w ∧ Lawful rt docs ref w ⟨op, a⟩ w' := by
  cases op with
  | identity => exact ⟨hstep.2, hstep.2⟩
  | read r => exact ⟨hstep.1, hstep.1⟩
  | openDesired path => exact ⟨hstep.1, hstep.1⟩
  | call call =>
    have hread : call.route.isRead = true := h
    have hsame : w' = w := by simpa [answers, hread] using hstep
    refine ⟨hsame, ?_⟩
    simp only [Lawful, hread]
    simpa using hsame
  | _ => cases h

/-- An operation that the lock of another operation covers leaves this one alone. -/
theorem owned_frame {rt : Runtime} {docs : Set (List UInt8)} (ref : OperationRef) (op : Op)
    (a : op.Answer) (h : owned ref op) : grants op a = none ∧
      ∀ ref', ref' ≠ ref → ∀ w w', WorldInv rt docs ref' w → answers docs ref' w op a w' →
        w' = w ∧ Lawful rt docs ref' w ⟨op, a⟩ w' := by
  have hneutral : op.Neutral → grants op a = none ∧
      ∀ ref', ref' ≠ ref → ∀ w w', WorldInv rt docs ref' w → answers docs ref' w op a w' →
        w' = w ∧ Lawful rt docs ref' w ⟨op, a⟩ w' :=
    fun h => ⟨h.grants a, fun _ _ _ _ _ hstep => h.lawful hstep⟩
  cases op with
  | lock => cases h
  | create r j =>
    obtain rfl : r = ref := h
    refine ⟨rfl, fun ref' hne w w' _ hstep => ?_⟩
    have hsame : w' = w := by simpa [answers, hne.symm] using hstep
    exact ⟨hsame, by simpa [Lawful, hne.symm] using hsame⟩
  | write r j =>
    obtain rfl : r = ref := h
    refine ⟨rfl, fun ref' hne w w' _ hstep => ?_⟩
    have hsame : w' = w := by simpa [answers, hne.symm] using hstep
    exact ⟨hsame, by simpa [Lawful, hne.symm] using hsame⟩
  | call call =>
    rcases h with h | h
    · exact hneutral h
    · refine ⟨rfl, fun ref' hne w w' _ hstep => ?_⟩
      have hne' : call.operationRef ≠ ref' := h ▸ hne.symm
      have hsame : w' = w := by simpa [answers, hne'] using hstep
      exact ⟨hsame, by simpa [Lawful, hne'] using hsame⟩
  | _ => exact hneutral trivial

/-! ### Terms of an invocation -/

/-- The events an invocation must account for: every command but the preparation, and every write
of a journal with a pending decision. -/
def Restricted (e : Event Op Op.Answer) : Prop :=
  match e.op with
  | .call call => ∃ route, call.route = .command route ∧ route ≠ .prepare
  | .write _ j => ∃ p, j.pendingRequest = some p ∧ p.routeId = .decide
  | _ => False

/-- Which restricted events an invocation may cause, given the events before. -/
structure Terms where
  allows : Trace → Event Op Op.Answer → Prop
  free : ∀ h e, ¬ Restricted e → allows h e

/-- The event dispatches a command of this route, or makes one pending. -/
def Concerns (route : CommandRoute) (e : Event Op Op.Answer) : Prop :=
  match e.op with
  | .call call => call.route = .command route
  | .write _ j => ∃ p, j.pendingRequest = some p ∧ p.routeId = route
  | _ => False

/-- From here on every command of this route is allowed. -/
def Terms.Permits (T : Terms) (route : CommandRoute) (h : Trace) : Prop :=
  ∀ h', h <+: h' → ∀ e, Concerns route e → T.allows h' e

theorem Terms.permits_prepare (T : Terms) (h : Trace) : T.Permits .prepare h := by
  intro h' _ e he
  refine T.free _ _ fun hrestricted => ?_
  obtain ⟨op, a⟩ := e
  cases op with
  | call call =>
    obtain ⟨route, hroute, hne⟩ := hrestricted
    exact hne (Route.command.inj (hroute.symm.trans he))
  | write r j =>
    obtain ⟨p, hp, hroute⟩ := he
    obtain ⟨q, hq, hdecide⟩ := hrestricted
    obtain rfl : p = q := Option.some.inj (hp.symm.trans hq)
    cases hroute.symm.trans hdecide
  | _ => exact he

theorem Terms.Permits.extend {T : Terms} {route : CommandRoute} {h h' : Trace}
    (hp : T.Permits route h) (hh : h <+: h') : T.Permits route h' :=
  fun h'' hh' => hp h'' (hh.trans hh')

/-- The terms that allow everything. -/
def Terms.any : Terms :=
  ⟨fun _ _ => True, fun _ _ _ => trivial⟩

theorem Op.Neutral.unrestricted {op : Op} (h : op.Neutral) (a : op.Answer) :
    ¬ Restricted ⟨op, a⟩ := by
  cases op with
  | call call =>
    rintro ⟨route, hroute, -⟩
    have hread : call.route.isRead = true := h
    rw [hroute] at hread
    cases hread
  | write => cases h
  | _ => exact id

/-! ### The weakest precondition of a block -/

section Abides

variable (rt : Runtime) (docs : Set (List UInt8)) (ref : OperationRef) (T : Terms)

/-- What every event under the lock satisfies. -/
def Terms.guarantee : Guarantee Op Op.Answer World :=
  fun h w e w' => Lawful rt docs ref w e w' ∧ owned ref e.op ∧ T.allows h e

/-- How a block may end. -/
def ends {α : Type} (E : Trace → World → ClientResult → Prop) (R : Trace → World → α → Prop) :
    Post Op Op.Answer World Exit α :=
  fun h w r => WorldInv rt docs ref w ∧
    match r with
    | .ok a => R h w a
    | .error (.returned result) => E h w result
    | .error (.error _) => True

/-- The weakest precondition of a block under the lock. -/
def Abides {α : Type} (E : Trace → World → ClientResult → Prop) (p : Block α)
    (R : Trace → World → α → Prop) (h : Trace) (w : World) : Prop :=
  WorldInv rt docs ref w → Meets (answers docs ref) (T.guarantee rt docs ref) p
    (ends rt docs ref E R) h w

variable {rt docs ref T} {α β : Type} {E : Trace → World → ClientResult → Prop} {h : Trace}
  {w : World}

/-- The invariant of the world may be assumed. -/
theorem Abides.of_inv {p : Block α} {R : Trace → World → α → Prop}
    (hp : WorldInv rt docs ref w → Abides rt docs ref T E p R h w) :
    Abides rt docs ref T E p R h w :=
  fun hw => hp hw hw

theorem Abides.pure {R : Trace → World → α → Prop} {a : α} (ha : R h w a) :
    Abides rt docs ref T E (Pure.pure a) R h w :=
  fun hw => ⟨hw, ha⟩

theorem Abides.raise {R : Trace → World → α → Prop} {e : ClientError} :
    Abides rt docs ref T E (Client.raise e) R h w :=
  fun hw => ⟨hw, trivial⟩

theorem Abides.returnNow {R : Trace → World → α → Prop} {result : ClientResult}
    (hE : E h w result) : Abides rt docs ref T E (Client.returnNow result) R h w :=
  fun hw => ⟨hw, hE⟩

theorem Abides.lift {R : Trace → World → α → Prop} {x : Except ClientError α}
    (hx : ∀ a, x = .ok a → R h w a) : Abides rt docs ref T E (Client.lift x) R h w := by
  cases x with
  | ok a => exact .pure (hx a rfl)
  | error e => exact .raise

/-- The rule for sequencing. -/
theorem Abides.bind {p : Block α} {f : α → Block β} {R : Trace → World → β → Prop}
    (hp : Abides rt docs ref T E p (fun h w a => Abides rt docs ref T E (f a) R h w) h w) :
    Abides rt docs ref T E (p >>= f) R h w := by
  intro hw
  rw [meets_bind]
  refine (hp hw).post fun h w r hr => ?_
  cases r with
  | ok a => exact hr.2 hr.1
  | error e => cases e <;> exact hr

/-- The rule of consequence. -/
theorem Abides.mono {E' : Trace → World → ClientResult → Prop} {p : Block α}
    {R R' : Trace → World → α → Prop} (hp : Abides rt docs ref T E p R h w)
    (hE : ∀ h w result, WorldInv rt docs ref w → E h w result → E' h w result)
    (hR : ∀ h w a, WorldInv rt docs ref w → R h w a → R' h w a) :
    Abides rt docs ref T E' p R' h w := by
  intro hw
  refine (hp hw).post fun h w r hr => ⟨hr.1, ?_⟩
  rcases r with (_ | _) | _
  · trivial
  · exact hE _ _ _ hr.1 hr.2
  · exact hR _ _ _ hr.1 hr.2

/-- The rule for one operation. -/
theorem Abides.perform {op : Op} {next : op.Answer → Block α} {R : Trace → World → α → Prop}
    (hop : WorldInv rt docs ref w → ∀ a w', answers docs ref w op a w' →
      T.guarantee rt docs ref h w ⟨op, a⟩ w')
    (hnext : ∀ a w', answers docs ref w op a w' →
      Abides rt docs ref T E (next a) R (h ++ [⟨op, a⟩]) w') :
    Abides rt docs ref T E (.perform op next) R h w := by
  intro hw a w' hstep
  have hguarantee := hop hw a w' hstep
  exact ⟨hguarantee, hnext a w' hstep (hguarantee.1.inv hw)⟩

/-! ### Reads -/

theorem Op.Neutral.guarantee {op : Op} (hop : op.Neutral) {a : op.Answer} {w' : World}
    (hstep : answers docs ref w op a w') :
    w' = w ∧ T.guarantee rt docs ref h w ⟨op, a⟩ w' := by
  obtain ⟨hsame, hlawful⟩ := hop.lawful hstep
  exact ⟨hsame, hlawful, hop.owned ref, T.free _ _ (hop.unrestricted a)⟩

/-- The rule for blocks that only read: their complete runs decide. -/
theorem Abides.reads {p : Block α} {R : Trace → World → α → Prop} (hp : p.Uses Op.Neutral)
    (hok : ∀ tr a, p.Runs tr (.ok a) → R (h ++ tr) w a)
    (hreturned : ∀ tr result, p.Runs tr (.error (.returned result)) → E (h ++ tr) w result) :
    Abides rt docs ref T E p R h w := by
  intro hw
  refine Meets.of_runs (fun h s op a s' hop hstep => hop.guarantee hstep) hp fun tr r hr => ?_
  rcases r with (_ | _) | _
  · exact ⟨hw, trivial⟩
  · exact ⟨hw, hreturned _ _ hr⟩
  · exact ⟨hw, hok _ _ hr⟩

/-- The rule for a guarded block of reads that does not return early. -/
theorem Abides.exceptUnresolved {block handler : Block α} {R : Trace → World → α → Prop}
    (hblock : block.Uses Op.Neutral)
    (hreturned : ∀ tr result, ¬ block.Runs tr (.error (.returned result)))
    (hok : ∀ tr a, block.Runs tr (.ok a) → R (h ++ tr) w a)
    (hhandler : ∀ tr e, block.Runs tr (.error (.error e)) → e.isUnresolved = true →
      Abides rt docs ref T E handler R (h ++ tr) w) :
    Abides rt docs ref T E (Client.exceptUnresolved block handler) R h w := by
  intro hw
  unfold Client.exceptUnresolved
  rw [meets_handle]
  refine Meets.of_runs (fun h s op a s' hop hstep => hop.guarantee hstep) hblock fun tr r hr => ?_
  rcases r with (e | result) | a
  · change Meets _ _ (if e.isUnresolved then handler else Client.raise e) _ _ _
    split
    · rename_i he
      exact hhandler tr e hr he hw
    · exact ⟨hw, trivial⟩
  · exact absurd hr (hreturned tr result)
  · exact ⟨hw, hok tr a hr⟩

/-- A drawn key is no recorded one. -/
theorem Abides.newKey {j : Journal} {R : Trace → World → OperationRef → Prop}
    (hj : w.journal = some j)
    (hok : ∀ value key, key ∉ j.recordedKeys → R (h ++ [⟨.identity, value⟩]) w key) :
    Abides rt docs ref T E Client.newKey R h w := by
  refine Abides.perform (fun _ a w' hstep => ?_) fun value w' hstep => ?_
  · exact ((show Op.Neutral .identity from trivial).guarantee hstep).2
  · obtain ⟨hfresh, rfl⟩ := hstep
    refine Abides.lift fun key hkey => hok value key fun hmem => ?_
    have htext : value = .utf8 key.text := by
      unfold canonicalOperationRef at hkey
      split at hkey
      · split at hkey
        · cases hkey
          rfl
        · cases hkey
      · cases hkey
    exact (hfresh.1 j hj).1 key hmem htext

/-- What opening the desired graph returns was read from the file. -/
theorem Abides.readDesired {path : Text} {R : Trace → World → DesiredSource × Fields → Prop}
    (hok : ∀ absolute raw desired, raw ∈ docs → rt.loadDesired raw = some (.obj desired) →
      R (h ++ [⟨.openDesired path, .content absolute raw⟩]) w
        (⟨absolute, raw.length, rt.sha256 raw⟩, desired)) :
    Abides rt docs ref T E (Client.readDesired rt path) R h w := by
  refine Abides.perform (fun _ a w' hstep => ?_) fun answer w' hstep => ?_
  · exact ((show Op.Neutral (.openDesired path) from trivial).guarantee hstep).2
  · obtain ⟨rfl, hdocs, -⟩ := hstep
    cases answer with
    | unavailable => exact .raise
    | invalid => exact .raise
    | valueError => exact .raise
    | content absolute raw =>
      simp only
      split
      · exact .raise
      · split
        · exact .raise
        · rename_i desired hload
          exact .pure (hok absolute raw desired (hdocs _ _ rfl) hload)
        · exact .raise

end Abides

end Client

end ControlPlaneKit
