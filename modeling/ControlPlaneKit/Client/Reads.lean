import ControlPlaneKit.Client.Commands

/-!
# The blocks that only read

The reads of the client leave every world alone and never end an invocation by themselves
(`Reads`). Their complete runs are inverted here once, for the users of `Abides.reads` and
`Abides.exceptUnresolved`.
-/

namespace ControlPlaneKit

namespace Client

open Interaction

/-! ### Blocks of reads -/

/-- A block of neutral operations that does not return from the invocation. -/
structure Reads {α : Type} (p : Block α) : Prop where
  neutral : p.Uses Op.Neutral
  stays : ∀ tr result, ¬ p.Runs tr (.error (.returned result))

section Reads

variable {α β : Type}

theorem Reads.pure (a : α) : Reads (Pure.pure a : Block α) :=
  ⟨trivial, by rintro tr result ⟨⟩⟩

theorem Reads.raise (e : ClientError) : Reads (Client.raise e : Block α) :=
  ⟨trivial, by rintro tr result ⟨⟩⟩

theorem Reads.lift (x : Except ClientError α) : Reads (Client.lift x) := by
  cases x with
  | ok a => exact .pure a
  | error e => exact .raise e

theorem Reads.bind {p : Block α} {f : α → Block β} (hp : Reads p) (hf : ∀ a, Reads (f a)) :
    Reads (p >>= f) where
  neutral := hp.neutral.bind fun a => (hf a).neutral
  stays := by
    intro tr result h
    rcases h.bind_cases with ⟨e, h, he⟩ | ⟨a, tr₁, tr₂, -, -, h⟩
    · cases he
      exact hp.stays tr result h
    · exact (hf a).stays tr₂ result h

theorem Reads.perform {op : Op} {next : op.Answer → Block α} (hop : op.Neutral)
    (hnext : ∀ a, Reads (next a)) : Reads (.perform op next : Block α) where
  neutral := ⟨hop, fun a => (hnext a).neutral⟩
  stays := by
    intro tr result h
    cases h with
    | perform h => exact (hnext _).stays _ _ h

theorem runs_pure {a : α} {r : Except Exit α} {tr : Trace} :
    (Pure.pure a : Block α).Runs tr r ↔ tr = [] ∧ r = .ok a := by
  constructor
  · rintro ⟨⟩
    exact ⟨rfl, rfl⟩
  · rintro ⟨rfl, rfl⟩
    exact .pure a

theorem runs_raise {e : ClientError} {r : Except Exit α} {tr : Trace} :
    (Client.raise e : Block α).Runs tr r ↔ tr = [] ∧ r = .error (.error e) := by
  constructor
  · rintro ⟨⟩
    exact ⟨rfl, rfl⟩
  · rintro ⟨rfl, rfl⟩
    exact .raise _

theorem runs_returnNow {result : ClientResult} {r : Except Exit α} {tr : Trace} :
    (Client.returnNow result : Block α).Runs tr r ↔ tr = [] ∧ r = .error (.returned result) := by
  constructor
  · rintro ⟨⟩
    exact ⟨rfl, rfl⟩
  · rintro ⟨rfl, rfl⟩
    exact .raise _

theorem runs_pure_ok {a b : α} {tr : Trace} :
    (Pure.pure a : Block α).Runs tr (.ok b) ↔ tr = [] ∧ a = b := by
  rw [runs_pure, Except.ok.injEq, @eq_comm _ b]

theorem runs_lift_ok {x : Except ClientError α} {a : α} {tr : Trace} :
    (Client.lift x).Runs tr (.ok a) ↔ tr = [] ∧ x = .ok a := by
  cases x with
  | ok b =>
    rw [Except.ok.injEq]
    exact runs_pure_ok
  | error e =>
    constructor
    · rintro ⟨⟩
    · rintro ⟨-, ⟨⟩⟩

end Reads

variable (rt : Runtime) (profile : ClientProfile) (ref : OperationRef)

theorem reads_newKey : Reads newKey :=
  .perform trivial fun _ => .lift _

theorem reads_readPublic (route : ReadRoute) (path : PathParameters) (payload : Fields) :
    Reads (readPublic profile ref route path payload) := by
  refine .perform (show Op.Neutral (.call _) from rfl) fun a => ?_
  cases a <;> first | exact .pure _ | exact .raise _

theorem reads_readWorkspace : Reads (readWorkspace profile ref) :=
  .bind (reads_readPublic profile ref _ _ _) fun _ => .lift _

theorem reads_planDetail (planId : Coordinate) : Reads (planDetail profile ref planId) :=
  .bind (reads_readPublic profile ref _ _ _) fun _ => .lift _

theorem reads_approvalDetail (approvalId : Coordinate) :
    Reads (approvalDetail profile ref approvalId) :=
  .bind (reads_readPublic profile ref _ _ _) fun _ => .lift _

theorem reads_pageFrom (route : ReadRoute) (path : PathParameters) (reads : Nat)
    (items : List Json) (cursor : Option Fields) (seen : List (List Char)) :
    Reads (pageFrom rt profile ref route path reads items cursor seen) := by
  induction reads generalizing items cursor seen with
  | zero => exact .raise _
  | succ reads ih =>
    refine .bind (reads_readPublic profile ref _ _ _) fun page => ?_
    split
    · split
      · exact .raise _
      · split
        · exact .pure _
        · split
          · exact .raise _
          · split
            · exact .raise _
            · exact ih _ _ _
        · exact .raise _
    · exact .raise _

theorem reads_readPages (route : ReadRoute) (path : PathParameters) :
    Reads (readPages rt profile ref route path) :=
  reads_pageFrom rt profile ref route path _ _ _ _

theorem reads_readDesired (path : Text) : Reads (readDesired rt path) := by
  refine .perform trivial fun a => ?_
  cases a with
  | content absolute raw =>
    simp only
    split
    · exact .raise _
    · split
      · exact .raise _
      · exact .pure _
      · exact .raise _
  | _ => exact .raise _

theorem reads_load : Reads (load rt profile ref) := by
  refine .bind (.perform trivial fun a => ?_) fun journal => ?_
  · cases a with
    | found journal => exact .bind (.lift _) fun _ => .pure _
    | failed message => exact .raise _
  · split
    · exact .raise _
    · exact .pure _

/-! ### The status block -/

theorem neutral_observe {α : Type} (journal : Journal) (seen : Observed) {block : Block α}
    (h : block.Uses Op.Neutral) : (observe profile journal seen block).Uses Op.Neutral := by
  refine h.handle fun e => ?_
  cases e with
  | error e =>
    change Program.Uses Op.Neutral (if e.isUnresolved then _ else _)
    split
    · exact (Reads.lift _).neutral.bind fun _ => trivial
    · trivial
  | returned result => trivial

theorem neutral_observePlan (journal : Journal) :
    (observePlan profile journal).Uses Op.Neutral := by
  unfold observePlan
  split
  · trivial
  · refine (neutral_observe profile journal _ ?_).bind fun _ => trivial
    exact ((reads_planDetail profile _ _).bind fun _ => (Reads.lift _).bind fun _ =>
      (Reads.lift _).bind fun _ => .pure _).neutral

theorem neutral_observeApproval (journal : Journal) (plan : Option Fields) (seen : Observed) :
    (observeApproval profile journal plan seen).Uses Op.Neutral := by
  unfold observeApproval
  split
  · trivial
  · refine (neutral_observe profile journal _ ?_).bind fun _ => ?_
    · split
      · trivial
      · exact ((reads_approvalDetail profile _ _).bind fun _ => .pure _).neutral
    · refine (neutral_observe profile journal _ (Reads.lift _).neutral).bind fun _ => ?_
      split <;> trivial

theorem neutral_observeRun (journal : Journal) (seen : Observed) :
    (observeRun rt profile journal seen).Uses Op.Neutral := by
  unfold observeRun
  split
  · trivial
  · refine (neutral_observe profile journal _ ?_).bind fun items => ?_
    · exact ((Reads.lift _).bind fun _ => reads_readPages rt profile _ _ _).neutral
    · split
      · refine (Reads.lift _).neutral.bind fun _ => ?_
        refine (neutral_observe profile journal _ (reads_readPages rt profile _ _ _).neutral).bind
          fun _ => trivial
      · trivial

theorem neutral_observePointer (journal : Journal) (current : Option Pointer) (seen : Observed) :
    (observePointer profile journal current seen).Uses Op.Neutral := by
  refine Program.Uses.bind ?_ fun current => trivial
  unfold observeCurrent
  split
  · trivial
  · refine neutral_observe profile journal _ ?_
    exact ((reads_readPublic profile _ _ _ _).bind fun _ => (Reads.lift _).bind fun _ =>
      (Reads.lift _).bind fun _ => .pure _).neutral

theorem reads_publicStatus (journal : Journal) : Reads (publicStatus rt profile journal) where
  neutral := by
    refine Program.Uses.handle ?_ fun e => by cases e <;> trivial
    refine (neutral_observe profile journal _ ?_).bind fun current => ?_
    · exact ((reads_readWorkspace profile _).bind fun _ => .lift _).neutral
    · refine (neutral_observePlan profile journal).bind fun seen => ?_
      refine (neutral_observeApproval profile journal _ _).bind fun seen => ?_
      refine (neutral_observeRun rt profile journal _).bind fun seen => ?_
      refine (neutral_observePointer profile journal _ _).bind fun seen => ?_
      exact (Reads.lift _).neutral
  stays := by
    intro tr result h
    rcases h.handle_cases with ⟨a, -, ha⟩ | ⟨e, tr₁, tr₂, -, -, h⟩
    · cases ha
    · cases e <;> cases h

theorem reads_status (reference : Text) :
    (status rt profile reference).Uses Op.Neutral := by
  refine Program.Uses.handle ?_ fun e => by cases e <;> trivial
  refine (Reads.lift _).neutral.bind fun ref => ?_
  exact (reads_load rt profile ref).neutral.bind fun journal =>
    (reads_publicStatus rt profile journal).neutral

/-- What is loaded under the lock is the durable journal, of the profile's target. -/
theorem Abides.load {rt : Runtime} {docs : Set (List UInt8)} {ref : OperationRef} {T : Terms}
    {E : Trace → World → ClientResult → Prop} {h : Trace} {w : World} {profile : ClientProfile}
    {R : Trace → World → Journal → Prop}
    (hok : ∀ j, Holds rt profile w j → R (h ++ [⟨.read ref, .found j⟩]) w j) :
    Abides rt docs ref T E (Client.load rt profile ref) R h w := by
  unfold Client.load readJournal
  refine .bind (.perform (fun _ a w' hstep => ?_) fun a w' hstep => ?_)
  · exact ((show Op.Neutral (.read ref) from trivial).guarantee hstep).2
  obtain ⟨rfl, hfound⟩ := hstep
  cases a with
  | failed message => exact .raise
  | found j =>
    refine .bind (.lift fun _ _ => .pure ?_)
    split
    · exact .raise
    · rename_i htarget
      exact .pure (hok j ⟨hfound rfl j rfl, (not_not.mp htarget).symm⟩)

end Client

end ControlPlaneKit
