import ControlPlaneKit.Client.Workflow
import ControlPlaneKit.Interaction.Pool

/-!
# Client processes over one state directory

The state directory holds one journal for each operation; with the commands dispatched for that
operation it makes up the operation's `World`. `answers` says how the outside world may answer a
client: journal writes are atomic (a write that fails may have been published or not), the file
of the desired graph may hold any of `docs` at any time, a transport call may be answered by
anything, and a drawn identity is no idempotency key that the operation already uses. Processes
that draw pairwise different identities satisfy this last condition, since every key in use was
drawn before.

A process runs one of the four invocations, with any profile and any arguments. The processes
share the directory; the operation lock is the lock of the operation's `World`.
-/

namespace ControlPlaneKit

namespace Client

open Interaction

/-! ### The world of one operation -/

/-- The durable journal of an operation and the commands dispatched for it, oldest first. -/
structure World where
  /-- The durable journal, once it has been created. -/
  journal : Option Journal
  /-- The commands dispatched for the operation. -/
  dispatched : List Call

/-- The operation before it is created. -/
def World.empty : World :=
  ⟨none, []⟩

/-- The idempotency key a call carries. -/
def Call.key (call : Call) : Json :=
  call.payload.get "idempotency_key"

/-- The keys a journal has recorded. -/
def Journal.recordedKeys (journal : Journal) : List OperationRef :=
  journal.requestHistory.map (·.idempotencyKey)

/-- The key of the pending request. -/
def Journal.pendingKey (journal : Journal) : Option OperationRef :=
  journal.pendingRequest.map (·.idempotencyKey)

/-- No key of the operation is this text. -/
def World.Fresh (w : World) (value : Text) : Prop :=
  (∀ journal ∈ w.journal, (∀ key ∈ journal.recordedKeys, value ≠ .utf8 key.text) ∧
    ∀ key ∈ journal.pendingKey, value ≠ .utf8 key.text) ∧
  ∀ call ∈ w.dispatched, call.key ≠ .str value

/-- A public read. -/
def Route.isRead : Route → Bool
  | .read _ => true
  | .command _ => false

/-- The world after a store operation that replaces the journal. -/
def World.store (w : World) (journal : Journal) : World :=
  { w with journal := some journal }

/-- The world after a command has been dispatched. -/
def World.dispatch (w : World) (call : Call) : World :=
  { w with dispatched := w.dispatched ++ [call] }

/-- Whether a store operation published its document. -/
def StoreAnswer.published : StoreAnswer → Bool
  | .stored => true
  | .failed _ published => published

/-- How the world of the operation `ref` may answer, the desired graph file holding one of `docs`.
Operations on other references leave it alone. -/
def answers (docs : Set (List UInt8)) (ref : OperationRef) : Semantics Op Op.Answer World
  | w, .identity, value, w' => w.Fresh value ∧ w' = w
  | w, .lock _, _, w' => w' = w
  | w, .read r, answer, w' =>
    w' = w ∧ (r = ref → ∀ journal, answer = .found journal → w.journal = some journal)
  | w, .create r journal, answer, w' =>
    if r = ref ∧ answer.published then w.journal = none ∧ w' = w.store journal else w' = w
  | w, .write r journal, answer, w' =>
    if r = ref ∧ answer.published then w.journal.isSome ∧ w' = w.store journal else w' = w
  | w, .openDesired path, answer, w' =>
    w' = w ∧ (∀ absolute raw, answer = .content absolute raw → raw ∈ docs) ∧
      (answer = .valueError ↔ ¬ path.Openable)
  | w, .call request, _, w' =>
    w' = if request.operationRef = ref ∧ !request.route.isRead then w.dispatch request else w

/-- A file under a path that the file system takes may be read. -/
theorem opens {docs : Set (List UInt8)} {path absolute : Text} {raw : List UInt8} (hraw : raw ∈ docs)
    (hpath : path.Openable) :
    (∀ absolute' raw', DesiredAnswer.content absolute raw = .content absolute' raw' → raw' ∈ docs) ∧
      (DesiredAnswer.content absolute raw = .valueError ↔ ¬ path.Openable) := by
  refine ⟨?_, iff_of_false nofun (not_not.mpr hpath)⟩
  rintro _ _ ⟨⟩
  exact hraw

/-! ### The processes -/

/-- The operation lock an answer grants. -/
def grants : (op : Op) → op.Answer → Option OperationRef
  | .lock ref, .acquired => some ref
  | _, _ => none

/-- The invocations a process may run. -/
inductive IsInvocation (rt : Runtime) : Invocation → Prop where
  | plan (profile : ClientProfile) (desiredPath title : Text) :
      IsInvocation rt (plan rt profile desiredPath title)
  | resumePrepare (profile : ClientProfile) (reference : Text) :
      IsInvocation rt (resumePrepare rt profile reference)
  | apply (profile : ClientProfile) (reference : Text) (arguments : ApplyArguments) :
      IsInvocation rt (apply rt profile reference arguments)
  | status (profile : ClientProfile) (reference : Text) :
      IsInvocation rt (status rt profile reference)

/-- The client processes of one state directory. -/
abbrev Directory := Pool Op Op.Answer ClientError ClientResult OperationRef World

/-- The directory before its first invocation. -/
def Directory.initial : Directory :=
  Pool.idle fun _ => World.empty

section Runs

variable (rt : Runtime) (docs : Set (List UInt8))

/-- One step of one process. -/
abbrev Directory.Step : Directory → ℕ → Option (Event Op Op.Answer) → Directory → Prop :=
  Pool.Step (answers docs) grants (IsInvocation rt)

/-- The runs of the processes of a directory. -/
abbrev Directory.Reaches : Directory → Directory → Prop :=
  Pool.Reaches (answers docs) grants (IsInvocation rt)

/-- A directory some run leads to. -/
def Directory.Reachable (c : Directory) : Prop :=
  Directory.Reaches rt docs Directory.initial c

/-- The state of an operation in some run. -/
def Reachable (ref : OperationRef) (w : World) : Prop :=
  ∃ c, Directory.Reachable rt docs c ∧ c.state ref = w

end Runs

end Client

end ControlPlaneKit
