import ControlPlaneKit.Client.Journal
import ControlPlaneKit.Interaction.Logic

/-!
# What the client asks of the outside world

The operations of a client invocation, one for each way it leaves its own process: drawing an
identity, taking the operation's lock, reading, creating and replacing the journal file, opening
the desired graph, and calling a public route. Each answer type lists what the source can see:
a call is answered by any JSON object, remains unresolved, is refused, or cannot be made for want
of a credential; a store operation that fails may or may not have published its document.

Python's exceptions and its early `return`s are one mechanism here (`Exit`): a helper whose
`ClientResult` every caller returns unchanged ends the invocation on the spot.
-/

namespace ControlPlaneKit

/-- A path that the file system takes: it has no null character, and surrogates only where they stand
for bytes that are no UTF-8. -/
def Text.Openable (path : Text) : Prop :=
  ∀ n ∈ path.codes, n ≠ 0 ∧ (n < 0xD800 ∨ 0xDC80 ≤ n ∧ n ≤ 0xDCFF ∨ 0xDFFF < n)

/-- Of a string without surrogates only the null characters matter. -/
theorem Text.openable_utf8 {s : String} (h : ∀ c ∈ s.toList, c.toNat ≠ 0) : (Text.utf8 s).Openable := by
  intro n hn
  obtain ⟨c, hc, rfl⟩ := List.mem_map.mp hn
  refine ⟨h c hc, ?_⟩
  have hvalid : c.toNat < 0xD800 ∨ 0xDFFF < c.toNat ∧ c.toNat < 0x110000 := c.valid
  omega

namespace Client

open Interaction

/-- The parts of the interpreter that the client uses as functions: SHA-256, the strict parser of
the desired graph document (unique members, no NaN or infinities), the text of a float, and how deep
a value may nest for `json.dumps`. -/
structure Runtime where
  sha256 : List UInt8 → Digest
  loadDesired : List UInt8 → Option Json
  floatText : ℚ → List Char
  depthLimit : ℕ
  nests : 3 ≤ depthLimit

/-- `ClientProfile`: the endpoint and workspace an invocation works on. -/
structure ClientProfile where
  endpoint : String
  workspaceId : Coordinate

/-- `ClientProfile.target_digest`. -/
def ClientProfile.targetDigest (rt : Runtime) (profile : ClientProfile) : Digest :=
  rt.sha256 profile.endpoint.toUTF8.toList

/-- The target a journal of this profile records. -/
def ClientProfile.target (rt : Runtime) (profile : ClientProfile) : Target :=
  ⟨profile.targetDigest rt, profile.workspaceId⟩

/-- A public route. -/
inductive Route where
  | read (route : ReadRoute)
  | command (route : CommandRoute)
deriving DecidableEq

/-- One transport call. The operation reference is bookkeeping: it names the operation the
calling invocation works on and is not sent. -/
structure Call where
  operationRef : OperationRef
  endpoint : String
  route : Route
  pathParameters : PathParameters
  payload : Fields
  credentialRole : Role

/-- How a transport call ends. -/
inductive CallAnswer where
  | reply (response : Fields)
  | unresolved (message : String)
  | refused
  | unconfigured (message : String)

/-- How opening the desired graph ends: the absolute path and the bytes read, or a refusal, which is
a `ValueError` for a path that the file system does not take. -/
inductive DesiredAnswer where
  | unavailable
  | invalid
  | valueError
  | content (path : Text) (raw : List UInt8)

/-- How a store operation ends. A failure may come after the document was published. -/
inductive StoreAnswer where
  | stored
  | failed (message : String) (published : Bool)

/-- How taking the operation lock ends. -/
inductive LockAnswer where
  | acquired
  | refused (message : String)

/-- How reading the journal file ends. -/
inductive ReadAnswer where
  | found (journal : Journal)
  | failed (message : String)

/-- The operations of a client invocation. -/
inductive Op where
  | identity
  | lock (operationRef : OperationRef)
  | read (operationRef : OperationRef)
  | create (operationRef : OperationRef) (journal : Journal)
  | write (operationRef : OperationRef) (journal : Journal)
  | openDesired (path : Text)
  | call (request : Call)

/-- The answers to an operation. -/
@[reducible]
def Op.Answer : Op → Type
  | .identity => Text
  | .lock _ => LockAnswer
  | .read _ => ReadAnswer
  | .create _ _ => StoreAnswer
  | .write _ _ => StoreAnswer
  | .openDesired _ => DesiredAnswer
  | .call _ => CallAnswer

/-- How a block of the client ends early: with an exception, or with the result that the
invocation returns. -/
inductive Exit where
  | error (e : ClientError)
  | returned (result : ClientResult)

/-- A block of the client. -/
abbrev Block := Program Op Op.Answer Exit

/-- A whole invocation. -/
abbrev Invocation := Program Op Op.Answer ClientError ClientResult

section Blocks

variable {α : Type}

/-- `raise`. -/
def raise (e : ClientError) : Block α :=
  .raise (.error e)

/-- `return` from the invocation. -/
def returnNow (result : ClientResult) : Block α :=
  .raise (.returned result)

/-- A pure computation that may raise. -/
def lift : Except ClientError α → Block α
  | .ok a => .pure a
  | .error e => raise e

/-- `try: ... except ClientAuthorizationError: raise; except (ClientInputError,
ClientTransportError): ...`. -/
def exceptUnresolved (block handler : Block α) : Block α :=
  block.handle fun
    | .error e => if e.isUnresolved then handler else raise e
    | .returned result => returnNow result

/-- `try: ... except ClientAuthorizationError: raise; except ClientTransportError: ...`. -/
def exceptTransport (block handler : Block α) : Block α :=
  block.handle fun
    | .error (.transport _) => handler
    | .error e => raise e
    | .returned result => returnNow result

/-- The value of a method that has `return`s of its own. -/
def returning (block : Block ClientResult) : Block ClientResult :=
  block.handle fun
    | .error e => raise e
    | .returned result => .pure result

/-- An invocation ends with a result or with an exception. -/
def conclude (block : Block ClientResult) : Invocation :=
  block.handle fun
    | .error e => .raise e
    | .returned result => .pure result

end Blocks

/-! ### The journal store -/

section Store

variable (rt : Runtime)

/-- `JournalStore.mutation_lock`: entering the block. It is left when the invocation ends. -/
def mutationLock (operationRef : OperationRef) : Block Unit :=
  .perform (.lock operationRef) fun
    | .acquired => .pure ()
    | .refused message => raise (.journal message)

/-- `JournalStore.read`. -/
def readJournal (operationRef : OperationRef) : Block Journal :=
  .perform (.read operationRef) fun
    | .found journal => do
      lift (validateJournal journal operationRef)
      return journal
    | .failed message => raise (.journal message)

/-- `JournalStore.create`. -/
def createJournal (operationRef : OperationRef) (journal : Journal) : Block Unit := do
  let _ ← lift (encodeJournal rt.floatText operationRef journal)
  .perform (.create operationRef journal) fun
    | .stored => .pure ()
    | .failed message _ => raise (.journal message)

/-- `JournalStore.write`. -/
def writeJournal (operationRef : OperationRef) (journal : Journal) : Block Unit := do
  let _ ← lift (encodeJournal rt.floatText operationRef journal)
  .perform (.write operationRef journal) fun
    | .stored => .pure ()
    | .failed message _ => raise (.journal message)

end Store

end Client

end ControlPlaneKit
