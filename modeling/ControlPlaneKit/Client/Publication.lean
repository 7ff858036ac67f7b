import ControlPlaneKit.Posix.Directory
import ControlPlaneKit.Client.Reading

/-!
# The system calls of the journal store

`JournalStore.create`, `JournalStore.write` and `JournalStore.read` as programs over the calls of
one directory. A new document goes to a file of its own, which is then linked or renamed to the name
of the journal; the exception handlers and the `finally` blocks are kept, with the errors of the
calls made inside them.
-/

namespace ControlPlaneKit

namespace Client

namespace Publication

open Interaction Posix

/-- The names of an operation in the directory. -/
inductive JournalPath where
  /-- `<ref>.json`. -/
  | journal (ref : OperationRef)
  /-- `<ref>.json.part`. -/
  | partialPath (ref : OperationRef)
deriving DecidableEq

/-- What the store raises: an exception of the checks, or an `OSError` that is not caught. -/
inductive Failure where
  | raised (failure : ReadFailure)
  | osError
deriving DecidableEq

/-- `JournalError(message)`. -/
def Failure.journal (message : String) : Failure :=
  .raised (.journal message)

/-- A call on the directory of the journals. -/
abbrev StoreCall :=
  Posix.Call JournalPath

/-- The directory of the journals. -/
abbrev StoreDirectory :=
  Posix.Directory JournalPath

/-- One call, which may fail without cause where `faults` hold. -/
abbrev StoreStep (faults : Prop) : Semantics StoreCall Call.Answer StoreDirectory :=
  Posix.Directory.Step faults

/-- A program of the store. -/
abbrev StoreProgram (α : Type) :=
  Program StoreCall Call.Answer Failure α

/-- A call whose error becomes this exception. -/
def attempt (call : StoreCall) (failure : Failure) : StoreProgram call.Result :=
  .perform call fun
    | .ok r => .pure r
    | .error _ => .raise failure

/-- A call whose error is not caught here. -/
def call (c : StoreCall) : StoreProgram c.Result :=
  attempt c .osError

/-- `JournalStore.initialize`. -/
def initializeRoot : StoreProgram Unit := do
  let root : Root ← call .prepareRoot
  match root with
  | .safe => .pure ()
  | .linked => .raise (.journal "state path contains a symlink")
  | .exposed => .raise (.journal "state directory is unsafe")

/-! ### The file of a new document -/

/-- `path.unlink()`. -/
def unlinkPath (path : JournalPath) : StoreProgram Unit :=
  call (.unlink path)

/-- `_unlink_owned_partial`. -/
def unlinkOwnedPartial (path : JournalPath) : Option ℕ → StoreProgram Unit
  | none => .pure ()
  | some identity =>
    .perform (.lstat path) fun
      | .error .noEntry => .pure ()
      | .error _ => .raise .osError
      | .ok (information : Stat) =>
        if information.ino = identity ∧ information.regular = true then unlinkPath path
        else .pure ()

/-- The loop that writes the bytes. -/
def writeAll (descriptor : ℕ) (raw : List UInt8) : StoreProgram Unit :=
  match raw with
  | [] => .pure ()
  | b :: bs =>
    .perform (.write descriptor (b :: bs)) fun
      | .error _ => .raise .osError
      | .ok (0 : ℕ) => .raise .osError
      | .ok (count + 1 : ℕ) => writeAll descriptor (bs.drop count)
termination_by raw.length
decreasing_by
  simp only [List.length_drop, List.length_cons]
  omega

/-- The `except BaseException` block of `_write_owned_partial`. -/
def abandonPartial (path : JournalPath) (descriptor : ℕ) (identity : Option ℕ) {α : Type}
    (failure : Failure) : StoreProgram α := do
  call (.close descriptor)
  unlinkOwnedPartial path identity
  Program.raise failure

/-- `_write_owned_partial`. -/
def writeOwnedPartial (path : JournalPath) (raw : List UInt8) : StoreProgram (ℕ × ℕ) := do
  let descriptor : ℕ ← attempt (.openNew path 0o600) (.journal "journal partial is unavailable")
  -- the identity is known once `fstat` has returned
  let information : Stat ← (call (.fstat descriptor)).handle (abandonPartial path descriptor none)
  Program.handle (do
    if information.regular = false ∨ information.mode ≠ 0o600 then
      Program.raise (.journal "journal partial is unsafe")
    writeAll descriptor raw
    call (.fsync descriptor)
    return (descriptor, information.ino)) (abandonPartial path descriptor (some information.ino))

/-! ### Publication -/

/-- Opening, syncing and closing the directory. -/
def syncRoot : StoreProgram Unit := do
  call .openRoot
  Program.handle (call .fsyncRoot) fun failure => do
    call .closeRoot
    Program.raise failure
  call .closeRoot

/-- `except OSError as error: raise JournalError(...)`. -/
def persisted {α : Type} : Failure → StoreProgram α
  | .osError => .raise (.journal "operation journal could not be persisted")
  | .raised failure => .raise (.raised failure)

/-- The `try` statement that both writers share: the descriptor is closed, `publish` runs, and the
partial file is removed if it is still there. -/
def publishing (path : JournalPath) (descriptor identity : ℕ) (publish : StoreProgram Unit) :
    StoreProgram Unit :=
  .perform (.close descriptor) fun
    | .error _ => do
      -- the descriptor still counts as open
      call (.close descriptor)
      unlinkOwnedPartial path (some identity)
      persisted .osError
    | .ok _ => do
      Program.handle (publish.handle persisted) fun failure => do
        unlinkOwnedPartial path (some identity)
        Program.raise failure
      unlinkOwnedPartial path (some identity)

/-- The link of `create`. -/
def linkJournal (ref : OperationRef) : StoreProgram Unit :=
  .perform (.link (.partialPath ref) (.journal ref)) fun
    | .error .taken => .raise (.journal "operation reference already exists")
    | .error _ => .raise .osError
    | .ok _ => syncRoot

/-- `JournalStore.create` from the encoded document on. -/
def createBytes (ref : OperationRef) (raw : List UInt8) : StoreProgram Unit := do
  let (descriptor, identity) ← writeOwnedPartial (.partialPath ref) raw
  publishing (.partialPath ref) descriptor identity (linkJournal ref)

/-- `_validated_journal_identity`. -/
def validatedJournalIdentity (path : JournalPath) : StoreProgram ℕ := do
  let descriptor : ℕ ← attempt (.openRead path) (.journal "operation journal is unavailable")
  let information : Stat ← (call (.fstat descriptor)).handle fun failure => do
    call (.close descriptor)
    Program.raise failure
  call (.close descriptor)
  if information.regular = false ∨ information.owned = false ∨ information.mode ≠ 0o600 then
    Program.raise (.journal "operation journal is unsafe")
  return information.ino

/-- The replacement of `write`. -/
def replaceJournal (ref : OperationRef) (existing : ℕ) : StoreProgram Unit := do
  let current : Stat ← call (.lstat (.journal ref))
  if current.ino ≠ existing ∨ current.regular = false then
    Program.raise (.journal "operation journal changed before replacement")
  call (.replace (.partialPath ref) (.journal ref))
  syncRoot

/-- `JournalStore.write` from the encoded document on. -/
def writeBytes (ref : OperationRef) (raw : List UInt8) : StoreProgram Unit := do
  let existing ← validatedJournalIdentity (.journal ref)
  let (descriptor, identity) ← writeOwnedPartial (.partialPath ref) raw
  publishing (.partialPath ref) descriptor identity (replaceJournal ref existing)

/-! ### Encoding -/

/-- The JSON codec of the interpreter. -/
structure Codec where
  /-- The digits of a float. -/
  floatText : ℚ → List Char
  /-- `json.dumps` runs out of stack on this value. -/
  tooDeep : Json → Bool
  /-- `json.loads(raw.decode("utf-8"), object_pairs_hook=_unique_object)`. -/
  loads : List UInt8 → Server.Loaded

variable (codec : Codec)

/-- `_encode_journal`. -/
def encodeDocument (ref : OperationRef) (value : Json) : Except ReadFailure (List UInt8) := do
  checkDocument value ref
  if codec.tooDeep value then .error .recursionError
  match Json.encode codec.floatText value with
  | none => .error (.journal "operation journal is invalid")
  | some text =>
    if maximumJournalBytes < text.length then
      .error (.journal "operation journal exceeds its bound")
    else .ok (Json.asciiBytes text)

/-- The encoded document, as a part of a program. -/
def encoded (ref : OperationRef) (value : Json) : StoreProgram (List UInt8) :=
  match encodeDocument codec ref value with
  | .ok raw => .pure raw
  | .error failure => .raise (.raised failure)

/-- `JournalStore.create`. -/
def create (ref : OperationRef) (value : Json) : StoreProgram Unit := do
  initializeRoot
  let raw ← encoded codec ref value
  createBytes ref raw

/-- `JournalStore.write`. -/
def write (ref : OperationRef) (value : Json) : StoreProgram Unit := do
  initializeRoot
  let raw ← encoded codec ref value
  writeBytes ref raw

/-! ### Reading -/

/-- The loop that reads the chunks; `remaining` bytes may still come. -/
def readAll (descriptor : ℕ) (remaining : ℕ) (raw : List UInt8) : StoreProgram (List UInt8) :=
  if remaining = 0 then .pure raw
  else .perform (.read descriptor raw.length remaining) fun
    | .error _ => .raise .osError
    | .ok ([] : List UInt8) => .pure raw
    | .ok (b :: bs : List UInt8) => readAll descriptor (remaining - (bs.length + 1)) (raw ++ b :: bs)
termination_by remaining
decreasing_by
  omega

/-- `JournalStore.read` up to the bytes. -/
def readBytes (path : JournalPath) : StoreProgram (List UInt8) := do
  let descriptor : ℕ ← attempt (.openRead path) (.journal "operation journal is unavailable")
  let raw ← Program.handle (do
    let before : Stat ← call (.fstat descriptor)
    if before.regular = false ∨ before.owned = false ∨ before.mode ≠ 0o600 ∨
        maximumJournalBytes < before.size then
      Program.raise (.journal "operation journal is unsafe")
    let raw ← readAll descriptor (maximumJournalBytes + 1) []
    let after : Stat ← call (.fstat descriptor)
    if maximumJournalBytes < raw.length ∨ before.ino ≠ after.ino ∨ before.size ≠ after.size ∨
        before.mtime ≠ after.mtime then
      Program.raise (.journal "operation journal changed during read")
    return raw) fun failure => do
      call (.close descriptor)
      Program.raise failure
  call (.close descriptor)
  return raw

/-- `JournalStore.read`. -/
def read (ref : OperationRef) : StoreProgram Json := do
  initializeRoot
  let raw ← readBytes (.journal ref)
  match readDocument codec.loads raw ref with
  | .ok value => .pure value
  | .error failure => .raise (.raised failure)

end Publication

end Client

end ControlPlaneKit
