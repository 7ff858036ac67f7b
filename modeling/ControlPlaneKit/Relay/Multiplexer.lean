import Mathlib.Data.List.Forall2
import ControlPlaneKit.Interaction.Runs
import ControlPlaneKit.Python.Codes

/-!
# The HTTP multiplexer and the active router

Both relay a request to an upstream and answer with what it replies. `urllib` turns a status outside
200..299 into an `HTTPError`, which the router relays; the multiplexer answers it like a failed
request, and delivers to its observers only after a relayed reply.

The multiplexer is a program whose operations are the requests it opens, the first of them the one to
its primary. What opening a request leads to is up to the network.
-/

namespace ControlPlaneKit

namespace Relay

open Interaction

/-! ### Requests and answers -/

/-- The string methods that the relays call. -/
structure Strings where
  lower : String → String
  capitalize : String → String

/-- A request as the handlers relay it. -/
structure Request where
  method : String
  path : String
  headers : List (String × String)
  body : List UInt8

/-- `request.Request`: `data=body or None`, and the headers by their capitalized names. -/
structure Outbound where
  url : String
  method : String
  data : Option (List UInt8)
  headers : List (String × String)
deriving DecidableEq

/-- What an upstream replies. -/
structure Reply where
  status : ℕ
  contentType : Option String
  body : List UInt8

/-- How `opener.open` ends; `failure` is any other exception. -/
inductive Opened where
  | response (reply : Reply)
  | httpError (reply : Reply)
  | failure

/-- The status, the body and the content type that a handler sends. -/
structure Answer where
  status : ℕ
  body : List UInt8
  contentType : String
deriving DecidableEq

/-- `MAX_RESPONSE_BYTES`. -/
def maxResponseBytes : ℕ := 1048576

/-- `MAX_OBSERVER_RESPONSE_BYTES`. -/
def maxObserverResponseBytes : ℕ := 16384

/-- The bytes of a literal. -/
def ascii (s : String) : List UInt8 :=
  s.toList.map fun c => UInt8.ofNat c.toNat

/-- A status that `urllib` does not raise for. -/
def Reply.Success (reply : Reply) : Prop :=
  200 ≤ reply.status ∧ reply.status < 300

instance (reply : Reply) : Decidable reply.Success :=
  inferInstanceAs (Decidable (_ ∧ _))

/-- `urllib` with redirects disabled: a reply of any other status is an `HTTPError`. -/
def opened (reply : Reply) : Opened :=
  if reply.Success then .response reply else .httpError reply

section Relays

variable (strings : Strings)

/-- `outbound.add_header` for every header that is passed on. -/
def outboundHeaders (headers : List (String × String)) : List (String × String) :=
  headers.foldl (fun added h =>
    if ["host", "connection", "content-length"].contains (strings.lower h.1) then added
    else added.filter (fun m => m.1 != strings.capitalize h.1) ++ [(strings.capitalize h.1, h.2)]) []

/-- The outbound request to an upstream. -/
def outbound (request : Request) (upstream : String) : Outbound :=
  ⟨upstream ++ request.path, request.method, if request.body = [] then none else some request.body,
    outboundHeaders strings request.headers⟩

/-! ### The active router -/

/-- `forward`. -/
def forward (network : Outbound → Opened) (target : String) (request : Request) : Answer :=
  match network (outbound strings request target) with
  | .response reply =>
    let payload := reply.body.take (maxResponseBytes + 1)
    if maxResponseBytes < payload.length then ⟨502, ascii "upstream response too large\n", "text/plain"⟩
    else ⟨reply.status, payload, reply.contentType.getD "application/octet-stream"⟩
  | .httpError reply =>
    ⟨reply.status, reply.body.take maxResponseBytes, reply.contentType.getD "text/plain"⟩
  | .failure => ⟨502, ascii "upstream request failed\n", "text/plain"⟩

/-! ### The multiplexer -/

/-- A request as `BaseHTTPRequestHandler` has parsed it, and the bytes that follow its headers. -/
structure Incoming where
  command : String
  path : String
  headers : List (String × String)
  rest : List UInt8

/-- The value of a decimal digit of a header, whose characters are those of Latin-1. -/
def digit (n : ℕ) : Option ℕ :=
  if 48 ≤ n ∧ n ≤ 57 then some (n - 48) else none

/-- `int(self.headers.get("content-length", "0") or "0")`; `none` where `int` raises. -/
def contentLength (headers : List (String × String)) : Option ℤ :=
  match headers.find? fun h => strings.lower h.1 == "content-length" with
  | none => some 0
  | some (_, value) => if value = "" then some 0 else intOfText digit (.utf8 value)

/-- `self.rfile.read(length) if length else b""`: a negative length reads to the end. -/
def readBody (length : ℤ) (rest : List UInt8) : List UInt8 :=
  if length < 0 then rest else rest.take length.toNat

/-- The request that is relayed, with its body; `none` where the length of the body is malformed. -/
def Incoming.request (incoming : Incoming) : Option Request :=
  (contentLength strings incoming.headers).map fun length =>
    ⟨incoming.command, incoming.path, incoming.headers, readBody length incoming.rest⟩

/-- What the multiplexer raises: `ValueError` for a malformed length, and whatever `_open` raises. -/
inductive Raised where
  | valueError
  | notOpened
deriving DecidableEq

/-- The multiplexer at work: it opens outbound requests. -/
abbrev Relaying (α : Type) := Program Outbound (fun _ => Opened) Raised α

/-- The requests that were opened, with how that ended. -/
abbrev Attempts := List (Event Outbound fun _ => Opened)

/-- What `_open` makes of how `opener.open` ended; `none` where it raises. -/
def received (max : ℕ) : Opened → Option Answer
  | .response reply =>
    let payload := reply.body.take (max + 1)
    if max < payload.length then none
    else some ⟨reply.status, payload, reply.contentType.getD "application/octet-stream"⟩
  | .httpError _ => none
  | .failure => none

/-- `_open`. -/
def openUpstream (outbound : Outbound) (max : ℕ) : Relaying Answer := do
  match received max (← .request outbound) with
  | some answer => return answer
  | none => .raise .notOpened

/-- What `except Exception` makes of a call of `_open`; `none` where it raises. -/
def caught (p : Relaying Answer) : Relaying (Option Answer) :=
  (do return some (← p)).handle fun _ => return none

/-- `deliver_observers`: the errors. -/
def deliverObservers (request : Request) : ℕ → List String → Relaying (List String)
  | _, [] => return []
  | index, url :: urls => do
    let delivered ← caught (openUpstream (outbound strings request url) maxObserverResponseBytes)
    let errors ← deliverObservers request (index + 1) urls
    return if delivered.isNone then s!"observer-{index}: upstream-failure" :: errors else errors

/-- `MultiplexerSettings`. -/
structure Settings where
  primaryUrl : String
  observerUrls : List String

/-- The multiplexer's own answer to a failed request. -/
def failed : Answer :=
  ⟨502, ascii "primary request failed\n", "text/plain"⟩

/-- The multiplexer's own answer to a health check. -/
def live : Answer :=
  ⟨200, ascii "live\n", "text/plain"⟩

/-- `forward_primary`. -/
def forwardPrimary (settings : Settings) (request : Request) : Relaying Answer :=
  openUpstream (outbound strings request settings.primaryUrl) maxResponseBytes

/-- `_multiplex`. -/
def multiplex (settings : Settings) (incoming : Incoming) : Relaying Answer :=
  match incoming.request strings with
  | none => .raise .valueError
  | some request => do
    match ← caught (forwardPrimary strings settings request) with
    | none => return failed
    | some answer =>
      let _ ← deliverObservers strings request 1 settings.observerUrls
      return answer

/-- The commands with a `do_` method. -/
def commands : List String :=
  ["GET", "POST", "PUT", "PATCH", "DELETE"]

/-- `send_error` for any other command. The page is not sent in answer to `HEAD`. -/
def unsupported (page : String → List UInt8) (command : String) : Answer :=
  ⟨501, if command = "HEAD" then [] else page command, "text/html;charset=utf-8"⟩

/-- A health check of the multiplexer itself. -/
def IsHealthCheck (incoming : Incoming) : Prop :=
  incoming.command = "GET" ∧ incoming.path = "/health/live"

instance (incoming : Incoming) : Decidable (IsHealthCheck incoming) :=
  inferInstanceAs (Decidable (_ ∧ _))

/-- `handle_one_request` and the `do_` methods: `GET /health/live` is answered here, every other
request with a known command is relayed. -/
def handle (page : String → List UInt8) (settings : Settings) (incoming : Incoming) :
    Relaying Answer :=
  if incoming.command ∉ commands then return unsupported page incoming.command
  else if IsHealthCheck incoming then return live
  else multiplex strings settings incoming

end Relays

/-! ### What is relayed -/

section Transparency

variable {strings : Strings} {page : String → List UInt8} {settings : Settings}
  {network : Attempts → Outbound → Opened} {incoming : Incoming} {request : Request} {reply : Reply}
  {tr : Attempts} {max index : ℕ}

/-- The content type a relay falls back to. -/
def fallback (reply : Reply) : String :=
  if reply.Success then "application/octet-stream" else "text/plain"

/-- The caller gets the reply of the primary as the router passes it on, and what is opened after the
request to the primary is this request once for each observer. -/
structure Transparent (strings : Strings) (settings : Settings) (incoming : Incoming) (reply : Reply)
    (handled : Attempts × Except Raised Answer) : Prop where
  answer : ∃ answer, handled.2 = .ok answer ∧ answer.status = reply.status ∧
    answer.body = reply.body ∧ answer.contentType = reply.contentType.getD (fallback reply)
  observers : settings.observerUrls.map (fun url => (incoming.request strings).map fun request =>
    outbound strings request url) = (handled.1.drop 1).map fun e => some e.op

/-- The answer the multiplexer gives of its own; `none` where it raises. -/
def own (strings : Strings) (page : String → List UInt8) (incoming : Incoming) : Option Answer :=
  if incoming.command ∉ commands then some (unsupported page incoming.command)
  else if IsHealthCheck incoming then some live
  else (contentLength strings incoming.headers).map fun _ => failed

/-- What one request leads to over a network. -/
def handled (strings : Strings) (page : String → List UInt8) (settings : Settings)
    (network : Attempts → Outbound → Opened) (incoming : Incoming) :
    Attempts × Except Raised Answer :=
  (handle strings page settings incoming).scripted network []

end Transparency

namespace Instance

/-- Names that are lower case and capitalized already. -/
def strings : Strings :=
  ⟨fun s => s, fun s => s⟩

/-- The page of an error, in short. -/
def page (command : String) : List UInt8 :=
  ascii command

def settings : Settings :=
  ⟨"http://primary:8000", ["http://observer:8000"]⟩

/-- A request that puts an item, with a body of two bytes. -/
def incoming : Incoming :=
  ⟨"PUT", "/items/1", [("content-length", "2")], ascii "\x7b\x7d"⟩

/-- The primary has no such item. -/
def missing : Reply :=
  ⟨404, some "application/json", ascii "\x7b\x7d"⟩

/-- The primary has it. -/
def found : Reply :=
  ⟨200, some "application/json", ascii "\x7b\x7d"⟩

/-- The first request is answered with the reply, every later one fails. -/
def network (reply : Reply) : Attempts → Outbound → Opened
  | [], _ => opened reply
  | _ :: _, _ => .failure

end Instance

end Relay

end ControlPlaneKit
