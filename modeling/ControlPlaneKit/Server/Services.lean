import ControlPlaneKit.Interaction.Runs
import ControlPlaneKit.Server.Surfaces

/-!
# How a service is reached

The boundaries as programs whose operations are the calls of services: `dispatch` calls the service
of a request's role, and what the service does is an answer that may be any. So the calls of a request
are the events of its run. On either surface a request that is answered has reached at most one
service, with the principal of its one bearer credential and over a route of the composition; where it
has reached none, it is refused before the dispatch, with an error that repeats the status of the
answer.
-/

namespace ControlPlaneKit

namespace Server

open Interaction

/-- A call of `handle`, on the service that is found under a role. -/
structure ServiceCall (P : Type) where
  role : String
  request : ServiceRequest P

/-- A boundary at work: it calls services, each of which ends somehow. -/
abbrev Process (P : Type) (α : Type) := Program (ServiceCall P) (fun _ => Outcome) Raised α

/-- The calls of a run, with how they ended. -/
abbrev Calls (P : Type) := List (Event (ServiceCall P) fun _ => Outcome)

section Services

variable {P : Type} (platform : Platform) (composition : Composition)
  (verify : List UInt8 → Option P)

/-- `CpkServerApplicationBoundary.dispatch`: `self._services[request.service_role].handle(request)`. -/
def dispatch (request : ServiceRequest P) : Process P Outcome :=
  .request ⟨request.serviceRole, request⟩

/-- `_dispatch_application`. -/
def dispatchService (request : ServiceRequest P) : Process P (Response ⊕ Fields) := do
  let outcome ← dispatch request
  return outcome.answered

/-- `CpkServerHttpProcessBoundary.handle`. -/
def httpServe (method path : String) (headers : Headers) (body query : List UInt8) :
    Process P Response :=
  match httpRequest platform composition verify method path headers body query with
  | .error e => .raise e
  | .ok (.inl response) => return response
  | .ok (.inr request) => do
    let answered ← dispatchService request
    return answered.elim id fun result => ⟨200, result⟩

/-- `CpkServerMcpProcessBoundary.handle`. -/
def mcpServe (headers : Headers) (message : Json) : Process P Response :=
  match mcpRequest platform composition verify headers message with
  | .error e => .raise e
  | .ok (.inl response) => return response
  | .ok (.inr request) => do
    let answered ← dispatchService request
    return answered.elim id fun result =>
      ⟨200, [("jsonrpc", .str "2.0"), ("id", messageId message), ("result", .obj result)]⟩

/-- The arguments of `CpkServerApplicationBoundary`: the services by their roles, and the
credential verifier. -/
structure Services (P : Type) where
  verify : List UInt8 → Option P
  service : String → ServiceRequest P → Outcome

/-- The boundary over services that do not depend on what was asked before. -/
def Services.application (services : Services P) : Application P where
  verify := services.verify
  dispatch request := services.service request.serviceRole request

/-- Such services answer each call by its role and its request. -/
def Services.answer (services : Services P) (_ : Calls P) (call : ServiceCall P) : Outcome :=
  services.service call.role call.request

end Services

section Reached

variable {P : Type} {platform : Platform} {composition : Composition}
  {verify : List UInt8 → Option P} {services : Services P}
  {method path : String} {headers : Headers} {body query : List UInt8} {message : Json}
  {response : Response} {calls : Calls P} {principal : P} {request : ServiceRequest P}

/-- **A dispatch is one call**, of the service under the role of the request. -/
theorem dispatchService_runs {f : Response ⊕ Fields → Response} {r : Except Raised Response}
    (h : (do return f (← dispatchService request)).Runs calls r) : ∃ outcome,
      calls = [⟨⟨request.serviceRole, request⟩, outcome⟩] ∧ r = .ok (f outcome.answered) := by
  cases h with
  | perform h =>
    cases h
    exact ⟨_, rfl, rfl⟩

/-- Over services that see nothing but the call, the boundary answers as its model without calls. -/
theorem httpServe_scripted : ((httpServe platform composition services.verify method path headers
    body query).scripted services.answer []).2 =
      httpHandle platform composition services.application method path headers body query := by
  unfold httpServe httpHandle
  have hverify : services.application.verify = services.verify := rfl
  rw [hverify]
  cases httpRequest platform composition services.verify method path headers body query with
  | error e => rfl
  | ok decoded =>
    cases decoded with
    | inl response => rfl
    | inr request =>
      have hanswered : dispatchApplication services.application request =
          (services.service request.serviceRole request).answered := rfl
      change Except.ok ((services.service request.serviceRole request).answered.elim id _) = _
      simp only [bind, Except.bind, hanswered]
      cases (services.service request.serviceRole request).answered <;> rfl

theorem mcpServe_scripted : ((mcpServe platform composition services.verify headers
    message).scripted services.answer []).2 =
      mcpHandle platform composition services.application headers message := by
  unfold mcpServe mcpHandle
  have hverify : services.application.verify = services.verify := rfl
  rw [hverify]
  cases mcpRequest platform composition services.verify headers message with
  | error e => rfl
  | ok decoded =>
    cases decoded with
    | inl response => rfl
    | inr request =>
      have hanswered : dispatchApplication services.application request =
          (services.service request.serviceRole request).answered := rfl
      change Except.ok ((services.service request.serviceRole request).answered.elim id _) = _
      simp only [bind, Except.bind, hanswered]
      cases (services.service request.serviceRole request).answered <;> rfl

/-! ### Authentication -/

/-- The principal is the one the verifier returned for the one bearer credential of the headers. -/
def Authenticated (platform : Platform) (verify : List UInt8 → Option P) (headers : Headers)
    (principal : P) : Prop :=
  ∃ value credential,
    (headers.filter fun h => platform.lower h.1 == "authorization").map (·.2) = [value] ∧
      extractBearerCredential platform headers = some credential ∧
        verify credential = some principal

theorem authenticate_eq_some
    (h : authenticate platform verify headers = some principal) :
    Authenticated platform verify headers principal := by
  obtain ⟨credential, hcredential, hverify⟩ := Option.bind_eq_some_iff.mp h
  have hone : ∃ value,
      (headers.filter fun h => platform.lower h.1 == "authorization").map (·.2) = [value] := by
    unfold extractBearerCredential at hcredential
    split at hcredential
    · rename_i name value hfilter
      exact ⟨value, by rw [hfilter]; rfl⟩
    · cases hcredential
  obtain ⟨value, hvalue⟩ := hone
  exact ⟨value, credential, hvalue, hcredential, hverify⟩

/-! ### Requests without a service -/

/-- An error body that repeats the status. -/
def IsError (response : Response) : Prop :=
  ∃ message, response = error response.status message

theorem isError_error (status : ℕ) (message : String) : IsError (error status message) :=
  ⟨message, rfl⟩

theorem decodeHttpPayload_error {route : Route}
    (h : decodeHttpPayload platform route body query = .ok (.inl response)) : IsError response := by
  unfold decodeHttpPayload at h
  repeat' split at h
  all_goals first
    | (cases h; exact isError_error _ _)
    | cases h

theorem httpRequest_error (h : httpRequest platform composition verify method path
    headers body query = .ok (.inl response)) : IsError response := by
  unfold httpRequest at h
  split at h
  · cases h
    exact isError_error _ _
  · split at h
    · cases h
      exact isError_error _ _
    · rename_i route _ _ _ principal _
      cases hpayload : decodeHttpPayload platform route body query with
      | error e =>
        rw [hpayload] at h
        cases h
      | ok decoded =>
        rw [hpayload] at h
        cases decoded with
        | inl response' =>
          obtain rfl : response' = response := Sum.inl.inj (Except.ok.inj h)
          exact decodeHttpPayload_error hpayload
        | inr payload => cases h

theorem validateMcpHeaders_error (h : validateMcpHeaders platform headers = some response) :
    IsError response := by
  unfold validateMcpHeaders at h
  repeat' split at h
  all_goals first
    | (cases h; exact isError_error _ _)
    | cases h

/-- A message is answered with an error, or it names an operation that its method allows. -/
theorem decodeMcpMessage_cases {members : Fields} {decoded : Response ⊕ ServiceRequest P}
    (h : decodeMcpMessage composition members principal = .ok decoded) :
    (∃ response, decoded = .inl response ∧ IsError response) ∨
      ∃ route arguments, decoded = .inr ⟨"mcp", route.routeId, route.serviceRole, [], arguments,
          principal⟩ ∧
        (∃ reads name, mcpRoute composition reads name = .ok (some route)) ∧
        (((members.get "method").pyEq (.str "resources/read") = true ∧ route.readOnly = true) ∨
          (members.get "method" = .str "tools/call" ∧ route.readOnly = false)) := by
  -- every way out but the last is an error
  have herror : ∀ {status : ℕ} {text : String},
      (Except.ok (.inl (error status text)) : Except Raised (Response ⊕ ServiceRequest P)) =
        .ok decoded → ∃ response, decoded = .inl response ∧ IsError response := by
    rintro status text ⟨⟩
    exact ⟨_, rfl, isError_error _ _⟩
  unfold decodeMcpMessage at h
  split at h
  · exact .inl (herror h)
  split at h
  · cases h
  · exact .inl (herror h)
  rename_i hmember
  obtain ⟨value, hvalue, hmethod⟩ := Json.memberOf_eq_some_true hmember
  split at h
  · split at h
    · rename_i name hname
      split at h
      · rename_i arguments harguments
        cases hroute : mcpRoute composition ((members.get "method").pyEq (.str "resources/read"))
            name with
        | error e =>
          simp only [hroute, bind, Except.bind] at h
          cases h
        | ok found =>
          simp only [hroute, bind, Except.bind] at h
          cases found with
          | none => exact .inl (herror h)
          | some route =>
            simp only at h
            split at h
            · exact .inl (herror h)
            · rename_i hcommand
              split at h
              · exact .inl (herror h)
              · rename_i hread
                cases h
                refine .inr ⟨route, arguments, rfl, ⟨_, name, hroute⟩, ?_⟩
                -- the method is one of the two, and it fits the route
                cases hreads : (members.get "method").pyEq (.str "resources/read") with
                | true =>
                  refine .inl ⟨rfl, ?_⟩
                  simpa [hreads] using hread
                | false =>
                  refine .inr ⟨?_, by simpa [hreads] using hcommand⟩
                  rw [hmethod] at hreads ⊢
                  simp only [List.mem_cons, List.not_mem_nil, or_false] at hvalue
                  rcases hvalue with rfl | rfl
                  · rfl
                  · exact absurd hreads (by decide)
      · exact .inl (herror h)
    · exact .inl (herror h)
  · exact .inl (herror h)

theorem mcpRequest_cases {decoded : Response ⊕ ServiceRequest P}
    (h : mcpRequest platform composition verify headers message = .ok decoded) :
    (∃ response, decoded = .inl response ∧ IsError response) ∨
      ∃ (principal : P) (members : Fields) (route : Route) (arguments : Fields),
        message = .obj members ∧
        Authenticated platform verify headers principal ∧
        decoded = .inr ⟨"mcp", route.routeId, route.serviceRole, [], arguments, principal⟩ ∧
        (∃ reads name, mcpRoute composition reads name = .ok (some route)) ∧
        ((members.get "method" = .str "resources/read" ∧ route.readOnly = true) ∨
          (members.get "method" = .str "tools/call" ∧ route.readOnly = false)) := by
  unfold mcpRequest at h
  split at h
  · rename_i response hheaders
    cases h
    exact .inl ⟨response, rfl, validateMcpHeaders_error hheaders⟩
  split at h
  · cases h
    exact .inl ⟨_, rfl, isError_error _ _⟩
  rename_i principal hprincipal
  split at h
  · rename_i members
    split at h
    · rcases decodeMcpMessage_cases h with hanswered | ⟨route, arguments, hdecoded, hroute, hmethod⟩
      · exact .inl hanswered
      · refine .inr ⟨principal, members, route, arguments, rfl, authenticate_eq_some hprincipal,
          hdecoded, hroute, ?_⟩
        rcases hmethod with ⟨hread, honly⟩ | hcall
        · exact .inl ⟨Json.pyEq_str.mp hread, honly⟩
        · exact .inr hcall
    · cases h
      exact .inl ⟨_, rfl, isError_error _ _⟩
  · cases h

/-- A route found by name is one of the composition. -/
theorem mcpRoute_mem {reads : Bool} {name : Text} {route : Route}
    (h : mcpRoute composition reads name = .ok (some route)) : route ∈ composition.routes := by
  cases name with
  | surrogate => cases h
  | utf8 name =>
    unfold mcpRoute at h
    simp only at h
    split at h
    · split at h
      · rename_i hfind
        cases h
        exact List.mem_of_find?_eq_some hfind
      · cases h
    · exact List.mem_of_find?_eq_some (Except.ok.inj h)

/-- A matched route is one of the composition, with the method and a template that matches. -/
theorem matchHttpRoute_eq_some {route : Route} {parameters : List (String × String)}
    (h : matchHttpRoute platform composition method path = some (route, parameters)) :
    route ∈ composition.routes ∧ route.method = platform.upper method ∧
      matchPieces route.template path.toList = some parameters := by
  obtain ⟨route', hmem, hmatch⟩ := List.exists_of_findSome?_eq_some h
  split at hmatch
  · rename_i hmethod
    obtain ⟨parameters', hpieces, heq⟩ := Option.map_eq_some_iff.mp hmatch
    cases heq
    exact ⟨hmem, hmethod, hpieces⟩
  · cases hmatch

/-! ### The two surfaces -/

/-- One answer of the HTTP boundary: an error without a service, or the answer to one call of the
service of a route that the method and the path match, with the decoded payload. -/
def HttpReached (platform : Platform) (composition : Composition) (verify : List UInt8 → Option P)
    (method path : String) (headers : Headers) (body query : List UInt8) (response : Response)
    (calls : Calls P) : Prop :=
  (calls = [] ∧ IsError response) ∨ ∃ route parameters payload principal outcome,
    calls = [⟨⟨route.serviceRole, ⟨"http", route.routeId, route.serviceRole, parameters, payload,
      principal⟩⟩, outcome⟩] ∧
    response = outcome.answered.elim id (fun result => ⟨200, result⟩) ∧
    route ∈ composition.routes ∧ route.method = platform.upper method ∧
    matchPieces route.template path.toList = some parameters ∧
    decodeHttpPayload platform route body query = .ok (.inr payload) ∧
    Authenticated platform verify headers principal

/-- One answer of the MCP boundary: an error without a service, or the answer to one call of the
service of a route, which is read-only for `resources/read` and is not for `tools/call`. -/
def McpReached (platform : Platform) (composition : Composition) (verify : List UInt8 → Option P)
    (headers : Headers) (message : Json) (response : Response) (calls : Calls P) : Prop :=
  (calls = [] ∧ IsError response) ∨
    ∃ (members : Fields) (route : Route) (arguments : Fields) (principal : P) (outcome : Outcome),
    message = .obj members ∧
    calls = [⟨⟨route.serviceRole, ⟨"mcp", route.routeId, route.serviceRole, [], arguments,
      principal⟩⟩, outcome⟩] ∧
    response = outcome.answered.elim id (fun result => ⟨200, [("jsonrpc", .str "2.0"),
      ("id", messageId message), ("result", .obj result)]⟩) ∧
    route ∈ composition.routes ∧
    ((members.get "method" = .str "resources/read" ∧ route.readOnly = true) ∨
      (members.get "method" = .str "tools/call" ∧ route.readOnly = false)) ∧
    Authenticated platform verify headers principal

theorem httpServe_reached (h : (httpServe platform composition verify method path headers body
    query).Runs calls (.ok response)) :
    HttpReached platform composition verify method path headers body query response calls := by
  unfold httpServe at h
  split at h
  · cases h
  · next hrequest =>
    cases h
    exact .inl ⟨rfl, httpRequest_error hrequest⟩
  · next request hrequest =>
    obtain ⟨outcome, hcalls, hanswer⟩ := dispatchService_runs h
    have hresponse := Except.ok.inj hanswer
    unfold httpRequest at hrequest
    split at hrequest
    · cases hrequest
    rename_i route parameters hroute
    split at hrequest
    · cases hrequest
    rename_i principal hprincipal
    cases hpayload : decodeHttpPayload platform route body query with
    | error e =>
      rw [hpayload] at hrequest
      cases hrequest
    | ok decoded =>
      rw [hpayload] at hrequest
      cases decoded with
      | inl response' => cases hrequest
      | inr payload =>
        cases hrequest
        obtain ⟨hmem, hmethod, hpieces⟩ := matchHttpRoute_eq_some hroute
        exact .inr ⟨route, parameters, payload, principal, outcome, hcalls, hresponse, hmem, hmethod,
          hpieces, hpayload, authenticate_eq_some hprincipal⟩

theorem mcpServe_reached
    (h : (mcpServe platform composition verify headers message).Runs calls (.ok response)) :
    McpReached platform composition verify headers message response calls := by
  unfold mcpServe at h
  split at h
  · cases h
  · next hrequest =>
    cases h
    rcases mcpRequest_cases hrequest with ⟨response', heq, herror⟩ | ⟨_, _, _, _, _, _, heq, -⟩
    · cases heq
      exact .inl ⟨rfl, herror⟩
    · cases heq
  · next request hrequest =>
    obtain ⟨outcome, hcalls, hanswer⟩ := dispatchService_runs h
    have hresponse := Except.ok.inj hanswer
    rcases mcpRequest_cases hrequest with ⟨response', heq, -⟩ |
      ⟨principal, members, route, arguments, rfl, hprincipal, heq, ⟨reads, name, hroute⟩, hmethod⟩
    · cases heq
    · cases heq
      exact .inr ⟨members, route, arguments, principal, outcome, rfl, hcalls, hresponse,
        mcpRoute_mem hroute, hmethod, hprincipal⟩

/-- **Services are reached only through the authenticated boundary**, on both surfaces and however
the services end. -/
theorem services_reached {P : Type} (platform : Platform) (composition : Composition)
    (verify : List UInt8 → Option P) :
    (∀ method path headers body query calls response,
      (httpServe platform composition verify method path headers body query).Runs calls
        (.ok response) →
        HttpReached platform composition verify method path headers body query response calls) ∧
    ∀ headers message calls response,
      (mcpServe platform composition verify headers message).Runs calls (.ok response) →
        McpReached platform composition verify headers message response calls :=
  ⟨fun _ _ _ _ _ _ _ h => httpServe_reached h, fun _ _ _ _ h => mcpServe_reached h⟩

end Reached

namespace Instance

/-- The call of the instance's command, answered by its service with a run. -/
def started (surface : String) : Calls Unit :=
  [⟨⟨"operations", ⟨surface, "command.run.start", "operations", [], [], ()⟩⟩,
    .result [("run_id", .str "run-1")]⟩]

/-- The command of the instance reaches its service on both surfaces, and is answered with the
run. -/
theorem services_reached_run_start :
    HttpReached platform composition application.verify "POST" "/start" headers [] []
      ⟨200, [("run_id", .str "run-1")]⟩ (started "http") ∧
    McpReached platform composition application.verify headers (call "run_start" [])
      ⟨200, [("jsonrpc", .str "2.0"), ("id", .int 1), ("result", .obj [("run_id", .str "run-1")])]⟩
      (started "mcp") :=
  ⟨(services_reached platform composition application.verify).1 _ _ _ _ _ _ _ (.perform (.pure _)),
    (services_reached platform composition application.verify).2 _ _ _ _ (.perform (.pure _))⟩

end Instance

end Server

end ControlPlaneKit
