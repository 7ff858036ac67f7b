import ControlPlaneKit.Python.Raise
import ControlPlaneKit.Server.Boundary

/-!
# The two surfaces compared

Where the boundaries return a response, and how large a payload each of them lets through to a
service: the HTTP boundary bounds a command's body by its route's contract, the MCP boundary
bounds nothing.
-/

namespace ControlPlaneKit

namespace Server

section Surfaces

variable {P : Type} {platform : Platform} {composition : Composition}
  {verify : List UInt8 → Option P} {application : Application P}
  {headers : Headers} {body query : List UInt8} {method path : String}

/-! ### Returning a response -/

/-- The request makes the HTTP boundary decode a body on which the parser raises something else
than a decoding error. -/
def HttpUndecodable (platform : Platform) (composition : Composition)
    (verify : List UInt8 → Option P) (method path : String) (headers : Headers)
    (body query : List UInt8) : Prop :=
  ∃ route parameters principal, matchHttpRoute platform composition method path =
      some (route, parameters) ∧
    authenticate platform verify headers = some principal ∧ route.method ≠ "GET" ∧
      query = [] ∧ body ≠ [] ∧ body.length ≤ route.maxBytes ∧
        (platform.loads body = .recursionError ∨ platform.loads body = .valueError)

/-- The message is none the MCP boundary looks into, or it is an object. -/
def McpReadable (platform : Platform) (verify : List UInt8 → Option P) (headers : Headers)
    (message : Json) : Prop :=
  validateMcpHeaders platform headers ≠ none ∨ authenticate platform verify headers = none ∨
    ∃ members, message = .obj members

/-- Returning does not depend on the service. -/
theorem httpHandle_ok_iff : (∃ response, httpHandle platform composition application method path
    headers body query = .ok response) ↔
      ∃ decoded, httpRequest platform composition application.verify method path headers body query =
        .ok decoded := by
  unfold httpHandle
  cases httpRequest platform composition application.verify method path headers body query with
  | error e => simp [bind, Except.bind]
  | ok decoded =>
    refine ⟨fun _ => ⟨decoded, rfl⟩, fun _ => ?_⟩
    cases decoded with
    | inl response => exact ⟨response, rfl⟩
    | inr request =>
      simp only [bind, Except.bind]
      cases dispatchApplication application request <;> exact ⟨_, rfl⟩

theorem mcpHandle_ok_iff {message : Json} : (∃ response, mcpHandle platform composition application
    headers message = .ok response) ↔
      ∃ decoded, mcpRequest platform composition application.verify headers message = .ok decoded := by
  unfold mcpHandle
  cases mcpRequest platform composition application.verify headers message with
  | error e => simp [bind, Except.bind]
  | ok decoded =>
    refine ⟨fun _ => ⟨decoded, rfl⟩, fun _ => ?_⟩
    cases decoded with
    | inl response => exact ⟨response, rfl⟩
    | inr request =>
      simp only [bind, Except.bind]
      cases dispatchApplication application request <;> exact ⟨_, rfl⟩

theorem attempt_raised {α : Type} {classes : List QueryError} {x : Except QueryError α}
    {e : QueryError} (h : attempt classes x = .error (.raised e)) :
    x = .error e ∧ e.caughtBy classes = false := by
  cases x with
  | ok a => cases h
  | error e' =>
    simp only [attempt, Except.error.injEq] at h
    split at h
    · cases h
    · next hcaught =>
      cases h
      exact ⟨rfl, eq_false_of_ne_true hcaught⟩

/-- Every exception of a number or of a cursor's parser is caught. -/
theorem decodeArgument_ne_raised {arguments : Fields} {name value : String} {e : QueryError} :
    decodeArgument platform arguments name value ≠ .error (.raised e) := by
  unfold decodeArgument
  intro h
  split at h
  · split at h
    · split at h
      · rcases Raise.bind_eq_error.mp h with h | ⟨n, -, h⟩
        · obtain ⟨hint, hcaught⟩ := attempt_raised h
          unfold intOf at hint
          split at hint
          · cases hint
          · cases hint
            cases hcaught
        · cases h
      · cases h
    · rcases Raise.bind_eq_error.mp h with h | ⟨v, -, h⟩
      · obtain ⟨-, hcaught⟩ := attempt_raised h
        cases e <;> cases hcaught
      · split at h
        · split at h <;> cases h
        · cases h
  · cases h

theorem decodeText_error {encoded : List UInt8} {e : QueryError}
    (h : decodeText encoded = .error e) : e = .unicodeDecodeError ∨ e = .valueError := by
  unfold decodeText at h
  split at h
  · exact .inr (Except.error.inj h).symm
  · split at h
    · exact .inl (Except.error.inj h).symm
    · cases h

theorem decodeField_ne_raised {arguments : Fields} {field : List UInt8} {e : QueryError} :
    decodeField platform arguments field ≠ .error (.raised e) := by
  unfold decodeField
  split
  · intro h
    rcases Raise.bind_eq_error.mp h with h | ⟨⟨name, value⟩, -, h⟩
    · obtain ⟨htexts, hcaught⟩ := attempt_raised h
      have hclass : e = .unicodeDecodeError ∨ e = .valueError := by
        rcases Raise.bind_eq_error.mp htexts with hname | ⟨name, -, hrest⟩
        · exact decodeText_error hname
        · rcases Raise.bind_eq_error.mp hrest with hvalue | ⟨value, -, hpure⟩
          · exact decodeText_error hvalue
          · cases hpure
      rcases hclass with rfl | rfl <;> cases hcaught
    · exact decodeArgument_ne_raised h
  · exact nofun

/-- **The decoding of a query raises nothing**: what its parts raise is caught. -/
theorem decodeHttpReadQuery_ne_raised {e : QueryError} :
    decodeHttpReadQuery platform query ≠ .error (.raised e) := by
  unfold decodeHttpReadQuery
  split
  · exact nofun
  generalize query.splitOn 38 = fields
  suffices hfold : ∀ arguments,
      fields.foldlM (decodeField platform) arguments ≠ .error (.raised e) from hfold []
  induction fields with
  | nil => exact fun _ => nofun
  | cons field fields ih =>
    intro arguments h
    rw [List.foldlM_cons] at h
    rcases Raise.bind_eq_error.mp h with h | ⟨arguments', -, h⟩
    · exact decodeField_ne_raised h
    · exact ih _ h

/-- The payload of a route is decoded, unless the parser raises. -/
theorem decodeHttpPayload_ok_iff {route : Route} :
    (∃ decoded, decodeHttpPayload platform route body query = .ok decoded) ↔
      ¬ (route.method ≠ "GET" ∧ query = [] ∧ body ≠ [] ∧ body.length ≤ route.maxBytes ∧
        (platform.loads body = .recursionError ∨ platform.loads body = .valueError)) := by
  unfold decodeHttpPayload
  split
  · rename_i hget
    refine iff_of_true ?_ fun h => h.1 hget
    split
    · exact ⟨_, rfl⟩
    split
    · exact ⟨_, rfl⟩
    cases hdecoded : decodeHttpReadQuery platform query with
    | ok arguments => exact ⟨_, rfl⟩
    | error declined =>
      cases declined with
      | invalid => exact ⟨_, rfl⟩
      | raised e => exact absurd hdecoded decodeHttpReadQuery_ne_raised
  split
  · rename_i hquery
    exact iff_of_true ⟨_, rfl⟩ fun h => hquery h.2.1
  split
  · rename_i hlarge
    exact iff_of_true ⟨_, rfl⟩ fun h => absurd h.2.2.2.1 (Nat.not_le.mpr hlarge)
  split
  · rename_i hempty
    exact iff_of_true ⟨_, rfl⟩ fun h => h.2.2.1 hempty
  · rename_i hget hquery hlarge hempty
    have hquery : query = [] := not_not.mp hquery
    have hsmall : body.length ≤ route.maxBytes := Nat.not_lt.mp hlarge
    cases hloads : platform.loads body with
    | value v =>
      refine iff_of_true ?_ (by simp)
      cases v <;> exact ⟨_, rfl⟩
    | unicodeDecodeError => exact iff_of_true ⟨_, rfl⟩ (by simp)
    | jsonDecodeError => exact iff_of_true ⟨_, rfl⟩ (by simp)
    | recursionError =>
      exact iff_of_false (by simp) fun h => h ⟨hget, hquery, hempty, hsmall, .inl rfl⟩
    | valueError =>
      exact iff_of_false (by simp) fun h => h ⟨hget, hquery, hempty, hsmall, .inr rfl⟩

theorem httpRequest_ok_iff : (∃ decoded, httpRequest platform composition verify method path
    headers body query = .ok decoded) ↔
      ¬ HttpUndecodable platform composition verify method path headers body query := by
  unfold httpRequest HttpUndecodable
  cases hroute : matchHttpRoute platform composition method path with
  | none => simp
  | some matched =>
    obtain ⟨route, parameters⟩ := matched
    cases hprincipal : authenticate platform verify headers with
    | none => simp
    | some principal =>
      have hpayload : _ ↔ ¬ (route.method ≠ "GET" ∧ query = [] ∧ body ≠ [] ∧
          body.length ≤ route.maxBytes ∧
            (platform.loads body = .recursionError ∨ platform.loads body = .valueError)) :=
        decodeHttpPayload_ok_iff
      refine Iff.trans ?_ (hpayload.trans (not_congr ?_))
      · dsimp only
        cases decodeHttpPayload platform route body query with
        | error e => simp [bind, Except.bind]
        | ok decoded =>
          refine iff_of_true ?_ ⟨_, rfl⟩
          cases decoded <;> exact ⟨_, rfl⟩
      · refine ⟨fun h => ⟨route, parameters, principal, rfl, rfl, h⟩, ?_⟩
        rintro ⟨route', parameters', principal', heq, -, h⟩
        cases heq
        exact h

/-- A binding of the composition names a route, so looking it up does not raise. -/
theorem mcpRoute_ok (composition : Composition) (reads : Bool) (name : Text) :
    ∃ route, mcpRoute composition reads name = .ok route := by
  cases name with
  | surrogate => exact ⟨_, rfl⟩
  | utf8 name =>
    simp only [mcpRoute]
    split
    · rename_i binding hfind
      have hmem : binding ∈ composition.projections ++ composition.commands := by
        have hin := List.mem_of_find?_eq_some hfind
        cases reads with
        | true => exact List.mem_append_left _ hin
        | false => exact List.mem_append_right _ hin
      obtain ⟨route, hroute⟩ := Option.isSome_iff_exists.mp (composition.known binding hmem)
      rw [show composition.route binding.routeId = some route from hroute]
      exact ⟨_, rfl⟩
    · exact ⟨_, rfl⟩

/-- An object whose method is a text is decoded without an exception. -/
theorem decodeMcpMessage_ok {message : Fields} {principal : P} {value : String}
    (hmethod : message.get "method" = .str value) :
    ∃ decoded, decodeMcpMessage composition message principal = .ok decoded := by
  have hmember : ∃ known, (message.get "method").memberOf ["tools/call", "resources/read"] =
      some known := ⟨_, by rw [hmethod]; rfl⟩
  obtain ⟨known, hknown⟩ := hmember
  unfold decodeMcpMessage
  rw [hknown]
  split
  · exact ⟨_, rfl⟩
  cases known with
  | false => exact ⟨_, rfl⟩
  | true =>
    simp only
    split
    · split
      · split
        · rename_i name _ _ arguments _
          obtain ⟨route, hroute⟩ := mcpRoute_ok composition
            ((message.get "method").pyEq (.str "resources/read")) name
          simp only [hroute, bind, Except.bind]
          cases route with
          | none => exact ⟨_, rfl⟩
          | some route =>
            simp only
            split
            · exact ⟨_, rfl⟩
            split <;> exact ⟨_, rfl⟩
        · exact ⟨_, rfl⟩
      · exact ⟨_, rfl⟩
    · exact ⟨_, rfl⟩

theorem mcpRequest_ok_iff {message : Json} : (∃ decoded, mcpRequest platform composition verify
    headers message = .ok decoded) ↔ McpReadable platform verify headers message := by
  unfold mcpRequest McpReadable
  cases hheaders : validateMcpHeaders platform headers with
  | some response => simp
  | none =>
    cases hprincipal : authenticate platform verify headers with
    | none => simp
    | some principal =>
      cases message with
      | obj members =>
        refine iff_of_true ?_ (.inr (.inr ⟨members, rfl⟩))
        simp only
        split
        · rename_i hmethod
          -- The headers were checked, so the method is a text.
          have hpresent : (headers.lookup platform "mcp-method").isSome := by
            by_contra hnone
            rw [Option.not_isSome_iff_eq_none] at hnone
            unfold validateMcpHeaders at hheaders
            simp only [hnone, Option.isNone_none, if_true] at hheaders
            split at hheaders
            · cases hheaders
            split at hheaders <;> cases hheaders
          obtain ⟨value, hvalue⟩ := Option.isSome_iff_exists.mp hpresent
          rw [hvalue] at hmethod
          exact decodeMcpMessage_ok (Json.pyEq_str.mp hmethod)
        · exact ⟨_, rfl⟩
      | _ => simp

/-- **The boundaries return a response** exactly for the requests on which the parser raises no
other exception, and for the messages that are objects. -/
theorem handle_ok_iff {P : Type} (platform : Platform) (composition : Composition)
    (application : Application P) :
    (∀ method path headers body query, (∃ response, httpHandle platform composition application
      method path headers body query = .ok response) ↔
        ¬ HttpUndecodable platform composition application.verify method path headers body query) ∧
    ∀ headers message, (∃ response, mcpHandle platform composition application headers message =
      .ok response) ↔ McpReadable platform application.verify headers message :=
  ⟨fun _ _ _ _ _ => httpHandle_ok_iff.trans httpRequest_ok_iff,
    fun _ _ => mcpHandle_ok_iff.trans mcpRequest_ok_iff⟩

/-! ### The size of a payload -/

/-- A payload of `n + 8` characters. -/
def filler (n : ℕ) : Fields :=
  [("x", .str (String.ofList (List.replicate n 'a')))]

/-- The JSON-RPC message that calls an MCP operation. -/
def call (name : String) (arguments : Fields) : Json :=
  .obj [("jsonrpc", .str "2.0"), ("id", .int 1), ("method", .str "tools/call"),
    ("params", .obj [("name", .str name), ("arguments", .obj arguments)])]

theorem encode_filler (floatText : ℚ → List Char) (n : ℕ) :
    ∃ raw, Json.encode floatText (.obj (filler n)) = some raw ∧ raw.length = n + 8 := by
  have hcodes : (Text.utf8 (String.ofList (List.replicate n 'a'))).codes = List.replicate n 97 := by
    simp [Text.codes]
  have hescapes : ((List.replicate n 97).flatMap Json.escapeCode).length = n := by
    have hone : Json.escapeCode 97 = ['a'] := by decide
    induction n with
    | zero => rfl
    | succ n ih => simp [List.replicate_succ, List.flatMap_cons, hone]
  refine ⟨_, by rw [filler, Json.encode, Json.encodeMembers, Json.encode, Json.encodeMembers]; rfl, ?_⟩
  have hkey : (Json.encodeText (.utf8 "x")).length = 3 := by decide
  have hvalue : (Json.encodeText (.utf8 (String.ofList (List.replicate n 'a')))).length = n + 2 := by
    rw [Json.encodeText, hcodes, List.length_cons, List.length_append, hescapes]
    rfl
  simp only [List.mergeSort_singleton, List.map_cons, List.map_nil, Json.joined, List.length_cons,
    List.length_append, List.length_nil, hkey, hvalue]
  omega

/-- A command route's body that HTTP passes on is within the bound of the route. -/
theorem decodeHttpPayload_bounded {route : Route} {payload : Fields} (hcommand : route.method ≠ "GET")
    (h : decodeHttpPayload platform route body query = .ok (.inr payload)) :
    body.length ≤ route.maxBytes := by
  unfold decodeHttpPayload at h
  rw [if_neg hcommand] at h
  split at h
  · cases h
  split at h
  · cases h
  · rename_i hsmall
    exact Nat.not_lt.mp hsmall

/-- The MCP boundary passes on any arguments of a command, as they are. -/
theorem serveMcpRequest_call {principal : P} {name : String} {arguments : Fields} {route : Route}
    (hheaders : validateMcpHeaders platform headers = none)
    (hmethod : headers.lookup platform "mcp-method" = some "tools/call")
    (hprincipal : authenticate platform verify headers = some principal)
    (hroute : mcpRoute composition false (.utf8 name) = .ok (some route))
    (hcommand : route.readOnly = false)
    (hloads : platform.loads body = .value (call name arguments)) :
    serveMcpRequest platform composition verify headers body =
      .ok (.inr ⟨"mcp", route.routeId, route.serviceRole, [], arguments, principal⟩) := by
  have hdecoded : decodeMcpMessage composition [("jsonrpc", .str "2.0"), ("id", .int 1),
      ("method", .str "tools/call"), ("params", .obj [("name", .str name),
        ("arguments", .obj arguments)])] principal =
      .ok (.inr ⟨"mcp", route.routeId, route.serviceRole, [], arguments, principal⟩) := by
    have hreads : (Json.str (.utf8 "tools/call")).pyEq (.str "resources/read") = false := by decide
    have hversion : (Json.str (.utf8 "2.0")).pyEq (.str "2.0") = true := by decide
    have hknown : (Json.str (.utf8 "tools/call")).memberOf ["tools/call", "resources/read"] =
        some true := by decide
    simp [decodeMcpMessage, hreads, hversion, hknown, hroute, hcommand, bind, Except.bind, pure,
      Except.pure]
  have hheader : (Json.str (.utf8 "tools/call")).pyEq (.str "tools/call") = true := by decide
  unfold serveMcpRequest mcpRequest
  rw [hloads, hheaders, hprincipal, hmethod]
  simpa [call, hheader] using hdecoded

/-- **Payloads past the bound**: for a command route that MCP offers and any size above the bound of
the route, MCP hands a payload of that size to the service. -/
theorem mcp_payload_unbounded {P : Type} {platform : Platform} {composition : Composition}
    {verify : List UInt8 → Option P} {headers : Headers} {body : List UInt8} {principal : P}
    {name : String} {route : Route} {size : ℕ} (floatText : ℚ → List Char)
    (hheaders : validateMcpHeaders platform headers = none)
    (hmethod : headers.lookup platform "mcp-method" = some "tools/call")
    (hprincipal : authenticate platform verify headers = some principal)
    (hroute : mcpRoute composition false (.utf8 name) = .ok (some route))
    (hcommand : route.readOnly = false) (hsize : route.maxBytes < size) (hleast : 8 ≤ size)
    (hloads : platform.loads body = .value (call name (filler (size - 8)))) :
    ∃ request raw, serveMcpRequest platform composition verify headers body =
        .ok (.inr request) ∧ request.routeId = route.routeId ∧
      Json.encode floatText (.obj request.payload) = some raw ∧ raw.length = size ∧
      ¬ Json.Fits floatText route.maxBytes (.obj request.payload) := by
  obtain ⟨raw, hraw, hlength⟩ := encode_filler floatText (size - 8)
  have hexact : raw.length = size := by omega
  refine ⟨_, raw, serveMcpRequest_call hheaders hmethod hprincipal hroute hcommand hloads, rfl,
    hraw, hexact, ?_⟩
  rintro ⟨raw', hraw', hbound⟩
  rw [hraw] at hraw'
  cases hraw'
  omega

end Surfaces

namespace Instance

/-- A command route. -/
def route : Route where
  routeId := "command.run.start"
  method := "POST"
  template := [.literal "/start".toList]
  readOnly := false
  serviceRole := "operations"
  maxBytes := 65536

/-- A composition with one route. -/
def composition : Composition where
  routes := [route]
  projections := []
  commands := [⟨"run_start", "command.run.start"⟩]
  known := by decide

/-- The body of a call whose arguments have 65544 characters. -/
def callBody : List UInt8 :=
  Json.asciiBytes ((Json.encode (fun _ => []) (call "run_start" (filler 65536))).getD [])

/-- An interpreter that knows the bodies of the requests below: the call, an empty array, and an
integer of more than 4300 digits. -/
def platform : Platform where
  upper s := s
  lower s := s
  loads body :=
    if body = callBody then .value (call "run_start" (filler 65536))
    else if body = [91, 93] then .value (.arr [])
    else if 4300 < body.length ∧ body.all (fun b => b == 49) then .valueError
    else .jsonDecodeError
  loadsCursor _ := .error .jsonDecodeError

/-- An application that accepts every credential. -/
def application : Application Unit :=
  ⟨fun _ => some (), fun _ => .result []⟩

/-- The headers of an MCP request. -/
def headers : Headers :=
  [("accept", "application/json"), ("mcp-protocol-version", "2025-06-18"),
    ("mcp-method", "tools/call"), ("authorization", "bearer token")]

theorem validateMcpHeaders_headers : validateMcpHeaders platform headers = none :=
  rfl

theorem authenticate_headers : authenticate platform application.verify headers = some () :=
  rfl

theorem loads_callBody : platform.loads callBody = .value (call "run_start" (filler 65536)) :=
  if_pos rfl

theorem mcpRoute_run_start : mcpRoute composition false (.utf8 "run_start") = .ok (some route) :=
  rfl

theorem mcp_payload_unbounded_65544 : route.maxBytes < 65544 ∧ ∃ request raw,
    serveMcpRequest platform composition application.verify headers callBody = .ok (.inr request) ∧
      request.routeId = route.routeId ∧
      Json.encode (fun _ => []) (.obj request.payload) = some raw ∧ raw.length = 65544 ∧
      ¬ Json.Fits (fun _ => []) route.maxBytes (.obj request.payload) :=
  have hsize : route.maxBytes < 65544 := by decide
  ⟨hsize, mcp_payload_unbounded (fun _ => []) validateMcpHeaders_headers rfl authenticate_headers
    mcpRoute_run_start rfl hsize (by decide) loads_callBody⟩

/-- A command's payload of 65544 characters passes a bound of 65536. -/
theorem mcp_payload_exceeds : ¬ ∀ (P : Type) (platform : Platform) (composition : Composition)
    (application : Application P) (headers : Headers) (body : List UInt8)
    (request : ServiceRequest P) (route : Route),
    serveMcpRequest platform composition application.verify headers body = .ok (.inr request) →
      composition.route request.routeId = some route → route.readOnly = false →
        Json.Fits (fun _ => []) route.maxBytes (.obj request.payload) := by
  intro h
  have hserved := serveMcpRequest_call validateMcpHeaders_headers rfl authenticate_headers
    mcpRoute_run_start rfl loads_callBody
  obtain ⟨raw, hraw, hlength⟩ := encode_filler (fun _ => []) 65536
  obtain ⟨raw', hraw', hbound⟩ := h Unit platform composition application headers callBody _ route
    hserved rfl rfl
  rw [hraw] at hraw'
  cases hraw'
  have hmax : route.maxBytes = 65536 := rfl
  omega

/-- A message need not be an object. -/
theorem boundaries_raise : ¬ ∀ (P : Type) (platform : Platform) (composition : Composition)
    (application : Application P),
    (∀ method path headers body query, ∃ response, httpHandle platform composition application
      method path headers body query = .ok response) ∧
    ∀ headers body message, platform.loads body = .value message →
      ∃ response, mcpHandle platform composition application headers message = .ok response := by
  intro h
  obtain ⟨-, hmcp⟩ := h Unit platform composition application
  have hempty : ([91, 93] : List UInt8) ≠ callBody := by
    intro heq
    have := congrArg List.head? heq
    revert this
    decide
  have hloads : platform.loads [91, 93] = .value (.arr []) := by
    simp only [platform, if_neg hempty, if_true]
  obtain ⟨response, hresponse⟩ := hmcp headers [91, 93] (.arr []) hloads
  have hraises : mcpHandle platform composition application headers (.arr []) =
      .error .attributeError := rfl
  rw [hraises] at hresponse
  cases hresponse

end Instance

end Server

end ControlPlaneKit
