import ControlPlaneKit.Python.Encode

/-!
# The process boundaries of cpk-server

The HTTP boundary and the MCP boundary over one application: routing, authentication, decoding of
bodies, queries and messages, and the dispatch to an application service. What a Python function
raises is an error of its `Except` here (`Raised`), so that a boundary is total exactly where its
model returns a response.

The string methods, the JSON parser, the credential verifier and the services are parameters; the
route contracts come from the composition.
-/

namespace ControlPlaneKit

namespace Server

/-- The exceptions that the boundaries let through. -/
inductive Raised where
  | recursionError
  | valueError
  | attributeError
  | typeError
deriving DecidableEq

/-- How `json.loads(body.decode("utf-8"))` ends. `jsonDecodeError` is a `ValueError` that the
handlers catch; `valueError` is a plain one, raised for an integer with too many digits. -/
inductive Loaded where
  | value (v : Json)
  | unicodeDecodeError
  | jsonDecodeError
  | recursionError
  | valueError

/-- The exceptions of the decoding of a query. -/
inductive QueryError where
  | unicodeDecodeError
  | valueError
  | jsonDecodeError
  | recursionError
deriving DecidableEq

/-- The interpreter functions that the boundaries call. -/
structure Platform where
  upper : String → String
  lower : String → String
  /-- `json.loads(body.decode("utf-8"))`. -/
  loads : List UInt8 → Loaded
  /-- `json.loads` with the hooks of a cursor. -/
  loadsCursor : String → Except QueryError Json

/-! ### Contracts -/

/-- A piece of a path template. -/
inductive Piece where
  | literal (text : List Char)
  | parameter (name : String)

/-- `HttpApiRouteContract`. -/
structure Route where
  routeId : String
  method : String
  template : List Piece
  readOnly : Bool
  serviceRole : String
  maxBytes : ℕ

/-- One binding of the parity contracts: an MCP tool and the HTTP route it projects. -/
structure Binding where
  toolName : String
  routeId : String

/-- `CpkServerComposition`: the parity contracts are contracts over the routes. -/
structure Composition where
  routes : List Route
  projections : List Binding
  commands : List Binding
  known : ∀ b ∈ projections ++ commands, (routes.find? fun r => r.routeId == b.routeId).isSome

/-- `http_api.route(route_id)`; `none` where it raises `ValueError`. -/
def Composition.route (c : Composition) (routeId : String) : Option Route :=
  c.routes.find? fun r => r.routeId == routeId

/-! ### Requests and responses -/

/-- `CpkServerServiceRequest`. -/
structure ServiceRequest (P : Type) where
  surface : String
  routeId : String
  serviceRole : String
  pathParameters : List (String × String)
  payload : Fields
  principal : P

/-- `CpkServerBoundaryResponse`. -/
structure Response where
  status : ℕ
  body : Fields

/-- `_error`. -/
def error (status : ℕ) (message : String) : Response :=
  ⟨status, [("error", .obj [("message", .str message), ("status", .int status)])]⟩

/-- How a service ends. -/
inductive Outcome where
  | result (result : Fields)
  /-- `CpkServerApplicationError`. -/
  | rejected (status : ℕ) (descriptor : Fields)
  /-- Any other exception. -/
  | failed

/-- `CpkServerApplicationBoundary`: the verifier gives a principal or none, as it raises or returns
something else. -/
structure Application (P : Type) where
  verify : List UInt8 → Option P
  dispatch : ServiceRequest P → Outcome

/-- The headers of a request. -/
abbrev Headers := List (String × String)

section Boundary

variable {P : Type} (platform : Platform) (composition : Composition) (verify : List UInt8 → Option P)
  (application : Application P)

/-! ### Authentication -/

/-- `character.isspace()`, for ASCII. -/
def isSpace (c : Char) : Bool :=
  (9 ≤ c.toNat && c.toNat ≤ 13) || (28 ≤ c.toNat && c.toNat ≤ 32)

/-- `_extract_bearer_credential`. -/
def extractBearerCredential (headers : Headers) : Option (List UInt8) :=
  match headers.filter fun h => platform.lower h.1 == "authorization" with
  | [(_, value)] =>
    let scheme := value.toList.takeWhile (· != ' ')
    let token := (value.toList.dropWhile (· != ' ')).tail
    if value.toList.contains ' ' && platform.lower (String.ofList scheme) == "bearer" &&
        !token.isEmpty && token.all (fun c => decide (c.toNat < 128) && !isSpace c) &&
        decide (token.length ≤ 4096) then
      some (token.map fun c => UInt8.ofNat c.toNat)
    else none
  | _ => none

/-- `authenticate_bearer_credential`; `none` stands for `CredentialAuthenticationError`. -/
def authenticate (headers : Headers) : Option P :=
  (extractBearerCredential platform headers).bind verify

/-! ### Routing -/

/-- The matches of a template in a path: `([^/]+)` for a parameter, longest first. -/
def matchPieces : List Piece → List Char → Option (List (String × String))
  | [], rest => if rest = [] ∨ rest = ['\n'] then some [] else none
  | .literal text :: pieces, rest =>
    if text.isPrefixOf rest then matchPieces pieces (rest.drop text.length) else none
  | .parameter name :: pieces, rest =>
    let longest := (rest.takeWhile (· != '/')).length
    ((List.range longest).map (longest - ·)).findSome? fun n =>
      (matchPieces pieces (rest.drop n)).map fun others =>
        (name, String.ofList (rest.take n)) :: others

/-- `_match_http_route`. -/
def matchHttpRoute (method path : String) : Option (Route × List (String × String)) :=
  composition.routes.findSome? fun route =>
    if route.method = platform.upper method then
      (matchPieces route.template path.toList).map fun parameters => (route, parameters)
    else none

/-! ### Queries -/

/-- A hexadecimal digit. -/
def hexValue (b : UInt8) : Option ℕ :=
  let n := b.toNat
  if 48 ≤ n ∧ n ≤ 57 then some (n - 48)
  else if 65 ≤ n ∧ n ≤ 70 then some (n - 55)
  else if 97 ≤ n ∧ n ≤ 102 then some (n - 87)
  else none

/-- `_strict_percent_decode`. -/
def strictPercentDecode : List UInt8 → Option (List UInt8)
  | [] => some []
  | 37 :: high :: low :: rest =>
    match hexValue high, hexValue low, strictPercentDecode rest with
    | some h, some l, some decoded => some (UInt8.ofNat (16 * h + l) :: decoded)
    | _, _, _ => none
  | b :: rest =>
    if b = 37 then none
    else (strictPercentDecode rest).map (b :: ·)

/-- `bytes.decode("utf-8")`. -/
def decodeUtf8 (bytes : List UInt8) : Option String :=
  String.fromUTF8? ⟨bytes.toArray⟩

mutual

/-- `_json_nesting`: the depth of the containers. -/
def nesting : Json → ℕ
  | .arr items => nestingItems items + 1
  | .obj members => nestingMembers members + 1
  | _ => 0

/-- The depth of the items. -/
def nestingItems : List Json → ℕ
  | [] => 0
  | x :: xs => max (nesting x) (nestingItems xs)

/-- The depth of the members. -/
def nestingMembers : List (Text × Json) → ℕ
  | [] => 0
  | (_, x) :: xs => max (nesting x) (nestingMembers xs)

end

/-- `re.fullmatch(r"[1-9][0-9]*", value)`. -/
def isLimit : List Char → Bool
  | [] => false
  | c :: rest => ('1' ≤ c && c ≤ '9') && rest.all fun c => '0' ≤ c && c ≤ '9'

/-- `int(value)` for decimal digits. -/
def decimal (digits : List Char) : ℕ :=
  digits.foldl (fun n c => 10 * n + (c.toNat - 48)) 0

/-- `int(value)` for decimal digits, which raises for more than 4300 of them. -/
def intOf (digits : List Char) : Except QueryError ℕ :=
  if digits.length ≤ 4300 then .ok (decimal digits) else .error .valueError

/-- `_strict_percent_decode(encoded).decode("utf-8")`. -/
def decodeText (encoded : List UInt8) : Except QueryError String :=
  match strictPercentDecode encoded with
  | none => .error .valueError
  | some decoded =>
    match decodeUtf8 decoded with
    | none => .error .unicodeDecodeError
    | some text => .ok text

/-- How the decoding of a query ends early: with the response 400, or with an exception. -/
inductive Declined where
  | invalid
  | raised (e : QueryError)
deriving DecidableEq

/-- Whether `except classes` catches: the two decoding errors are `ValueError`s. -/
def QueryError.caughtBy (e : QueryError) (classes : List QueryError) : Bool :=
  classes.contains e || (classes.contains .valueError && e != .recursionError)

/-- `try` with `except classes: return _error(400, "invalid query arguments")`. -/
def attempt {α : Type} (classes : List QueryError) (x : Except QueryError α) : Except Declined α :=
  match x with
  | .ok a => .ok a
  | .error e => .error (if e.caughtBy classes then .invalid else .raised e)

/-- The argument that a name and a value stand for, and those before it. -/
def decodeArgument (arguments : Fields) (name value : String) : Except Declined Fields :=
  if (name = "limit" ∨ name = "after") ∧ arguments.has name = false then
    if name = "limit" then
      if isLimit value.toList then do
        let n ← attempt [.valueError] (intOf value.toList)
        return arguments ++ ([("limit", .int n)] : Fields)
      else .error .invalid
    else do
      match ← attempt [.jsonDecodeError, .recursionError, .valueError] (platform.loadsCursor value) with
      | .obj cursor =>
        if nesting (.obj cursor) ≤ 64 then return arguments ++ ([("after", .obj cursor)] : Fields)
        else .error .invalid
      | _ => .error .invalid
  else .error .invalid

/-- One field of a query. -/
def decodeField (arguments : Fields) (field : List UInt8) : Except Declined Fields :=
  if field.contains 61 then do
    let (name, value) ← attempt [.unicodeDecodeError, .valueError] (do
      let name ← decodeText (field.takeWhile (· != 61))
      let value ← decodeText (field.dropWhile (· != 61)).tail
      return (name, value))
    decodeArgument platform arguments name value
  else .error .invalid

/-- `_decode_http_read_query`. -/
def decodeHttpReadQuery (query : List UInt8) : Except Declined Fields :=
  if query = [] then .ok []
  else (query.splitOn 38).foldlM (decodeField platform) []

/-- An exception of a query, as the boundary lets it through. -/
def QueryError.through : QueryError → Raised
  | .recursionError => .recursionError
  | _ => .valueError

/-! ### Bodies -/

/-- `_decode_http_payload`. -/
def decodeHttpPayload (route : Route) (body query : List UInt8) :
    Except Raised (Response ⊕ Fields) :=
  if route.method = "GET" then
    if body ≠ [] then .ok (.inl (error 400 "read routes do not accept request bodies"))
    else if route.maxBytes < query.length then .ok (.inl (error 413 "request query too large"))
    else
      match decodeHttpReadQuery platform query with
      | .ok arguments => .ok (.inr arguments)
      | .error .invalid => .ok (.inl (error 400 "invalid query arguments"))
      | .error (.raised e) => .error e.through
  else if query ≠ [] then .ok (.inl (error 400 "command routes do not accept query arguments"))
  else if route.maxBytes < body.length then .ok (.inl (error 413 "request body too large"))
  else if body = [] then .ok (.inr [])
  else
    match platform.loads body with
    | .value (.obj decoded) => .ok (.inr decoded)
    | .value _ => .ok (.inl (error 400 "request body must be an object"))
    | .unicodeDecodeError => .ok (.inl (error 400 "invalid JSON request body"))
    | .jsonDecodeError => .ok (.inl (error 400 "invalid JSON request body"))
    | .recursionError => .error .recursionError
    | .valueError => .error .valueError

/-! ### The HTTP boundary -/

/-- What `_dispatch_application` makes of the end of a service: a response, or the mapping that the
service returned. -/
def Outcome.answered : Outcome → Response ⊕ Fields
  | .result members => .inr members
  | .rejected status descriptor => .inl ⟨status, descriptor⟩
  | .failed => .inl (error 500 "application service failed")

/-- `_dispatch_application`. -/
def dispatchApplication (request : ServiceRequest P) : Response ⊕ Fields :=
  (application.dispatch request).answered

/-- `CpkServerHttpProcessBoundary.handle` up to the dispatch. -/
def httpRequest (method path : String) (headers : Headers) (body query : List UInt8) :
    Except Raised (Response ⊕ ServiceRequest P) :=
  match matchHttpRoute platform composition method path with
  | none => .ok (.inl (error 404 "unknown route"))
  | some (route, parameters) =>
    match authenticate platform verify headers with
    | none => .ok (.inl (error 401 "invalid credential"))
    | some principal => do
      match ← decodeHttpPayload platform route body query with
      | .inl response => return .inl response
      | .inr payload =>
        return .inr ⟨"http", route.routeId, route.serviceRole, parameters, payload, principal⟩

/-- `CpkServerHttpProcessBoundary.handle`. -/
def httpHandle (method path : String) (headers : Headers) (body query : List UInt8) :
    Except Raised Response := do
  match ← httpRequest platform composition application.verify method path headers body query with
  | .inl response => return response
  | .inr request =>
    match dispatchApplication application request with
    | .inl response => return response
    | .inr result => return ⟨200, result⟩

/-! ### The MCP boundary -/

/-- The value of a header, under any spelling of its name. -/
def Headers.lookup (headers : Headers) (name : String) : Option String :=
  (headers.find? fun h => platform.lower h.1 == name).map (·.2)

/-- `_validate_mcp_headers`. -/
def validateMcpHeaders (headers : Headers) : Option Response :=
  if (headers.lookup platform "accept").isNone then some (error 400 "missing MCP Accept header")
  else if (headers.lookup platform "mcp-protocol-version").isNone then
    some (error 400 "missing MCP protocol version")
  else if (headers.lookup platform "mcp-method").isNone then
    some (error 400 "missing MCP method")
  else none

/-- `_mcp_route`. A binding of a parity contract names a known route. -/
def mcpRoute (reads : Bool) : Text → Except Raised (Option Route)
  | .surrogate _ => .ok none
  | .utf8 name =>
    match (if reads then composition.projections else composition.commands).find? fun b =>
        b.toolName == name with
    | some binding =>
      match composition.route binding.routeId with
      | some route => .ok (some route)
      | none => .error .valueError
    | none => .ok (composition.route name)

/-- `_decode_mcp_message`, for a message that is an object. -/
def decodeMcpMessage (message : Fields) (principal : P) :
    Except Raised (Response ⊕ ServiceRequest P) :=
  if !(message.get "jsonrpc").pyEq (.str "2.0") then
    .ok (.inl (error 400 "MCP message must be JSON-RPC 2.0"))
  else
    match (message.get "method").memberOf ["tools/call", "resources/read"] with
    | none => .error .typeError
    | some false => .ok (.inl (error 404 "unknown MCP method"))
    | some true =>
      match message.get "params" with
      | .obj params =>
        match Fields.get params "name" with
        | .str name =>
          match (if Fields.has params "arguments" then Fields.get params "arguments" else .obj []) with
          | .obj arguments => do
            let reads := (message.get "method").pyEq (.str "resources/read")
            match ← mcpRoute composition reads name with
            | none => return .inl (error 404 "unknown MCP operation")
            | some route =>
              if !reads && route.readOnly then
                return .inl (error 400 "tools/call requires a command route")
              else if reads && !route.readOnly then
                return .inl (error 400 "resources/read requires a read route")
              else return .inr ⟨"mcp", route.routeId, route.serviceRole, [], arguments, principal⟩
          | _ => .ok (.inl (error 400 "MCP arguments must be an object"))
        | _ => .ok (.inl (error 400 "MCP operation name must be text"))
      | _ => .ok (.inl (error 400 "MCP params must be an object"))

/-- `CpkServerMcpProcessBoundary.handle` up to the dispatch. A value without `get` raises. -/
def mcpRequest (headers : Headers) (message : Json) : Except Raised (Response ⊕ ServiceRequest P) :=
  match validateMcpHeaders platform headers with
  | some response => .ok (.inl response)
  | none =>
    match authenticate platform verify headers with
    | none => .ok (.inl (error 401 "invalid credential"))
    | some principal =>
      match message with
      | .obj members =>
        if (Fields.get members "method").pyEq
            (((headers.lookup platform "mcp-method").map fun value => Json.str value).getD .null) then
          decodeMcpMessage composition members principal
        else .ok (.inl (error 400 "MCP method header does not match message"))
      | _ => .error .attributeError

/-- `_message_id`. -/
def messageId : Json → Json
  | .obj message =>
    match Fields.get message "id" with
    | .str id => .str id
    | .int id => .int id
    | .bool id => .bool id
    | _ => .null
  | _ => .null

/-- `CpkServerMcpProcessBoundary.handle`. -/
def mcpHandle (headers : Headers) (message : Json) : Except Raised Response := do
  match ← mcpRequest platform composition application.verify headers message with
  | .inl response => return response
  | .inr request =>
    match dispatchApplication application request with
    | .inl response => return response
    | .inr result =>
      return ⟨200, [("jsonrpc", .str "2.0"), ("id", messageId message), ("result", .obj result)]⟩

/-- The `/mcp` handler of `create_app`, up to the dispatch. -/
def serveMcpRequest (headers : Headers) (body : List UInt8) :
    Except Raised (Response ⊕ ServiceRequest P) :=
  match platform.loads body with
  | .value message => mcpRequest platform composition verify headers message
  | .unicodeDecodeError => .ok (.inl (error 400 "invalid JSON request body"))
  | .jsonDecodeError => .ok (.inl (error 400 "invalid JSON request body"))
  | .recursionError => .error .recursionError
  | .valueError => .error .valueError

end Boundary

end Server

end ControlPlaneKit
