import ControlPlaneKit.Client.Cursor
import ControlPlaneKit.Client.Request

/-!
# A call reaches its service

The client and the server over one connection. Both build their tables from one list of routes, and
the libraries between them carry a request without changing it where its path has unreserved
characters only. Then a call of the client is a call of the service: the service of the route is
called once, with the coordinates and the payload the client passed and the principal of its
credential, and the client returns what the server made of the outcome.
-/

namespace ControlPlaneKit

namespace Client

open Server (PublicRoute Separated Template Segment)

/-! ### The connection -/

/-- What the HTTP libraries on both sides make of a request and of a response. -/
structure HttpStack where
  /-- `request.url.path`. -/
  path : List Char → String
  /-- `request.headers`. -/
  headers : PublicRequest → Server.Headers
  /-- `JSONResponse.render`; `none` where it raises. -/
  render : Json → Option (List UInt8)

/-- What the opener returns or raises for a response: an `HTTPError` outside the successes. A failure
of the server's handler is a response 500. -/
def HttpStack.opened (stack : HttpStack) (response : Server.Response) : Exchange :=
  match stack.render (.obj response.body) with
  | none => .httpError 500
  | some raw =>
    if 200 ≤ response.status ∧ response.status < 300 then
      .response (raw.take (maximumResponseBytes + 1))
    else .httpError response.status

section Server

variable {P : Type} (stack : HttpStack) (platform : Server.Platform)
  (composition : Server.Composition) (services : Server.Services P)

/-- The `http` handler of `create_app` at work: the calls it makes, and how it ends. -/
def serve (request : PublicRequest) :
    Server.Calls P × Except Server.Raised Server.Response :=
  (Server.httpServe platform composition services.verify request.method (stack.path request.path)
    (stack.headers request) (request.data.getD []) (request.query.getD [])).scripted
      services.answer []

/-- The exchange with that server. -/
def serverExchange (request : PublicRequest) : Exchange :=
  match (serve stack platform composition services request).2 with
  | .ok response => stack.opened response
  | .error _ => .httpError 500

/-- The principal of a bearer credential within the bound. -/
def principalOf (credential : List UInt8) : Option P :=
  if credential.length ≤ 4096 then services.verify credential else none

/-- The one call of the service of a request. -/
def callOf (request : Server.ServiceRequest P) : Server.Calls P :=
  [⟨⟨request.serviceRole, request⟩, services.service request.serviceRole request⟩]

/-- The response to a request, from how its service ended. -/
def answerOf (request : Server.ServiceRequest P) : Server.Response :=
  (services.service request.serviceRole request).answered.elim id fun result => ⟨200, result⟩

/-- The calls that are due for a credential and a request: none where the credential is refused. -/
def callsFor (credential : List UInt8) (request : P → Server.ServiceRequest P) : Server.Calls P :=
  (principalOf services credential).elim [] fun principal => callOf services (request principal)

/-- The response that is due for a credential and a request. -/
def responseFor (credential : List UInt8) (request : P → Server.ServiceRequest P) :
    Server.Response :=
  (principalOf services credential).elim (Server.error 401 "invalid credential") fun principal =>
    answerOf services (request principal)

end Server

/-- An unreserved character. -/
def isUnreservedChar (c : Char) : Bool :=
  decide (c.toNat < 128) && Url.isUnreserved (UInt8.ofNat c.toNat)

/-- `credential.decode("ascii")`. -/
def credentialText (credential : List UInt8) : List Char :=
  credential.map fun b => Char.ofNat b.toNat

/-- The scheme of the credential. -/
def scheme : List Char :=
  ['B', 'e', 'a', 'r', 'e', 'r']

/-- The value of the `Authorization` header. -/
def bearer (credential : List UInt8) : String :=
  String.ofList (scheme ++ ' ' :: credentialText credential)

/-- A credential of visible characters of ASCII. -/
def Visible (credential : List UInt8) : Prop :=
  credential ≠ [] ∧ ∀ b ∈ credential, 33 ≤ b.toNat ∧ b.toNat < 127

/-- The libraries carry a request as it is: a path of unreserved characters, and one `Authorization`
header. Error bodies can be rendered. -/
structure HttpStack.Transparent (stack : HttpStack) (platform : Server.Platform) : Prop where
  path : ∀ path : List Char, (∀ c ∈ path, c = '/' ∨ isUnreservedChar c = true) →
    stack.path path = String.ofList path
  authorization : ∀ request, Visible request.credential → ∃ name,
    (stack.headers request).filter (fun h => platform.lower h.1 == "authorization") =
      [(name, bearer request.credential)]
  errors : ∀ status message, (stack.render (.obj (Server.error status message).body)).isSome = true
  scheme : platform.lower (String.ofList Client.scheme) = "bearer"

/-! ### The server's side -/

section Serve

variable {P : Type} {stack : HttpStack} {platform : Server.Platform}
  {composition : Server.Composition} {services : Server.Services P} {routes : List PublicRoute}
  {route : PublicRoute} {values : List (String × String)} {credential : List UInt8}
  {query data : Option (List UInt8)} {payload : Fields} {path : List Char}

/-- **A bearer credential is extracted as it was sent**, up to the bound of the server. -/
theorem extractBearerCredential_bearer {headers : Server.Headers} {name : String}
    (hvisible : Visible credential) (hscheme : platform.lower (String.ofList scheme) = "bearer")
    (hheaders : headers.filter (fun h => platform.lower h.1 == "authorization") =
      [(name, bearer credential)]) :
    Server.extractBearerCredential platform headers =
      if credential.length ≤ 4096 then some credential else none := by
  have hletters : ∀ c ∈ scheme, (c != ' ') = true := List.all_eq_true.mp (by decide)
  have hvalue : (bearer credential).toList = scheme ++ ' ' :: credentialText credential :=
    String.toList_ofList
  have htake : (scheme ++ ' ' :: credentialText credential).takeWhile (· != ' ') = scheme := by
    rw [List.takeWhile_append_of_pos hletters, List.takeWhile_cons]
    simp
  have hdrop : ((scheme ++ ' ' :: credentialText credential).dropWhile (· != ' ')).tail =
      credentialText credential := by
    rw [List.dropWhile_append_of_pos hletters, List.dropWhile_cons]
    simp
  have hall : ∀ n < 256, (Char.ofNat n).toNat = n := by decide +kernel
  have hcode : ∀ b : UInt8, (Char.ofNat b.toNat).toNat = b.toNat := fun b => hall _ b.toNat_lt
  have hcharacters : (credentialText credential).all
      (fun c => decide (c.toNat < 128) && !Server.isSpace c) = true := by
    rw [List.all_eq_true, credentialText, List.forall_mem_map]
    intro b hb
    have hrange := hvisible.2 b hb
    simp only [Server.isSpace, hcode, Bool.and_eq_true, decide_eq_true_eq, Bool.not_eq_true',
      Bool.or_eq_false_iff, Bool.and_eq_false_iff, decide_eq_false_iff_not]
    omega
  have hbytes : (credentialText credential).map (fun c => UInt8.ofNat c.toNat) = credential := by
    rw [credentialText, List.map_map]
    refine (List.map_congr_left fun b _ => ?_).trans (List.map_id _)
    rw [Function.comp_apply, hcode, UInt8.ofNat_toNat]
    rfl
  have hnonempty : (credentialText credential).isEmpty = false := by
    rw [List.isEmpty_eq_false_iff, credentialText]
    exact fun h => hvisible.1 (List.map_eq_nil_iff.mp h)
  have hlength : (credentialText credential).length = credential.length := List.length_map _
  unfold Server.extractBearerCredential
  rw [hheaders]
  dsimp only
  rw [hvalue, htake, hdrop, hscheme, hcharacters, hnonempty, hlength, hbytes]
  simp

theorem isUnreservedChar_literal {c : Char} (h : Server.isLiteralCharacter c = true) :
    isUnreservedChar c = true := by
  have hall : ∀ n < 128, Server.isLiteralCharacter (Char.ofNat n) = true →
      isUnreservedChar (Char.ofNat n) = true := by decide +kernel
  have hsmall : c.toNat < 128 := by
    have halphanum : c.isAlphanum = ((decide (c.val ≥ 'A'.val ∧ c.val ≤ 'Z'.val) ||
        c.val ≥ 'a'.val && c.val ≤ 'z'.val) || c.val ≥ '0'.val && c.val ≤ '9'.val) := rfl
    simp only [Server.isLiteralCharacter, halphanum, Bool.or_eq_true, Bool.and_eq_true,
      decide_eq_true_eq, ge_iff_le, UInt32.le_iff_toNat_le, beq_iff_eq] at h
    have hval : c.val.toNat = c.toNat := rfl
    rcases h with (((⟨-, h⟩ | ⟨-, h⟩) | ⟨-, h⟩) | rfl) | rfl
    · exact Nat.lt_of_le_of_lt h (by decide)
    · exact Nat.lt_of_le_of_lt h (by decide)
    · exact Nat.lt_of_le_of_lt h (by decide)
    · decide
    · decide
  have hc := hall c.toNat hsmall
  rw [Char.ofNat_toNat] at hc
  exact hc h

theorem mem_joined {c : Char} {parts : List (List Char)} (h : c ∈ Server.joined parts) :
    c = '/' ∨ ∃ part ∈ parts, c ∈ part := by
  induction parts with
  | nil => cases h
  | cons part parts ih =>
    cases parts with
    | nil =>
      have hpart : c ∈ part := by simpa [Server.joined, List.intercalate] using h
      exact .inr ⟨part, List.mem_cons_self, hpart⟩
    | cons part' parts =>
      rw [Server.joined_cons (List.cons_ne_nil _ _), List.mem_append, List.mem_cons] at h
      rcases h with h | h | h
      · exact .inr ⟨part, List.mem_cons_self, h⟩
      · exact .inl h
      · refine (ih h).imp_right fun hother => ?_
        obtain ⟨other, hmem, hc⟩ := hother
        exact ⟨other, List.mem_cons_of_mem _ hmem, hc⟩

/-- A path of literals and plain values is carried as it is. -/
theorem unreserved_path (hvalues : ∀ m ∈ values, Plain m.2) :
    ∀ c ∈ Server.joined (route.template.segments.map (Segment.fill values)),
      c = '/' ∨ isUnreservedChar c = true := by
  intro c hc
  refine (mem_joined hc).imp_right fun hpart => ?_
  obtain ⟨part, hpart, hc⟩ := hpart
  obtain ⟨s, hs, rfl⟩ := List.mem_map.mp hpart
  cases s with
  | literal text => exact isUnreservedChar_literal (route.template.wellFormed _ hs c hc)
  | placeholder name =>
    rw [Segment.fill] at hc
    cases hlookup : values.lookup name with
    | none =>
      rw [hlookup] at hc
      cases hc
    | some value =>
      rw [hlookup] at hc
      obtain ⟨before, after, hmem, -⟩ := List.lookup_eq_some_iff.mp hlookup
      have hplain := (hvalues (name, value)
        (hmem ▸ List.mem_append_right before List.mem_cons_self)).2 c hc
      rw [isUnreservedChar, hplain.2, decide_eq_true hplain.1]
      rfl

/-- The values of a template's placeholders, in its order. -/
def argumentsOf (template : Template) (values : List (String × String)) : List (String × String) :=
  (template.segments.filterMap Segment.name?).map fun name => (name, (values.lookup name).getD "")

/-- Every placeholder of the template has a value, and the values are plain. -/
structure Fills (template : Template) (values : List (String × String)) : Prop where
  names : ∀ name ∈ template.segments.filterMap Segment.name?, (values.lookup name).isSome = true
  braceless : ∀ m ∈ values, Holes.Braceless m.1.toList
  plain : ∀ m ∈ values, Plain m.2

theorem lookup_arguments {names : List String} {name : String} (hname : name ∈ names) :
    ((names.map fun n => (n, (values.lookup n).getD "")).lookup name) =
      some ((values.lookup name).getD "") := by
  induction names with
  | nil => cases hname
  | cons n names ih =>
    rw [List.map_cons, List.lookup_cons]
    by_cases hn : name = n
    · simp [hn]
    · have hne : (name == n) = false := beq_eq_false_iff_ne.mpr hn
      rw [hne]
      exact ih ((List.mem_cons.mp hname).resolve_left hn)

/-- The path of a request is an instance of the template. -/
theorem Fills.instance {template : Template} (h : Fills template values) :
    template.Instance (Server.joined (template.segments.map (Segment.fill values)))
      (argumentsOf template values) where
  names := by
    rw [argumentsOf, List.map_map]
    exact List.map_id _
  values := by
    rw [argumentsOf, List.forall_mem_map]
    intro name hname
    obtain ⟨value, hvalue⟩ := Option.isSome_iff_exists.mp (h.names name hname)
    obtain ⟨before, after, hvalues, -⟩ := List.lookup_eq_some_iff.mp hvalue
    have hplain := h.plain (name, value) (hvalues ▸ List.mem_append_right _ List.mem_cons_self)
    rw [hvalue]
    refine ⟨hplain.1, fun hslash => ?_⟩
    exact absurd (hplain.2 _ hslash).2 (by decide)
  path := by
    refine congrArg Server.joined (List.map_congr_left fun s hs => ?_)
    cases s with
    | literal text => rfl
    | placeholder name =>
      rw [Segment.fill, Segment.fill, argumentsOf,
        lookup_arguments (List.mem_filterMap.mpr ⟨_, hs, rfl⟩)]
      rfl

/-- What the hypotheses of a call say about the two processes: one list of routes, and libraries
that carry requests as they are. -/
structure Connected (stack : HttpStack) (platform : Server.Platform)
    (composition : Server.Composition) (routes : List PublicRoute) : Prop where
  separated : Separated routes
  table : composition.routes = routes.map PublicRoute.contract
  transparent : stack.Transparent platform
  methods : ∀ route ∈ routes, platform.upper route.method = route.method

/-- **A request for a route is handled by the service of the route.** -/
theorem serve_route (hconnected : Connected stack platform composition routes)
    (hroute : route ∈ routes) (hfills : Fills route.template values) (hvisible : Visible credential)
    (hdecode : Server.decodeHttpPayload platform route.contract (data.getD []) (query.getD []) =
      .ok (.inr payload)) :
    serve stack platform composition services ⟨route.method,
      Server.joined (route.template.segments.map (Segment.fill values)), query, data, credential⟩ =
      (callsFor services credential fun principal => ⟨"http", route.routeId, route.serviceRole,
        argumentsOf route.template values, payload, principal⟩,
       .ok (responseFor services credential fun principal => ⟨"http", route.routeId,
        route.serviceRole, argumentsOf route.template values, payload, principal⟩)) := by
  have hplain : ∀ c ∈ Server.joined (route.template.segments.map (Segment.fill values)),
      c = '/' ∨ isUnreservedChar c = true := unreserved_path hfills.plain
  have hline : '\n' ∉ Server.joined (route.template.segments.map (Segment.fill values)) := by
    intro hmem
    rcases hplain _ hmem with h | h
    · exact absurd h (by decide)
    · exact absurd h (by decide)
  have hmatch : Server.matchHttpRoute platform composition route.method (String.ofList _) = _ :=
    hconnected.separated.matchHttpRoute hconnected.table hroute (hconnected.methods route hroute)
      hfills.instance hline
  obtain ⟨name, hheaders⟩ := hconnected.transparent.authorization ⟨route.method,
      Server.joined (route.template.segments.map (Segment.fill values)), query, data, credential⟩
      hvisible
  have hauthenticate : Server.authenticate platform services.verify (stack.headers ⟨route.method,
      Server.joined (route.template.segments.map (Segment.fill values)), query, data,
        credential⟩) = principalOf services credential := by
    rw [Server.authenticate, extractBearerCredential_bearer hvisible
      hconnected.transparent.scheme hheaders, principalOf]
    split <;> rfl
  rw [serve, hconnected.transparent.path _ hplain, Server.httpServe, Server.httpRequest, hmatch]
  dsimp only
  rw [hauthenticate, callsFor, responseFor]
  cases principalOf services credential with
  | none => rfl
  | some principal =>
    dsimp only
    rw [hdecode]
    rfl

end Serve

/-! ### Payloads -/

section Payload

variable {transport : Transport} {platform : Server.Platform} {ip : Interpreter}
  {route : PublicRoute} {payload : Fields} {data : List UInt8}

/-- **The body of a command is decoded to its payload**, with sorted members. -/
theorem decode_command (hloads : platform.loads = (Hooks.plain ip).loadsBytes ip.depthLimit)
    (hmethod : route.method ≠ "GET") (hfloats : Json.PlainFloats transport.floatText)
    (hlegible : (Hooks.plain ip).Legible transport.floatText ip.depthLimit (.obj payload))
    (hdata : commandData transport route payload = .ok data) :
    Server.decodeHttpPayload platform route.contract data [] = .ok (.inr payload.sorted) := by
  unfold commandData at hdata
  split at hdata
  · cases hdata
  cases htext : (Json.obj payload).encode transport.floatText with
  | none =>
    rw [htext] at hdata
    cases hdata
  | some text =>
    rw [htext] at hdata
    dsimp only at hdata
    split at hdata
    · cases hdata
    · next hsize =>
      obtain rfl := Except.ok.inj hdata
      have hloaded := Hooks.loadsBytes_encode (Hooks.keeps_plain ip) hfloats hlegible htext
      have hnonempty : Json.asciiBytes text ≠ [] := by
        obtain rfl := Json.eq_text_of_encode htext
        rw [Json.sorted_obj', Json.asciiBytes, Ne, List.map_eq_nil_iff, Json.text_obj]
        exact List.cons_ne_nil _ _
      have hlength : ¬ route.contract.maxBytes < (Json.asciiBytes text).length := by
        rw [Json.length_asciiBytes]
        exact hsize
      have hcommand : route.contract.method ≠ "GET" := hmethod
      rw [Server.decodeHttpPayload, if_neg hcommand, if_neg (not_not.mpr rfl), if_neg hlength,
        if_neg hnonempty, hloads, hloaded, Json.sorted_obj']

/-- The payloads of reads, with what the server makes of them: none, a limit, and a limit with the
cursor of the page before, in which no string has a space. -/
inductive ReadPayload (ip : Interpreter) (floatText : ℚ → List Char) : Fields → Fields → Prop where
  | empty : ReadPayload ip floatText [] []
  | first {limit : ℕ} (hlimit : 1 ≤ limit) (hdigits : (Nat.toDigits 10 limit).length ≤ 4300) :
      ReadPayload ip floatText [("limit", .int limit)] [("limit", .int limit)]
  | next {limit : ℕ} {cursor : Fields} (hlimit : 1 ≤ limit)
      (hdigits : (Nat.toDigits 10 limit).length ≤ 4300)
      (hdepth : Server.nesting (.obj cursor) ≤ 64) (hspace : (Json.obj cursor).hasSpace = false)
      (hlegible : (cursorHooks ip).Legible floatText ip.depthLimit (.obj cursor)) :
      ReadPayload ip floatText (pagePayload limit cursor) (pagePayload limit cursor.sorted)

theorem queryString_limit (floatText : ℚ → List Char) (limit : ℕ) :
    queryString floatText [("limit", .int limit)] = some (Url.urlencode
      [((String.ofList ['l', 'i', 'm', 'i', 't']).toByteArray.data.toList,
        (String.ofList (Nat.toDigits 10 limit)).toByteArray.data.toList)]) := by
  have hlimit : queryArgument floatText "limit" (.int limit) = Nat.toDigits 10 limit := by
    rw [queryArgument, if_pos rfl, toList_natText]
  rw [← hlimit]
  rfl

/-- **The query of a read is decoded to its payload**, with the members of the cursor sorted. -/
theorem decode_read {received : Fields} {query : List UInt8}
    (hloads : platform.loadsCursor = loadsCursor ip) (hfloats : Json.PlainFloats transport.floatText)
    (hpayload : ReadPayload ip transport.floatText payload received)
    (hquery : queryString transport.floatText payload = some query) (hne : payload ≠ []) :
    Server.decodeHttpReadQuery platform query = .ok received := by
  cases hpayload with
  | empty => exact absurd rfl hne
  | first hlimit hdigits =>
    rw [queryString_limit] at hquery
    obtain rfl := Option.some.inj hquery
    rw [Server.decodeHttpReadQuery, if_neg (Url.urlencode_ne_nil _ _),
      Url.splitOn_urlencode (List.cons_ne_nil _ _)]
    simp only [List.map_cons, List.map_nil, List.foldlM_cons, List.foldlM_nil, bind_pure]
    exact decodeField_limit hlimit hdigits
  | next hlimit hdigits hdepth hspace hlegible =>
    rw [queryString_page] at hquery
    obtain rfl := Option.some.inj hquery
    exact decode_page hloads hlimit hdigits hfloats hdepth hlegible hspace

end Payload

/-! ### Calls -/

section Calls

variable {P : Type} {stack : HttpStack} {platform : Server.Platform}
  {composition : Server.Composition} {services : Server.Services P} {transport : Transport}
  {ip : Interpreter} {route : PublicRoute} {values : List (String × String)}
  {credential : List UInt8} {payload received : Fields} {query data : Option (List UInt8)}

/-- The request that the service of a route gets. -/
def serviceRequest (route : PublicRoute) (values : List (String × String)) (payload : Fields)
    (principal : P) : Server.ServiceRequest P :=
  ⟨"http", route.routeId, route.serviceRole, argumentsOf route.template values, payload, principal⟩

/-- What a call asks of its two ends: the exchange of the transport is one with the server. -/
structure Wired (stack : HttpStack) (platform : Server.Platform) (composition : Server.Composition)
    (services : Server.Services P) (transport : Transport) (ip : Interpreter) : Prop
    extends Connected stack platform composition transport.routes where
  exchange : transport.exchange = serverExchange stack platform composition services
  floats : Json.PlainFloats transport.floatText
  loads : platform.loads = (Hooks.plain ip).loadsBytes ip.depthLimit
  loadsCursor : platform.loadsCursor = Client.loadsCursor ip

theorem profileCredential_visible (h : Visible credential) :
    profileCredential (.ok credential) = .ok credential := by
  have hnonempty : credential.isEmpty = false := List.isEmpty_eq_false_iff.mpr h.1
  have hbytes : (credential.all fun b => decide (b.toNat < 128) && !isSpaceByte b) = true := by
    refine List.all_eq_true.mpr fun b hb => ?_
    have hrange := h.2 b hb
    simp only [isSpaceByte, Bool.and_eq_true, decide_eq_true_eq, Bool.not_eq_true',
      Bool.or_eq_false_iff, Bool.and_eq_false_iff, decide_eq_false_iff_not]
    omega
  rw [profileCredential, hnonempty, hbytes]
  rfl

/-- **A call is a call of the service**: what is sent is handled once, and the call ends as the
response says. -/
theorem call_of_decoded (hwired : Wired stack platform composition services transport ip)
    (hroute : route ∈ transport.routes) (hfills : Fills route.template values)
    (hvisible : Visible credential)
    (hcontent : requestContent transport route payload = .ok (query, data))
    (hdecode : Server.decodeHttpPayload platform route.contract (data.getD []) (query.getD []) =
      .ok (.inr received)) :
    (∃ request, publicRequest transport route.routeId (parametersOf values) payload (.ok credential) =
        .ok request ∧ (serve stack platform composition services request).1 =
          callsFor services credential (serviceRequest route values received)) ∧
      call transport route.routeId (parametersOf values) payload (.ok credential) =
        callAnswer transport (stack.opened
          (responseFor services credential (serviceRequest route values received))) := by
  have hrequest : publicRequest transport route.routeId (parametersOf values) payload
      (.ok credential) = .ok ⟨route.method,
        Server.joined (route.template.segments.map (Segment.fill values)), query, data,
        credential⟩ := by
    rw [publicRequest, hwired.separated.find hroute]
    dsimp only
    rw [requestPath_plain hfills.names fun m hm => ⟨hfills.braceless m hm, hfills.plain m hm⟩, hcontent,
      profileCredential_visible hvisible]
    rfl
  have hserve : serve stack platform composition services _ = _ :=
    serve_route hwired.toConnected hroute hfills hvisible hdecode
  refine ⟨⟨_, hrequest, congrArg Prod.fst hserve⟩, ?_⟩
  rw [call, hrequest]
  dsimp only [bind, Except.bind]
  rw [hwired.exchange, serverExchange, hserve]
  rfl

/-- **A command is carried out by its service**: the client's call of a route other than a read ends
as the response of the server says, whose service got the route, the coordinates, the payload with
sorted members, and the principal of the credential, in one call. -/
theorem call_command (hwired : Wired stack platform composition services transport ip)
    (hroute : route ∈ transport.routes) (hmethod : route.method ≠ "GET")
    (hfills : Fills route.template values) (hvisible : Visible credential)
    (hlegible : (Hooks.plain ip).Legible transport.floatText ip.depthLimit (.obj payload))
    {data : List UInt8} (hdata : commandData transport route payload = .ok data) :
    (∃ request, publicRequest transport route.routeId (parametersOf values) payload (.ok credential) =
        .ok request ∧ (serve stack platform composition services request).1 =
          callsFor services credential (serviceRequest route values payload.sorted)) ∧
      call transport route.routeId (parametersOf values) payload (.ok credential) =
        callAnswer transport (stack.opened
          (responseFor services credential (serviceRequest route values payload.sorted))) := by
  have hcontent : requestContent transport route payload = .ok (none, some data) := by
    rw [requestContent, if_neg hmethod, hdata]
    rfl
  exact call_of_decoded hwired hroute hfills hvisible hcontent
    (decode_command hwired.loads hmethod hwired.floats hlegible hdata)

/-- **A read is carried out by its service**, where the query is within the bound of the route. -/
theorem call_read (hwired : Wired stack platform composition services transport ip)
    (hroute : route ∈ transport.routes) (hmethod : route.method = "GET")
    (hfills : Fills route.template values) (hvisible : Visible credential)
    (hpayload : ReadPayload ip transport.floatText payload received)
    (hcontent : requestContent transport route payload = .ok (query, data))
    (hsize : (query.getD []).length ≤ route.maxBytes) :
    (∃ request, publicRequest transport route.routeId (parametersOf values) payload (.ok credential) =
        .ok request ∧ (serve stack platform composition services request).1 =
          callsFor services credential (serviceRequest route values received)) ∧
      call transport route.routeId (parametersOf values) payload (.ok credential) =
        callAnswer transport (stack.opened
          (responseFor services credential (serviceRequest route values received))) := by
  refine call_of_decoded hwired hroute hfills hvisible hcontent ?_
  unfold requestContent at hcontent
  rw [if_pos hmethod] at hcontent
  have hread : route.contract.method = "GET" := hmethod
  have hbound : ¬ route.contract.maxBytes < (query.getD []).length := by
    have hmax : route.contract.maxBytes = route.maxBytes := rfl
    omega
  have hdecode : data = none ∧
      Server.decodeHttpReadQuery platform (query.getD []) = .ok received := by
    split at hcontent
    · next hnil =>
      subst hnil
      obtain ⟨rfl, rfl⟩ := Prod.mk.inj (Except.ok.inj hcontent)
      cases hpayload
      exact ⟨rfl, rfl⟩
    · next hne =>
      split at hcontent
      · cases hcontent
      · cases hquery : queryString transport.floatText payload with
        | none =>
          rw [hquery] at hcontent
          cases hcontent
        | some q =>
          rw [hquery] at hcontent
          obtain ⟨rfl, rfl⟩ := Prod.mk.inj (Except.ok.inj hcontent)
          exact ⟨rfl, decode_read hwired.loadsCursor hwired.floats hpayload hquery hne⟩
  obtain ⟨rfl, hdecode⟩ := hdecode
  have hbody : ¬ (none : Option (List UInt8)).getD [] ≠ [] := not_not.mpr rfl
  rw [Server.decodeHttpPayload, if_pos hread, if_neg hbody, if_neg hbound, hdecode]

end Calls

/-! ### One route -/

namespace Delivered

open Publication.Instance (interpreter)

/-- `/workspaces/{workspace_id}/runs`. -/
def template : Template :=
  ⟨[.literal [], .literal ['r', 'u', 'n', 's'], .placeholder "run_id"],
    by simp [Segment.WellFormed, Server.isLiteralCharacter, Server.isNameStart,
      Server.isNameCharacter], by decide⟩

/-- A command on a run. -/
def start : PublicRoute :=
  ⟨"command.run.start", "POST", template, false, "run", 4096⟩

/-- A read of a run. -/
def events : PublicRoute :=
  ⟨"read.run-events", "GET", template, true, "run", 4096⟩

/-- The server of these routes. -/
def composition : Server.Composition where
  routes := [start.contract, events.contract]
  projections := []
  commands := []
  known := List.forall_mem_nil _

/-- Its interpreter. -/
def platform : Server.Platform where
  upper s := s
  lower s := if s = String.ofList scheme then "bearer" else s
  loads := (Hooks.plain interpreter).loadsBytes interpreter.depthLimit
  loadsCursor := loadsCursor interpreter

/-- A service that returns the payload to anyone. -/
def services : Server.Services Unit where
  verify _ := some ()
  service _ request := .result request.payload

/-- Libraries that change nothing. -/
def stack : HttpStack where
  path := String.ofList
  headers request := [("authorization", bearer request.credential)]
  render v := some (Json.asciiBytes (v.text fun _ => []))

/-- The transport to that server. -/
def transport : Transport where
  routes := [start, events]
  floatText _ := []
  tooDeep _ := false
  loads := (Hooks.unique interpreter).loadsBytes interpreter.depthLimit
  exchange := serverExchange stack platform composition services

theorem wired : Wired stack platform composition services transport interpreter where
  separated := by
    refine ⟨by decide, by decide, ?_⟩
    have hmethods : start.method ≠ events.method := by decide
    simp only [transport, List.forall_mem_cons]
    exact ⟨⟨fun _ _ => trivial, fun h => absurd h hmethods, List.forall_mem_nil _⟩,
      ⟨fun h => absurd h.symm hmethods, fun _ _ => trivial, List.forall_mem_nil _⟩,
      List.forall_mem_nil _⟩
  table := rfl
  transparent := by
    have hname : platform.lower "authorization" = "authorization" := by decide
    refine ⟨fun _ _ => rfl, fun request _ => ⟨"authorization", ?_⟩, fun _ _ => rfl, by decide⟩
    rw [stack, List.filter_cons, hname]
    rfl
  methods _ _ := rfl
  exchange := rfl
  floats _ := List.forall_mem_nil _
  loads := rfl
  loadsCursor := rfl

/-- The coordinates of a call. -/
def values : List (String × String) :=
  [("run_id", "run-1")]

theorem fills : Fills template values := by
  have hname : Holes.Braceless "run_id".toList := by
    simp [Holes.Braceless]
  have hall : ("run-1".toList.all fun c =>
      decide (c.toNat < 128) && Url.isUnreserved (UInt8.ofNat c.toNat)) = true := by decide +kernel
  have hvalue : Plain "run-1" :=
    ⟨by decide, fun c hc => by simpa using List.all_eq_true.mp hall c hc⟩
  exact ⟨by decide, List.forall_mem_singleton.mpr hname, List.forall_mem_singleton.mpr hvalue⟩

/-- A credential. -/
def token : List UInt8 :=
  [116, 111, 107, 101, 110]

theorem visible : Visible token :=
  ⟨List.cons_ne_nil _ _, by simp [token]⟩

/-- What the command says, with its members out of order. -/
def payload : Fields :=
  [("steps", .int 3), ("mode", .str "live")]

theorem commandData_payload : ∃ data, commandData transport start payload = .ok data := by
  have hsteps : Json.Fits transport.floatText 1 (.int 3) := Json.fits_int (by decide)
  have hmode : Json.Fits transport.floatText (12 * 4 + 2) (.str "live") :=
    Json.fits_str (by decide)
  have hstepsKey : (Text.utf8 "steps").codes.length ≤ 5 := by decide
  have hmodeKey : (Text.utf8 "mode").codes.length ≤ 4 := by decide
  obtain ⟨text, htext, hlength⟩ := Json.fits_obj (.cons hstepsKey hsteps (.cons hmodeKey hmode .nil))
  have hsize : ¬ start.maxBytes < text.length := by
    have hmax : start.maxBytes = 4096 := rfl
    omega
  have hshallow : ¬ transport.tooDeep (.obj payload) = true := Bool.false_ne_true
  refine ⟨Json.asciiBytes text, ?_⟩
  rw [commandData, if_neg hshallow, payload, htext]
  exact if_neg hsize

theorem legible_payload : (Hooks.plain interpreter).Legible transport.floatText
    interpreter.depthLimit (.obj payload) := by
  refine Hooks.Readable.obj (by decide) ?_ ?_
  · simp only [payload, List.forall_mem_cons]
    exact ⟨Scan.isScanned_utf8 _, Scan.isScanned_utf8 _, List.forall_mem_nil _⟩
  · simp only [payload, List.forall_mem_cons]
    exact ⟨.int (by decide), .str (Scan.isScanned_utf8 _), List.forall_mem_nil _⟩

/-- The run is started with this payload, sorted. -/
theorem call_command_start :
    (∃ request, publicRequest transport "command.run.start" (parametersOf values) payload
        (.ok token) = .ok request ∧
      (serve stack platform composition services request).1 =
        callsFor services token (serviceRequest start values payload.sorted)) ∧
      call transport "command.run.start" (parametersOf values) payload (.ok token) =
        callAnswer transport (stack.opened
          (responseFor services token (serviceRequest start values payload.sorted))) := by
  obtain ⟨data, hdata⟩ := commandData_payload
  exact call_command wired List.mem_cons_self (by decide) fills visible legible_payload hdata

/-- The query of the read fits the route. -/
theorem length_query_limit : (Url.urlencode
    [((String.ofList ['l', 'i', 'm', 'i', 't']).toByteArray.data.toList,
      (String.ofList (Nat.toDigits 10 64)).toByteArray.data.toList)]).length ≤ events.maxBytes := by
  have hmax : events.maxBytes = 4096 := rfl
  have hdigits : Nat.toDigits 10 64 = ['6', '4'] := rfl
  have hlimit : (String.ofList ['l', 'i', 'm', 'i', 't']).toByteArray.data.toList =
      [108, 105, 109, 105, 116] := rfl
  have hnumber : (String.ofList ['6', '4']).toByteArray.data.toList = [54, 52] := rfl
  rw [hmax, hdigits, hlimit, hnumber]
  decide

/-- The first events of the run are read. -/
theorem call_read_events :
    (∃ request, publicRequest transport "read.run-events" (parametersOf values)
        [("limit", .int 64)] (.ok token) = .ok request ∧
      (serve stack platform composition services request).1 =
        callsFor services token (serviceRequest events values [("limit", .int 64)])) ∧
      call transport "read.run-events" (parametersOf values) [("limit", .int 64)]
          (.ok token) =
        callAnswer transport (stack.opened
          (responseFor services token (serviceRequest events values
            [("limit", .int 64)]))) := by
  have hmethod : events.method = "GET" := rfl
  have hcontent : requestContent transport events [("limit", .int 64)] =
      .ok (some (Url.urlencode
        [((String.ofList ['l', 'i', 'm', 'i', 't']).toByteArray.data.toList,
          (String.ofList (Nat.toDigits 10 64)).toByteArray.data.toList)]), none) := by
    have hquery : queryString transport.floatText [("limit", .int 64)] = some _ :=
      queryString_limit transport.floatText 64
    rw [requestContent, if_pos hmethod, if_neg (List.cons_ne_nil _ _), if_neg (by decide), hquery]
  have hdigits : (Nat.toDigits 10 64).length = 2 := rfl
  have hroute : events ∈ transport.routes := List.mem_cons_of_mem _ List.mem_cons_self
  have hid : events.routeId = "read.run-events" := rfl
  have hpayload : ReadPayload interpreter transport.floatText [("limit", .int 64)]
      [("limit", .int 64)] :=
    .first (show 1 ≤ 64 by omega) (show (Nat.toDigits 10 64).length ≤ 4300 by omega)
  have hdelivered := call_read wired hroute hmethod fills visible hpayload hcontent
    length_query_limit
  rw [hid] at hdelivered
  exact hdelivered

end Delivered

end Client

end ControlPlaneKit
