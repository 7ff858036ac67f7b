import ControlPlaneKit.Python.Holes
import ControlPlaneKit.Client.ReadBack
import ControlPlaneKit.Server.Contract

/-!
# Public requests

`PublicHttpTransport.call`: the placeholders of the route's template are filled with quoted
coordinates, the payload becomes a query string or a body, and the answer is decoded. The opener is
a parameter: it takes the request to a server and says how the exchange ended.
-/

namespace ControlPlaneKit

namespace Url

/-- `quote(value, safe="")`, for an encoded value. -/
def quote (bytes : List UInt8) : List Char :=
  bytes.flatMap fun b =>
    if isUnreserved b then [Char.ofNat b.toNat]
    else ['%', Char.ofNat (hexDigit (b.toNat / 16)).toNat, Char.ofNat (hexDigit (b.toNat % 16)).toNat]

end Url

namespace Client

open Server (Template Segment Loaded PublicRoute)

/-! ### Requests -/

/-- What `call` raises. -/
inductive TransportFailure where
  /-- `ClientTransportError(message)`. -/
  | transport (message : String)
  /-- `ClientAuthorizationError`. -/
  | authorization
  /-- `ClientConfigurationError(message)`. -/
  | configuration (message : String)
  | unicodeEncodeError
  | recursionError
deriving DecidableEq

/-- `urllib.request.Request`, without the endpoint in front of the path. -/
structure PublicRequest where
  method : String
  path : List Char
  query : Option (List UInt8)
  data : Option (List UInt8)
  /-- The token behind `Bearer`. -/
  credential : List UInt8

/-- How an exchange ends: a body that was read up to its bound, an `HTTPError`, or another error
that the transport catches. -/
inductive Exchange where
  | response (raw : List UInt8)
  | httpError (code : ℕ)
  | unavailable

/-- `MAXIMUM_RESPONSE_BYTES`. -/
def maximumResponseBytes : ℕ := 1048576

/-! ### The path -/

/-- The value of a path parameter, quoted. -/
def quoteCoordinate : Json → Except TransportFailure (List Char)
  | .str value =>
    if value.codes = [] then .error (.transport "public route coordinate is invalid")
    else
      match value.encodeUtf8 with
      | some bytes => .ok (Url.quote bytes)
      | none => .error .unicodeEncodeError
  | _ => .error (.transport "public route coordinate is invalid")

/-- The loop over the path parameters. -/
def fillPath (path : List Char) : List (String × Json) → Except TransportFailure (List Char)
  | [] => .ok path
  | (name, value) :: rest => do
    let quoted ← quoteCoordinate value
    fillPath (Holes.replace (Holes.braced name.toList) quoted path) rest

/-- The path of a request. -/
def requestPath (template : Template) (pathParameters : List (String × Json)) :
    Except TransportFailure (List Char) := do
  let path ← fillPath template.text pathParameters
  if '\x7b' ∈ path ∨ '\x7d' ∈ path then
    .error (.transport "public route coordinate is missing")
  else return path

/-! ### The call -/

section Call

/-- What a call uses of its process. -/
structure Transport where
  /-- `_routes`: the contract from which the table is built. -/
  routes : List PublicRoute
  /-- The digits of a float. -/
  floatText : ℚ → List Char
  /-- `json.dumps` runs out of stack on this value. -/
  tooDeep : Json → Bool
  /-- `json.loads(raw.decode("utf-8"), object_pairs_hook=_unique_object)`. -/
  loads : List UInt8 → Loaded
  /-- `_opener.open`, and `response.read`. -/
  exchange : PublicRequest → Exchange

variable (transport : Transport)

/-- The body of a command. -/
def commandData (route : PublicRoute) (payload : Fields) : Except TransportFailure (List UInt8) :=
  if transport.tooDeep (.obj payload) then .error .recursionError
  else
    match (Json.obj payload).encode transport.floatText with
    | none => .error (.transport "public request is invalid")
    | some text =>
      if route.maxBytes < text.length then
        .error (.transport "public request exceeds its contract")
      else .ok (Json.asciiBytes text)

/-- The query and the body of a request. -/
def requestContent (route : PublicRoute) (payload : Fields) :
    Except TransportFailure (Option (List UInt8) × Option (List UInt8)) :=
  if route.method = "GET" then
    if payload = [] then .ok (none, none)
    else if payload.any fun m => transport.tooDeep m.2 then .error .recursionError
    else
      match queryString transport.floatText payload with
      | some query => .ok (some query, none)
      | none => .error .unicodeEncodeError
  else do
    let data ← commandData transport route payload
    return (none, some data)

/-- `character.isspace()`, for a byte of ASCII. -/
def isSpaceByte (b : UInt8) : Bool :=
  (9 ≤ b.toNat && b.toNat ≤ 13) || (28 ≤ b.toNat && b.toNat ≤ 32)

/-- `ClientProfile.credential`, for what `_read_private_regular` returned or raised. -/
def profileCredential (file : Except String (List UInt8)) :
    Except TransportFailure (List UInt8) :=
  match file with
  | .error message => .error (.configuration message)
  | .ok value =>
    if !value.isEmpty && value.all fun b => decide (b.toNat < 128) && !isSpaceByte b then .ok value
    else .error (.configuration "credential is invalid")

/-- `call` up to the request. -/
def publicRequest (routeId : String) (pathParameters : List (String × Json)) (payload : Fields)
    (credentialFile : Except String (List UInt8)) : Except TransportFailure PublicRequest :=
  match transport.routes.reverse.find? fun route => route.routeId == routeId with
  | none => .error (.transport "public route is unsupported")
  | some route => do
    let path ← requestPath route.template pathParameters
    let content ← requestContent transport route payload
    let credential ← profileCredential credentialFile
    return ⟨route.method, path, content.1, content.2, credential⟩

/-- The answer that `call` returns for a body. -/
def decodeResponse (raw : List UInt8) : Except TransportFailure Fields :=
  if maximumResponseBytes < raw.length then
    .error (.transport "cpk-server response exceeds the client bound")
  else
    match transport.loads raw with
    | .value (.obj value) => .ok value
    | .recursionError => .error .recursionError
    | _ => .error (.transport "cpk-server response is invalid")

/-- How the end of an exchange ends the call. -/
def callAnswer : Exchange → Except TransportFailure Fields
  | .response raw => decodeResponse transport raw
  | .httpError code =>
    if code = 401 ∨ code = 403 then .error .authorization
    else .error (.transport "cpk-server request could not be verified")
  | .unavailable => .error (.transport "cpk-server request could not be verified")

/-- `PublicHttpTransport.call`. -/
def call (routeId : String) (pathParameters : List (String × Json)) (payload : Fields)
    (credentialFile : Except String (List UInt8)) : Except TransportFailure Fields := do
  let request ← publicRequest transport routeId pathParameters payload credentialFile
  callAnswer transport (transport.exchange request)

end Call

/-! ### The path of a request -/

section Path

variable {template : Template} {pathParameters : List (String × Json)} {path : List Char}

/-- A segment as a piece of the path. -/
def token : Segment → Holes.Token
  | .literal text => .plain text
  | .placeholder name => .hole name.toList

/-- A template as pieces. -/
def tokens (template : Template) : List Holes.Token :=
  (template.segments.map token).intersperse (.plain ['/'])

theorem written_intersperse (pieces : List Holes.Token) :
    Holes.written (pieces.intersperse (.plain ['/'])) = Server.joined (pieces.map Holes.Token.text) := by
  induction pieces with
  | nil => rfl
  | cons t pieces ih =>
    cases pieces with
    | nil => simp [Holes.written, Server.joined, List.intercalate]
    | cons t' pieces =>
      rw [List.intersperse_cons_cons, Holes.written_cons, Holes.written_cons, ih]
      exact (Server.joined_cons (List.cons_ne_nil _ _)).symm

theorem mem_intersperse {t separator : Holes.Token} {pieces : List Holes.Token}
    (h : t ∈ pieces.intersperse separator) : t = separator ∨ t ∈ pieces := by
  induction pieces with
  | nil => cases h
  | cons t' pieces ih =>
    cases pieces with
    | nil => exact .inr h
    | cons t'' pieces =>
      rw [List.intersperse_cons_cons, List.mem_cons, List.mem_cons] at h
      rcases h with rfl | rfl | h
      · exact .inr List.mem_cons_self
      · exact .inl rfl
      · exact (ih h).imp_right (List.mem_cons_of_mem _)

theorem map_intersperse (f : Holes.Token → Holes.Token) (separator : Holes.Token)
    (pieces : List Holes.Token) :
    (pieces.intersperse separator).map f = (pieces.map f).intersperse (f separator) := by
  induction pieces with
  | nil => rfl
  | cons t pieces ih =>
    cases pieces with
    | nil => rfl
    | cons t' pieces =>
      rw [List.intersperse_cons_cons, List.map_cons, List.map_cons, ih]
      rfl

theorem written_tokens : Holes.written (tokens template) = template.text := by
  have htext : ∀ s : Segment, (token s).text = s.text := by
    intro s
    cases s <;> rfl
  rw [tokens, written_intersperse, List.map_map, Template.text]
  exact congrArg Server.joined (List.map_congr_left fun s _ => htext s)

theorem clear_tokens : ∀ t ∈ tokens template, t.Clear := by
  have hliteral : ∀ c, Server.isLiteralCharacter c = true → c ≠ '\x7b' ∧ c ≠ '\x7d' := by
    rintro c hc
    constructor
    · rintro rfl
      exact absurd hc (by decide)
    · rintro rfl
      exact absurd hc (by decide)
  have hname : ∀ c, Server.isNameCharacter c = true → c ≠ '\x7b' ∧ c ≠ '\x7d' := by
    rintro c hc
    constructor
    · rintro rfl
      exact absurd hc (by decide)
    · rintro rfl
      exact absurd hc (by decide)
  intro t ht
  rcases mem_intersperse ht with rfl | ht
  · rintro c hc
    rw [List.mem_singleton.mp hc]
    decide
  · obtain ⟨s, hs, rfl⟩ := List.mem_map.mp ht
    have hformed := template.wellFormed s hs
    cases s with
    | literal text => exact fun c hc => hliteral c (hformed c hc)
    | placeholder name => exact fun c hc => hname c (hformed.2 c hc)

/-- A text that `quote` leaves as it is, and not empty. -/
def Plain (value : String) : Prop :=
  value ≠ "" ∧ ∀ c ∈ value.toList, c.toNat < 128 ∧ Url.isUnreserved (UInt8.ofNat c.toNat) = true

theorem quoteCoordinate_plain {value : String} (h : Plain value) :
    quoteCoordinate (.str (.utf8 value)) = .ok value.toList := by
  have hbytes : value.toByteArray.data.toList = value.toList.map fun c => UInt8.ofNat c.toNat := by
    rw [← toByteArray_ascii fun c hc => (h.2 c hc).1, String.ofList_toList]
  have hquote : Url.quote (value.toList.map fun c => UInt8.ofNat c.toNat) = value.toList := by
    have hplain := h.2
    generalize value.toList = cs at hplain
    rw [Url.quote, List.flatMap_map]
    induction cs with
    | nil => rfl
    | cons c cs ih =>
      rw [List.forall_mem_cons] at hplain
      rw [List.flatMap_cons, if_pos hplain.1.2, ih hplain.2, UInt8.toNat_ofNat',
        Nat.mod_eq_of_lt (by omega), Char.ofNat_toNat]
      rfl
  have hne : (Text.utf8 value).codes ≠ [] := by
    intro hnil
    refine h.1 (String.toList_eq_nil_iff.mp ?_)
    exact List.map_eq_nil_iff.mp hnil
  rw [quoteCoordinate, if_neg hne]
  dsimp only [Text.encodeUtf8]
  rw [hbytes, hquote]

variable {values : List (String × String)}

/-- Path parameters as the caller gives them. -/
def parametersOf (values : List (String × String)) : List (String × Json) :=
  values.map fun m => (m.1, .str (.utf8 m.2))

theorem fillPath_plain (h : ∀ m ∈ values, Plain m.2) : fillPath path (parametersOf values) =
    .ok ((values.map fun m => (m.1.toList, m.2.toList)).foldl
      (fun text v => Holes.replace (Holes.braced v.1) v.2 text) path) := by
  induction values generalizing path with
  | nil => rfl
  | cons m values ih =>
    rw [List.forall_mem_cons] at h
    rw [parametersOf, List.map_cons, fillPath, quoteCoordinate_plain h.1]
    exact ih h.2

/-- A piece of the path, filled. -/
theorem filled_token {s : Segment}
    (hs : ∀ name, s = .placeholder name → (values.lookup name).isSome = true) :
    (token s).filled (values.map fun m => (m.1.toList, m.2.toList)) =
      .plain (s.fill values) := by
  cases s with
  | literal text => rfl
  | placeholder name =>
    -- a name is its list of characters
    have hlookup : (values.map fun m => (m.1.toList, m.2.toList)).lookup name.toList =
        (values.lookup name).map String.toList := by
      clear hs
      induction values with
      | nil => rfl
      | cons m values ih =>
        rw [List.map_cons, List.lookup_cons, List.lookup_cons, ih]
        by_cases hm : name = m.1
        · simp [hm]
        · have hne : (name == m.1) = false := beq_eq_false_iff_ne.mpr hm
          have hlist : (name.toList == m.1.toList) = false := by
            rw [beq_eq_false_iff_ne]
            exact fun heq => hm (String.toList_injective heq)
          rw [hne, hlist]
    obtain ⟨value, hvalue⟩ := Option.isSome_iff_exists.mp (hs name rfl)
    rw [token, Holes.Token.filled, hlookup, hvalue, Segment.fill, hvalue]
    rfl

/-- **The path of a request is the template with its placeholders replaced**, whatever the order of
the parameters. -/
theorem requestPath_plain
    (hnames : ∀ name ∈ template.segments.filterMap Segment.name?, (values.lookup name).isSome = true)
    (hvalues : ∀ m ∈ values, Holes.Braceless m.1.toList ∧ Plain m.2) :
    requestPath template (parametersOf values) =
      .ok (Server.joined (template.segments.map (Segment.fill values))) := by
  have hbraceless : ∀ v ∈ values.map fun m => (m.1.toList, m.2.toList),
      Holes.Braceless v.1 ∧ Holes.Braceless v.2 := by
    rw [List.forall_mem_map]
    intro m hm
    refine ⟨(hvalues m hm).1, fun c hc => ?_⟩
    have hplain := ((hvalues m hm).2.2 c hc).2
    constructor
    · rintro rfl
      exact absurd hplain (by decide)
    · rintro rfl
      exact absurd hplain (by decide)
  have hpath : fillPath template.text (parametersOf values) =
      .ok (Holes.written ((tokens template).map
        (Holes.Token.filled (values.map fun m => (m.1.toList, m.2.toList))))) := by
    rw [fillPath_plain fun m hm => (hvalues m hm).2, ← written_tokens,
      Holes.foldl_replace hbraceless clear_tokens]
  have hfilled : (tokens template).map
      (Holes.Token.filled (values.map fun m => (m.1.toList, m.2.toList))) =
      ((template.segments.map fun s => Holes.Token.plain (s.fill values)).intersperse
        (.plain ['/'])) := by
    rw [tokens, map_intersperse, List.map_map]
    refine congrArg₂ _ rfl (List.map_congr_left fun s hs => filled_token ?_)
    rintro name rfl
    exact hnames name (List.mem_filterMap.mpr ⟨_, hs, rfl⟩)
  -- no placeholder is left, so no brace is
  have hclear : ∀ t ∈ (tokens template).map
      (Holes.Token.filled (values.map fun m => (m.1.toList, m.2.toList))), t.Clear := by
    rw [List.forall_mem_map]
    intro t ht
    exact (clear_tokens t ht).filled hbraceless
  have hbrace := Holes.brace_mem_written hclear
  rw [hfilled] at hbrace hpath
  have hnone : ¬ ∃ name, Holes.Token.hole name ∈
      (template.segments.map fun s => Holes.Token.plain (s.fill values)).intersperse
        (.plain ['/']) := by
    rintro ⟨name, hmem⟩
    rcases mem_intersperse hmem with h | h
    · cases h
    · obtain ⟨s, -, h⟩ := List.mem_map.mp h
      cases h
  have hpieces : Holes.written ((template.segments.map fun s =>
      Holes.Token.plain (s.fill values)).intersperse (.plain ['/'])) =
      Server.joined (template.segments.map (Segment.fill values)) := by
    rw [written_intersperse, List.map_map]
    rfl
  unfold requestPath
  rw [hpath]
  refine (if_neg fun h => hnone (hbrace.mp h)).trans ?_
  rw [hpieces]
  rfl

end Path

end Client

end ControlPlaneKit
