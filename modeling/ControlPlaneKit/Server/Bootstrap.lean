import Mathlib.Data.List.Dedup
import Mathlib.Data.List.Sort
import ControlPlaneKit.Python.Codes
import ControlPlaneKit.Server.Credentials

/-!
# The bootstrap configuration of the server

`CpkServerBootstrapConfiguration.from_environment` and `_credential_verifier`, whose errors `main`
reports, and the checks that `create_app` makes afterwards on the configuration they admit. The two
sets of checks were written apart; `createAppChecks_composes` says where they agree.

The environment, the JSON decoder, and the enumerations and validators of other packages are
parameters (`Platform`). Databases, packages and the registry of secret providers are taken to be
there and to accept.
-/

namespace ControlPlaneKit

namespace Server

namespace Bootstrap

open Credentials

/-! ### What other packages decide -/

/-- `RuntimeKind`. -/
inductive RuntimeKind where
  | docker
  | other (value : String)
deriving DecidableEq

/-- `IngressAuthorityProviderKind`. -/
inductive IngressKind where
  | cloudflare
  | other (value : String)
deriving DecidableEq

/-- A decoder's hook for the pairs of an object; `none` where it raises. -/
abbrev PairsHook := List (Text × Json) → Option Json

/-- The standard library, and the types of other packages the bootstrap uses. -/
structure Platform where
  /-- The value of a decimal digit. -/
  digit : ℕ → Option ℕ
  /-- `json.loads` with a hook for the pairs of an object. -/
  loads : PairsHook → Text → Option Json
  /-- `RuntimeDispatcherBootstrapConfiguration.from_process_value`, with the message of its error. -/
  runtimeDispatcher : Text → Except String (List RuntimeKind)
  /-- `IngressAuthorityProviderKind(value)`. -/
  ingressKind : Text → Option IngressKind
  /-- The values of `PolicyScope`. -/
  policyScopes : List Text
  /-- `PrincipalKind(value)`. -/
  isPrincipalKind : Json → Bool
  /-- `SecretReference(value)` accepts. -/
  isSecretReference : Text → Bool
  /-- `DnsOverHttpsPublicAddressResolver(endpoint)` accepts. -/
  isDnsEndpoint : Text → Bool

/-- The exceptions of the bootstrap. -/
inductive Failure where
  /-- `BootstrapConfigurationError`. -/
  | bootstrap (message : String)
  /-- `AssertionError`. -/
  | assertion (message : String)
  | unicodeEncode
  /-- `CredentialAuthenticationError`. -/
  | credential
deriving DecidableEq

/-- `raise BootstrapConfigurationError(message)`. -/
def bootstrapError {α : Type} (message : String) : Except Failure α :=
  .error (.bootstrap message)

/-- `if not condition: raise BootstrapConfigurationError(message)`. -/
def require (condition : Bool) (message : String) : Except Failure Unit :=
  if condition then .ok () else bootstrapError message

/-- The variables of a process. -/
abbrev Environment := String → Option Text

/-- `_required`. -/
def required (values : Environment) (name : String) : Except Failure Text :=
  match values name with
  | none => bootstrapError (name ++ " is required")
  | some value =>
    if value.codes = [] then bootstrapError (name ++ " is required") else .ok value

/-- `values.get(name, default)`. -/
def getD (values : Environment) (name default : String) : Text :=
  (values name).getD (.utf8 default)

/-! ### Bounded texts and registries -/

/-- Printable ASCII without blanks, of one to `maximum` characters. -/
def isBoundedAscii (maximum : ℕ) (codes : List ℕ) : Bool :=
  decide (1 ≤ codes.length ∧ codes.length ≤ maximum) &&
    codes.all fun n => decide (0x21 ≤ n ∧ n ≤ 0x7E)

/-- `_bounded_ascii`. -/
def boundedAscii (value : Option Text) (name : String) (maximum : ℕ) : Except Failure Text :=
  match value with
  | none => bootstrapError (name ++ " must be bounded ASCII")
  | some value =>
    if isBoundedAscii maximum value.codes then .ok value
    else bootstrapError (name ++ " must be bounded ASCII")

/-- `len(value.encode("utf-8"))`. -/
def encodedLength : Text → Except Failure ℕ
  | .utf8 s => .ok s.utf8ByteSize
  | .surrogate _ => .error .unicodeEncode

/-- `_unique_json_mapping`. -/
def uniqueJsonMapping : PairsHook := fun pairs =>
  if (pairs.map (·.1)).Nodup then some (.obj pairs) else none

/-- The pairs of an object without a hook: the last value of a key stays. -/
def plainMapping : PairsHook := fun pairs =>
  some (.obj (pairs.foldl (fun members m => members.filter (fun n => n.1 != m.1) ++ [m]) []))

/-- The error of a malformed registry. -/
def registryMalformed {α : Type} : Except Failure α :=
  bootstrapError "secret provider bootstrap registry is malformed"

/-- An entry of a registry: nonempty texts of bounded length. The length of the value is taken only
where the key is short enough. -/
def registryEntry : Text × Json → Except Failure (Text × Text)
  | (key, .str item) =>
    if key.codes = [] ∨ item.codes = [] then registryMalformed
    else do
      let keyLength ← encodedLength key
      if 2048 < keyLength then registryMalformed
      else
        let itemLength ← encodedLength item
        if 4096 < itemLength then registryMalformed else return (key, item)
  | _ => registryMalformed

/-- `_validated_bootstrap_mapping_json`. -/
def validatedBootstrapMappingJson (platform : Platform) (value : Text) :
    Except Failure (List (Text × Text)) := do
  let length ← encodedLength value
  if ¬ (1 ≤ length ∧ length ≤ 65536) then registryMalformed
  else
    match platform.loads uniqueJsonMapping value with
    | some (.obj decoded) =>
      if ¬ (1 ≤ decoded.length ∧ decoded.length ≤ 64) then registryMalformed
      else decoded.mapM registryEntry
    | _ => registryMalformed

/-! ### Static credentials -/

/-- `WorkspaceGrant`. -/
structure WorkspaceGrant where
  workspaceId : Text
  scopes : List Text
deriving DecidableEq

/-- The scopes of a grant; `none` where they are not unique names. -/
def scopeNames (platform : Platform) (scopes : List Json) : Option (List Text) :=
  match scopes.mapM fun
    | .str scope => some scope
    | _ => none with
  | some names =>
    if names = [] ∨ platform.policyScopes.length < names.length ∨ ¬ names.Nodup then none
    else some names
  | none => none

/-- One grant of `_static_workspace_grants_from_mapping`. -/
def staticWorkspaceGrant (platform : Platform) (member : Text × Json) :
    Except Failure WorkspaceGrant := do
  require (decide (member.1 ≠ .utf8 "*")) "wildcard workspace grants are forbidden"
  let workspaceId ← boundedAscii (some member.1) "static workspace grant id" 128
  match member.2 with
  | .arr scopes =>
    match scopeNames platform scopes with
    | none => bootstrapError "static workspace grant scopes must be unique closed scope names"
    | some names =>
      if names.all fun name => decide (name ∈ platform.policyScopes) then return ⟨workspaceId, names⟩
      else bootstrapError "static workspace grant includes an unknown policy scope"
  | _ => bootstrapError "static workspace grant scopes must be unique closed scope names"

/-- `_static_workspace_grants_from_mapping`. -/
def staticWorkspaceGrantsFromMapping (platform : Platform) (raw : Json) :
    Except Failure (List WorkspaceGrant) :=
  match raw with
  | .obj members =>
    if members = [] ∨ 64 < members.length then
      bootstrapError "static workspace grants must map exact workspace ids to scopes"
    else do
      let grants ← members.mapM (staticWorkspaceGrant platform)
      return grants.insertionSort fun a b => a.workspaceId.le b.workspaceId = true
  | _ => bootstrapError "static workspace grants must map exact workspace ids to scopes"

/-- JSON in a bounded ASCII text. -/
def boundedJson (platform : Platform) (value : Text) (maximum : ℕ) (name : String) :
    Except Failure Json :=
  if 1 ≤ value.codes.length ∧ value.codes.length ≤ maximum ∧
      value.codes.all fun n => decide (n < 128) then
    match platform.loads plainMapping value with
    | some raw => .ok raw
    | none => bootstrapError (name ++ " must be bounded JSON")
  else bootstrapError (name ++ " must be bounded JSON")

/-- `_static_workspace_grants`. -/
def staticWorkspaceGrants (platform : Platform) (value : Text) :
    Except Failure (List WorkspaceGrant) := do
  let raw ← boundedJson platform value 65536 "CPK_CONTROL_AUTH_STATIC_WORKSPACE_GRANTS_JSON"
  staticWorkspaceGrantsFromMapping platform raw

/-- A principal of the static table, with its credential. -/
structure StaticPrincipal where
  credential : List UInt8
  subjectId : Text
  kind : Json
  grants : List WorkspaceGrant

/-- `item.get(key) if isinstance(item.get(key), str) else None`. -/
def textMember (item : Fields) (key : String) : Option Text :=
  match item.get key with
  | .str value => some value
  | _ => none

/-- The bytes of an ASCII text. -/
def asciiBytes (value : Text) : List UInt8 :=
  value.codes.map UInt8.ofNat

/-- One principal of `_static_principals`. -/
def staticPrincipal (platform : Platform) (item : Json) (index : ℕ) :
    Except Failure StaticPrincipal :=
  match item with
  | .obj members => do
    let credential ← boundedAscii (textMember members "credential")
      s!"static principal {index} credential" 4096
    let subjectId ← boundedAscii (textMember members "subject_id")
      s!"static principal {index} subject_id" 128
    require (platform.isPrincipalKind (Fields.get members "kind"))
      "static principal kind must be operator, service, or worker"
    let grants ← staticWorkspaceGrantsFromMapping platform (Fields.get members "workspace_grants")
    require (admitsCredential (asciiBytes credential))
      "static principal must contain valid credential and grants"
    return ⟨asciiBytes credential, subjectId, Fields.get members "kind", grants⟩
  | _ => bootstrapError "static principal must be an object"

/-- `_static_principals`. -/
def staticPrincipals (platform : Platform) (value : Text) :
    Except Failure (List StaticPrincipal) := do
  let raw ← boundedJson platform value 131072 "CPK_CONTROL_AUTH_STATIC_PRINCIPALS_JSON"
  match raw with
  | .arr items =>
    if items = [] ∨ 16 < items.length then
      bootstrapError "CPK_CONTROL_AUTH_STATIC_PRINCIPALS_JSON must list principals"
    else
      let principals ← items.zipIdx.mapM fun item => staticPrincipal platform item.1 item.2
      require (decide (principals.map (·.credential)).Nodup)
        "static principal credentials must be unique"
      return principals
  | _ => bootstrapError "CPK_CONTROL_AUTH_STATIC_PRINCIPALS_JSON must list principals"

/-- The static credentials of a configuration. -/
structure StaticCredentials where
  credential : Option (List UInt8)
  grants : List WorkspaceGrant
  principals : List StaticPrincipal

/-- The static credentials that the environment selects. -/
def staticCredentials (platform : Platform) (values : Environment) (verifier : Text) :
    Except Failure StaticCredentials :=
  let credential := values "CPK_CONTROL_AUTH_STATIC_CREDENTIAL"
  let grants := values "CPK_CONTROL_AUTH_STATIC_WORKSPACE_GRANTS_JSON"
  let principals := values "CPK_CONTROL_AUTH_STATIC_PRINCIPALS_JSON"
  if verifier = .utf8 "static-development" then
    match principals with
    | some principals => do
      require (credential.isNone && grants.isNone)
        ("CPK_CONTROL_AUTH_STATIC_PRINCIPALS_JSON must not be mixed " ++
          "with single static credential configuration")
      return ⟨none, [], ← staticPrincipals platform principals⟩
    | none =>
      match credential with
      | none => bootstrapError ("CPK_CONTROL_AUTH_VERIFIER=static-development requires " ++
          "CPK_CONTROL_AUTH_STATIC_CREDENTIAL")
      | some credential => do
        require (!credential.codes.isEmpty) ("CPK_CONTROL_AUTH_VERIFIER=static-development requires " ++
          "CPK_CONTROL_AUTH_STATIC_CREDENTIAL")
        require (credential.codes.all fun n => decide (n < 128))
          "CPK_CONTROL_AUTH_STATIC_CREDENTIAL must be bounded ASCII"
        require (admitsCredential (asciiBytes credential))
          "CPK_CONTROL_AUTH_STATIC_CREDENTIAL must be bounded and nonempty"
        match grants with
        | none => bootstrapError ("CPK_CONTROL_AUTH_VERIFIER=static-development requires " ++
            "CPK_CONTROL_AUTH_STATIC_WORKSPACE_GRANTS_JSON")
        | some grants =>
          require (!grants.codes.isEmpty) ("CPK_CONTROL_AUTH_VERIFIER=static-development requires " ++
            "CPK_CONTROL_AUTH_STATIC_WORKSPACE_GRANTS_JSON")
          return ⟨some (asciiBytes credential), ← staticWorkspaceGrants platform grants, []⟩
  else do
    require credential.isNone ("CPK_CONTROL_AUTH_STATIC_CREDENTIAL requires " ++
      "CPK_CONTROL_AUTH_VERIFIER=static-development")
    require grants.isNone ("CPK_CONTROL_AUTH_STATIC_WORKSPACE_GRANTS_JSON requires " ++
      "CPK_CONTROL_AUTH_VERIFIER=static-development")
    require principals.isNone ("CPK_CONTROL_AUTH_STATIC_PRINCIPALS_JSON requires " ++
      "CPK_CONTROL_AUTH_VERIFIER=static-development")
    return ⟨none, [], []⟩

/-! ### The configuration -/

/-- `CpkServerBootstrapConfiguration`. -/
structure Configuration where
  mode : Text
  controlAuthVerifier : Text
  credentials : StaticCredentials
  port : ℤ
  /-- `runtime_dispatcher.runtime_kinds`. -/
  runtimeKinds : List RuntimeKind
  /-- `ingress_interpreters.provider_kinds`. -/
  ingressKinds : List IngressKind
  productMaterialResolver : Text
  productSecretValuesJson : Option Text
  materialProviderRoutesJson : Option Text
  materialProviderBootstrapFilesJson : Option Text
  storeEndpoints : List (String × Text)
  publicDnsResolverEndpoint : Text
  gatewayProbeSigner : Text
  gatewayProbeGrantLifetimeSeconds : ℤ

section FromEnvironment

variable (platform : Platform)

/-- The kinds of a list separated by commas. -/
def ingressKinds (parts : List (List ℕ)) : Except Failure (List IngressKind) :=
  parts.mapM fun part =>
    match platform.ingressKind (Text.ofCodes part) with
    | some kind => .ok kind
    | none => bootstrapError "ingress interpreter bootstrap includes an unknown provider kind"

/-- `IngressInterpreterBootstrapConfiguration.from_process_value`. -/
def ingressFromProcessValue (value : Text) : Except Failure (List IngressKind) :=
  if value = .utf8 "none" then .ok []
  else do
    let parts := ((value.codes.splitOn 44).map Strip.strip).filter (!·.isEmpty)
    require (!parts.isEmpty) "CPK_INGRESS_INTERPRETERS must be one of: none, cloudflare"
    let kinds ← ingressKinds platform parts
    require (decide kinds.Nodup) "ingress interpreter providers must be unique"
    return kinds

/-- `RuntimeDispatcherBootstrapConfiguration.from_process_value`, its error renamed. -/
def runtimeFromProcessValue (value : Text) : Except Failure (List RuntimeKind) :=
  match platform.runtimeDispatcher value with
  | .ok kinds => .ok kinds
  | .error message => bootstrapError message

/-- An integer variable in a range. -/
def integerIn (value : Text) (low high : ℤ) (malformed outside : String) : Except Failure ℤ :=
  match intOfText platform.digit value with
  | none => bootstrapError malformed
  | some n => if low ≤ n ∧ n ≤ high then .ok n else bootstrapError outside

/-- The names of the store endpoints. -/
def storeNames : List String :=
  ["CPK_WORKPLACE_DATABASE_URL", "CPK_ACTIVITY_HISTORY_DATABASE_URL",
    "CPK_OBSERVER_STATE_DATABASE_URL", "CPK_GRAPH_TOPOLOGY_DATABASE_URL"]

/-- Variables of the former credential bootstrap. -/
def legacyNames : List String :=
  ["CPK_IMAGE_PULL_CREDENTIAL_RESOLVER", "DOCKER_CONFIG", "CPK_DOCKER_AUTH_CONFIG",
    "CPK_DOCKER_AUTH_CONFIG_JSON"]

/-- An optional text that is not there or empty. -/
def isBlank : Option Text → Bool
  | none => true
  | some value => value.codes.isEmpty

/-- The checks on the probe signer and its resolver. -/
def checkSigner (resolver signer : Text) : Except Failure Unit := do
  require (decide (signer = .utf8 "none" ∨ signer = .utf8 "ed25519"))
    "CPK_GATEWAY_PROBE_SIGNER must be one of: none, ed25519"
  require (decide (signer = .utf8 "ed25519" → resolver = .utf8 "provider"))
    "CPK_GATEWAY_PROBE_SIGNER=ed25519 requires provider-backed secret resolution"

/-- The check that a local resolver is of use. -/
def checkLocalUse (resolver signer : Text) (runtime : List RuntimeKind)
    (ingress : List IngressKind) : Except Failure Unit :=
  require (decide ¬ (resolver = .utf8 "local-development" ∧ .docker ∉ runtime ∧
      .cloudflare ∉ ingress ∧ signer = .utf8 "none"))
    ("CPK_PRODUCT_MATERIAL_RESOLVER=local-development requires a Docker runtime interpreter, " ++
      "Cloudflare ingress interpreter, or gateway probe signer")

/-- The checks on the values of the local resolver. -/
def checkLocalValues (resolver : Text) (secrets routes files : Option Text) :
    Except Failure Unit :=
  if resolver = .utf8 "local-development" then do
    require (!isBlank secrets) ("CPK_PRODUCT_MATERIAL_RESOLVER=local-development requires " ++
      "CPK_PRODUCT_SECRET_VALUES_JSON")
    require (routes.isNone && files.isNone)
      "local-development secret resolution cannot use provider bootstrap"
  else require secrets.isNone ("CPK_PRODUCT_SECRET_VALUES_JSON requires " ++
    "CPK_PRODUCT_MATERIAL_RESOLVER=local-development")

/-- The checks on the registries of the provider resolver. -/
def checkProvider (resolver : Text) (routes files : Option Text) : Except Failure Unit :=
  if resolver = .utf8 "provider" then
    match routes, files with
    | some routes, some files => do
      require (!routes.codes.isEmpty && !files.codes.isEmpty)
        "provider-backed secret resolution requires endpoint and credential-file registries"
      let _ ← validatedBootstrapMappingJson platform routes
      let _ ← validatedBootstrapMappingJson platform files
      return ()
    | _, _ => bootstrapError
        "provider-backed secret resolution requires endpoint and credential-file registries"
  else require (routes.isNone && files.isNone)
    "secret provider bootstrap requires CPK_PRODUCT_MATERIAL_RESOLVER=provider"

/-- The check that Cloudflare has a resolver. -/
def checkCloudflare (resolver : Text) (ingress : List IngressKind) : Except Failure Unit :=
  require (decide (.cloudflare ∈ ingress → resolver = .utf8 "provider"))
    "CPK_INGRESS_INTERPRETERS=cloudflare requires provider-backed secret resolution"

/-- `CpkServerBootstrapConfiguration.from_environment`. -/
def fromEnvironment (values : Environment) : Except Failure Configuration := do
  let mode ← required values "CPK_SERVER_MODE"
  let verifier := getD values "CPK_CONTROL_AUTH_VERIFIER" "none"
  let portText ← required values "CPK_PORT"
  let runtime ← runtimeFromProcessValue platform (← required values "CPK_RUNTIME_INTERPRETERS")
  let ingress ← ingressFromProcessValue platform (getD values "CPK_INGRESS_INTERPRETERS" "none")
  let resolver := getD values "CPK_PRODUCT_MATERIAL_RESOLVER" "none"
  let secrets := values "CPK_PRODUCT_SECRET_VALUES_JSON"
  let routes := values "CPK_MATERIAL_PROVIDER_ROUTES_JSON"
  let files := values "CPK_MATERIAL_PROVIDER_BOOTSTRAP_FILES_JSON"
  let endpoint ← boundedAscii
    (some (getD values "CPK_PUBLIC_DNS_RESOLVER_ENDPOINT" "https://1.1.1.1/dns-query"))
    "CPK_PUBLIC_DNS_RESOLVER_ENDPOINT" 2048
  let signer := getD values "CPK_GATEWAY_PROBE_SIGNER" "none"
  let stores ← storeNames.mapM fun name => do return (name, ← required values name)
  require (decide (mode = .utf8 "execution-capable")) "CPK_SERVER_MODE must be execution-capable"
  require (decide (verifier = .utf8 "none" ∨ verifier = .utf8 "static-development"))
    "CPK_CONTROL_AUTH_VERIFIER must be one of: none, static-development"
  let credentials ← staticCredentials platform values verifier
  let port ← integerIn platform portText 1 65535 "CPK_PORT must be an integer"
    "CPK_PORT must be in TCP port range"
  require (!legacyNames.any fun name => (values name).isSome)
    "legacy Docker credential bootstrap is unavailable"
  require (decide (resolver = .utf8 "none" ∨ resolver = .utf8 "provider" ∨
      resolver = .utf8 "local-development"))
    "CPK_PRODUCT_MATERIAL_RESOLVER must be one of: none, provider, local-development"
  checkSigner resolver signer
  let lifetime ← integerIn platform (getD values "CPK_GATEWAY_PROBE_GRANT_LIFETIME_SECONDS" "60")
    1 300 "CPK_GATEWAY_PROBE_GRANT_LIFETIME_SECONDS must be an integer"
    "CPK_GATEWAY_PROBE_GRANT_LIFETIME_SECONDS must be from 1 through 300"
  checkLocalUse resolver signer runtime ingress
  checkLocalValues resolver secrets routes files
  checkProvider platform resolver routes files
  checkCloudflare resolver ingress
  return ⟨mode, verifier, credentials, port, runtime, ingress, resolver, secrets, routes, files,
    stores, endpoint, signer, lifetime⟩

end FromEnvironment

/-- `_credential_verifier`, as far as it raises. -/
def credentialVerifier (config : Configuration) : Except Failure Unit :=
  if config.controlAuthVerifier = .utf8 "static-development" then
    if ¬ config.credentials.principals = [] then
      if admitsCredentials (config.credentials.principals.map (·.credential)) then .ok ()
      else .error .credential
    else
      match config.credentials.credential with
      | none => .error (.assertion "")
      | some credential =>
        if admitsCredential credential then .ok () else .error .credential
  else bootstrapError "no credential verifier is configured for cpk-server"

/-! ### The checks of the application -/

/-- `_SecretProviderComposition`: which of its parts are there. -/
structure SecretProvider where
  authorizedResolver : Bool
  secretCustodian : Bool

section CreateApp

variable (platform : Platform) (config : Configuration)

/-- `operations_database_url`. -/
def operationsDatabaseUrl : Except Failure Unit :=
  require (decide ((config.storeEndpoints.map (·.2)).dedup.length = 1))
    ("current operations package requires all CPK_*_DATABASE_URL values to point at one " ++
      "instance database")

/-- The local values as a registry of secret references. -/
def localRegistry (secrets : Text) : Except Failure Unit := do
  let values ← validatedBootstrapMappingJson platform secrets
  require (values.all fun m => platform.isSecretReference m.1)
    "local development secret registry is malformed"

/-- `_secret_provider_composition`. -/
def secretProviderComposition : Except Failure SecretProvider :=
  if config.productMaterialResolver = .utf8 "none" then .ok ⟨false, false⟩
  else if config.productMaterialResolver = .utf8 "local-development" then
    match config.productSecretValuesJson with
    | none => .error (.assertion "local development secret values validated")
    | some secrets => do
      localRegistry platform secrets
      return ⟨true, false⟩
  else if config.productMaterialResolver ≠ .utf8 "provider" then
    .error (.assertion "product material resolver set validated at bootstrap")
  else
    match config.materialProviderRoutesJson, config.materialProviderBootstrapFilesJson with
    | some routes, some files => do
      let _ ← validatedBootstrapMappingJson platform routes
      let _ ← validatedBootstrapMappingJson platform files
      return ⟨true, true⟩
    | _, _ => .error (.assertion "provider bootstrap registries validated")

/-- `_runtime_adapter`. -/
def runtimeAdapter : Except Failure Unit :=
  config.runtimeKinds.forM fun
    | .docker => .ok ()
    | .other kind => bootstrapError s!"no runtime interpreter provider is available for '{kind}'"

/-- `_runtime_observer`. -/
def runtimeObserver : Except Failure Unit :=
  require (decide (config.runtimeKinds = [] ∨ config.runtimeKinds = [.docker]))
    "runtime observation requires exactly one Docker runtime provider"

/-- `_ingress_interpreters`. -/
def ingressInterpreters (provider : SecretProvider) : Except Failure Unit :=
  config.ingressKinds.forM fun
    | .cloudflare => require (provider.authorizedResolver && provider.secretCustodian)
        "Cloudflare ingress requires provider-backed secret resolution"
    | .other kind => bootstrapError s!"no ingress interpreter provider is available for '{kind}'"

/-- `_gateway_probe_service` and `_gateway_probe_dispatcher`. -/
def gatewayProbeDispatcher (provider : SecretProvider) : Except Failure Unit :=
  if config.gatewayProbeSigner = .utf8 "none" then .ok ()
  else do
    require (decide (config.gatewayProbeSigner = .utf8 "ed25519"))
      "gateway probe signer is disabled"
    require provider.authorizedResolver
      "gateway probe signer requires provider-backed secret resolution"
    require (platform.isDnsEndpoint config.publicDnsResolverEndpoint)
      "public DNS resolver bootstrap is malformed"

/-- The checks that `create_app` makes on a configuration, in order. -/
def createAppChecks : Except Failure Unit := do
  operationsDatabaseUrl config
  let provider ← secretProviderComposition platform config
  runtimeAdapter config
  ingressInterpreters config provider
  runtimeObserver config
  gatewayProbeDispatcher platform config provider

end CreateApp

/-! ### What the bootstrap admits -/

section Admitted

variable {platform : Platform} {values : Environment} {config : Configuration}

theorem require_eq_ok {condition : Bool} {message : String} :
    require condition message = .ok () ↔ condition = true := by
  cases condition <;> simp [require, bootstrapError]

/-- What the later checks rely on in a configuration. -/
structure Admitted (platform : Platform) (config : Configuration) : Prop where
  resolver : config.productMaterialResolver = .utf8 "none" ∨
    config.productMaterialResolver = .utf8 "provider" ∨
      config.productMaterialResolver = .utf8 "local-development"
  signer : config.gatewayProbeSigner = .utf8 "none" ∨ config.gatewayProbeSigner = .utf8 "ed25519"
  signerProvider : config.gatewayProbeSigner = .utf8 "ed25519" →
    config.productMaterialResolver = .utf8 "provider"
  secrets : config.productMaterialResolver = .utf8 "local-development" →
    ∃ secrets, config.productSecretValuesJson = some secrets
  registries : config.productMaterialResolver = .utf8 "provider" → ∃ routes files rs fs,
    config.materialProviderRoutesJson = some routes ∧
      config.materialProviderBootstrapFilesJson = some files ∧
      validatedBootstrapMappingJson platform routes = .ok rs ∧
      validatedBootstrapMappingJson platform files = .ok fs
  cloudflare : .cloudflare ∈ config.ingressKinds →
    config.productMaterialResolver = .utf8 "provider"
  stores : config.storeEndpoints ≠ []

theorem checkSigner_ok {resolver signer : Text} (h : checkSigner resolver signer = .ok ()) :
    (signer = .utf8 "none" ∨ signer = .utf8 "ed25519") ∧
      (signer = .utf8 "ed25519" → resolver = .utf8 "provider") := by
  obtain ⟨⟨⟩, hsigner, hprovider⟩ := Raise.bind_eq_ok.mp h
  exact ⟨of_decide_eq_true (require_eq_ok.mp hsigner),
    of_decide_eq_true (require_eq_ok.mp hprovider)⟩

theorem checkLocalValues_ok {resolver : Text} {secrets routes files : Option Text}
    (h : checkLocalValues resolver secrets routes files = .ok ())
    (hlocal : resolver = .utf8 "local-development") : ∃ t, secrets = some t := by
  rw [checkLocalValues, if_pos hlocal] at h
  obtain ⟨⟨⟩, hsecrets, -⟩ := Raise.bind_eq_ok.mp h
  cases secrets with
  | none => exact absurd (require_eq_ok.mp hsecrets) (by decide)
  | some t => exact ⟨t, rfl⟩

theorem checkProvider_ok {resolver : Text} {routes files : Option Text}
    (h : checkProvider platform resolver routes files = .ok ())
    (hprovider : resolver = .utf8 "provider") : ∃ r f rs fs, routes = some r ∧ files = some f ∧
      validatedBootstrapMappingJson platform r = .ok rs ∧
      validatedBootstrapMappingJson platform f = .ok fs := by
  unfold checkProvider at h
  rw [if_pos hprovider] at h
  cases routes with
  | none => cases h
  | some r =>
    cases files with
    | none => cases h
    | some f =>
      simp only [Raise.bind_eq_ok] at h
      obtain ⟨⟨⟩, -, rs, hr, fs, hf, -⟩ := h
      exact ⟨r, f, rs, fs, rfl, rfl, hr, hf⟩

/-- The bootstrap checks what the application relies on. -/
theorem admitted_of_fromEnvironment (h : fromEnvironment platform values = .ok config) :
    Admitted platform config := by
  simp only [fromEnvironment, Raise.bind_eq_ok] at h
  obtain ⟨mode, -, portText, -, runtimeText, -, runtime, -, ingress, -, endpoint, -, stores, hstores,
    ⟨⟩, -, ⟨⟩, -, credentials, -, port, -, ⟨⟩, -, ⟨⟩, hresolver, ⟨⟩, hsigner, lifetime, -,
    ⟨⟩, -, ⟨⟩, hsecrets, ⟨⟩, hprovider, ⟨⟩, hcloudflare, h⟩ := h
  cases h
  obtain ⟨hsigner, hsignerProvider⟩ := checkSigner_ok hsigner
  refine ⟨of_decide_eq_true (require_eq_ok.mp hresolver), hsigner, hsignerProvider,
    checkLocalValues_ok hsecrets, checkProvider_ok hprovider,
    of_decide_eq_true (require_eq_ok.mp hcloudflare), ?_⟩
  simp only [storeNames, List.mapM_cons, Raise.bind_eq_ok] at hstores
  obtain ⟨first, -, rest, -, hcons⟩ := hstores
  cases hcons
  exact List.cons_ne_nil first rest

end Admitted

/-! ### Where the two sets of checks agree -/

section Composes

variable {platform : Platform} {values : Environment} {config : Configuration}

/-- The store endpoints are one database. -/
def OneDatabase (config : Configuration) : Prop :=
  ∀ m ∈ config.storeEndpoints, ∀ n ∈ config.storeEndpoints, m.2 = n.2

/-- The values of the local resolver are a registry of secret references. -/
def LocalRegistered (platform : Platform) (config : Configuration) : Prop :=
  config.productMaterialResolver = .utf8 "local-development" →
    ∀ secrets, config.productSecretValuesJson = some secrets →
      localRegistry platform secrets = .ok ()

/-- An interpreter is there for every kind that is selected, and the resolver of the probe signer
accepts its endpoint. -/
structure Provided (platform : Platform) (config : Configuration) : Prop where
  runtime : config.runtimeKinds = [] ∨ config.runtimeKinds = [.docker]
  ingress : ∀ kind ∈ config.ingressKinds, kind = .cloudflare
  endpoint : config.gatewayProbeSigner = .utf8 "ed25519" →
    platform.isDnsEndpoint config.publicDnsResolverEndpoint = true

/-- Every exception of the computation satisfies `P`. -/
def Raises {α : Type} (P : Failure → Prop) (x : Except Failure α) : Prop :=
  ∀ e, x = .error e → P e

section Raises

variable {α β : Type} {P : Failure → Prop}

theorem Raises.ok (a : α) : Raises P (.ok a) :=
  fun _ h => by cases h

theorem Raises.bootstrap (hP : ∀ message, P (.bootstrap message)) (message : String) :
    Raises P (bootstrapError message : Except Failure α) := by
  intro e h
  cases h
  exact hP message

theorem Raises.bind {x : Except Failure α} {f : α → Except Failure β} (hx : Raises P x)
    (hf : ∀ a, Raises P (f a)) : Raises P (x >>= f) := by
  intro e h
  rcases Raise.bind_eq_error.mp h with h | ⟨a, -, h⟩
  · exact hx e h
  · exact hf a e h

theorem Raises.require (hP : ∀ message, P (.bootstrap message)) (condition : Bool)
    (message : String) : Raises P (require condition message) := by
  cases condition
  · exact Raises.bootstrap hP message
  · exact Raises.ok ()

theorem Raises.forM {f : α → Except Failure Unit} (hf : ∀ a, Raises P (f a)) (l : List α) :
    Raises P (l.forM f) := by
  induction l with
  | nil => exact Raises.ok ()
  | cons a l ih => exact (hf a).bind fun _ => ih

theorem Raises.mapM {f : α → Except Failure β} (hf : ∀ a, Raises P (f a)) (l : List α) :
    Raises P (l.mapM f) := by
  induction l with
  | nil => exact Raises.ok []
  | cons a l ih =>
    rw [List.mapM_cons]
    exact (hf a).bind fun _ => ih.bind fun _ => Raises.ok _

theorem raises_encodedLength (hP : P .unicodeEncode) (t : Text) : Raises P (encodedLength t) := by
  cases t with
  | utf8 s => exact Raises.ok _
  | surrogate codes =>
    intro e h
    cases h
    exact hP

/-- A registry is refused, or its text cannot be encoded. -/
theorem raises_validated (hP : ∀ message, P (.bootstrap message)) (hunicode : P .unicodeEncode)
    (platform : Platform) (value : Text) :
    Raises P (validatedBootstrapMappingJson platform value) := by
  refine (raises_encodedLength hunicode value).bind fun length => ?_
  split
  · exact Raises.bootstrap hP _
  · split
    · split
      · exact Raises.bootstrap hP _
      · refine Raises.mapM (fun entry => ?_) _
        unfold registryEntry
        split
        · split
          · exact Raises.bootstrap hP _
          · refine (raises_encodedLength hunicode _).bind fun _ => ?_
            split
            · exact Raises.bootstrap hP _
            · refine (raises_encodedLength hunicode _).bind fun _ => ?_
              split
              · exact Raises.bootstrap hP _
              · exact Raises.ok _
        · exact Raises.bootstrap hP _
    · exact Raises.bootstrap hP _

/-- The dispatch over the selected kinds raises configuration errors only. -/
theorem raises_dispatch (hP : ∀ message, P (.bootstrap message)) (provider : SecretProvider) :
    Raises P (do
      runtimeAdapter config
      ingressInterpreters config provider
      runtimeObserver config
      gatewayProbeDispatcher platform config provider) := by
  refine (Raises.forM (fun kind => ?_) _).bind fun _ => (Raises.forM (fun kind => ?_) _).bind
    fun _ => (Raises.require hP _ _).bind fun _ => ?_
  · cases kind
    · exact Raises.ok ()
    · exact Raises.bootstrap hP _
  · cases kind
    · exact Raises.require hP _ _
    · exact Raises.bootstrap hP _
  · unfold gatewayProbeDispatcher
    split
    · exact Raises.ok ()
    · exact (Raises.require hP _ _).bind fun _ => (Raises.require hP _ _).bind fun _ =>
        Raises.require hP _ _

end Raises

theorem forM_eq_ok {α : Type} {f : α → Except Failure Unit} {l : List α} :
    l.forM f = .ok () ↔ ∀ a ∈ l, f a = .ok () := by
  induction l with
  | nil => exact ⟨fun _ _ h => absurd h List.not_mem_nil, fun _ => rfl⟩
  | cons a l ih =>
    have hcons : (a :: l).forM f = (f a >>= fun _ => l.forM f) := rfl
    rw [hcons, Raise.bind_eq_ok, List.forall_mem_cons, ← ih]
    exact ⟨fun ⟨⟨⟩, h⟩ => h, fun h => ⟨(), h⟩⟩

/-- The dispatch returns exactly when an interpreter is there for every kind, given that the
bootstrap has checked the resolver. -/
theorem dispatch_eq_ok (hadmitted : Admitted platform config) {provider : SecretProvider}
    (hprovider : config.productMaterialResolver = .utf8 "provider" → provider = ⟨true, true⟩) :
    (do
      runtimeAdapter config
      ingressInterpreters config provider
      runtimeObserver config
      gatewayProbeDispatcher platform config provider) = .ok () ↔ Provided platform config := by
  simp only [Raise.bind_eq_ok]
  constructor
  · rintro ⟨⟨⟩, -, ⟨⟩, hingress, ⟨⟩, hobserver, hgateway⟩
    refine ⟨of_decide_eq_true (require_eq_ok.mp hobserver), fun kind hkind => ?_, fun hsigner => ?_⟩
    · have hdispatched := forM_eq_ok.mp hingress kind hkind
      cases kind with
      | cloudflare => rfl
      | other value => cases hdispatched
    · unfold gatewayProbeDispatcher at hgateway
      rw [if_neg (by rw [hsigner]; decide)] at hgateway
      obtain ⟨⟨⟩, -, hrest⟩ := Raise.bind_eq_ok.mp hgateway
      obtain ⟨⟨⟩, -, hendpoint⟩ := Raise.bind_eq_ok.mp hrest
      exact require_eq_ok.mp hendpoint
  · rintro ⟨hruntime, hingress, hendpoint⟩
    refine ⟨(), forM_eq_ok.mpr fun kind hkind => ?_, (), forM_eq_ok.mpr fun kind hkind => ?_, (),
      require_eq_ok.mpr (decide_eq_true hruntime), ?_⟩
    · rcases hruntime with hnone | hdocker
      · rw [hnone] at hkind
        cases hkind
      · rw [hdocker, List.mem_singleton] at hkind
        rw [hkind]
    · have hcloudflare := hingress kind hkind
      subst hcloudflare
      rw [hprovider (hadmitted.cloudflare hkind)]
      rfl
    · unfold gatewayProbeDispatcher
      split
      next => rfl
      next hsigner =>
        have hed := hadmitted.signer.resolve_left hsigner
        rw [hprovider (hadmitted.signerProvider hed)]
        simp only [Raise.bind_eq_ok]
        exact ⟨(), require_eq_ok.mpr (decide_eq_true hed), (), rfl,
          require_eq_ok.mpr (hendpoint hed)⟩

/-- What the secret providers are composed of. -/
theorem secretProviderComposition_cases (hadmitted : Admitted platform config) :
    (config.productMaterialResolver = .utf8 "provider" ∧
      secretProviderComposition platform config = .ok ⟨true, true⟩) ∨
    (config.productMaterialResolver ≠ .utf8 "provider" ∧
      (secretProviderComposition platform config = .ok ⟨false, false⟩ ∨
      ∃ secrets, config.productMaterialResolver = .utf8 "local-development" ∧
        config.productSecretValuesJson = some secrets ∧
        secretProviderComposition platform config =
          (localRegistry platform secrets >>= fun _ => .ok ⟨true, false⟩))) := by
  unfold secretProviderComposition
  rcases hadmitted.resolver with hnone | hprovider | hlocal
  · rw [if_pos hnone, hnone]
    exact .inr ⟨by decide, .inl rfl⟩
  · obtain ⟨routes, files, rs, fs, hroutes, hfiles, hrs, hfs⟩ := hadmitted.registries hprovider
    have hnone : ¬ config.productMaterialResolver = .utf8 "none" := by rw [hprovider]; decide
    have hlocal : ¬ config.productMaterialResolver = .utf8 "local-development" := by
      rw [hprovider]
      decide
    rw [if_neg hnone, if_neg hlocal, if_neg (not_not.mpr hprovider), hroutes, hfiles]
    simp only [hrs, hfs, Raise.ok_bind]
    exact .inl ⟨hprovider, rfl⟩
  · obtain ⟨secrets, hsecrets⟩ := hadmitted.secrets hlocal
    have hnone : ¬ config.productMaterialResolver = .utf8 "none" := by rw [hlocal]; decide
    rw [if_neg hnone, if_pos hlocal, hsecrets]
    refine .inr ⟨by rw [hlocal]; decide, .inr ⟨secrets, hlocal, rfl, rfl⟩⟩

theorem operationsDatabaseUrl_of_oneDatabase (hadmitted : Admitted platform config)
    (hone : OneDatabase config) : operationsDatabaseUrl config = .ok () := by
  refine require_eq_ok.mpr (decide_eq_true ?_)
  obtain ⟨m, stores, hstores⟩ := List.exists_cons_of_ne_nil hadmitted.stores
  have hsame : config.storeEndpoints.map (·.2) = List.replicate (stores.length + 1) m.2 := by
    rw [List.eq_replicate_iff]
    refine ⟨by simp [hstores], fun t ht => ?_⟩
    obtain ⟨n, hn, rfl⟩ := List.mem_map.mp ht
    exact hone n hn m (by simp [hstores])
  rw [hsame, List.replicate_dedup (Nat.succ_ne_zero _), List.length_singleton]

/-- The checks of the application on an admitted configuration. No assertion fails. With one
database and well-formed local values they return exactly when an interpreter is there for every
kind that is selected, and raise a configuration error otherwise. -/
theorem createAppChecks_composes (h : fromEnvironment platform values = .ok config) :
    (∀ message, createAppChecks platform config ≠ .error (.assertion message)) ∧
    (OneDatabase config → LocalRegistered platform config →
      (createAppChecks platform config = .ok () ↔ Provided platform config) ∧
      ∀ e, createAppChecks platform config = .error e → ∃ message, e = .bootstrap message) := by
  have hadmitted := admitted_of_fromEnvironment h
  constructor
  · have hraises : Raises (fun e => ∀ message, e ≠ .assertion message)
        (createAppChecks platform config) := by
      refine (Raises.require (fun _ _ h => by cases h) _ _).bind fun _ => Raises.bind ?_ fun _ =>
        raises_dispatch (fun _ _ h => by cases h) _
      rcases secretProviderComposition_cases hadmitted with
        ⟨-, hcomposed⟩ | ⟨-, hcomposed | ⟨secrets, -, -, hcomposed⟩⟩
      · rw [hcomposed]
        exact Raises.ok _
      · rw [hcomposed]
        exact Raises.ok _
      · rw [hcomposed]
        exact ((raises_validated (fun _ _ h => by cases h) (fun _ h => by cases h) _ _).bind fun _ =>
          Raises.require (fun _ _ h => by cases h) _ _).bind fun _ => Raises.ok _
    exact fun message herror => hraises _ herror message rfl
  · intro hone hlocal
    have hcomposed : ∃ provider, secretProviderComposition platform config = .ok provider ∧
        (config.productMaterialResolver = .utf8 "provider" → provider = ⟨true, true⟩) := by
      rcases secretProviderComposition_cases hadmitted with
        ⟨-, hcomposed⟩ | ⟨hnot, hcomposed | ⟨secrets, hresolver, hsecrets, hcomposed⟩⟩
      · exact ⟨_, hcomposed, fun _ => rfl⟩
      · exact ⟨_, hcomposed, fun hprovider => absurd hprovider hnot⟩
      · rw [hlocal hresolver secrets hsecrets] at hcomposed
        exact ⟨_, hcomposed, fun hprovider => absurd hprovider hnot⟩
    obtain ⟨provider, hprovider, htrue⟩ := hcomposed
    rw [createAppChecks, operationsDatabaseUrl_of_oneDatabase hadmitted hone, Raise.ok_bind,
      hprovider, Raise.ok_bind]
    exact ⟨dispatch_eq_ok hadmitted htrue, raises_dispatch (fun message => ⟨message, rfl⟩) provider⟩

end Composes

namespace Instance

/-- A platform that knows the runtimes `docker` and `aws` and reads one grant. -/
def platform : Platform where
  digit n := if 48 ≤ n ∧ n ≤ 57 then some (n - 48) else none
  loads hook _ := hook [(.utf8 "workspace-a", .arr [.str "plan:request"])]
  runtimeDispatcher value :=
    if value = .utf8 "none" then .ok []
    else if value = .utf8 "docker" then .ok [.docker]
    else if value = .utf8 "aws" then .ok [.other "aws"]
    else .error "runtime dispatcher bootstrap includes an unknown runtime kind"
  ingressKind value := if value = .utf8 "cloudflare" then some .cloudflare else none
  policyScopes := [.utf8 "plan:request"]
  isPrincipalKind _ := true
  isSecretReference _ := true
  isDnsEndpoint _ := true

/-- The URL of the database. -/
def database : Text := "postgres://db/cpk"

/-- A runtime that no interpreter is there for. -/
def values : Environment :=
  fun name => [("CPK_SERVER_MODE", .utf8 "execution-capable"),
    ("CPK_PORT", .utf8 "8080"), ("CPK_RUNTIME_INTERPRETERS", .utf8 "aws"),
    ("CPK_CONTROL_AUTH_VERIFIER", .utf8 "static-development"),
    ("CPK_CONTROL_AUTH_STATIC_CREDENTIAL", .utf8 "credential"),
    ("CPK_CONTROL_AUTH_STATIC_WORKSPACE_GRANTS_JSON",
      .utf8 "\x7b\"workspace-a\":[\"plan:request\"]\x7d"),
    ("CPK_WORKPLACE_DATABASE_URL", database), ("CPK_ACTIVITY_HISTORY_DATABASE_URL", database),
    ("CPK_OBSERVER_STATE_DATABASE_URL", database),
    ("CPK_GRAPH_TOPOLOGY_DATABASE_URL", database)].lookup name

/-- The configuration that the bootstrap admits. -/
def config : Configuration where
  mode := "execution-capable"
  controlAuthVerifier := "static-development"
  credentials := ⟨some (asciiBytes "credential"), [⟨"workspace-a", ["plan:request"]⟩], []⟩
  port := 8080
  runtimeKinds := [.other "aws"]
  ingressKinds := []
  productMaterialResolver := "none"
  productSecretValuesJson := none
  materialProviderRoutesJson := none
  materialProviderBootstrapFilesJson := none
  storeEndpoints := storeNames.map fun name => (name, database)
  publicDnsResolverEndpoint := "https://1.1.1.1/dns-query"
  gatewayProbeSigner := "none"
  gatewayProbeGrantLifetimeSeconds := 60

theorem fromEnvironment_aws : fromEnvironment platform values = .ok config := by
  rfl

theorem createAppChecks_aws : createAppChecks platform config =
    bootstrapError "no runtime interpreter provider is available for 'aws'" := by
  decide +kernel

/-- A runtime without an interpreter is admitted, and refused by its adapter. -/
theorem createAppChecks_raises : ¬ ∀ (platform : Platform) (values : Environment)
    (config : Configuration), fromEnvironment platform values = .ok config →
      credentialVerifier config = .ok () → ∀ message,
        createAppChecks platform config ≠ .error (.bootstrap message) ∧
          createAppChecks platform config ≠ .error (.assertion message) := by
  intro h
  exact (h platform values config fromEnvironment_aws rfl _).1 createAppChecks_aws

theorem createAppChecks_aws_composes :
    (∀ message, createAppChecks platform config ≠ .error (.assertion message)) ∧
    (OneDatabase config → LocalRegistered platform config →
      (createAppChecks platform config = .ok () ↔ Provided platform config) ∧
      ∀ e, createAppChecks platform config = .error e → ∃ message, e = .bootstrap message) :=
  createAppChecks_composes fromEnvironment_aws

end Instance

end Bootstrap

end Server

end ControlPlaneKit
