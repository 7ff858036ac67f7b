import ControlPlaneKit.Gateway.Target
import ControlPlaneKit.Gateway.Verification

/-!
# Probes of the local gateway

`execute_probe` and the handler of `/cpk/probes`. The URL of an HTTP probe is put together from a
configured URL and a granted path; which parts it parses to is `probeUrl_iff`. What the target does
with the request is `Upstream`: `urllib` raises for every status outside the two hundreds, so the
branch for failed statuses is not reached (`probe_declared_iff`).
-/

namespace ControlPlaneKit

namespace Gateway

/-! ### HTTP probes -/

/-- `_MAX_RESPONSE_BYTES`. -/
def maxResponseBytes : ℕ := 16384

/-- What a target does with a request. -/
inductive Upstream where
  /-- It answers, with a body of some size; `none` where reading the body raises. -/
  | answers (status : ℕ) (body : Option ℕ)
  /-- No answer: a refused connection, a timeout, an unknown name. -/
  | unreachable

/-- The exceptions of a probe. -/
inductive Escape where
  | raised (raised : Raised)
  /-- `HTTPError`. -/
  | httpError (status : ℕ)
  /-- `URLError` and `OSError`. -/
  | urlError
  /-- An exception while the body is read. -/
  | readError
deriving DecidableEq

/-- `GatewayConfigurationError(message)`. -/
def rejected {α : Type} (message : String) : Except Escape α :=
  .error (.raised (.configuration message))

/-- `opener.open`: statuses outside the two hundreds raise, redirects among them. -/
def openUrl (upstream : Upstream) : Except Escape (ℕ × Option ℕ) :=
  match upstream with
  | .unreachable => .error .urlError
  | .answers status body =>
    if 200 ≤ status ∧ status < 300 then .ok (status, body) else .error (.httpError status)

/-- `_http_status`: the status and the size of the body. -/
def httpStatus (network : List ℕ → Upstream) (url : List ℕ) : Except Escape (ℕ × ℕ) := do
  let (status, body) ← openUrl (network url)
  match body with
  | none => .error .readError
  | some size =>
    let payload := min size (maxResponseBytes + 1)
    if maxResponseBytes < payload then rejected "HTTP probe response is too large"
    else return (status, payload)

/-- `payload.get("path", "/health/ready")` as a string; `none` for a value that is no string, which
`str` does not begin with a slash. -/
def probePath (payload : Fields) : Option (List ℕ) :=
  if payload.has "path" then
    match payload.get "path" with
    | .str t => some t.codes
    | _ => none
  else some (codesOf "/health/ready")

/-- The path begins with a slash and has neither a NUL nor `://`. -/
def isProbePath (path : List ℕ) : Bool :=
  path.head? == some 47 && !path.contains 0 && !decide (codesOf "://" <:+: path)

/-- The URL of a probe. -/
def probeUrl (url path : List ℕ) : List ℕ :=
  Strip.rstrip (· == 47) url ++ path

/-- The result of an HTTP probe. -/
def httpResult (target : GatewayTarget) (status size : ℕ) : Fields :=
  [(.utf8 "outcome", .str (if 200 ≤ status ∧ status < 400 then "passed" else "failed")),
    (.utf8 "target_id", .str target.targetId), (.utf8 "probe", .str "http-status"),
    (.utf8 "status", .int status), (.utf8 "body_size", .int size)]

/-- The URL that an HTTP probe of a target requests. -/
def requestedUrl (target : GatewayTarget) (payload : Fields) : Except Escape (List ℕ) :=
  match target.url with
  | none => rejected "target does not support HTTP probes"
  | some url =>
    if target.protocol ≠ .utf8 "http" then rejected "target does not support HTTP probes"
    else
      match probePath payload with
      | none => rejected "HTTP probe path is malformed"
      | some path =>
        if isProbePath path then .ok (probeUrl url.codes path)
        else rejected "HTTP probe path is malformed"

/-- `_execute_http_probe`. -/
def executeHttpProbe (network : List ℕ → Upstream) (target : GatewayTarget) (payload : Fields) :
    Except Escape Fields := do
  let url ← requestedUrl target payload
  let (status, size) ← httpStatus network url
  return httpResult target status size

/-! ### Probes -/

/-- `_execute_postgres_probe`, with the message of `_postgres_select_one` when it raises: every
exception in it becomes a configuration error. -/
def executePostgresProbe (selectOne : GatewayTarget → Option String) (target : GatewayTarget) :
    Except Escape Fields :=
  if target.protocol ≠ .utf8 "postgres" ∨ target.host = none ∨ target.port = none then
    rejected "target does not support Postgres probes"
  else
    match selectOne target with
    | some message => rejected message
    | none => .ok [(.utf8 "outcome", .str "passed"), (.utf8 "target_id", .str target.targetId),
        (.utf8 "probe", .str "postgres-select-one")]

/-- `GatewayConfiguration.targets`. -/
abbrev Targets := List (Text × GatewayTarget)

/-- An exception of the checks as an exception of a probe. -/
def lift {α : Type} (x : Except Raised α) : Except Escape α :=
  match x with
  | .ok a => .ok a
  | .error e => .error (.raised e)

/-- The environment of a probe: its targets and what they do. -/
structure Surroundings where
  targets : Targets
  network : List ℕ → Upstream
  selectOne : GatewayTarget → Option String

section Probe

variable (s : Surroundings)

/-- `execute_probe`. -/
def executeProbe (payload : Fields) : Except Escape Fields := do
  let kind ← lift (requiredText payload "kind")
  let targetId ← lift (requiredText payload "target_id")
  match s.targets.lookup targetId with
  | none => rejected "unknown target"
  | some target =>
    if kind = .utf8 "http-status" then executeHttpProbe s.network target payload
    else if kind = .utf8 "postgres-select-one" then executePostgresProbe s.selectOne target
    else rejected "unsupported probe kind"

/-- `JSONResponse`. -/
structure JsonResponse where
  statusCode : ℕ
  content : Fields

/-- The answer to a capability that is not verified. -/
def capabilityRejected (code : Code) : JsonResponse :=
  ⟨code.status, [(.utf8 "outcome", .str "failed"), (.utf8 "code", .str "gateway.capability-rejected")]⟩

/-- The answer to a probe that is malformed. -/
def probeRejected (message : String) : JsonResponse :=
  ⟨400, [(.utf8 "outcome", .str "failed"), (.utf8 "code", .str "gateway.probe-rejected"),
    (.utf8 "message", .str message)]⟩

/-- The handler of `/cpk/probes`, given how the verification of the capability ended. -/
def probe (verified : Except Code Fields) : Except Escape JsonResponse :=
  match verified with
  | .error code => .ok (capabilityRejected code)
  | .ok payload =>
    match executeProbe s payload with
    | .ok content => .ok ⟨200, content⟩
    | .error (.raised (.configuration message)) => .ok (probeRejected message)
    | .error e => .error e

end Probe

/-! ### The requested URL -/

section Requested

variable {platform : Platform} {targetId url : Text} {fields payload : Fields}
  {target : GatewayTarget} {path handed : List ℕ}

theorem requestedUrl_eq_ok : requestedUrl target payload = .ok handed ↔
    ∃ url path, target.url = some url ∧ target.protocol = .utf8 "http" ∧
      probePath payload = some path ∧ isProbePath path = true ∧
      handed = probeUrl url.codes path := by
  unfold requestedUrl
  constructor
  · intro h
    split at h
    next => cases h
    next url hurl =>
      split at h
      next => cases h
      next hprotocol =>
        split at h
        next => cases h
        next path hpath =>
          split at h
          next hok =>
            cases h
            exact ⟨url, path, hurl, not_not.mp hprotocol, hpath, hok, rfl⟩
          next => cases h
  · rintro ⟨url, path, hurl, hprotocol, hpath, hok, rfl⟩
    simp only [hurl, hprotocol, ne_eq, not_true_eq_false, if_false, hpath, if_pos hok]

/-- What an HTTP probe requests parses to the configured URL with the granted path appended exactly
when the configured URL has no query, no fragment and no slash in front of dropped characters, and
the path has no character that parsing drops. -/
theorem probeUrl_iff (h : GatewayTarget.fromDescriptor platform targetId fields = .ok target)
    (hurl : target.url = some url) (hrequest : requestedUrl target payload = .ok handed)
    (hpath : probePath payload = some path) (hplain : ∀ n ∈ path, n ≠ 63 ∧ n ≠ 35) :
    (∃ configured, Url.urlsplit platform.admits url.codes = some configured ∧
      Url.urlsplit platform.admits handed = some ⟨configured.scheme, configured.netloc,
        Strip.rstrip (· == 47) configured.path ++ path, [], []⟩) ↔
      (∀ n ∈ url.codes, n ≠ 63 ∧ n ≠ 35) ∧ (url.codes.filter Url.kept).getLast? ≠ some 47 ∧
        ∀ n ∈ path, Url.kept n = true := by
  obtain ⟨url', path', hurl', -, hpath', hok, rfl⟩ := requestedUrl_eq_ok.mp hrequest
  rw [hurl] at hurl'
  cases hurl'
  rw [hpath] at hpath'
  cases hpath'
  obtain ⟨-, ⟨value, -, -, hcheck, rfl⟩ | ⟨_, _, _, _, _, _, -, -, -, -, -, -, -, rfl⟩⟩ :=
    GatewayTarget.fromDescriptor_cases h
  · cases hurl
    obtain ⟨parsed, hparsed, hscheme, hnetloc⟩ := checkHttpUrl_absolute hcheck
    have hhead : path.head? = some 47 := by
      simp only [isProbePath, Bool.and_eq_true, beq_iff_eq] at hok
      exact hok.1.1
    rw [Text.codes_ofCodes, probeUrl, Strip.rstrip, rdropWhile_normalizedUrl, hparsed]
    rw [← Url.urlsplit_append_iff hparsed hscheme hnetloc hhead hplain]
    constructor
    · rintro ⟨_, hsome, hhanded⟩
      cases hsome
      exact hhanded
    · exact fun hhanded => ⟨parsed, rfl, hhanded⟩
  · cases hurl

end Requested

/-! ### Declared outcomes -/

section Declared

variable (s : Surroundings)

/-- The URL that a verified probe requests. -/
def Requests (payload : Fields) (target : GatewayTarget) (url : List ℕ) : Prop :=
  ∃ targetId, requiredText payload "kind" = .ok (.utf8 "http-status") ∧
    requiredText payload "target_id" = .ok targetId ∧ s.targets.lookup targetId = some target ∧
    requestedUrl target payload = .ok url

/-- The target answers in the two hundreds, with a body that can be read. -/
def Upstream.Succeeds : Upstream → Prop
  | .answers status (some _) => 200 ≤ status ∧ status < 300
  | _ => False

/-- The responses that the handler declares, by what was requested: a result that names the status
and says whether it is below 400, a rejected probe, or a rejected capability. -/
inductive Declared : Except Code Fields → JsonResponse → Prop where
  | capability (code : Code) : Declared (.error code) (capabilityRejected code)
  | malformed (payload : Fields) (message : String) :
      Declared (.ok payload) (probeRejected message)
  | http (payload : Fields) (target : GatewayTarget) (url : List ℕ) (status size : ℕ)
      (body : Option ℕ) (hrequest : Requests s payload target url)
      (hanswer : s.network url = .answers status body) :
      Declared (.ok payload) ⟨200, httpResult target status size⟩
  | postgres (payload content : Fields) (target : GatewayTarget)
      (hkind : requiredText payload "kind" = .ok (.utf8 "postgres-select-one"))
      (hcontent : executePostgresProbe s.selectOne target = .ok content) :
      Declared (.ok payload) ⟨200, content⟩

variable {s} {payload content : Fields} {target : GatewayTarget} {url : List ℕ}

/-- An HTTP request gives a status and a size when the target succeeds, and rejects a body over the
bound; otherwise an exception escapes that is no configuration error. -/
theorem httpStatus_cases (network : List ℕ → Upstream) (url : List ℕ) :
    ((network url).Succeeds ∧ ((∃ status body size, network url = .answers status body ∧
      httpStatus network url = .ok (status, size)) ∨
        httpStatus network url = rejected "HTTP probe response is too large")) ∨
    (¬ (network url).Succeeds ∧ ∃ e, httpStatus network url = .error e ∧
      ∀ raised, e ≠ .raised raised) := by
  unfold httpStatus openUrl
  cases hanswer : network url with
  | unreachable => exact .inr ⟨id, .urlError, rfl, fun _ h => by cases h⟩
  | answers status body =>
    by_cases hstatus : 200 ≤ status ∧ status < 300
    · cases body with
      | none =>
        simp only [if_pos hstatus]
        exact .inr ⟨id, .readError, rfl, fun _ h => by cases h⟩
      | some size =>
        simp only [if_pos hstatus, Raise.ok_bind]
        refine .inl ⟨hstatus, ?_⟩
        split
        next => exact .inr rfl
        next => exact .inl ⟨status, some size, _, rfl, rfl⟩
    · simp only [if_neg hstatus]
      refine .inr ⟨fun h => ?_, .httpError status, rfl, fun _ h => by cases h⟩
      cases body with
      | none => exact h
      | some size => exact hstatus h

/-- Only a configuration error keeps an HTTP probe from its request. -/
theorem requestedUrl_error {e : Escape} (h : requestedUrl target payload = .error e) :
    ∃ message, e = .raised (.configuration message) := by
  unfold requestedUrl rejected at h
  repeat' split at h
  all_goals
    cases h
    try exact ⟨_, rfl⟩

/-- A text is refused with a configuration error. -/
theorem requiredText_error {key : String} {e : Raised} (h : requiredText payload key = .error e) :
    ∃ message, e = .configuration message := by
  unfold requiredText boundedText rejectSecretText at h
  split at h
  next =>
    split at h
    next =>
      split at h
      next =>
        cases h
        exact ⟨_, rfl⟩
      next => cases h
    next =>
      cases h
      exact ⟨_, rfl⟩
  next =>
    cases h
    exact ⟨_, rfl⟩

/-- A Postgres probe ends in a result or in a configuration error. -/
theorem executePostgresProbe_cases (selectOne : GatewayTarget → Option String)
    (target : GatewayTarget) : (∃ message, executePostgresProbe selectOne target =
      rejected message) ∨ ∃ content, executePostgresProbe selectOne target = .ok content := by
  unfold executePostgresProbe
  split
  next => exact .inl ⟨_, rfl⟩
  next =>
    cases selectOne target with
    | none => exact .inr ⟨_, rfl⟩
    | some message => exact .inl ⟨message, rfl⟩

/-- A probe makes its HTTP request, or ends in a result or in a configuration error. -/
theorem executeProbe_cases (s : Surroundings) (payload : Fields) :
    (∃ target url, Requests s payload target url ∧
      executeProbe s payload = (httpStatus s.network url >>= fun answer =>
        .ok (httpResult target answer.1 answer.2))) ∨
    ((∀ target url, ¬ Requests s payload target url) ∧
      ((∃ message, executeProbe s payload = rejected message) ∨
        ∃ target content, requiredText payload "kind" = .ok (.utf8 "postgres-select-one") ∧
          executePostgresProbe s.selectOne target = .ok content ∧
          executeProbe s payload = .ok content)) := by
  cases hkind : requiredText payload "kind" with
  | error e =>
    obtain ⟨message, rfl⟩ := requiredText_error hkind
    refine .inr ⟨?_, .inl ⟨message, by rw [executeProbe, hkind]; rfl⟩⟩
    rintro _ _ ⟨_, h, -⟩
    rw [hkind] at h
    cases h
  | ok kind =>
  cases hid : requiredText payload "target_id" with
  | error e =>
    obtain ⟨message, rfl⟩ := requiredText_error hid
    refine .inr ⟨?_, .inl ⟨message, by rw [executeProbe, hkind, hid]; rfl⟩⟩
    rintro _ _ ⟨_, -, h, -⟩
    rw [hid] at h
    cases h
  | ok targetId =>
  -- Both texts are there: what is left is the lookup and the kind.
  have hbegun : executeProbe s payload = match s.targets.lookup targetId with
      | none => rejected "unknown target"
      | some target =>
        if kind = .utf8 "http-status" then executeHttpProbe s.network target payload
        else if kind = .utf8 "postgres-select-one" then executePostgresProbe s.selectOne target
        else rejected "unsupported probe kind" := by
    rw [executeProbe, hkind, hid]
    rfl
  have hrequests {target : GatewayTarget} {url : List ℕ} : Requests s payload target url ↔
      kind = .utf8 "http-status" ∧ s.targets.lookup targetId = some target ∧
        requestedUrl target payload = .ok url := by
    constructor
    · rintro ⟨id, h, h', hlookup, hrequest⟩
      rw [hkind] at h
      rw [hid] at h'
      cases h
      cases h'
      exact ⟨rfl, hlookup, hrequest⟩
    · rintro ⟨rfl, hlookup, hrequest⟩
      exact ⟨targetId, hkind, hid, hlookup, hrequest⟩
  cases hlookup : s.targets.lookup targetId with
  | none =>
    refine .inr ⟨fun _ _ h => ?_, .inl ⟨"unknown target", by rw [hbegun, hlookup]⟩⟩
    have hfound := (hrequests.mp h).2.1
    rw [hlookup] at hfound
    cases hfound
  | some target =>
    simp only [hlookup] at hbegun
    by_cases hhttp : kind = .utf8 "http-status"
    · rw [if_pos hhttp] at hbegun
      cases hurl : requestedUrl target payload with
      | ok url =>
        refine .inl ⟨target, url, hrequests.mpr ⟨hhttp, hlookup, hurl⟩, ?_⟩
        rw [hbegun, executeHttpProbe, hurl]
        rfl
      | error e =>
        obtain ⟨message, rfl⟩ := requestedUrl_error hurl
        refine .inr ⟨fun other url h => ?_, .inl ⟨message, ?_⟩⟩
        · obtain ⟨-, hother, hrequest⟩ := hrequests.mp h
          rw [hlookup] at hother
          cases hother
          rw [hurl] at hrequest
          cases hrequest
        · rw [hbegun, executeHttpProbe, hurl]
          rfl
    -- no other kind requests a URL
    · have hnot : ∀ other url, ¬ Requests s payload other url := fun _ _ h =>
        hhttp (hrequests.mp h).1
      rw [if_neg hhttp] at hbegun
      by_cases hpostgres : kind = .utf8 "postgres-select-one"
      · rw [if_pos hpostgres] at hbegun
        rcases executePostgresProbe_cases s.selectOne target with ⟨message, h⟩ | ⟨content, h⟩
        · exact .inr ⟨hnot, .inl ⟨message, hbegun.trans h⟩⟩
        · exact .inr ⟨hnot, .inr ⟨target, content, by rw [hpostgres], h, hbegun.trans h⟩⟩
      · rw [if_neg hpostgres] at hbegun
        exact .inr ⟨hnot, .inl ⟨_, hbegun⟩⟩

/-- A verified payload requests one URL. -/
theorem Requests.unique {target' : GatewayTarget} {url' : List ℕ}
    (h : Requests s payload target url) (h' : Requests s payload target' url') : url' = url := by
  obtain ⟨id, -, hid, hlookup, hrequest⟩ := h
  obtain ⟨id', -, hid', hlookup', hrequest'⟩ := h'
  rw [hid] at hid'
  cases hid'
  rw [hlookup] at hlookup'
  cases hlookup'
  rw [hrequest] at hrequest'
  cases hrequest'
  rfl

theorem probe_of_rejected {message : String} (h : executeProbe s payload = rejected message) :
    probe s (.ok payload) = .ok (probeRejected message) := by
  simp only [probe, h, rejected]

/-- The handler ends in a declared response exactly when the target of an HTTP request answers in
the two hundreds with a readable body. -/
theorem probe_declared_iff (s : Surroundings) (verified : Except Code Fields) :
    (∃ response, probe s verified = .ok response ∧ Declared s verified response) ↔
      ∀ payload target url, verified = .ok payload → Requests s payload target url →
        (s.network url).Succeeds := by
  cases verified with
  | error code =>
    exact ⟨fun _ _ _ _ h => (by cases h), fun _ => ⟨_, rfl, .capability code⟩⟩
  | ok payload =>
    rcases executeProbe_cases s payload with ⟨target, url, hrequest, hexecute⟩ |
      ⟨hnot, ⟨message, hrejected⟩ | ⟨target, content, hkind, hcontent, hexecute⟩⟩
    · rcases httpStatus_cases s.network url with
        ⟨hsucceeds, ⟨status, body, size, hanswer, hstatus⟩ | hlarge⟩ | ⟨hfails, e, he, hescape⟩
      · constructor
        · rintro - payload' target' url' hok hrequest'
          cases hok
          rwa [hrequest.unique hrequest']
        · rw [hstatus] at hexecute
          exact fun _ => ⟨_, by rw [probe, hexecute]; rfl,
            .http payload target url status size body hrequest hanswer⟩
      · constructor
        · rintro - payload' target' url' hok hrequest'
          cases hok
          rwa [hrequest.unique hrequest']
        · rw [hlarge] at hexecute
          exact fun _ => ⟨_, probe_of_rejected hexecute, .malformed payload _⟩
      · rw [he, Raise.error_bind] at hexecute
        constructor
        · rintro ⟨response, hresponse, -⟩
          rw [probe, hexecute] at hresponse
          cases e with
          | raised raised => exact absurd rfl (hescape raised)
          | _ => cases hresponse
        · exact fun h => absurd (h payload target url rfl hrequest) hfails
    · constructor
      · rintro - payload' target' url' hok hrequest'
        cases hok
        exact absurd hrequest' (hnot target' url')
      · exact fun _ => ⟨_, probe_of_rejected hrejected, .malformed payload message⟩
    · constructor
      · rintro - payload' target' url' hok hrequest'
        cases hok
        exact absurd hrequest' (hnot target' url')
      · exact fun _ => ⟨_, by rw [probe, hexecute], .postgres payload content target hkind hcontent⟩

end Declared

namespace Instance

open GatewayTarget.Instance

/-- A target whose URL has a query. -/
def queried : GatewayTarget :=
  .http "target" "http://host/base?x=1"

/-- The descriptor of the target with a query. -/
def queriedFields : Fields :=
  [(.utf8 "protocol", .str "http"), (.utf8 "url", .str "http://host/base?x=1")]

/-- A probe of `/health`. -/
def payload : Fields :=
  [(.utf8 "kind", .str "http-status"), (.utf8 "target_id", .str "target"),
    (.utf8 "path", .str "/health")]

theorem fromDescriptor_queried :
    GatewayTarget.fromDescriptor ascii "target" queriedFields = .ok queried :=
  rfl

theorem requestedUrl_queried : requestedUrl queried payload =
    .ok (codesOf "http://host/base?x=1/health") :=
  rfl

theorem health_plain : ∀ n ∈ codesOf "/health", n ≠ 63 ∧ n ≠ 35 := by
  decide

theorem probeUrl_queried_iff :
    (∃ configured, Url.urlsplit ascii.admits (codesOf "http://host/base?x=1") = some configured ∧
      Url.urlsplit ascii.admits (codesOf "http://host/base?x=1/health") =
        some ⟨configured.scheme, configured.netloc,
          Strip.rstrip (· == 47) configured.path ++ codesOf "/health", [], []⟩) ↔
      (∀ n ∈ codesOf "http://host/base?x=1", n ≠ 63 ∧ n ≠ 35) ∧
        ((codesOf "http://host/base?x=1").filter Url.kept).getLast? ≠ some 47 ∧
          ∀ n ∈ codesOf "/health", Url.kept n = true :=
  probeUrl_iff fromDescriptor_queried rfl requestedUrl_queried rfl health_plain

/-- The granted path becomes part of the query. -/
theorem probeUrl_query : ¬ ∀ (platform : Platform) (targetId url : Text) (fields payload : Fields)
    (target : GatewayTarget) (path handed : List ℕ),
    GatewayTarget.fromDescriptor platform targetId fields = .ok target → target.url = some url →
    requestedUrl target payload = .ok handed → probePath payload = some path →
    (∀ n ∈ path, n ≠ 63 ∧ n ≠ 35) →
      ∃ configured, Url.urlsplit platform.admits url.codes = some configured ∧
        Url.urlsplit platform.admits handed = some ⟨configured.scheme, configured.netloc,
          Strip.rstrip (· == 47) configured.path ++ path, [], []⟩ := by
  intro h
  obtain ⟨configured, -, hhanded⟩ := h ascii "target" "http://host/base?x=1" queriedFields payload
    queried (codesOf "/health") _ fromDescriptor_queried rfl requestedUrl_queried rfl health_plain
  have hparsed : Url.urlsplit ascii.admits (codesOf "http://host/base?x=1/health") =
      some ⟨codesOf "http", codesOf "host", codesOf "/base", codesOf "x=1/health", []⟩ := rfl
  rw [hparsed] at hhanded
  have hquery : codesOf "x=1/health" = [] :=
    congrArg Url.SplitResult.query (Option.some.inj hhanded)
  exact absurd hquery (by decide)

/-- A target that answers `503`. -/
def unavailable : Surroundings where
  targets := [("target", .http "target" "http://host")]
  network _ := .answers 503 (some 0)
  selectOne _ := none

theorem probe_unavailable : probe unavailable (.ok payload) = .error (.httpError 503) := by
  rfl

/-- `HTTPError` escapes the handler. -/
theorem probe_undeclared : ¬ ∀ (s : Surroundings) (verified : Except Code Fields),
    ∃ response, probe s verified = .ok response ∧ Declared s verified response := by
  intro h
  obtain ⟨response, hresponse, -⟩ := h unavailable (.ok payload)
  rw [probe_unavailable] at hresponse
  cases hresponse

end Instance

end Gateway

end ControlPlaneKit
