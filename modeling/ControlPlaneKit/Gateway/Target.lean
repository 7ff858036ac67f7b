import ControlPlaneKit.Python.Raise
import ControlPlaneKit.Python.Urlsplit

/-!
# Gateway targets

`GatewayTarget.from_descriptor` normalises what it admits: white space around a URL and its trailing
slashes go, and a port becomes an integer. `descriptor` writes the target back. Decoding that again
gives the target, except where the slashes of a URL hide white space in front of them
(`fromDescriptor_descriptor_iff`).
-/

namespace ControlPlaneKit

namespace Gateway

/-! ### Exceptions and the standard library -/

/-- The exceptions of the configuration. -/
inductive Raised where
  /-- `GatewayConfigurationError`. -/
  | configuration (message : String)
  | valueError
  | overflowError
deriving DecidableEq

/-- What the standard library and its Unicode database say. -/
structure Platform where
  /-- The checks of `urlsplit` on a network location. -/
  admits : List ℕ → Bool
  /-- The value of a decimal digit. -/
  digit : ℕ → Option ℕ

section Int

variable (platform : Platform)

/-- `int(value)`. -/
def toInt : Json → Except Raised ℤ
  | .int n => .ok n
  | .bool b => .ok (if b then 1 else 0)
  | .float (.finite q) => .ok (q.num.tdiv q.den)
  | .float (.infinite _) => .error .overflowError
  | .str t =>
    match intOfText platform.digit t with
    | some n => .ok n
    | none => .error (.configuration "port must be an integer")
  | _ => .error (.configuration "port must be an integer")

/-- `_port`. -/
def port (value : Json) : Except Raised ℤ := do
  let port ← toInt platform value
  if 1 ≤ port ∧ port ≤ 65535 then return port
  else .error (.configuration "port must be between 1 and 65535")

end Int

/-! ### Texts -/

/-- Neither blank nor with a NUL. -/
def isBounded (codes : List ℕ) : Bool :=
  !(Strip.strip codes).isEmpty && !codes.contains 0

/-- `_reject_secret_text`. -/
def rejectSecretText (value : Text) (name : String) : Except Raised Unit :=
  if Lower.mentions ["secret", "token", "password", "api_key"] value.codes then
    .error (.configuration s!"{name} is secret-shaped")
  else .ok ()

/-- A text that is bounded and not secret-shaped. -/
def boundedText (value : Json) (name : String) : Except Raised Text :=
  match value with
  | .str t =>
    if isBounded t.codes then do
      rejectSecretText t name
      return t
    else .error (.configuration s!"{name} must be bounded text")
  | _ => .error (.configuration s!"{name} must be bounded text")

/-- `_required_text`. -/
def requiredText (value : Fields) (key : String) : Except Raised Text :=
  boundedText (value.get key) key

/-- `_optional_text`. -/
def optionalText (value : Json) (name : String) : Except Raised (Option Text) :=
  match value with
  | .null => .ok none
  | value => do return some (← boundedText value name)

/-- A full match of `first` and at most 127 characters of `rest`. -/
def matchesName (first rest : ℕ → Bool) (codes : List ℕ) : Bool :=
  codes.head?.any first && codes.tail.all rest && decide (codes.length ≤ 128)

/-- `[A-Z][A-Z0-9_]{0,127}`. -/
def isEnvironmentName (codes : List ℕ) : Bool :=
  matchesName (fun n => 65 ≤ n && n ≤ 90)
    (fun n => (65 ≤ n && n ≤ 90) || (48 ≤ n && n ≤ 57) || n == 95) codes

/-- `_optional_environment_name`. -/
def optionalEnvironmentName (value : Json) (name : String) : Except Raised (Option Text) :=
  match value with
  | .null => .ok none
  | .str t =>
    if isEnvironmentName t.codes then .ok (some t)
    else .error (.configuration s!"{name} must be an environment name")
  | _ => .error (.configuration s!"{name} must be an environment name")

/-- `[a-z][a-z0-9_.-]{0,127}`. -/
def isTargetId (codes : List ℕ) : Bool :=
  matchesName (fun n => 97 ≤ n && n ≤ 122) (fun n => (97 ≤ n && n ≤ 122) ||
    (48 ≤ n && n ≤ 57) || n == 95 || n == 46 || n == 45) codes

/-- `_validate_target_id`. -/
def validateTargetId (value : Text) : Except Raised Unit :=
  if isTargetId value.codes then .ok () else .error (.configuration "target id is malformed")

/-- `_host`, on code points. -/
def host (value : List ℕ) (name : String) : Except Raised Unit :=
  if !isBounded value then .error (.configuration s!"{name} is malformed")
  else if Lower.mentions ["secret", "token", "password"] value then
    .error (.configuration s!"{name} is secret-shaped")
  else .ok ()

/-- `value.strip().rstrip("/")`. -/
def normalizedUrl (value : List ℕ) : List ℕ :=
  Strip.rstrip (· == 47) (Strip.strip value)

/-- The checks of `_http_url` on what it returns. -/
def checkHttpUrl (platform : Platform) (candidate : List ℕ) (name : String) :
    Except Raised Unit :=
  match Url.urlsplit platform.admits candidate with
  | none => .error .valueError
  | some parsed =>
    if ¬ (parsed.scheme = codesOf "http" ∨ parsed.scheme = codesOf "https") ∨ parsed.netloc = [] then
      .error (.configuration s!"{name} must be an absolute HTTP URL")
    else if parsed.hasCredentials then
      .error (.configuration s!"{name} must not contain credentials")
    else host parsed.hostname name

/-- `_http_url`. -/
def httpUrl (platform : Platform) (value : Text) (name : String) : Except Raised Text := do
  checkHttpUrl platform (normalizedUrl value.codes) name
  return Text.ofCodes (normalizedUrl value.codes)

/-! ### Targets -/

/-- `GatewayTarget`. -/
structure GatewayTarget where
  targetId : Text
  protocol : Text
  url : Option Text
  host : Option Text
  port : Option ℤ
  database : Option Text
  username : Option Text
  passwordEnvironment : Option Text
deriving DecidableEq

namespace GatewayTarget

/-- An `http` target. -/
def http (targetId url : Text) : GatewayTarget :=
  ⟨targetId, "http", some url, none, none, none, none, none⟩

/-- A `postgres` target. -/
def postgres (targetId host : Text) (port : ℤ)
    (database username passwordEnvironment : Option Text) : GatewayTarget :=
  ⟨targetId, "postgres", none, some host, some port, database, username, passwordEnvironment⟩

/-- `GatewayTarget.from_descriptor`. -/
def fromDescriptor (platform : Platform) (targetId : Text) (descriptor : Fields) :
    Except Raised GatewayTarget := do
  validateTargetId targetId
  let protocol ← requiredText descriptor "protocol"
  if protocol = .utf8 "http" then
    let url ← requiredText descriptor "url"
    let url ← httpUrl platform url "url"
    return http targetId url
  else if protocol = .utf8 "postgres" then
    let name ← requiredText descriptor "host"
    Gateway.host name.codes "host"
    let port ← Gateway.port platform
      (if descriptor.has "port" then descriptor.get "port" else .int 5432)
    let database ← optionalText (descriptor.get "database") "database"
    let username ← optionalText (descriptor.get "username") "username"
    let passwordEnvironment ←
      optionalEnvironmentName (descriptor.get "password_environment") "password_environment"
    return postgres targetId name port database username passwordEnvironment
  else .error (.configuration "unsupported target protocol")

/-- A member that is written unless it is `None`. -/
def member (key : String) : Option Text → Fields
  | none => []
  | some t => [(.utf8 key, .str t)]

/-- A value that may be `None`. -/
def jsonText : Option Text → Json
  | none => .null
  | some t => .str t

/-- `descriptor`. -/
def descriptor (target : GatewayTarget) : Except Raised Fields :=
  if target.protocol = .utf8 "http" then
    .ok [("protocol", .str "http"), ("url", jsonText target.url)]
  else if target.protocol = .utf8 "postgres" then
    .ok ((.utf8 "protocol", .str "postgres") :: (.utf8 "host", jsonText target.host) ::
      (.utf8 "port", match target.port with
        | none => .null
        | some n => .int n) ::
      member "database" target.database ++ member "username" target.username ++
      member "password_environment" target.passwordEnvironment)
  else .error (.configuration "unsupported target protocol")

end GatewayTarget

/-! ### What decoding admits -/

section Decoding

variable {platform : Platform} {value : Json} {t : Text} {name : String} {n : ℤ}

theorem boundedText_eq_ok : boundedText value name = .ok t ↔ value = .str t ∧
    isBounded t.codes = true ∧
      Lower.mentions ["secret", "token", "password", "api_key"] t.codes = false := by
  cases value with
  | str u =>
    simp only [boundedText, rejectSecretText, Json.str.injEq]
    split
    next hbounded =>
      split
      next hsecret =>
        constructor
        · intro h
          cases h
        · rintro ⟨rfl, -, h⟩
          rw [hsecret] at h
          cases h
      next hsecret =>
        constructor
        · intro h
          cases h
          exact ⟨rfl, hbounded, by simpa using hsecret⟩
        · rintro ⟨rfl, -⟩
          rfl
    next hbounded =>
      constructor
      · intro h
        cases h
      · rintro ⟨rfl, h, -⟩
        exact absurd h hbounded
  | _ => simp [boundedText]

theorem optionalText_eq_ok {o : Option Text} : optionalText value name = .ok o ↔
    (value = .null ∧ o = none) ∨ ∃ t, boundedText value name = .ok t ∧ o = some t := by
  cases value with
  | null =>
    have hnot : ∀ t, boundedText .null name ≠ .ok t := by
      intro t h
      cases (boundedText_eq_ok.mp h).1
    simp [optionalText, hnot, eq_comm]
  | _ =>
    simp only [optionalText, Raise.bind_eq_ok, reduceCtorEq, false_and, false_or]
    constructor <;>
    · rintro ⟨t, h, h'⟩
      cases h'
      exact ⟨t, h, rfl⟩

/-- An optional text is read back as it was written. -/
theorem optionalText_jsonText {o : Option Text} (h : optionalText value name = .ok o) :
    optionalText (GatewayTarget.jsonText o) name = .ok o := by
  rcases optionalText_eq_ok.mp h with ⟨-, rfl⟩ | ⟨t, ht, rfl⟩
  · rfl
  · have hvalue := (boundedText_eq_ok.mp ht).1
    rw [hvalue] at ht
    exact optionalText_eq_ok.mpr (.inr ⟨t, ht, rfl⟩)

theorem optionalEnvironmentName_jsonText {o : Option Text}
    (h : optionalEnvironmentName value name = .ok o) :
    optionalEnvironmentName (GatewayTarget.jsonText o) name = .ok o := by
  cases value with
  | null =>
    cases h
    rfl
  | str u =>
    simp only [optionalEnvironmentName] at h
    split at h
    next hname =>
      cases h
      exact if_pos hname
    next => cases h
  | _ => cases h

/-- A port is read back as it was written. -/
theorem port_int (h : port platform value = .ok n) : port platform (.int n) = .ok n := by
  obtain ⟨m, -, hm⟩ := Raise.bind_eq_ok.mp h
  split at hm
  next hrange =>
    cases hm
    exact if_pos hrange
  next => cases hm

theorem httpUrl_eq_ok {v : Text} : httpUrl platform v name = .ok t ↔
    checkHttpUrl platform (normalizedUrl v.codes) name = .ok () ∧
      t = Text.ofCodes (normalizedUrl v.codes) := by
  rw [httpUrl, Raise.bind_eq_ok]
  constructor
  · rintro ⟨⟨⟩, hcheck, h⟩
    cases h
    exact ⟨hcheck, rfl⟩
  · rintro ⟨hcheck, rfl⟩
    exact ⟨(), hcheck, rfl⟩

/-- An admitted URL is absolute. -/
theorem checkHttpUrl_absolute {candidate : List ℕ}
    (h : checkHttpUrl platform candidate name = .ok ()) :
    ∃ parsed, Url.urlsplit platform.admits candidate = some parsed ∧ parsed.scheme ≠ [] ∧
      parsed.netloc ≠ [] := by
  unfold checkHttpUrl at h
  cases hparsed : Url.urlsplit platform.admits candidate with
  | none =>
    rw [hparsed] at h
    cases h
  | some parsed =>
    rw [hparsed] at h
    simp only at h
    split at h
    next => cases h
    next hok =>
      rw [not_or, not_not] at hok
      refine ⟨parsed, rfl, ?_, hok.2⟩
      rcases hok.1 with hscheme | hscheme <;> rw [hscheme] <;> decide

end Decoding

/-! ### Normalised URLs -/

section Normalized

variable {value : List ℕ}

/-- White space in front of the slashes a URL ends in. -/
def HidesSpace (value : List ℕ) : Prop :=
  ∃ front n k, Strip.isSpace n = true ∧ Strip.strip value = front ++ n :: List.replicate k 47

theorem normalizedUrl_part (value : List ℕ) : normalizedUrl value <:+: value :=
  (List.rdropWhile_prefix _ _).isInfix.trans
    ((List.rdropWhile_prefix _ _).isInfix.trans (List.dropWhile_suffix _).isInfix)

theorem dropWhile_of_prefix {p : ℕ → Bool} {a b : List ℕ} (hab : a <+: b)
    (hb : b.dropWhile p = b) : a.dropWhile p = a := by
  cases a with
  | nil => rfl
  | cons n a =>
    obtain ⟨t, rfl⟩ := hab
    have hn : ¬ p n = true := fun hn => by
      have hlength := congrArg List.length hb
      rw [List.cons_append, List.dropWhile_cons_of_pos hn] at hlength
      have hle := (List.dropWhile_suffix p (l := a ++ t)).length_le
      rw [List.length_cons] at hlength
      omega
    rw [List.dropWhile_cons_of_neg hn]

/-- A normalised URL has no white space in front. -/
theorem dropWhile_normalizedUrl (value : List ℕ) :
    (normalizedUrl value).dropWhile Strip.isSpace = normalizedUrl value :=
  dropWhile_of_prefix ((List.rdropWhile_prefix _ _).trans (List.rdropWhile_prefix _ _))
    (List.dropWhile_idempotent _ _)

theorem rdropWhile_append_replicate {p : ℕ → Bool} {n : ℕ} (hn : p n = true) (a : List ℕ) (k : ℕ) :
    (a ++ List.replicate k n).rdropWhile p = a.rdropWhile p := by
  induction k with
  | zero => rw [List.replicate_zero, List.append_nil]
  | succ k ih =>
    rw [List.replicate_succ', ← List.append_assoc, List.rdropWhile_concat_pos _ _ _ hn, ih]

/-- A normalised URL has no slash at its end. -/
theorem rdropWhile_normalizedUrl (value : List ℕ) :
    (normalizedUrl value).rdropWhile (· == 47) = normalizedUrl value :=
  List.rdropWhile_idempotent _ _

/-- The white space that normalisation uncovers. -/
theorem hidesSpace_iff : HidesSpace value ↔
    ∃ n, (normalizedUrl value).getLast? = some n ∧ Strip.isSpace n = true := by
  constructor
  · rintro ⟨front, n, k, hn, hstrip⟩
    have hslash : ¬ (n == 47) = true := by
      intro heq
      rw [beq_iff_eq.mp heq] at hn
      cases hn
    refine ⟨n, ?_, hn⟩
    have hslashes : front ++ n :: List.replicate k 47 = (front ++ [n]) ++ List.replicate k 47 := by
      rw [List.append_assoc]
      rfl
    rw [normalizedUrl, Strip.rstrip, hstrip, hslashes, rdropWhile_append_replicate (by decide),
      List.rdropWhile_concat_neg (· == 47) _ _ hslash, List.getLast?_concat]
  · rintro ⟨n, hlast, hn⟩
    obtain ⟨front, hfront⟩ := List.getLast?_eq_some_iff.mp hlast
    obtain ⟨k, hk⟩ : ∃ k, (Strip.strip value).rtakeWhile (· == 47) = List.replicate k 47 :=
      ⟨_, List.eq_replicate_of_mem fun m hm => by simpa using List.mem_rtakeWhile_imp hm⟩
    refine ⟨front, n, k, hn, ?_⟩
    calc Strip.strip value = normalizedUrl value ++ List.replicate k 47 := by
          rw [← hk]
          exact (List.rdropWhile_append_rtakeWhile ..).symm
      _ = front ++ n :: List.replicate k 47 := by rw [hfront, List.append_assoc]; rfl

/-- Normalising again changes a URL exactly when it hides white space. -/
theorem normalizedUrl_eq_self_iff :
    normalizedUrl (normalizedUrl value) = normalizedUrl value ↔ ¬ HidesSpace value := by
  have hstrip : Strip.strip (normalizedUrl value) =
      (normalizedUrl value).rdropWhile Strip.isSpace := by
    rw [Strip.strip, dropWhile_normalizedUrl, Strip.rstrip]
  have hlast : ¬ HidesSpace value ↔
      (normalizedUrl value).rdropWhile Strip.isSpace = normalizedUrl value := by
    rw [hidesSpace_iff, List.rdropWhile_eq_self_iff]
    constructor
    · intro h hne hspace
      exact h ⟨_, List.getLast?_eq_some_getLast hne, hspace⟩
    · rintro h ⟨n, hn, hspace⟩
      have hne : normalizedUrl value ≠ [] := by
        intro hnil
        rw [hnil] at hn
        cases hn
      refine h hne ?_
      rw [List.getLast?_eq_some_getLast hne, Option.some.injEq] at hn
      rwa [hn]
  rw [hlast]
  constructor
  · intro h
    -- the second normalisation drops white space first, and nothing is left to drop
    have hle : normalizedUrl (normalizedUrl value) <+:
        (normalizedUrl value).rdropWhile Strip.isSpace := by
      rw [← hstrip]
      exact List.rdropWhile_prefix _ _
    rw [h] at hle
    exact (List.rdropWhile_prefix _ _).eq_of_length_le hle.length_le
  · intro h
    rw [normalizedUrl, hstrip, h]
    exact List.rdropWhile_idempotent _ _

theorem isBounded_normalizedUrl (hbounded : isBounded value = true)
    (hsame : normalizedUrl (normalizedUrl value) = normalizedUrl value)
    (hne : normalizedUrl value ≠ []) : isBounded (normalizedUrl value) = true := by
  simp only [isBounded, Bool.and_eq_true, Bool.not_eq_true', List.isEmpty_eq_false_iff] at hbounded ⊢
  constructor
  · intro hnil
    rw [normalizedUrl, hnil] at hsame
    exact hne hsame.symm
  · have hnul : 0 ∉ value := by simpa using hbounded.2
    have hnul' : 0 ∉ normalizedUrl value := fun hmem => hnul ((normalizedUrl_part value).subset hmem)
    simpa using hnul'

end Normalized

/-! ### Round trips -/

namespace GatewayTarget

section Roundtrip

variable {platform : Platform} {targetId : Text} {fields : Fields} {target : GatewayTarget}

/-- A target is decoded from a URL, or from a host with its options. -/
theorem fromDescriptor_cases (h : fromDescriptor platform targetId fields = .ok target) :
    validateTargetId targetId = .ok () ∧
    ((∃ url, requiredText fields "protocol" = .ok (.utf8 "http") ∧
      requiredText fields "url" = .ok url ∧
      checkHttpUrl platform (normalizedUrl url.codes) "url" = .ok () ∧
      target = http targetId (Text.ofCodes (normalizedUrl url.codes))) ∨
    ∃ name n database username passwordEnvironment value,
      requiredText fields "protocol" = .ok (.utf8 "postgres") ∧
      requiredText fields "host" = .ok name ∧ Gateway.host name.codes "host" = .ok () ∧
      Gateway.port platform value = .ok n ∧
      optionalText (fields.get "database") "database" = .ok database ∧
      optionalText (fields.get "username") "username" = .ok username ∧
      optionalEnvironmentName (fields.get "password_environment") "password_environment" =
        .ok passwordEnvironment ∧
      target = postgres targetId name n database username passwordEnvironment) := by
  simp only [fromDescriptor, Raise.bind_eq_ok] at h
  obtain ⟨⟨⟩, hid, protocol, hprotocol, h⟩ := h
  refine ⟨hid, ?_⟩
  split at h
  next hhttp =>
    simp only [Raise.bind_eq_ok] at h
    obtain ⟨url, hurl, normalized, hnormalized, h⟩ := h
    cases h
    obtain ⟨hcheck, rfl⟩ := httpUrl_eq_ok.mp hnormalized
    exact .inl ⟨url, by rw [hprotocol, hhttp], hurl, hcheck, rfl⟩
  next =>
    split at h
    next hpostgres =>
      simp only [Raise.bind_eq_ok] at h
      obtain ⟨name, hname, ⟨⟩, hhost, n, hport, database, hdatabase, username, husername,
        passwordEnvironment, hpassword, h⟩ := h
      cases h
      exact .inr ⟨name, n, database, username, passwordEnvironment, _, by rw [hprotocol, hpostgres],
        hname, hhost, hport, hdatabase, husername, hpassword, rfl⟩
    next => cases h

/-- The members of a `postgres` descriptor. -/
def members (name : Text) (n : ℤ) (database username passwordEnvironment : Option Text) : Fields :=
  (.utf8 "protocol", .str "postgres") :: (.utf8 "host", .str name) :: (.utf8 "port", .int n) ::
    (member "database" database ++ member "username" username ++
      member "password_environment" passwordEnvironment)

theorem get_members (name : Text) (n : ℤ) (database username passwordEnvironment : Option Text) :
    (members name n database username passwordEnvironment).get "database" = jsonText database ∧
    (members name n database username passwordEnvironment).get "username" = jsonText username ∧
    (members name n database username passwordEnvironment).get "password_environment" =
      jsonText passwordEnvironment := by
  cases database <;> cases username <;> cases passwordEnvironment <;>
    simp [members, member, jsonText]

theorem boundedText_protocol (name : String) (h : name = "http" ∨ name = "postgres") :
    boundedText (.str (.utf8 name)) "protocol" = .ok (.utf8 name) := by
  rcases h with rfl | rfl <;> exact boundedText_eq_ok.mpr ⟨rfl, by decide, by decide⟩

/-- A `postgres` target is decoded from its descriptor. -/
theorem fromDescriptor_postgres {name : Text} {n : ℤ}
    {database username passwordEnvironment : Option Text}
    (hid : validateTargetId targetId = .ok ())
    (hname : boundedText (.str name) "host" = .ok name)
    (hhost : Gateway.host name.codes "host" = .ok ())
    (hport : Gateway.port platform (.int n) = .ok n)
    (hdatabase : optionalText (jsonText database) "database" = .ok database)
    (husername : optionalText (jsonText username) "username" = .ok username)
    (hpassword : optionalEnvironmentName (jsonText passwordEnvironment) "password_environment" =
      .ok passwordEnvironment) :
    (descriptor (postgres targetId name n database username passwordEnvironment) >>=
      fromDescriptor platform targetId) =
        .ok (postgres targetId name n database username passwordEnvironment) := by
  have hdescriptor : descriptor (postgres targetId name n database username passwordEnvironment) =
      .ok (members name n database username passwordEnvironment) := rfl
  obtain ⟨hgetDatabase, hgetUsername, hgetPassword⟩ :=
    get_members name n database username passwordEnvironment
  have hprotocol : requiredText (members name n database username passwordEnvironment)
      "protocol" = .ok (.utf8 "postgres") := by
    simpa [requiredText, members] using boundedText_protocol "postgres" (.inr rfl)
  have hgetHost : requiredText (members name n database username passwordEnvironment) "host" =
      .ok name := by
    simpa [requiredText, members] using hname
  have hgetPort : (if (members name n database username passwordEnvironment).has "port" then
      (members name n database username passwordEnvironment).get "port" else .int 5432) =
        .int n := by
    simp [members]
  rw [hdescriptor, Raise.ok_bind, fromDescriptor, hid, Raise.ok_bind, hprotocol, Raise.ok_bind,
    if_neg (by decide), if_pos rfl, hgetHost, Raise.ok_bind, hhost, Raise.ok_bind, hgetPort, hport,
    Raise.ok_bind, hgetDatabase, hdatabase, Raise.ok_bind, hgetUsername, husername, Raise.ok_bind,
    hgetPassword, hpassword, Raise.ok_bind]
  rfl

/-- An `http` target is decoded from its descriptor as from its URL. -/
theorem fromDescriptor_http {url : Text} (hid : validateTargetId targetId = .ok ()) :
    (descriptor (http targetId url) >>= fromDescriptor platform targetId) = do
      let url ← boundedText (.str url) "url"
      let url ← httpUrl platform url "url"
      return http targetId url := by
  have hdescriptor : descriptor (http targetId url) =
      .ok [(.utf8 "protocol", .str "http"), (.utf8 "url", .str url)] := rfl
  have hprotocol : requiredText [(.utf8 "protocol", .str "http"), (.utf8 "url", .str url)]
      "protocol" = .ok (.utf8 "http") := by
    simpa [requiredText] using boundedText_protocol "http" (.inl rfl)
  have hurl : requiredText [(.utf8 "protocol", .str "http"), (.utf8 "url", .str url)] "url" =
      boundedText (.str url) "url" := by
    simp [requiredText]
  rw [hdescriptor, Raise.ok_bind, fromDescriptor, hid, Raise.ok_bind, hprotocol, Raise.ok_bind,
    if_pos rfl, hurl]

/-- An admitted target is decoded from its own descriptor exactly when it is no URL, or its URL has
no white space in front of trailing slashes. -/
theorem fromDescriptor_descriptor_iff (h : fromDescriptor platform targetId fields = .ok target) :
    (target.descriptor >>= fromDescriptor platform target.targetId) = .ok target ↔
      (fields.get "protocol" = .str "http" → ∀ url, fields.get "url" = .str url →
        ¬ HidesSpace url.codes) := by
  obtain ⟨hid, ⟨url, hprotocol, hurl, hcheck, rfl⟩ |
    ⟨name, n, database, username, passwordEnvironment, value, hprotocol, hname, hhost, hport,
      hdatabase, husername, hpassword, rfl⟩⟩ := fromDescriptor_cases h
  · have hgetProtocol := (boundedText_eq_ok.mp hprotocol).1
    obtain ⟨hgetUrl, hbounded, hsecret⟩ := boundedText_eq_ok.mp hurl
    have hcondition : (fields.get "protocol" = .str "http" → ∀ url, fields.get "url" = .str url →
        ¬ HidesSpace url.codes) ↔ ¬ HidesSpace url.codes := by
      constructor
      · exact fun hall => hall hgetProtocol url hgetUrl
      · rintro hnot - url' hurl'
        rw [hgetUrl] at hurl'
        cases hurl'
        exact hnot
    -- the descriptor has the normalized URL, so the round trip asks for a URL that is one
    rw [hcondition, ← normalizedUrl_eq_self_iff]
    change (descriptor (http targetId _) >>= fromDescriptor platform targetId) = _ ↔ _
    rw [fromDescriptor_http hid]
    simp only [Raise.bind_eq_ok, httpUrl_eq_ok]
    constructor
    · rintro ⟨u, hu, v, ⟨-, rfl⟩, heq⟩
      cases (boundedText_eq_ok.mp hu).1
      have hcodes := congrArg GatewayTarget.url (Except.ok.inj heq)
      simp only [http, Option.some.injEq] at hcodes
      simpa using congrArg Text.codes hcodes
    · intro hsame
      obtain ⟨parsed, hparsed, hscheme, -⟩ := checkHttpUrl_absolute hcheck
      have hne : normalizedUrl url.codes ≠ [] := by
        intro hnil
        rw [hnil] at hparsed
        cases hparsed
        exact hscheme rfl
      refine ⟨_, boundedText_eq_ok.mpr ⟨rfl, ?_, ?_⟩, _, ⟨?_, rfl⟩, ?_⟩
      · rw [Text.codes_ofCodes]
        exact isBounded_normalizedUrl hbounded hsame hne
      · rw [Text.codes_ofCodes]
        refine Bool.eq_false_iff.mpr fun hmentions => ?_
        rw [Lower.mentions_of_part (normalizedUrl_part _) hmentions] at hsecret
        cases hsecret
      · rw [Text.codes_ofCodes, hsame]
        exact hcheck
      · rw [Text.codes_ofCodes, hsame]
        rfl
  · have hgetProtocol := (boundedText_eq_ok.mp hprotocol).1
    constructor
    · rintro - hhttp
      rw [hgetProtocol] at hhttp
      simp at hhttp
    · intro _
      have hgetName := (boundedText_eq_ok.mp hname).1
      rw [requiredText, hgetName] at hname
      exact fromDescriptor_postgres hid hname hhost (port_int hport)
        (optionalText_jsonText hdatabase) (optionalText_jsonText husername)
        (optionalEnvironmentName_jsonText hpassword)

end Roundtrip

namespace Instance

/-- A standard library that knows ASCII: it admits network locations without brackets. -/
def ascii : Platform where
  admits netloc := netloc.all fun n => decide (n < 128) && n != 91 && n != 93
  digit n := if 48 ≤ n ∧ n ≤ 57 then some (n - 48) else none

/-- A URL with a blank in front of its last slash. -/
def fields : Fields :=
  [(.utf8 "protocol", .str "http"), (.utf8 "url", .str "http://host/a /")]

theorem fromDescriptor_blank :
    fromDescriptor ascii "target" fields = .ok (http "target" "http://host/a ") :=
  rfl

/-- The target is not decoded from its own descriptor: the blank is gone. -/
theorem fromDescriptor_descriptor_blank : ¬ ∀ (platform : Platform) (targetId : Text)
    (fields : Fields) (target : GatewayTarget),
    fromDescriptor platform targetId fields = .ok target →
      (target.descriptor >>= fromDescriptor platform target.targetId) = .ok target := by
  intro h
  have hround := h ascii "target" fields _ fromDescriptor_blank
  have hother : (descriptor (http "target" "http://host/a ") >>= fromDescriptor ascii "target") =
      .ok (http "target" "http://host/a") := rfl
  rw [show (http "target" "http://host/a ").targetId = "target" from rfl, hother] at hround
  exact absurd hround (by decide)

theorem fromDescriptor_descriptor_blank_iff :
    (descriptor (http "target" "http://host/a ") >>= fromDescriptor ascii "target") =
        .ok (http "target" "http://host/a ") ↔
      (fields.get "protocol" = .str "http" → ∀ url, fields.get "url" = .str url →
        ¬ HidesSpace url.codes) :=
  fromDescriptor_descriptor_iff fromDescriptor_blank

end Instance

end GatewayTarget

end Gateway

end ControlPlaneKit
