import Mathlib.Data.List.Nodup
import Mathlib.Logic.Function.Basic
import Mathlib.Logic.Relation
import ControlPlaneKit.Python.Json

/-!
# Capability verification of the local gateway

`Ed25519GatewayProbeVerifier.verify` and its replay cache. The checks before the cache read the
verifier, the request and the clock; `rememberOnce` reads the clock again and runs under the
cache's lock. Calls overlap freely, so a run is a sequence of steps of many calls (`Step`): the
checks of a call, its second reading of the clock, and its turn under the lock.

The signature check, the JSON parser and the codecs of requests and grants are parameters
(`Codecs`).
-/

namespace ControlPlaneKit

namespace Gateway

/-! ### Grants and requests -/

/-- `GatewayProbeRequest`, with its canonical digest. -/
structure ProbeRequest where
  kind : String
  targetId : String
  digest : String
deriving DecidableEq

/-- `DelegatedGatewayProbeGrant`. -/
structure Grant where
  issuer : String
  keyId : String
  audience : String
  workspaceId : String
  gatewayNodeId : String
  jti : String
  issuedAt : ℤ
  expiresAt : ℤ
  probeKind : String
  targetId : String
  requestDigest : String
deriving DecidableEq

/-- `DelegatedGatewayProbeVerificationCode`. -/
inductive Code where
  | untrustedGrant
  | temporallyInvalid
  | audienceMismatch
  | requestMismatch
  | replayed
deriving DecidableEq

/-- The status code of a rejection. -/
def Code.status : Code → ℕ
  | .untrustedGrant => 401
  | .temporallyInvalid => 401
  | .audienceMismatch => 403
  | .requestMismatch => 403
  | .replayed => 409

/-- How `jwt.decode` ends. -/
inductive Decoded where
  | claims (claims : Fields)
  | invalidAudience
  | invalidIssuer
  | invalid

/-- The parsers and codecs the verifier calls. -/
structure Codecs where
  /-- `json.loads` and `GatewayProbeRequestCodec().decode`. -/
  decodeRequest : List UInt8 → Option ProbeRequest
  /-- `jwt.get_unverified_header`. -/
  unverifiedHeader : String → Option Fields
  /-- `jwt.decode` with a key, an issuer and an audience. -/
  decodeToken : (token key issuer audience : String) → Decoded
  /-- `DelegatedGatewayProbeGrantCodec().decode`. -/
  decodeGrant : Fields → Option Grant

/-! ### The replay cache -/

/-- `_entries`: the remembered capabilities with their expiry. -/
abbrev Entries := List (String × ℤ)

/-- The entries that are not expired. -/
def Entries.evict (entries : Entries) (now : ℤ) : Entries :=
  entries.filter fun m => !decide (m.2 ≤ now)

/-- `GatewayProbeReplayCache.remember_once` under its lock: the entries afterwards, and whether the
capability was accepted. Expired entries are dropped in any case. -/
def rememberOnce (maxEntries : ℕ) (entries : Entries) (now : ℤ) (jti : String) (expiresAt : ℤ) :
    Entries × Except Code Unit :=
  let kept := entries.evict now
  if kept.any fun m => m.1 == jti then (kept, .error .replayed)
  else if maxEntries ≤ kept.length then (kept, .error .replayed)
  else (kept ++ [(jti, expiresAt)], .ok ())

/-! ### The verifier -/

/-- `Ed25519GatewayProbeVerifier` and the size of its cache, as the constructors admit them. -/
structure Verifier where
  issuer : String
  audience : String
  gatewayNodeId : String
  publicKeys : List (String × String)
  clockSkewSeconds : ℕ
  maxEntries : ℕ
  skew_le : clockSkewSeconds ≤ 30
  entries_pos : 1 ≤ maxEntries
  entries_le : maxEntries ≤ 4096

section Verify

variable (codecs : Codecs) (v : Verifier)

/-- `_decode_request_body`. -/
def decodeRequestBody (body : List UInt8) : Except Code ProbeRequest :=
  if 4096 < body.length then .error .requestMismatch
  else
    match codecs.decodeRequest body with
    | some request => .ok request
    | none => .error .requestMismatch

/-- `_extract_token`. -/
def extractToken (header : Option String) : Except Code String :=
  match header with
  | none => .error .untrustedGrant
  | some header =>
    if header = "" ∨ 12288 < header.utf8ByteSize then .error .untrustedGrant
    else
      match header.toList.splitOn ' ' with
      | [scheme, token] =>
        if scheme = "CPK-Gateway".toList ∧ token ≠ [] ∧ token.all (fun c => decide (c.toNat < 128)) then
          .ok (String.ofList token)
        else .error .untrustedGrant
      | _ => .error .untrustedGrant

/-- `_select_key`. -/
def selectKey (token : String) : Except Code String :=
  match codecs.unverifiedHeader token with
  | none => .error .untrustedGrant
  | some header =>
    if header.keysAre ["alg", "kid", "typ"] && (header.get "alg").pyEq (.str "EdDSA") &&
        (header.get "typ").pyEq (.str "CPK-GATEWAY-PROBE+JWT") then
      match header.get "kid" with
      | .str (.utf8 kid) =>
        match v.publicKeys.lookup kid with
        | some key => .ok key
        | none => .error .untrustedGrant
      | _ => .error .untrustedGrant
    else .error .untrustedGrant

/-- `_decode_claims`. -/
def decodeClaims (token key : String) : Except Code Fields :=
  match codecs.decodeToken token key v.issuer v.audience with
  | .claims claims =>
    if claims.keysAre ["iss", "aud", "iat", "exp", "jti", "gateway_probe"] then .ok claims
    else .error .untrustedGrant
  | .invalidAudience => .error .audienceMismatch
  | .invalidIssuer => .error .audienceMismatch
  | .invalid => .error .untrustedGrant

/-- `_decode_grant`. -/
def decodeGrant (claims : Fields) : Except Code Grant :=
  match claims.get "gateway_probe" with
  | .obj descriptor =>
    match codecs.decodeGrant descriptor with
    | some grant => .ok grant
    | none => .error .untrustedGrant
  | _ => .error .untrustedGrant

/-- A condition of the verifier, with the code it rejects with. -/
def check (condition : Bool) (code : Code) : Except Code Unit :=
  if condition then .ok () else .error code

/-- `_require_exact_claim_binding`. -/
def requireExactClaimBinding (claims : Fields) (grant : Grant) : Except Code Unit :=
  check ((claims.get "iss").pyEq (.str (.utf8 grant.issuer)) &&
    (claims.get "aud").pyEq (.str (.utf8 grant.audience)) &&
    (claims.get "iat").pyEq (.int grant.issuedAt) &&
    (claims.get "exp").pyEq (.int grant.expiresAt) &&
    (claims.get "jti").pyEq (.str (.utf8 grant.jti))) .requestMismatch

/-- `_require_exact_authority`. -/
def requireExactAuthority (grant : Grant) : Except Code Unit :=
  check (grant.issuer == v.issuer && grant.audience == v.audience &&
    grant.gatewayNodeId == v.gatewayNodeId &&
    grant.audience == s!"gateway:{grant.workspaceId}:{grant.gatewayNodeId}") .audienceMismatch

/-- `_require_temporal_validity`, with the clock in whole seconds. -/
def requireTemporalValidity (now : ℤ) (grant : Grant) : Except Code Unit :=
  check (decide (grant.issuedAt ≤ now + v.clockSkewSeconds ∧
    now - v.clockSkewSeconds < grant.expiresAt)) .temporallyInvalid

/-- `_require_exact_request`. -/
def requireExactRequest (grant : Grant) (request : ProbeRequest) : Except Code Unit :=
  check (grant.probeKind == request.kind && grant.targetId == request.targetId &&
    grant.requestDigest == request.digest) .requestMismatch

/-- `verify` up to the replay cache. -/
def verifyChecks (now : ℤ) (header : Option String) (body : List UInt8) :
    Except Code (ProbeRequest × Grant) := do
  let request ← decodeRequestBody codecs body
  let token ← extractToken header
  let key ← selectKey codecs v token
  let claims ← decodeClaims codecs v token key
  let grant ← decodeGrant codecs claims
  requireExactClaimBinding claims grant
  requireExactAuthority v grant
  requireTemporalValidity v now grant
  requireExactRequest grant request
  return (request, grant)

end Verify

/-! ### Runs -/

/-- Where a call of `verify` stands. -/
inductive Stage where
  | idle
  /-- The checks have passed. -/
  | checked (request : ProbeRequest) (grant : Grant)
  /-- `remember_once` has read the clock. -/
  | timed (request : ProbeRequest) (grant : Grant) (now : ℤ)

/-- One turn under the cache's lock: the clock as it was read, the grant, and whether the call
returned its request. -/
structure Turn where
  now : ℤ
  grant : Grant
  accepted : Bool

/-- One gateway process: the shared clock, the cache, the calls, and the turns taken so far. -/
structure Process where
  clock : ℤ
  entries : Entries
  calls : ℕ → Stage
  turns : List Turn

/-- A process that has just been started. -/
def Process.start (clock : ℤ) : Process :=
  ⟨clock, [], fun _ => .idle, []⟩

/-- The capabilities of the calls that have returned a request. -/
def accepted (turns : List Turn) : List String :=
  (turns.filter (·.accepted)).map (·.grant.jti)

section Runs

variable (codecs : Codecs) (v : Verifier)

/-- One step of a gateway process. A call that is rejected before the cache changes nothing. -/
inductive Step : Process → Process → Prop where
  | tick (s : Process) (clock : ℤ) (h : s.clock ≤ clock) : Step s { s with clock := clock }
  | check (s : Process) (i : ℕ) (header : Option String) (body : List UInt8)
      (request : ProbeRequest) (grant : Grant) (hi : s.calls i = .idle)
      (h : verifyChecks codecs v s.clock header body = .ok (request, grant)) :
      Step s { s with calls := Function.update s.calls i (.checked request grant) }
  | read (s : Process) (i : ℕ) (request : ProbeRequest) (grant : Grant)
      (hi : s.calls i = .checked request grant) :
      Step s { s with calls := Function.update s.calls i (.timed request grant s.clock) }
  | remember (s : Process) (i : ℕ) (request : ProbeRequest) (grant : Grant) (now : ℤ)
      (hi : s.calls i = .timed request grant now) (entries : Entries) (outcome : Except Code Unit)
      (h : rememberOnce v.maxEntries s.entries now grant.jti grant.expiresAt = (entries, outcome)) :
      Step s ⟨s.clock, entries, Function.update s.calls i .idle,
        s.turns ++ [⟨now, grant, outcome.isOk⟩]⟩

/-- The runs of a gateway process. -/
abbrev Runs : Process → Process → Prop :=
  Relation.ReflTransGen (Step codecs v)

end Runs

/-! ### Single use -/

/-- While the turns before this one have been taken, no clock reading has reached the expiry under
which the capability was first accepted. -/
def Unexpired (before : List Turn) (turn : Turn) : Prop :=
  ∀ pre first post, before = pre ++ first :: post → first.accepted = true →
    first.grant.jti = turn.grant.jti → ∀ t ∈ post ++ [turn], t.now < first.grant.expiresAt

/-- Every turn was taken before the capability it presents had expired in the cache. -/
def AllUnexpired (turns : List Turn) : Prop :=
  ∀ pre turn post, turns = pre ++ turn :: post → Unexpired pre turn

theorem AllUnexpired.of_concat {turns : List Turn} {turn : Turn}
    (h : AllUnexpired (turns ++ [turn])) : AllUnexpired turns ∧ Unexpired turns turn := by
  refine ⟨fun pre t post heq => ?_, h turns turn [] rfl⟩
  exact h pre t (post ++ [turn]) (by rw [heq, List.append_assoc, List.cons_append])

/-- Where every reading is before every expiry, the turns are unexpired. -/
theorem AllUnexpired.of_early {turns : List Turn}
    (h : ∀ first ∈ turns, ∀ t ∈ turns, t.now < first.grant.expiresAt) : AllUnexpired turns := by
  rintro before turn after rfl pre first post rfl - - t ht
  refine h first (by simp) t ?_
  simp only [List.mem_append, List.mem_cons] at ht ⊢
  tauto

theorem mem_evict {entries : Entries} {now : ℤ} {m : String × ℤ} :
    m ∈ entries.evict now ↔ m ∈ entries ∧ now < m.2 := by
  simp [Entries.evict]

/-- What a turn under the lock does. -/
theorem rememberOnce_cases {maxEntries : ℕ} {entries entries' : Entries} {now : ℤ} {jti : String}
    {expiresAt : ℤ} {outcome : Except Code Unit}
    (h : rememberOnce maxEntries entries now jti expiresAt = (entries', outcome)) :
    (outcome = .error .replayed ∧ entries' = entries.evict now) ∨
      (outcome = .ok () ∧ entries' = entries.evict now ++ [(jti, expiresAt)] ∧
        ∀ m ∈ entries.evict now, m.1 ≠ jti) := by
  simp only [rememberOnce] at h
  split at h
  · cases h
    exact .inl ⟨rfl, rfl⟩
  · rename_i hnew
    split at h
    · cases h
      exact .inl ⟨rfl, rfl⟩
    · cases h
      refine .inr ⟨rfl, rfl, fun m hm heq => hnew ?_⟩
      exact List.any_eq_true.mpr ⟨m, hm, by simpa using heq⟩

/-- An accepted capability is remembered until a turn reads its expiry. -/
def Remembered (s : Process) : Prop :=
  ∀ pre turn post, s.turns = pre ++ turn :: post → turn.accepted = true →
    (∀ t ∈ post, t.now < turn.grant.expiresAt) →
      (turn.grant.jti, turn.grant.expiresAt) ∈ s.entries

section SingleUse

variable {codecs : Codecs} {v : Verifier} {s s' : Process}

/-- Every step keeps accepted capabilities remembered. -/
theorem Step.remembered (h : Step codecs v s s') (hs : Remembered s) : Remembered s' := by
  cases h with
  | tick => exact hs
  | check => exact hs
  | read => exact hs
  | remember i request grant now hi entries outcome h =>
    intro pre turn post heq hturn hbefore
    rcases List.eq_nil_or_concat post with rfl | ⟨post, last, rfl⟩
    · -- The turn is the one just taken.
      obtain ⟨-, hlast⟩ := List.append_inj' heq rfl
      obtain rfl := List.singleton_inj.mp hlast
      rcases rememberOnce_cases h with ⟨rfl, -⟩ | ⟨-, rfl, -⟩
      · cases hturn
      · exact List.mem_append_right _ (List.mem_singleton_self _)
    · rw [List.concat_eq_append, ← List.cons_append, ← List.append_assoc] at heq
      obtain ⟨hturns, hlast⟩ := List.append_inj' heq rfl
      obtain rfl := List.singleton_inj.mp hlast
      rw [List.concat_eq_append] at hbefore
      have hold := hs pre turn post hturns hturn fun t ht =>
        hbefore t (List.mem_append_left _ ht)
      have hnow : now < turn.grant.expiresAt :=
        hbefore _ (List.mem_append_right _ (List.mem_singleton_self _))
      have hkept : (turn.grant.jti, turn.grant.expiresAt) ∈ s.entries.evict now :=
        mem_evict.mpr ⟨hold, hnow⟩
      rcases rememberOnce_cases h with ⟨-, rfl⟩ | ⟨-, rfl, -⟩
      · exact hkept
      · exact List.mem_append_left _ hkept

theorem accepted_concat (turns : List Turn) (turn : Turn) :
    accepted (turns ++ [turn]) = accepted turns ++ if turn.accepted then [turn.grant.jti] else [] := by
  cases h : turn.accepted <;> simp [accepted, h]

/-- A step whose turn is unexpired keeps accepted capabilities apart. -/
theorem Step.nodup (h : Step codecs v s s') (hs : Remembered s) (hnodup : (accepted s.turns).Nodup)
    (hturns : AllUnexpired s'.turns) : (accepted s'.turns).Nodup := by
  cases h with
  | tick => exact hnodup
  | check => exact hnodup
  | read => exact hnodup
  | remember i request grant now hi entries outcome h =>
    obtain ⟨-, hunexpired⟩ := hturns.of_concat
    rw [accepted_concat]
    rcases rememberOnce_cases h with ⟨rfl, -⟩ | ⟨rfl, -, hnew⟩
    · simpa [Except.isOk, Except.toBool] using hnodup
    · have hfresh : grant.jti ∉ accepted s.turns := by
        intro hmem
        obtain ⟨first, hfirst, hjti⟩ := List.mem_map.mp hmem
        obtain ⟨hin, haccepted⟩ := List.mem_filter.mp hfirst
        obtain ⟨pre, post, heq⟩ := List.append_of_mem hin
        have htimes := hunexpired pre first post heq haccepted hjti
        have hentry := hs pre first post heq haccepted fun t ht =>
          htimes t (List.mem_append_left _ ht)
        have hnow : now < first.grant.expiresAt :=
          htimes _ (List.mem_append_right _ (List.mem_singleton_self _))
        exact hnew _ (mem_evict.mpr ⟨hentry, hnow⟩) hjti
      rw [if_pos (by rfl), ← List.concat_eq_append]
      exact hnodup.concat hfresh

/-- The turns of a run only grow. -/
theorem Step.turns (h : Step codecs v s s') : s.turns <+: s'.turns := by
  cases h with
  | remember => exact List.prefix_append _ _
  | _ => exact List.prefix_rfl

/-- **Capabilities are single use** in every run whose turns are all unexpired. -/
theorem accepted_nodup {clock : ℤ} (h : Runs codecs v (.start clock) s)
    (hturns : AllUnexpired s.turns) : (accepted s.turns).Nodup := by
  have hboth : Remembered s ∧ (accepted s.turns).Nodup := by
    induction h with
    | refl => exact ⟨by simp [Remembered, Process.start], List.nodup_nil⟩
    | @tail b c _ hstep ih =>
      obtain ⟨post, hpost⟩ := hstep.turns
      have hbefore : AllUnexpired b.turns := by
        intro pre turn rest heq
        exact hturns pre turn (rest ++ post) (by rw [← hpost, heq]; simp)
      obtain ⟨hremembered, hnodup⟩ := ih hbefore
      exact ⟨hstep.remembered hremembered, hstep.nodup hremembered hnodup hturns⟩
  exact hboth.2

/-- A call that no other one overlaps. -/
theorem Runs.call {i : ℕ} {header : Option String} {body : List UInt8} {request : ProbeRequest}
    {grant : Grant} {entries : Entries} {outcome : Except Code Unit} (hi : s.calls i = .idle)
    (hcheck : verifyChecks codecs v s.clock header body = .ok (request, grant))
    (h : rememberOnce v.maxEntries s.entries s.clock grant.jti grant.expiresAt =
      (entries, outcome)) :
    Runs codecs v s
      ⟨s.clock, entries, s.calls, s.turns ++ [⟨s.clock, grant, outcome.isOk⟩]⟩ := by
  have hchecked := Step.check s i header body request grant hi hcheck
  have hread : Step codecs v _ _ := Step.read
    { s with calls := Function.update s.calls i (.checked request grant) } i request grant (by simp)
  have hturn : Step codecs v _ _ := Step.remember
    { s with
      calls := Function.update (Function.update s.calls i (.checked request grant)) i
        (.timed request grant s.clock) } i request grant s.clock (by simp) entries outcome h
  simp only [Function.update_idem] at hread hturn
  rw [← hi, Function.update_eq_self] at hturn
  exact ((Relation.ReflTransGen.single hchecked).tail hread).tail hturn

end SingleUse

/-! ### The seconds after the expiry -/

namespace Instance

/-- A grant that expires at 100. -/
def grant : Grant where
  issuer := "cpk"
  keyId := "key"
  audience := "gateway:workspace:node"
  workspaceId := "workspace"
  gatewayNodeId := "node"
  jti := "capability"
  issuedAt := 40
  expiresAt := 100
  probeKind := "http-status"
  targetId := "target"
  requestDigest := "digest"

/-- Codecs that know one request and one token. -/
def codecs : Codecs where
  decodeRequest body := if body = [123, 125] then some ⟨"http-status", "target", "digest"⟩ else none
  unverifiedHeader token :=
    if token = "token" then
      some [("alg", .str "EdDSA"), ("kid", .str "key"), ("typ", .str "CPK-GATEWAY-PROBE+JWT")]
    else none
  decodeToken token _ _ _ :=
    if token = "token" then
      .claims [("iss", .str "cpk"), ("aud", .str "gateway:workspace:node"), ("iat", .int 40),
        ("exp", .int 100), ("jti", .str "capability"), ("gateway_probe", .obj [])]
    else .invalid
  decodeGrant _ := some grant

/-- The verifier with its default skew and cache size. -/
def verifier : Verifier where
  issuer := "cpk"
  audience := "gateway:workspace:node"
  gatewayNodeId := "node"
  publicKeys := [("key", "pem")]
  clockSkewSeconds := 5
  maxEntries := 4096
  skew_le := by decide
  entries_pos := by decide
  entries_le := by decide

theorem verifyChecks_eq (now : ℤ) (h : now = 99 ∨ now = 100) :
    verifyChecks codecs verifier now (some "CPK-Gateway token") [123, 125] =
      .ok (⟨"http-status", "target", "digest"⟩, grant) := by
  rcases h with rfl | rfl <;> rfl

/-- The process after these turns. -/
def process (clock : ℤ) (entries : Entries) (turns : List Turn) : Process :=
  ⟨clock, entries, fun _ => .idle, turns⟩

/-- One use of the grant, at 99 or 100. -/
theorem runs_use {clock : ℤ} (hclock : clock = 99 ∨ clock = 100) {entries entries' : Entries}
    {turns : List Turn} {outcome : Except Code Unit}
    (h : rememberOnce 4096 entries clock grant.jti grant.expiresAt = (entries', outcome)) :
    Runs codecs verifier (process clock entries turns)
      (process clock entries' (turns ++ [⟨clock, grant, outcome.isOk⟩])) := by
  have hcall : Runs codecs verifier (process clock entries turns) _ :=
    Runs.call (i := 0) rfl (verifyChecks_eq clock hclock) h
  exact hcall

theorem runs_first :
    Runs codecs verifier (.start 99) (process 99 [("capability", 100)] [⟨99, grant, true⟩]) := by
  have hfirst : rememberOnce 4096 [] 99 grant.jti grant.expiresAt =
      ([("capability", 100)], .ok ()) := by decide
  exact runs_use (.inl rfl) hfirst

/-- Before its expiry the grant is refused the second time. -/
theorem runs_replayed : Runs codecs verifier (.start 99)
    (process 99 [("capability", 100)] [⟨99, grant, true⟩, ⟨99, grant, false⟩]) := by
  have hsecond : rememberOnce 4096 [("capability", 100)] 99 grant.jti grant.expiresAt =
      ([("capability", 100)], .error .replayed) := by decide
  exact runs_first.trans (runs_use (.inl rfl) hsecond)

/-- The cache drops the entry at its expiry, five seconds before the verifier refuses the grant. -/
theorem runs_second : Runs codecs verifier (.start 99)
    (process 100 [("capability", 100)] [⟨99, grant, true⟩, ⟨100, grant, true⟩]) := by
  have htick : Step codecs verifier (process 99 [("capability", 100)] [⟨99, grant, true⟩])
      (process 100 [("capability", 100)] [⟨99, grant, true⟩]) := .tick _ 100 (by decide)
  have hsecond : rememberOnce 4096 [("capability", 100)] 100 grant.jti grant.expiresAt =
      ([("capability", 100)], .ok ()) := by decide
  exact (runs_first.tail htick).trans (runs_use (.inr rfl) hsecond)

/-- One process and calls that do not overlap: the capability is used twice. -/
theorem accepted_twice : ¬ ∀ (codecs : Codecs) (v : Verifier) (clock : ℤ) (s : Process),
    Runs codecs v (.start clock) s → (accepted s.turns).Nodup :=
  fun h => absurd (h codecs verifier 99 _ runs_second) (by decide)

/-- Two presentations before the expiry: one use. -/
theorem accepted_once : (accepted [⟨99, grant, true⟩, ⟨99, grant, false⟩]).Nodup :=
  accepted_nodup runs_replayed (.of_early (by decide))

end Instance

end Gateway

end ControlPlaneKit
