import ControlPlaneKit.Gateway.Verification
import ControlPlaneKit.Python.Raise

/-!
# What a capability is bound to

The grant is named three times in a token: by the header that selects the key, by the registered
claims, and by the nested descriptor. `verify` compares each field of the descriptor with its
counterpart, except the key id: that one is compared nowhere, so an accepted capability names the
key that verified it exactly where the descriptor and the header agree on it.
-/

namespace ControlPlaneKit

namespace Gateway

section Binding

variable {codecs : Codecs} {v : Verifier} {header : Option String} {body : List UInt8}
  {request : ProbeRequest} {grant : Grant} {now reading : ℤ} {entries : Entries}

/-- `verify`, with the clock as it is read by the checks and by the cache. -/
def verify (codecs : Codecs) (v : Verifier) (now reading : ℤ) (entries : Entries)
    (header : Option String) (body : List UInt8) : Entries × Except Code ProbeRequest :=
  match verifyChecks codecs v now header body with
  | .error code => (entries, .error code)
  | .ok (request, grant) =>
    match rememberOnce v.maxEntries entries reading grant.jti grant.expiresAt with
    | (entries, .ok ()) => (entries, .ok request)
    | (entries, .error code) => (entries, .error code)

/-- What the token of an authorization header presents: the key id of its header with the trusted
key of that name, the claims that this key verifies, and the grant of the descriptor in them. -/
structure Presents (codecs : Codecs) (v : Verifier) (header : Option String) (kid : String)
    (claims : Fields) (grant : Grant) : Prop where
  token : ∃ token key tokenHeader descriptor, extractToken header = .ok token ∧
    codecs.unverifiedHeader token = some tokenHeader ∧ tokenHeader.get "kid" = .str (.utf8 kid) ∧
    v.publicKeys.lookup kid = some key ∧
    codecs.decodeToken token key v.issuer v.audience = .claims claims ∧
    claims.get "gateway_probe" = .obj descriptor ∧ codecs.decodeGrant descriptor = some grant

/-- The token of a header presents one grant under one key. -/
theorem Presents.unique {kid kid' : String} {claims claims' : Fields} {grant grant' : Grant}
    (h : Presents codecs v header kid claims grant)
    (h' : Presents codecs v header kid' claims' grant') :
    kid = kid' ∧ claims = claims' ∧ grant = grant' := by
  obtain ⟨token, key, tokenHeader, descriptor, htoken, hheader, hkid, hkey, hclaims, hdescriptor,
    hgrant⟩ := h.token
  obtain ⟨token', key', tokenHeader', descriptor', htoken', hheader', hkid', hkey', hclaims',
    hdescriptor', hgrant'⟩ := h'.token
  obtain rfl : token = token' := Except.ok.inj (htoken.symm.trans htoken')
  obtain rfl : tokenHeader = tokenHeader' := Option.some.inj (hheader.symm.trans hheader')
  have hkids : kid = kid' := by
    rw [hkid] at hkid'
    exact Text.utf8.inj (Json.str.inj hkid')
  subst hkids
  obtain rfl : key = key' := Option.some.inj (hkey.symm.trans hkey')
  obtain rfl : claims = claims' := Decoded.claims.inj (hclaims.symm.trans hclaims')
  obtain rfl : descriptor = descriptor' := Json.obj.inj (hdescriptor.symm.trans hdescriptor')
  exact ⟨rfl, rfl, Option.some.inj (hgrant.symm.trans hgrant')⟩

/-- The capability of a header authorizes the request of a body: it is signed by the key it names,
its claims repeat the grant, the grant is for this gateway, and it names this request. -/
structure Authorizes (codecs : Codecs) (v : Verifier) (header : Option String) (body : List UInt8)
    (request : ProbeRequest) (kid : String) (claims : Fields) (grant : Grant) : Prop where
  presents : Presents codecs v header kid claims grant
  keyId : grant.keyId = kid
  iss : claims.get "iss" = .str (.utf8 grant.issuer)
  aud : claims.get "aud" = .str (.utf8 grant.audience)
  iat : (claims.get "iat").pyEq (.int grant.issuedAt) = true
  exp : (claims.get "exp").pyEq (.int grant.expiresAt) = true
  jti : claims.get "jti" = .str (.utf8 grant.jti)
  issuer : grant.issuer = v.issuer
  audience : grant.audience = v.audience
  gatewayNodeId : grant.gatewayNodeId = v.gatewayNodeId
  gateway : grant.audience = s!"gateway:{grant.workspaceId}:{grant.gatewayNodeId}"
  decoded : body.length ≤ 4096 ∧ codecs.decodeRequest body = some request
  probeKind : grant.probeKind = request.kind
  targetId : grant.targetId = request.targetId
  requestDigest : grant.requestDigest = request.digest

theorem check_eq_ok {condition : Bool} {code : Code} :
    check condition code = .ok () ↔ condition = true := by
  cases condition <;> simp [check]

/-- What the checks of `verify` leave behind. -/
theorem verifyChecks_ok (h : verifyChecks codecs v now header body = .ok (request, grant)) :
    ∃ kid claims, Presents codecs v header kid claims grant ∧
      (grant.keyId = kid → Authorizes codecs v header body request kid claims grant) := by
  simp only [verifyChecks, Raise.bind_eq_ok] at h
  obtain ⟨request', hrequest, token, htoken, key, hkey, claims, hclaims, grant', hgrant,
    ⟨⟩, hbinding, ⟨⟩, hauthority, ⟨⟩, -, ⟨⟩, hexact, hresult⟩ := h
  obtain ⟨rfl, rfl⟩ := Prod.mk.inj (Except.ok.inj hresult)
  have hdecoded : body.length ≤ 4096 ∧ codecs.decodeRequest body = some request' := by
    unfold decodeRequestBody at hrequest
    split at hrequest
    · cases hrequest
    · rename_i hlength
      split at hrequest
      · rename_i hdecode
        cases hrequest
        exact ⟨Nat.not_lt.mp hlength, hdecode⟩
      · cases hrequest
  -- up to the grant, the checks are the clauses of a presentation
  have hpresents : ∃ kid, Presents codecs v header kid claims grant' := by
    unfold selectKey at hkey
    split at hkey
    · cases hkey
    rename_i tokenHeader hheader
    split at hkey
    · split at hkey
      · rename_i kid hkid
        split at hkey
        · rename_i hlookup
          cases hkey
          unfold decodeClaims at hclaims
          split at hclaims
          · rename_i hverified
            split at hclaims
            · cases hclaims
              unfold decodeGrant at hgrant
              split at hgrant
              · rename_i descriptor hdescriptor
                split at hgrant
                · rename_i hdecode
                  cases hgrant
                  exact ⟨kid, ⟨token, _, tokenHeader, descriptor, htoken, hheader, hkid, hlookup,
                    hverified, hdescriptor, hdecode⟩⟩
                · cases hgrant
              · cases hgrant
            · cases hclaims
          all_goals cases hclaims
        · cases hkey
      · cases hkey
    · cases hkey
  obtain ⟨kid, hpresents⟩ := hpresents
  refine ⟨kid, claims, hpresents, fun hkeyId => ?_⟩
  simp only [requireExactClaimBinding, check_eq_ok, Bool.and_eq_true, Json.pyEq_str] at hbinding
  simp only [requireExactAuthority, check_eq_ok, Bool.and_eq_true, beq_iff_eq] at hauthority
  simp only [requireExactRequest, check_eq_ok, Bool.and_eq_true, beq_iff_eq] at hexact
  obtain ⟨⟨⟨⟨hiss, haud⟩, hiat⟩, hexp⟩, hjti⟩ := hbinding
  obtain ⟨⟨⟨hissuer, haudience⟩, hnode⟩, hgateway⟩ := hauthority
  obtain ⟨⟨hkind, htarget⟩, hdigest⟩ := hexact
  exact ⟨hpresents, hkeyId, hiss, haud, hiat, hexp, hjti, hissuer, haudience, hnode, hgateway,
    hdecoded, hkind, htarget, hdigest⟩

/-- A call that returns has passed the checks. -/
theorem verify_ok (h : (verify codecs v now reading entries header body).2 = .ok request) :
    ∃ grant, verifyChecks codecs v now header body = .ok (request, grant) := by
  unfold verify at h
  split at h
  · cases h
  · rename_i request' grant hchecks
    split at h
    · cases h
      exact ⟨grant, hchecks⟩
    · cases h

/-- **A capability authorizes the key, the authority and the request it names** exactly if the key
id of its descriptor is the one of its header. -/
theorem verify_authorizes_iff
    (h : (verify codecs v now reading entries header body).2 = .ok request) :
    ∃ kid claims grant, Presents codecs v header kid claims grant ∧
      (∀ kid' claims' grant', Presents codecs v header kid' claims' grant' →
        kid' = kid ∧ claims' = claims ∧ grant' = grant) ∧
      ((∃ kid claims grant, Authorizes codecs v header body request kid claims grant) ↔
        grant.keyId = kid) := by
  obtain ⟨grant, hchecks⟩ := verify_ok h
  obtain ⟨kid, claims, hpresents, hauthorizes⟩ := verifyChecks_ok hchecks
  refine ⟨kid, claims, grant, hpresents, fun kid' claims' grant' h' => h'.unique hpresents,
    ?_, fun hkeyId => ⟨kid, claims, grant, hauthorizes hkeyId⟩⟩
  rintro ⟨kid', claims', grant', h'⟩
  obtain ⟨rfl, -, rfl⟩ := h'.presents.unique hpresents
  exact h'.keyId

end Binding

namespace Instance

/-- The capability of the verifier's instance. -/
theorem verify_authorizes_once :
    ∃ kid claims grant, Presents codecs verifier (some "CPK-Gateway token") kid claims grant ∧
      (∀ kid' claims' grant', Presents codecs verifier (some "CPK-Gateway token") kid' claims' grant' →
        kid' = kid ∧ claims' = claims ∧ grant' = grant) ∧
      ((∃ kid claims grant, Authorizes codecs verifier (some "CPK-Gateway token") [123, 125]
        ⟨"http-status", "target", "digest"⟩ kid claims grant) ↔ grant.keyId = kid) :=
  have hreturns : (verify codecs verifier 99 99 [] (some "CPK-Gateway token") [123, 125]).2 =
      .ok ⟨"http-status", "target", "digest"⟩ := rfl
  verify_authorizes_iff hreturns

/-- The same codecs, for a descriptor that names another trusted key. -/
def misnamed : Codecs :=
  { codecs with decodeGrant := fun _ => some { grant with keyId := "other" } }

/-- The verifier with two keys. -/
def twoKeys : Verifier :=
  { verifier with publicKeys := [("key", "pem"), ("other", "pem-other")] }

/-- **The key id of the descriptor is not compared**: the token is signed with one trusted key and
its grant names the other one. -/
theorem verify_misnamed : ¬ ∀ (codecs : Codecs) (v : Verifier) (now reading : ℤ) (entries : Entries)
    (header : Option String) (body : List UInt8) (request : ProbeRequest),
    (verify codecs v now reading entries header body).2 = .ok request →
      ∃ kid claims grant, Authorizes codecs v header body request kid claims grant := by
  intro h
  have hreturns : (verify misnamed twoKeys 99 99 [] (some "CPK-Gateway token") [123, 125]).2 =
      .ok ⟨"http-status", "target", "digest"⟩ := rfl
  obtain ⟨kid, claims, grant, hauthorizes⟩ := h misnamed twoKeys 99 99 [] _ _ _ hreturns
  obtain ⟨token, key, tokenHeader, descriptor, htoken, hheader, hkid, -, -, -, hgrant⟩ :=
    hauthorizes.presents.token
  have hother : grant.keyId = "other" := by
    obtain rfl := Option.some.inj hgrant
    rfl
  have hkey : kid = "key" := by
    obtain rfl : "token" = token := Except.ok.inj htoken
    obtain rfl := Option.some.inj hheader
    exact (Text.utf8.inj (Json.str.inj hkid)).symm
  have hnames := hauthorizes.keyId
  rw [hother, hkey] at hnames
  exact absurd hnames (by decide)

end Instance

end Gateway

end ControlPlaneKit
