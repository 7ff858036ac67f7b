import ControlPlaneKit.Python.Encode
import ControlPlaneKit.Python.Raise
import ControlPlaneKit.Python.Strip

/-!
# Static credentials

`authenticate_bearer_credential` with a `StaticDevelopmentMultiCredentialVerifier`, over all strings
that Python has. The extraction of a token and the admission of a credential check the same thing
separately: the text of one and the bytes of the other (`isToken_map`).
-/

namespace ControlPlaneKit

namespace Server

namespace Credentials

/-- The code points of a literal. -/
def codes (s : String) : List ℕ :=
  (Text.utf8 s).codes

/-- `MAXIMUM_BEARER_CREDENTIAL_BYTES`. -/
def maximumBearerCredentialBytes : ℕ := 4096

/-- `CredentialAuthenticationError`, which keeps nothing of the request. -/
structure CredentialAuthenticationError where
deriving DecidableEq

/-! ### Admission -/

/-- The check of `StaticDevelopmentPrincipalCredential`: bounded, nonempty ASCII without white
space. -/
def admitsCredential (credential : List UInt8) : Bool :=
  !credential.isEmpty && decide (credential.length ≤ maximumBearerCredentialBytes) &&
    credential.all (fun b => decide (b.toNat < 128)) &&
    !(credential.any fun b => Strip.isSpace b.toNat)

/-- `StaticDevelopmentPrincipalCredential`. -/
structure StaticDevelopmentPrincipalCredential (P : Type) where
  credential : List UInt8
  principal : P
  /-- The credential passes its check. -/
  admitted : admitsCredential credential = true

/-- The check of `StaticDevelopmentMultiCredentialVerifier`. -/
def admitsCredentials (credentials : List (List UInt8)) : Bool :=
  !credentials.isEmpty && decide (credentials.length ≤ 16) && decide credentials.Nodup

/-- `StaticDevelopmentMultiCredentialVerifier`. -/
structure StaticDevelopmentMultiCredentialVerifier (P : Type) where
  credentials : List (StaticDevelopmentPrincipalCredential P)
  /-- They pass the check of the table. -/
  admitted : admitsCredentials (credentials.map (·.credential)) = true

/-- `StaticDevelopmentMultiCredentialVerifier.authenticate`. -/
def StaticDevelopmentMultiCredentialVerifier.authenticate {P : Type}
    (verifier : StaticDevelopmentMultiCredentialVerifier P) (credential : List UInt8) :
    Except CredentialAuthenticationError P :=
  match verifier.credentials.find? fun candidate => credential == candidate.credential with
  | some candidate => .ok candidate.principal
  | none => .error ⟨⟩

/-! ### Extraction -/

section Extraction

variable {P : Type} (lower : List ℕ → List ℕ)

/-- The checks on a token. -/
def isToken (token : List ℕ) : Bool :=
  !token.isEmpty && !(token.any Strip.isSpace) && token.all (fun n => decide (n < 128)) &&
    decide (token.length ≤ maximumBearerCredentialBytes)

/-- `_extract_bearer_credential`. -/
def extractBearerCredential (headers : List (Text × Text)) :
    Except CredentialAuthenticationError (List UInt8) :=
  match headers.filter fun h => lower h.1.codes == codes "authorization" with
  | [(_, value)] =>
    if 32 ∈ value.codes ∧ lower (value.codes.takeWhile (· != 32)) = codes "bearer" then
      let token := (value.codes.dropWhile (· != 32)).tail
      if isToken token then .ok (token.map UInt8.ofNat) else .error ⟨⟩
    else .error ⟨⟩
  | _ => .error ⟨⟩

/-- `authenticate_bearer_credential`: whatever the verifier raises, the authentication fails. -/
def authenticateBearerCredential (headers : List (Text × Text))
    (verify : List UInt8 → Except CredentialAuthenticationError P) :
    Except CredentialAuthenticationError P := do
  let credential ← extractBearerCredential lower headers
  match verify credential with
  | .ok principal => return principal
  | .error _ => .error ⟨⟩

end Extraction

/-! ### The two checks coincide -/

section Tokens

variable {token : List ℕ} {credential : List UInt8}

theorem map_ofNat_toNat (h : token.all (fun n => decide (n < 128)) = true) :
    (token.map UInt8.ofNat).map UInt8.toNat = token := by
  rw [List.map_map]
  refine List.map_congr_left (g := id) (fun n hn => ?_) |>.trans (List.map_id token)
  have hn := of_decide_eq_true (List.all_eq_true.mp h n hn)
  simp only [Function.comp_apply, UInt8.toNat_ofNat', id_eq]
  omega

theorem map_toNat_ofNat (credential : List UInt8) :
    (credential.map UInt8.toNat).map UInt8.ofNat = credential := by
  simp [List.map_map, Function.comp_def]

/-- **A token is accepted** exactly if its bytes are admitted as a credential. -/
theorem isToken_map : isToken (credential.map UInt8.toNat) = admitsCredential credential := by
  rw [isToken, admitsCredential, List.isEmpty_map, List.any_map, List.all_map, List.length_map]
  simp only [Function.comp_def]
  cases credential.isEmpty <;> cases credential.any (fun b => Strip.isSpace b.toNat) <;>
    cases credential.all (fun b => decide (b.toNat < 128)) <;> simp

theorem isToken_ascii (h : isToken token = true) : (token.map UInt8.ofNat).map UInt8.toNat = token := by
  simp only [isToken, Bool.and_eq_true] at h
  exact map_ofNat_toNat h.1.2

end Tokens

section Authentication

variable {P : Type} {lower : List ℕ → List ℕ} {headers : List (Text × Text)}
  {verifier : StaticDevelopmentMultiCredentialVerifier P} {p : P}

/-- The headers present a token: exactly one has the lower-cased name `authorization`, and its value
is `bearer` in any case, a space, and the token. -/
def Presents (lower : List ℕ → List ℕ) (headers : List (Text × Text)) (token : List ℕ) : Prop :=
  ∃ name value scheme,
    headers.filter (fun h => lower h.1.codes == codes "authorization") = [(name, value)] ∧
      value.codes = scheme ++ 32 :: token ∧ 32 ∉ scheme ∧ lower scheme = codes "bearer"

/-- The text before the first space, and what stands after it. -/
theorem split_space {value scheme token : List ℕ} (h : value = scheme ++ 32 :: token)
    (hscheme : 32 ∉ scheme) :
    value.takeWhile (· != 32) = scheme ∧ (value.dropWhile (· != 32)).tail = token := by
  have hall : ∀ n ∈ scheme, (n != 32) = true := fun n hn =>
    bne_iff_ne.mpr fun heq => hscheme (heq ▸ hn)
  subst h
  rw [List.takeWhile_append_of_pos hall, List.dropWhile_append_of_pos hall,
    List.takeWhile_cons_of_neg (by simp), List.dropWhile_cons_of_neg (by simp)]
  exact ⟨List.append_nil scheme, rfl⟩

/-- **What is extracted** is the token that the headers present, if it passes its checks. -/
theorem extractBearerCredential_ok {credential : List UInt8} :
    extractBearerCredential lower headers = .ok credential ↔
      ∃ token, Presents lower headers token ∧ isToken token = true ∧
        credential = token.map UInt8.ofNat := by
  rw [extractBearerCredential]
  constructor
  · intro h
    split at h
    · rename_i name value hfilter
      split at h
      · rename_i hvalue
        dsimp only at h
        split at h
        · rename_i htoken
          refine ⟨_, ⟨name, value, value.codes.takeWhile (· != 32), hfilter, ?_, ?_, hvalue.2⟩, htoken,
            (Except.ok.inj h).symm⟩
          · have hspace : value.codes.dropWhile (· != 32) =
                32 :: (value.codes.dropWhile (· != 32)).tail := by
              cases hdrop : value.codes.dropWhile (· != 32) with
              | nil =>
                have hall := List.dropWhile_eq_nil_iff.mp hdrop 32 hvalue.1
                simp at hall
              | cons n rest =>
                have hhead := List.head_dropWhile_not (· != 32) (l := value.codes) (by simp [hdrop])
                simp only [hdrop, List.head_cons, bne_eq_false_iff_eq] at hhead
                rw [hhead, List.tail_cons]
            rw [← hspace, List.takeWhile_append_dropWhile]
          · intro hmem
            simpa using List.all_eq_true.mp List.all_takeWhile _ hmem
        · cases h
      · cases h
    · cases h
  · rintro ⟨token, ⟨name, value, scheme, hfilter, hvalue, hscheme, hbearer⟩, htoken, rfl⟩
    obtain ⟨htake, hdrop⟩ := split_space hvalue hscheme
    have hspace : 32 ∈ value.codes := by simp [hvalue]
    rw [hfilter]
    simp only [htake, hdrop, hspace, hbearer, htoken, and_self, if_true]

theorem StaticDevelopmentMultiCredentialVerifier.nodup
    (verifier : StaticDevelopmentMultiCredentialVerifier P) :
    (verifier.credentials.map (·.credential)).Nodup := by
  have hadmitted := verifier.admitted
  simp only [admitsCredentials, Bool.and_eq_true, decide_eq_true_eq] at hadmitted
  exact hadmitted.2

/-- No two entries of the table share a credential. -/
theorem StaticDevelopmentMultiCredentialVerifier.unique {c c' : StaticDevelopmentPrincipalCredential P}
    (hc : c ∈ verifier.credentials) (hc' : c' ∈ verifier.credentials)
    (h : c.credential = c'.credential) : c = c' :=
  List.inj_on_of_nodup_map verifier.nodup hc hc' h

/-- The verifier knows exactly the credentials of its table. -/
theorem StaticDevelopmentMultiCredentialVerifier.authenticate_ok {credential : List UInt8} :
    verifier.authenticate credential = .ok p ↔
      ∃ c ∈ verifier.credentials, c.credential = credential ∧ c.principal = p := by
  rw [authenticate]
  constructor
  · intro h
    split at h
    · rename_i c hfind
      have hequal := List.find?_some hfind
      exact ⟨c, List.mem_of_find?_eq_some hfind, (beq_iff_eq.mp hequal).symm, Except.ok.inj h⟩
    · cases h
  · rintro ⟨c, hc, rfl, rfl⟩
    cases hfind : verifier.credentials.find? fun candidate => c.credential == candidate.credential with
    | none =>
      have hnone := List.find?_eq_none.mp hfind c hc
      exact absurd (beq_self_eq_true c.credential) hnone
    | some c' =>
      have hmem : c' ∈ verifier.credentials := List.mem_of_find?_eq_some hfind
      have hequal : (c.credential == c'.credential) = true :=
        List.find?_some (p := fun candidate : StaticDevelopmentPrincipalCredential P =>
          c.credential == candidate.credential) hfind
      cases verifier.unique hc hmem (beq_iff_eq.mp hequal)
      rfl

/-- An authentication succeeds where the presented token is the credential of an entry. -/
theorem authenticateBearerCredential_ok :
    authenticateBearerCredential lower headers verifier.authenticate = .ok p ↔
      ∃ c ∈ verifier.credentials, c.principal = p ∧
        Presents lower headers (c.credential.map UInt8.toNat) := by
  have hverified : ∀ credential, (match verifier.authenticate credential with
      | .ok principal => pure principal
      | .error _ => .error ⟨⟩ : Except CredentialAuthenticationError P) =
        verifier.authenticate credential := by
    intro credential
    cases verifier.authenticate credential with
    | ok principal => rfl
    | error e => rfl
  simp only [authenticateBearerCredential, hverified]
  rw [Raise.bind_eq_ok]
  constructor
  · rintro ⟨credential, hextract, hverify⟩
    obtain ⟨token, hpresents, htoken, rfl⟩ := extractBearerCredential_ok.mp hextract
    obtain ⟨c, hc, hcredential, rfl⟩ :=
      StaticDevelopmentMultiCredentialVerifier.authenticate_ok.mp hverify
    refine ⟨c, hc, rfl, ?_⟩
    rw [hcredential, isToken_ascii htoken]
    exact hpresents
  · rintro ⟨c, hc, rfl, hpresents⟩
    refine ⟨c.credential, extractBearerCredential_ok.mpr ⟨_, hpresents, ?_, ?_⟩,
      StaticDevelopmentMultiCredentialVerifier.authenticate_ok.mpr ⟨c, hc, rfl, rfl⟩⟩
    · rw [isToken_map, c.admitted]
    · rw [map_toNat_ofNat]

/-- **Static credentials authenticate exactly their own principal**: an authentication returns a
principal where exactly one `authorization` header presents, byte for byte, the credential of that
principal, and raises `CredentialAuthenticationError` otherwise. Every admitted credential can be
presented, and no two entries share one. -/
theorem authenticate_exactly (lower : List ℕ → List ℕ)
    (verifier : StaticDevelopmentMultiCredentialVerifier P) :
    (∀ headers p, authenticateBearerCredential lower headers verifier.authenticate = .ok p ↔
      ∃ c ∈ verifier.credentials, c.principal = p ∧
        Presents lower headers (c.credential.map UInt8.toNat)) ∧
    (∀ headers, (∀ c ∈ verifier.credentials,
        ¬ Presents lower headers (c.credential.map UInt8.toNat)) ↔
      authenticateBearerCredential lower headers verifier.authenticate = .error ⟨⟩) ∧
    (∀ c ∈ verifier.credentials, ∀ (name value : Text) (scheme : List ℕ),
      lower name.codes = codes "authorization" → lower scheme = codes "bearer" → 32 ∉ scheme →
      value.codes = scheme ++ 32 :: c.credential.map UInt8.toNat →
        authenticateBearerCredential lower [(name, value)] verifier.authenticate = .ok c.principal) ∧
    ∀ c ∈ verifier.credentials, ∀ c' ∈ verifier.credentials, c.credential = c'.credential → c = c' := by
  refine ⟨fun headers p => authenticateBearerCredential_ok, fun headers => ?_, ?_,
    fun c hc c' hc' => verifier.unique hc hc'⟩
  · cases hresult : authenticateBearerCredential lower headers verifier.authenticate with
    | ok p =>
      obtain ⟨c, hc, -, hpresents⟩ := authenticateBearerCredential_ok.mp hresult
      simp only [reduceCtorEq, iff_false]
      exact fun h => h c hc hpresents
    | error e =>
      refine iff_of_true (fun c hc hpresents => ?_) rfl
      rw [authenticateBearerCredential_ok.mpr ⟨c, hc, rfl, hpresents⟩] at hresult
      cases hresult
  · intro c hc name value scheme hname hbearer hscheme hvalue
    refine authenticateBearerCredential_ok.mpr ⟨c, hc, rfl, name, value, scheme, ?_, hvalue, hscheme,
      hbearer⟩
    simp [hname]

end Authentication

namespace Instance

/-- `str.lower` on ASCII. -/
def lower : List ℕ → List ℕ :=
  List.map fun n => if 65 ≤ n ∧ n ≤ 90 then n + 32 else n

/-- The credential `op` of the operator. -/
def operator : StaticDevelopmentPrincipalCredential String where
  credential := [111, 112]
  principal := "operator"
  admitted := by decide

/-- The credential `ops` of an auditor. -/
def auditor : StaticDevelopmentPrincipalCredential String where
  credential := [111, 112, 115]
  principal := "auditor"
  admitted := by decide

/-- A table of two credentials, one of which begins with the other. -/
def verifier : StaticDevelopmentMultiCredentialVerifier String where
  credentials := [operator, auditor]
  admitted := by decide

/-- A request with one header. -/
def presented : List (Text × Text) :=
  [("AUTHORIZATION", "Bearer ops")]

theorem presents_presented : Presents lower presented [111, 112, 115] := by
  refine ⟨"AUTHORIZATION", "Bearer ops", (Text.utf8 "Bearer").codes, ?_, ?_, ?_, ?_⟩
  · simp [presented, lower, codes, Text.codes]
  · simp [Text.codes]
  · simp [Text.codes]
  · simp [lower, codes, Text.codes]

/-- The longer credential is the auditor's. -/
theorem authenticate_exactly_auditor :
    authenticateBearerCredential lower presented verifier.authenticate = .ok "auditor" :=
  ((authenticate_exactly lower verifier).1 presented "auditor").mpr
    ⟨auditor, List.mem_cons_of_mem _ List.mem_cons_self, rfl, presents_presented⟩

end Instance

end Credentials

end Server

end ControlPlaneKit
