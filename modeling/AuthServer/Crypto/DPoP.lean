import Mathlib.Algebra.Order.Group.Abs
import Mathlib.Algebra.Order.Group.Int
import AuthServer.Store.World

/-!
# DPoP proofs

`ValidateProof` of `internal/crypto/dpop.go`. Parsing a JWT, checking its signature and hashing a
key are the library's and stay parameters of the deployment; every check on what they return is
here.

A proof is fresh when its `iat` is at most the proof lifetime away from the clock, on either side.
The distance is computed on a `time.Duration`, whose least value has no opposite: a proof from more
than 292 years ahead has a negative age. `proofAge_eq` is therefore about instants that are not that
far apart. -/

namespace AuthServer

def extractPublicJWK (header : ProofHeader) : Option ProofKey :=
  let found := match header.jsonWebKey with
    | some jwk => some jwk
    | none => header.extraJWK.bind id
  found.filter fun jwk => jwk.isPublic && match jwk.keyType with
    | .ecdsa curve => curve == .p256 || curve == .p384 || curve == .p521
    | .rsa size => !(size < 256)
    | .other => false

/-- A proof whose signature was verified with the key it carries. -/
structure OpenedProof where
  jwk : ProofKey
  claims : DPoPClaims
  deriving DecidableEq, Repr

variable (env : Env)

/-- The first part of `ValidateProof`: header, key and signature. -/
def openProof (proof : String) : Except Err OpenedProof :=
  match env.parseSigned proof with
  | some [header] =>
    if env.equalFold header.typ "dpop+jwt" then
      match extractPublicJWK header with
      | some jwk =>
        match env.signedClaims proof jwk with
        | some claims => .ok ⟨jwk, claims⟩
        | none => .error (.sentinel .dpopInvalidProof)
      | none => .error (.sentinel .dpopInvalidProof)
    else .error (.sentinel .dpopInvalidProof)
  | _ => .error (.sentinel .dpopInvalidProof)

/-- `validateHTU`: scheme, host and path agree. -/
def validateHTU (htu reqURL : String) : Bool :=
  match env.urlParse htu, env.urlParse reqURL with
  | some htuParsed, some reqParsed =>
    env.equalFold htuParsed.scheme reqParsed.scheme &&
      env.equalFold htuParsed.host reqParsed.host &&
      htuParsed.path == reqParsed.path
  | _, _ => false

/-- The distance of the clock from `iat`, as `ValidateProof` computes it. -/
def proofAge (iat : Int) (now : Time) : Int :=
  let diff := timeSub now (timeUnix iat)
  if diff < 0 then int64 (-diff) else diff

/-- The checks of `ValidateProof` on the claims, up to freshness. -/
def checkProofClaims (req : DPoPRequest) (proofLifetime now : Time) (claims : DPoPClaims) :
    Except Err Unit :=
  if claims.jti == "" then .error (.sentinel .dpopInvalidProof)
  else if !env.equalFold claims.htm req.httpMethod then .error (.sentinel .dpopInvalidProof)
  else if !validateHTU env claims.htu req.httpURL then .error (.sentinel .dpopInvalidProof)
  else if claims.iat == 0 then .error (.sentinel .dpopInvalidProof)
  else if proofAge claims.iat now > proofLifetime then .error (.sentinel .dpopInvalidProof)
  else .ok ()

def checkProofBinding (serverNonce accessTokenHash : String) (claims : DPoPClaims) :
    Except Err Unit :=
  if serverNonce != "" && claims.nonce == "" then .error (.sentinel .dpopNonceRequired)
  else if serverNonce != "" && claims.nonce != serverNonce then
    .error (.sentinel .dpopNonceMismatch)
  else if accessTokenHash != "" && (claims.ath == "" || claims.ath != accessTokenHash) then
    .error (.sentinel .dpopInvalidProof)
  else .ok ()

/-- `crypto.ValidateProof`, at a time. -/
def validateProof (req : DPoPRequest) (serverNonce accessTokenHash : String)
    (proofLifetime now : Time) : Except Err DPoPProof := do
  let p ← openProof env req.proof
  checkProofClaims env req proofLifetime now p.claims
  checkProofBinding serverNonce accessTokenHash p.claims
  match env.thumbprint p.jwk with
  | some jkt => .ok ⟨p.claims.jti, jkt, p.claims.nonce⟩
  | none => .error (.sentinel .dpopInvalidProof)

/-- `ValidateProof` as the services call it: with the configured lifetime, and neither a server
nonce nor an access token. -/
def Env.validateProof (req : DPoPRequest) (now : Time) : Except Err DPoPProof :=
  AuthServer.validateProof env req "" "" (env.dpop.elim 0 (·.proofLifetime)) now

/-! ### What a valid proof is -/

/-- The longest difference of two instants here: 290 years of 366 days. -/
def years290 : Time := 290 * 366 * 86400 * 1000000000

variable {now : Int}

theorem proofAge_eq {iat : Int} (h : |now - timeUnix iat| ≤ years290) : proofAge iat now =
    |now - timeUnix iat| := by
  have hbound : |now - timeUnix iat| ≤ 9170496000000000000 := h
  obtain ⟨hl, hu⟩ := abs_le.mp hbound
  have hsub : timeSub now (timeUnix iat) = now - timeUnix iat := by
    unfold timeSub
    omega
  simp only [proofAge, hsub]
  split
  · rename_i hneg
    rw [int64_eq_self (by omega) (by omega), abs_of_neg hneg]
  · rename_i hnonneg
    exact (abs_of_nonneg (not_lt.mp hnonneg)).symm

variable {env : Env} {req : DPoPRequest} {lifetime : Int}

theorem proofAge_le_of_checkProofClaims {claims : DPoPClaims}
    (h : checkProofClaims env req lifetime now claims = .ok ()) :
      proofAge claims.iat now ≤ lifetime := by
  unfold checkProofClaims at h
  split_ifs at h with h₁ h₂ h₃ h₄ h₅
  exact not_lt.mp h₅

theorem iat_ne_zero_of_checkProofClaims {claims : DPoPClaims}
    (h : checkProofClaims env req lifetime now claims = .ok ()) : claims.iat ≠ 0 := by
  unfold checkProofClaims at h
  split_ifs at h with h₁ h₂ h₃ h₄ h₅
  simpa using h₄

theorem validateProof_ok {serverNonce accessTokenHash : String} {result : DPoPProof}
    (h : validateProof env req serverNonce accessTokenHash lifetime now = .ok result) :
    ∃ p, openProof env req.proof = .ok p ∧ result.jti = p.claims.jti ∧ p.claims.iat ≠ 0 ∧
      proofAge p.claims.iat now ≤ lifetime := by
  unfold validateProof at h
  obtain ⟨p, hopen, h⟩ := ok_of_bind h
  obtain ⟨_, hclaims, h⟩ := ok_of_bind h
  obtain ⟨_, _, h⟩ := ok_of_bind h
  refine ⟨p, hopen, ?_, iat_ne_zero_of_checkProofClaims hclaims,
    proofAge_le_of_checkProofClaims hclaims⟩
  split at h
  · obtain rfl := Except.ok.inj h
    rfl
  · cases h

end AuthServer
