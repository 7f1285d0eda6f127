import AuthServer.Domain.Error
import AuthServer.Domain.Federation
import AuthServer.Interleave.Contract

/-!
# The store, the deployment and the service monad

`World` is everything the services share: the tables of the database, the clock, the supply of
random strings, and the access tokens that have left the server. `Env` is what is fixed for a
deployment: configuration and the cryptographic primitives. A service method is a `Svc` program, a
sequence of single store calls.

Some parts of the world are not in the database.

* `released` holds the claims of every access token the server has handed to a caller. Signatures
  are taken to be perfect: a presented token verifies only if it is one of these.
* `journal` is a history variable. Stores append to it what they did and for which request, and no
  service reads it; it is there so that statements about a run can speak of what happened in it.
  `codes` is another one, for the hashes of authorization codes.

Random strings are taken to be perfect too: every request draws from a supply of its own, and no
value occurs twice in any of them. -/

namespace AuthServer

open Interleave

/-- Identifies a request among those being served; the `ctx` argument of every method. -/
abbrev ReqID := ℕ

/-- How a token exchange was authorised. -/
inductive Gate
  /-- The resource-less path: the caller's own token, no resource named. -/
  | legacy
  /-- Self-exchange for a named resource. -/
  | selfExchange
  /-- The consent grant of this user and client on this resource. -/
  | consent (userID clientID resourceID : String)
  /-- The fronting link between these two slugs. -/
  | fronted (sourceSlug targetSlug : String)
  deriving DecidableEq, Repr

/-- What the history variable records. -/
inductive Event
  /-- An authorization request of a user was stored as a session with this scope, for a resource row
  if it named one. -/
  | authorized (sessionID userID scope : String) (resourceID : Option String)
  /-- A user approved these scopes in a consent submission. -/
  | approved (userID : String) (scopes : List String)
  /-- A code redemption returned the access token with this identifier, in this family. -/
  | redeemed (familyID jti : String)
  /-- A refresh returned the access token with this identifier, in this family. -/
  | refreshed (familyID jti : String)
  /-- A `client_credentials` or `jwt-bearer` grant returned the access token with this
  identifier. -/
  | granted (jti : String)
  /-- An exchange returned a token minted from the token with the first identifier. -/
  | exchanged (parentJTI jti : String) (gate : Gate)
  /-- An authorization code of this session was consumed. -/
  | codeConsumed (sessionID : String)
  /-- The refresh token with this hash, of this family, was consumed by presenting it. -/
  | refreshConsumed (tokenHash familyID : String)
  /-- A refresh token with this hash was created in this family. -/
  | refreshCreated (tokenHash familyID : String)
  /-- A family was revoked, or found revoked already. -/
  | familyRevoked (familyID : String)
  /-- The tracked access tokens of this family were put on the denylist. -/
  | denylisted (familyID : String)
  /-- The active families of a user and client were listed to their end. -/
  | familiesListed (userID clientID : String)
  /-- The active families of a user were listed, to be logged out. -/
  | userListed (userID : String)
  /-- These families of a user were active and were revoked in one statement. -/
  | userRevoked (userID : String) (familyIDs : List String)
  /-- An issuance row with this identifier was written. -/
  | issued (jti : String)
  /-- The issuances under this grant were revoked. -/
  | cascaded (userID clientID resourceID : String)
  deriving DecidableEq, Repr

/-- An entry of the history variable: what happened, and in which request. -/
structure Entry where
  ctx : ReqID
  event : Event
  deriving DecidableEq, Repr

/-- The state the services share. -/
structure World where
  /-- `time.Now()`. -/
  clock : Time
  /-- How many random strings each request has drawn. -/
  drawn : ReqID → ℕ
  clients : List Client
  users : List User
  resources : List Resource
  brokerProviders : List BrokerProvider
  brokerGrants : List BrokerGrant
  consentGrants : List ConsentGrant
  frontingLinks : List FrontingLink
  /-- `auth_sessions`. -/
  sessions : List AuthSession
  /-- `token_families`. -/
  families : List Family
  refreshTokens : List RefreshToken
  /-- `access_token_jtis`. -/
  accessTokenJTIs : List TrackedJTI
  /-- `revoked_jtis`. -/
  revokedJTIs : List RevokedJTI
  machineTokens : List MachineToken
  issuances : List Issuance
  dpopNonces : List (String × Time)
  dpopJTIs : List (String × Time)
  trustedIDPs : List TrustedIDP
  xaaPolicies : List XAAPolicy
  subjectMappings : List SubjectMapping
  assertionJTIs : List (String × Time)
  /-- The access tokens handed to a caller so far. -/
  released : List AccessTokenClaims
  /-- The hashes of all authorization codes that were ever stored; a history variable too. -/
  codes : List String
  /-- The history variable, newest entry first. -/
  journal : List Entry

namespace World

/-- Append to the history variable. -/
def note (w : World) (ctx : ReqID) (e : Event) : World :=
  { w with journal := ⟨ctx, e⟩ :: w.journal }

/-- The world after a request has drawn one more random string. -/
def draw (w : World) (ctx : ReqID) : World :=
  { w with drawn := Function.update w.drawn ctx (w.drawn ctx + 1) }

/-- The event happened, in some request. -/
def Happened (w : World) (e : Event) : Prop :=
  ∃ ctx, ⟨ctx, e⟩ ∈ w.journal

end World

/-! ### The deployment -/

/-- The parts of a parsed URL the server looks at. -/
structure ParsedURL where
  scheme : String
  /-- Host and port. -/
  host : String
  hostname : String
  path : String
  rawQuery : String
  /-- What `URL.String` adds around and after these. -/
  userinfo : String
  fragment : String
  deriving DecidableEq, Repr

structure TokenExchangeConfig where
  allowSelfExchange : Bool
  maxChainDepth : Int
  tokenExpiry : Time
  deriving DecidableEq, Repr

structure TokenConfig where
  accessTokenExpiry : Time
  refreshTokenExpiry : Time
  deriving DecidableEq, Repr

structure ClientCredentialsConfig where
  tokenExpiry : Time
  deriving DecidableEq, Repr

structure XAAConfig where
  tokenExpiry : Time
  maxAssertionAge : Time
  requireResource : Bool
  subjectMode : SubjectMode
  deriving DecidableEq, Repr

structure DPoPConfig where
  enabled : Bool
  requireNonce : Bool
  proofLifetime : Time
  deriving DecidableEq, Repr

structure DPoPRequest where
  proof : String
  httpMethod : String
  httpURL : String
  deriving DecidableEq, Repr

/-- The curve of an elliptic-curve key. -/
inductive Curve
  | p224
  | p256
  | p384
  | p521
  deriving DecidableEq, Repr

/-- The Go type of a key, with what is checked of it: the curve, or the size in bytes. -/
inductive KeyType
  | ecdsa (curve : Curve)
  | rsa (size : ℕ)
  | other
  deriving DecidableEq, Repr

/-- A key in the header of a DPoP proof. -/
structure ProofKey where
  keyType : KeyType
  isPublic : Bool
  material : String
  deriving DecidableEq, Repr

/-- `jose.Header` of a DPoP proof. -/
structure ProofHeader where
  /-- The `typ` header, empty when it is absent or no text. -/
  typ : String
  /-- The key that the library read from the header. -/
  jsonWebKey : Option ProofKey
  /-- The extra header `jwk`, when present, and the key it unmarshals to, if any. -/
  extraJWK : Option (Option ProofKey)
  deriving DecidableEq, Repr

structure DPoPClaims where
  jti : String
  htm : String
  htu : String
  iat : Int
  ath : String
  nonce : String
  deriving DecidableEq, Repr

structure DPoPProof where
  jti : String
  jkt : String
  nonce : String
  deriving DecidableEq, Repr

/-- The result of a broker adapter: the upstream token, its lifetime in seconds and, when the
upstream rotated it, the new credential. -/
structure Vended where
  accessToken : String
  expiresIn : Int
  updatedCredential : Option String
  deriving DecidableEq, Repr

/-- What is fixed for a deployment: configuration, and the primitives the services call. -/
structure Env where
  issuer : String
  tokenExchange : TokenExchangeConfig
  tokens : TokenConfig
  clientCredentials : ClientCredentialsConfig
  xaa : XAAConfig
  /-- Is a subject mapping service wired into the `jwt-bearer` grant? -/
  mappingService : Bool
  /-- `oauth.require_scope`. -/
  requireScope : Bool
  /-- The DPoP configuration, when DPoP is wired. -/
  dpop : Option DPoPConfig
  /-- Whether the agent-identity service is wired. -/
  agentIdentity : Bool
  /-- `crypto.GenerateRandomString`: the values it will return to a request, in order. -/
  random : ReqID → ℕ → String
  random_injective : ∀ {i n j m}, random i n = random j m → i = j ∧ n = m
  random_ne_empty : ∀ i n, random i n ≠ ""
  /-- `crypto.HashSHA256`. -/
  hashSHA256 : String → String
  /-- `crypto.CompareClientSecret`: does the secret match the stored hash? -/
  compareClientSecret : String → String → Bool
  /-- `crypto.VerifyS256`: does the PKCE verifier match the challenge? -/
  verifyS256 : String → String → Bool
  /-- `jwt.ParseSigned` with the algorithms of DPoP: the headers. -/
  parseSigned : String → Option (List ProofHeader)
  /-- `JSONWebToken.Claims`: the payload of a JWT that the key has signed. -/
  signedClaims : String → ProofKey → Option DPoPClaims
  /-- `JSONWebKey.Thumbprint`, encoded. -/
  thumbprint : ProofKey → Option String
  /-- `strings.EqualFold`. -/
  equalFold : String → String → Bool
  /-- `IDPJWKSCache.GetKeys`: the keys of an identity provider, by its issuer, at a time. -/
  idpKeys : String → Time → Except Err (List JSONWebKey)
  /-- The verb `%q` of `fmt`. -/
  quote : String → String
  /-- `url.Parse`. -/
  urlParse : String → Option ParsedURL
  /-- `URL.String`. -/
  urlString : ParsedURL → String
  /-- `DataEncryptor.Decrypt` and `Encrypt`, under an owner context. -/
  decrypt : String → String → Option String
  encrypt : String → String → Option String
  /-- Is a broker adapter registered for the protocol? -/
  adapterRegistered : String → Bool
  /-- The adapters' `Vend`: provider, resource, credential, requested scopes, at a time. -/
  vend : BrokerProvider → Resource → String → List String → Time → Except Err Vended

/-! ### A transparent deployment -/

/-- The string of `i` letters `a`, a `-`, and `n` letters `b`. -/
def tally (i n : ℕ) : String :=
  String.ofList (List.replicate i 'a' ++ '-' :: List.replicate n 'b')

theorem tally_injective {i n j m : ℕ} (h : tally i n = tally j m) : i = j ∧ n = m := by
  have hlist : List.replicate i 'a' ++ '-' :: List.replicate n 'b' =
      List.replicate j 'a' ++ '-' :: List.replicate m 'b' := by
    simpa [tally] using congrArg String.toList h
  have ha := congrArg (List.count 'a') hlist
  have hb := congrArg (List.count 'b') hlist
  simp only [List.count_append, List.count_cons, List.count_replicate] at ha hb
  exact ⟨by simpa using ha, by simpa using hb⟩

theorem tally_ne_empty (i n : ℕ) : tally i n ≠ "" := by
  intro h
  have hlist := congrArg String.toList h
  simp [tally] at hlist

/-- A deployment whose primitives can be computed with: hashes, ciphertexts and challenges are
tagged or plain copies, and a URL is its host. -/
def Env.plain : Env where
  issuer := "https://as"
  tokenExchange := ⟨true, 5, 300 * 1000000000⟩
  tokens := ⟨3600 * 1000000000, 86400 * 1000000000⟩
  clientCredentials := ⟨3600 * 1000000000⟩
  xaa := ⟨3600 * 1000000000, 300 * 1000000000, false, .autoMap⟩
  mappingService := true
  requireScope := false
  dpop := none
  agentIdentity := false
  random := tally
  random_injective := tally_injective
  random_ne_empty := tally_ne_empty
  hashSHA256 := fun s => "h" ++ s
  compareClientSecret := fun hash secret => hash == secret
  verifyS256 := fun verifier challenge => verifier == challenge
  parseSigned := fun _ => none
  signedClaims := fun _ _ => none
  thumbprint := fun k => some k.material
  equalFold := fun s t => s == t
  idpKeys := fun issuer _ => .ok [⟨"", issuer⟩]
  quote := fun s => "<" ++ s ++ ">"
  urlParse := fun s => some ⟨"https", s, s, "", "", "", ""⟩
  urlString := fun u => u.scheme ++ u.host
  decrypt := fun _ s => some s
  encrypt := fun _ s => some s
  adapterRegistered := fun _ => false
  vend := fun _ _ _ _ _ => .error (.sentinel .upstreamUnavailable)

theorem Env.plain_hash_injective : Function.Injective Env.plain.hashSHA256 := by
  intro s s' h
  have hlist : 'h' :: s.toList = 'h' :: s'.toList := by
    simpa [Env.plain] using congrArg String.toList h
  exact String.toList_inj.mp (List.cons.inj hlist).2

/-- The store before anything happened, at a given time. -/
def World.empty (clock : Time) : World where
  clock := clock
  drawn := fun _ => 0
  clients := []
  users := []
  resources := []
  brokerProviders := []
  brokerGrants := []
  consentGrants := []
  frontingLinks := []
  sessions := []
  families := []
  refreshTokens := []
  accessTokenJTIs := []
  revokedJTIs := []
  machineTokens := []
  issuances := []
  dpopNonces := []
  dpopJTIs := []
  trustedIDPs := []
  xaaPolicies := []
  subjectMappings := []
  assertionJTIs := []
  released := []
  codes := []
  journal := []

/-! ### The service monad -/

/-- A service method: a program over the world. -/
abbrev Svc := Prog World Err

/-- What a store can be asked to do in one call. -/
abbrev Call (α : Type) := World → Except Err α × World

/-- Run `g` after `f` within one transaction. -/
def Call.andThen {α β : Type} (f : Call α) (g : α → Call β) : Call β := fun w =>
  match f w with
  | (.ok a, w') => g a w'
  | (.error e, w') => (.error e, w')

variable {α : Type}

def Call.wrapErr (detail : String) (f : Call α) : Call α := fun w =>
  ((f w).1.mapError (Err.wrap detail), (f w).2)

/-- The error of a store that could not answer. -/
def storeFault : Err := .fault "store"

def store (f : Call α) : Svc α :=
  Prog.exec storeFault f

/-- One store call that only reads. -/
def fetch (f : World → Except Err α) : Svc α :=
  Prog.query storeFault f

def wrapErr (detail : String) (p : Svc α) : Svc α := do
  let r ← p.attempt
  Prog.ofExcept (r.mapError (Err.wrap detail))

/-- Run a check only when it applies. -/
def runIf (c : Bool) (p : Svc Unit) : Svc Unit :=
  if c then p else pure ()

/-- `time.Now()`. -/
def timeNow : Svc Time :=
  Prog.step fun w => (w.clock, w)

def generateRandomString (env : Env) (ctx : ReqID) : Svc String :=
  Prog.step fun w => (env.random ctx (w.drawn ctx), w.draw ctx)

/-- Whether the store will answer a best-effort call that is made inside a transaction: the verdict
is fixed here, and the call itself is part of the transaction's single step. -/
def answers : Svc Bool :=
  Prog.call (fun w => (true, w)) (some false) Prog.ret

/-- The same call undone if it fails. -/
def Call.atomically (body : Call α) : Call α := fun w =>
  match body w with
  | (.ok a, w') => (.ok a, w')
  | (.error e, _) => (.error e, w)

theorem Call.andThen_ok {α β : Type} {f : Call α} {g : α → Call β} {b : β} {w w'' : World}
    (h : f.andThen g w = (.ok b, w'')) : ∃ a w', f w = (.ok a, w') ∧ g a w' = (.ok b, w'') := by
  unfold Call.andThen at h
  split at h
  · rename_i a w' hf
    exact ⟨a, w', hf, h⟩
  · cases h

theorem Call.andThen_keeps {α β : Type} {f : Call α} {g : α → Call β} {P : World → Prop} {w : World}
    (hw : P w) (hf : ∀ u, P u → P (f u).2) (hg : ∀ a u, P u → P (g a u).2) :
      P (f.andThen g w).2 := by
  have hmid := hf w hw
  unfold Call.andThen
  split
  · next a w' heq =>
    rw [heq] at hmid
    exact hg a w' hmid
  · next e w' heq =>
    rw [heq] at hmid
    exact hmid

theorem Call.wrapErr_ok {detail : String} {f : Call α} {a : α} {w w' : World}
    (h : f.wrapErr detail w = (.ok a, w')) : f w = (.ok a, w') := by
  obtain ⟨h₁, h₂⟩ := Prod.mk.inj h
  refine Prod.ext ?_ h₂
  revert h₁
  cases (f w).1 with
  | ok a' => exact id
  | error e => exact fun h₁ => by cases h₁

theorem Call.atomically_cases (body : Call α) (w : World) :
    (∃ a w', body w = (.ok a, w') ∧ body.atomically w = (.ok a, w')) ∨
      ∃ e, body.atomically w = (.error e, w) := by
  unfold Call.atomically
  cases hw : body w with
  | mk r w' =>
    cases r with
    | ok a => exact .inl ⟨a, w', rfl, rfl⟩
    | error e => exact .inr ⟨e, rfl⟩

/-- Several store calls in one database transaction: all of them happen, or none. -/
def withTransaction (body : Call α) : Svc α :=
  store body.atomically

end AuthServer
