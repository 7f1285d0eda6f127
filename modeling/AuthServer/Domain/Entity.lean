import Mathlib.Data.List.Nodup
import AuthServer.Domain.Scope
import AuthServer.Json.Object

/-!
# Domain records

The entities of `internal/domain` and the access-token claims of `internal/crypto`, with the fields
the modelled services read or write. A Go pointer that may be nil is an `Option`; a nullable column
that the stores read back as an empty string is the empty string here too.
-/

namespace AuthServer

/-- The bytes of a Go string, where they matter one by one. -/
abbrev Bytes := List UInt8

def bytesOf (s : String) : Bytes := s.toUTF8.data.toList

def asciiText (bs : Bytes) : String := String.ofList (bs.map fun b => Char.ofNat b.toNat)

/-- A point in time or a duration, in nanoseconds. -/
abbrev Time := Int

/-- `Time.Unix`: whole seconds, rounded down. -/
def unix (t : Time) : Int := t / 1000000000

/-- The time for which `Time.IsZero` holds: the first of January of the year 1. -/
def zeroTime : Time := -62135596800 * 1000000000

/-- `Duration.Seconds` converted to an integer: whole seconds, rounded toward zero. -/
def seconds (d : Time) : Int := d.tdiv 1000000000

/-- The value of an `int64` computation whose exact result is given. -/
def int64 (n : Int) : Int := n.bmod 18446744073709551616

theorem int64_eq_self {n : Int} (hl : -9223372036854775808 ≤ n)
    (hu : n ≤ 9223372036854775807) : int64 n = n := by
  unfold int64
  rw [Int.bmod_eq_of_le] <;> omega

/-- `time.Unix` of whole seconds: an instant keeps its seconds since the year 1 in an `int64`. -/
def timeUnix (sec : Int) : Time :=
  (int64 (sec + 62135596800) - 62135596800) * 1000000000

/-- `Time.Sub`: a difference that no `time.Duration` holds is cut off at the nearest one. -/
def timeSub (t u : Time) : Int :=
  max (-9223372036854775808) (min 9223372036854775807 (t - u))

theorem timeSub_mono {t t' u u' : Int} (ht : t ≤ t') (hu : u' ≤ u) : timeSub t u ≤
    timeSub t' u' := by
  unfold timeSub
  omega

theorem timeSub_le {t u d : Int} (h : t - u ≤ d) (hd : 0 ≤ d) : timeSub t u ≤ d := by
  unfold timeSub
  omega

/-! ### Clients and users -/

/-- `client.Status`. -/
inductive ClientStatus
  | active
  | suspended
  | revoked
  deriving DecidableEq, Repr

inductive RegistrationSource
  | dcr
  | cimd
  | admin
  deriving DecidableEq, Repr

/-- A registered client. -/
structure Client where
  id : String
  /-- The bcrypt hash; empty for a public client. -/
  secretHash : String
  redirectURIs : List String
  grantTypes : List String
  status : ClientStatus
  cimdURL : String
  /-- The registered scope ceiling, space separated. -/
  scope : String
  isAgent : Bool
  registrationSource : RegistrationSource
  name : String
  responseTypes : List String
  tokenEndpointAuthMethod : String
  agentDescription : String
  /-- As it was sent; empty when it was not. -/
  applicationType : String
  version : ℕ
  deriving DecidableEq, Repr

namespace Client

def isPublic (c : Client) : Bool := c.secretHash == ""

def isActive (c : Client) : Bool := c.status == .active

end Client

/-- `user.User`, of which the token services read only whether it is active. -/
structure User where
  id : String
  isActive : Bool
  deriving DecidableEq, Repr

/-! ### Resources -/

inductive BackendKind
  | mint
  | broker
  deriving DecidableEq, Repr

def BackendKind.name : BackendKind → String
  | mint => "mint"
  | broker => "broker"

/-- `resource.Scope`: an entry of a resource's scope catalog. -/
structure CatalogScope where
  name : String
  upstream : String
  deriving DecidableEq, Repr

structure Policy where
  /-- `Exchange.AllowedClientIDs`. -/
  exchangeAllowedClientIDs : List String
  /-- `Runtime.ClientIDs`. -/
  runtimeClientIDs : List String
  /-- `Connect.AllowedReturnURLs`. -/
  connectAllowedReturnURLs : List String
  deriving DecidableEq, Repr

/-- A protected resource. -/
structure Resource where
  id : String
  slug : String
  uri : String
  backendKind : BackendKind
  brokerProviderID : String
  scopes : List CatalogScope
  policy : Policy
  deriving DecidableEq, Repr

namespace Resource

def isMint (r : Resource) : Bool := r.backendKind == .mint

def isBroker (r : Resource) : Bool := r.backendKind == .broker

def catalog (r : Resource) : List String := r.scopes.map CatalogScope.name

end Resource

/-- `resource.BrokerProvider`, with the fields the exchange uses. -/
structure BrokerProvider where
  id : String
  slug : String
  protocol : String
  deriving DecidableEq, Repr

/-! ### Grants and fronting links -/

/-- What a user lets a client do at a resource. -/
structure ConsentGrant where
  id : String
  userID : String
  clientID : String
  resourceID : String
  scopes : List String
  revokedAt : Option Time
  deriving DecidableEq, Repr

namespace ConsentGrant

def isRevoked (g : ConsentGrant) : Bool := g.revokedAt.isSome

def coversScopes (g : ConsentGrant) (requested : List String) : Bool :=
  requested.all g.scopes.contains

end ConsentGrant

/-- An upstream credential of a user. -/
structure BrokerGrant where
  id : String
  userID : String
  brokerProviderID : String
  credentialData : String
  scopesGranted : List String
  version : Int
  revokedAt : Option Time
  deriving DecidableEq, Repr

/-- `resource.ScopeMap`: a Go map from source scope to target scopes, as its entries. -/
structure ScopeMap where
  entries : List (String × List String)
  keys_nodup : (entries.map Prod.fst).Nodup
  deriving DecidableEq, Repr

/-- A resource that fronts another. -/
structure FrontingLink where
  sourceSlug : String
  targetSlug : String
  scopeMap : ScopeMap
  deriving DecidableEq, Repr

/-! ### Sessions, families, tokens -/

/-- An authorization under way. -/
structure AuthSession where
  id : String
  clientID : String
  userID : String
  redirectURI : String
  scope : String
  resource : String
  state : String
  codeHash : String
  codeChallenge : String
  codeChallengeMethod : String
  expiresAt : Time
  consumedAt : Option Time
  createdAt : Time
  deriving DecidableEq, Repr

/-- `session.AuthCodeTTL`: ten minutes. -/
def authCodeTTL : Time := 600 * 1000000000

inductive FamilyStatus
  | active
  | revoked
  deriving DecidableEq, Repr

/-- The refresh tokens of one redemption. -/
structure Family where
  id : String
  clientID : String
  userID : String
  scope : String
  resource : String
  status : FamilyStatus
  createdAt : Time
  revokedAt : Option Time
  authSessionID : String
  deriving DecidableEq, Repr

def Family.isActive (f : Family) : Bool := f.status == .active

/-- A refresh token, by its hash. -/
structure RefreshToken where
  id : String
  familyID : String
  tokenHash : String
  expiresAt : Time
  consumedAt : Option Time
  createdAt : Time
  deriving DecidableEq, Repr

/-- A token of a grant without a user. -/
structure MachineToken where
  jti : String
  clientID : String
  scopes : ScopeSet
  resource : String
  issuedAt : Time
  expiresAt : Time
  revoked : Bool
  deriving DecidableEq, Repr

/-- A row of `access_token_jtis`: an access token and the family it was issued in. -/
structure TrackedJTI where
  jti : String
  familyID : String
  expiresAt : Time
  deriving DecidableEq, Repr

/-- A row of `revoked_jtis`, the denylist. -/
structure RevokedJTI where
  jti : String
  expiresAt : Time
  deriving DecidableEq, Repr

/-- A row of the issuance log. -/
structure Issuance where
  id : String
  subjectUserID : String
  clientID : String
  resourceID : String
  scopes : List String
  backendKind : BackendKind
  revocable : Bool
  issuedAt : Time
  expiresAt : Time
  revokedAt : Option Time
  jti : String
  dpopJKT : String
  agentID : String
  agentChain : List String
  consentClientID : String
  parentJTI : String
  deriving DecidableEq, Repr

namespace Issuance

def isRevoked (i : Issuance) : Bool := i.revokedAt.isSome

def maxAgentChainLength : ℕ := 8

end Issuance

/-- `crypto.AccessTokenClaims`. The confirmation claim is always `{"jkt": …}` on a token this server
signs, so it is kept as that thumbprint. -/
structure AccessTokenClaims where
  issuer : String
  subject : String
  audience : List String
  clientID : String
  scope : String
  jti : String
  issuedAt : Int
  expiry : Int
  notBefore : Int
  cnf : Option String
  /-- The `act` claim, as it stands in the token; a nil map is none. -/
  act : Option Json.Object
  agentID : String
  agentChain : List String
  deriving DecidableEq, Repr

end AuthServer
