import AuthServer.Service.ExchangeScope
import AuthServer.Service.Mint

/-!
# Vending broker tokens

`BrokerIssuer.Issue` of `internal/services/broker_issuer.go`. The upstream token is not one of this
server's: it is a string, no row of the issuance log carries an identifier for it, and nothing the
server does later can revoke it.
-/

namespace AuthServer

open Interleave

/-- `services.IssueRequest`, for Broker. -/
structure BrokerIssueRequest where
  resource : Resource
  provider : BrokerProvider
  subjectUserID : String
  actorClientID : String
  scopes : List String
  agentIdentity : Option AgentIdentityClaims
  dpopJKT : String
  deriving DecidableEq, Repr

/-- `services.IssueResponse`, for Broker. -/
structure BrokerIssueResponse where
  accessToken : String
  expiresIn : Int
  issuanceID : String
  deriving DecidableEq, Repr

namespace BrokerIssuer

def brokerOwnerContext (userID providerID : String) : String :=
  "broker:" ++ userID ++ ":" ++ providerID

/-- The upstream name of a scope: the last catalog entry of that name. -/
def upstreamOf (r : Resource) (fine : String) : Option String :=
  (r.scopes.reverse.find? (·.name == fine)).map CatalogScope.upstream

variable (env : Env)

/-- `mapToUpstreamScopes`: upstream names in the order of the request, without the empty one and
without repetition. -/
def mapToUpstreamScopes (r : Resource) (requested : List String) : Except Err (List String) :=
  match requested.find? fun fine => (upstreamOf r fine).isNone with
  | some fine => .error (.wrapped .scopeNotInCatalog
      ("scope " ++ env.quote fine ++ " on resource " ++ env.quote r.slug))
  | none => .ok ((requested.filterMap (upstreamOf r)).filter fun up => up != "").eraseDups

def scopesNotIn (want have' : List String) : List String :=
  want.filter fun s => !have'.contains s

/-- How a failed vend is reported: a refusal of the upstream sends the user to connect again. -/
def vendError (provider : BrokerProvider) (e : Err) : Err :=
  if e.is .upstreamInvalidGrant then
    .consentRequired "" provider.slug "" .consentMissing [] "invalid_grant"
  else if e.is .upstreamUnavailable then
    .consentRequired "" provider.slug "" .consentMissing [] "upstream_error"
  else if e.is .upstreamScopeDowngrade then
    .consentRequired "" provider.slug "" .scopeInsufficient [] "scope_downgrade"
  else e.wrap "broker adapter vend"

/-- Store the credential the upstream rotated; losing the race for it is not an error. -/
def persistRotation (owner : String) (grant : BrokerGrant) : Option String → Svc Unit
  | none => pure ()
  | some cred =>
    match env.encrypt cred owner with
    | none => Prog.fail (.fault "encrypt rotated broker credential")
    | some encrypted => do
      let r ← (store (BrokerGrantStore.updateWithVersion
        { grant with credentialData := encrypted })).attempt
      match r with
      | .ok _ => pure ()
      | .error e =>
        if e.is .brokerGrantConflict then pure ()
        else Prog.fail (e.wrap "persist rotated broker credential")

/-- The audit row of a vended token: not revocable, and without an identifier. -/
def issuanceRow (req : BrokerIssueRequest) (id : String) (now : Time) (expiresIn : Int) :
    Issuance where
  id := id
  subjectUserID := req.subjectUserID
  clientID := req.actorClientID
  resourceID := req.resource.id
  scopes := req.scopes
  backendKind := .broker
  revocable := false
  issuedAt := now
  expiresAt := now + expiresIn * 1000000000
  revokedAt := none
  jti := ""
  dpopJKT := req.dpopJKT
  agentID := (req.agentIdentity.map AgentIdentityClaims.agentID).getD ""
  agentChain :=
    ((req.agentIdentity.map AgentIdentityClaims.agentChain).getD []).take
      Issuance.maxAgentChainLength
  consentClientID := ""
  parentJTI := ""

/-- The live grant, or the refusal that there is none. -/
def requireGrant (provider : BrokerProvider) : Option BrokerGrant → Except Err BrokerGrant
  | some g => .ok g
  | none => .error (.consentRequired "" provider.slug "" .consentMissing [] "")

def decryptCredential (grant : BrokerGrant) (owner : String) : Except Err String :=
  match env.decrypt grant.credentialData owner with
  | some plain => .ok plain
  | none => .error (.fault "decrypt broker credential")

/-- `Issue` up to the call of the adapter: the grant it found, and the decrypted credential. -/
def clear (req : BrokerIssueRequest) : Svc (BrokerGrant × String) := do
  failIf (!req.resource.isBroker)
    (.fault "broker issuer requires a broker resource and resolved provider")
  let found ← wrapErr "look up broker grant"
    (fetch (BrokerGrantStore.get req.subjectUserID req.provider.id))
  let grant ← Prog.ofExcept (requireGrant req.provider found)
  let upstream ← Prog.ofExcept (mapToUpstreamScopes env req.resource req.scopes)
  let missing := scopesNotIn upstream grant.scopesGranted
  failIf (!missing.isEmpty)
    (.consentRequired "" req.provider.slug "" .scopeInsufficient missing "")
  let plaintext ← Prog.ofExcept
    (decryptCredential env grant (brokerOwnerContext req.subjectUserID req.provider.id))
  failIf (!env.adapterRegistered req.provider.protocol) (.sentinel .adapterNotRegistered)
  pure (grant, plaintext)

/-- `Issue` from the call of the adapter on. -/
def vendAndRecord (ctx : ReqID) (req : BrokerIssueRequest)
    (cleared : BrokerGrant × String) : Svc BrokerIssueResponse := do
  let now₀ ← timeNow
  let vended ← Prog.ofExcept
    ((env.vend req.provider req.resource cleared.2 req.scopes now₀).mapError
    (vendError req.provider))
  persistRotation env (brokerOwnerContext req.subjectUserID req.provider.id) cleared.1
    vended.updatedCredential
  let now ← timeNow
  let id ← generateRandomString env ctx
  wrapErr "insert broker issuance"
    (store (IssuanceStore.insert ctx (issuanceRow req id now vended.expiresIn)))
  pure { accessToken := vended.accessToken, expiresIn := vended.expiresIn, issuanceID := id }

/-- `BrokerIssuer.Issue`. -/
def issue (ctx : ReqID) (req : BrokerIssueRequest) : Svc BrokerIssueResponse := do
  let cleared ← clear env req
  vendAndRecord env ctx req cleared

end BrokerIssuer

end AuthServer
