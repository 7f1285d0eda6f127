import AuthServer.Service.Broker
import AuthServer.Text.QueryString

/-!
# Connecting to an upstream and disconnecting

`ConnectService.StartConnect`, `CompleteConnect` and `Disconnect` of `internal/services/connect.go`,
and `RevokeBroker` of `internal/services/grant_admin.go`. A connection is started by storing a
pending state under a token, which goes to the upstream and comes back with the user. Completing it
consumes the state, exchanges the code at the provider's callback and stores the credential. The
last three work on the row that `BrokerIssuer.Issue` reads and, when the upstream has rotated the
credential, writes: a connection rewrites it and makes it live again, a disconnection or an
administrator marks it as revoked.

The upstream's URLs and its answers to the callback are those of `Connector.buildConnectURL` and
`Connector.handleCallback`. That `Disconnect` also asks the upstream to revoke the credential, and
ignores the answer, is left out: nothing is stored. -/

namespace AuthServer

open Interleave

/-- A connection that was started. -/
structure ConnectPendingState where
  id : String
  userID : String
  providerID : String
  resourceID : String
  codeVerifier : String
  returnURL : String
  scopes : List String
  expiresAt : Time
  deriving DecidableEq, Repr

/-- The store, the pending states and the history. -/
structure Connections where
  world : World
  /-- `connect_pending_states`. -/
  pending : List ConnectPendingState
  /-- A history variable: the pending states that were stored, and by which call. -/
  started : List (ReqID × ConnectPendingState)
  /-- Another one: the pending states that were consumed. -/
  consumed : List (ReqID × ConnectPendingState)
  /-- A third one: the pending states that were taken to a provider's callback. -/
  calledBack : List (ReqID × ConnectPendingState)

/-- What is fixed for the connect service. -/
structure Connector where
  redirectBaseURL : String
  allowedReturnURLs : List String
  stateKey : String
  /-- The HMAC of a message under a key, how it is written in a token, and the decoding it is
  compared with. -/
  hmacSHA256 : String → String → String
  encodeBase64 : String → String
  decodeBase64 : String → Option String
  /-- The adapters' `BuildConnectURL`: provider, resource, user, return URL, callback URL and
  requested scopes, with the code verifier and the identifier that are drawn for it, at a time. -/
  buildConnectURL : BrokerProvider → Resource → String → String → String → List String → String →
    String → Time → Except Err (String × Option ConnectPendingState)
  /-- The adapters' `HandleCallback`: provider, resource, code, callback URL, pending state, at a
  time. -/
  handleCallback : BrokerProvider → Option Resource → String → String → ConnectPendingState → Time →
    Except Err (String × List String)

variable (env : Env) (conf : Connector)

namespace ConnectService

/-- A service method on the database. -/
def onWorld {α : Type} (p : Svc α) : Prog Connections Err α :=
  p.zoom Connections.world fun w s => { s with world := w }

/-! ### Pending states -/

variable (ctx : ReqID)

/-- `ConnectPendingStateStore.Insert`: the identifier is unique, and the provider and the resource
are rows. -/
def insert (st : ConnectPendingState) : Prog Connections Err Unit :=
  Prog.exec storeFault fun s =>
    if s.pending.any (·.id == st.id) || !s.world.brokerProviders.any (·.id == st.providerID) ||
        !s.world.resources.any (·.id == st.resourceID) then
      (.error (.fault "insert connect pending state"), s)
    else (.ok (), { s with pending := s.pending ++ [st], started := (ctx, st) :: s.started })

/-- Delete and return the pending state, if it has not expired. -/
def consume (id : String) : Prog Connections Err ConnectPendingState :=
  Prog.exec storeFault fun s =>
    match s.pending.find? fun st => st.id == id && s.world.clock < st.expiresAt with
    | some st =>
      (.ok st, { s with
        pending := s.pending.filter (·.id != id), consumed := (ctx, st) :: s.consumed })
    | none => (.error (.sentinel .pendingStateNotFound), s)

def computeStateHMAC (stateID userID providerSlug returnURL : String) : String :=
  conf.hmacSHA256 conf.stateKey
    (stateID ++ ":" ++ userID ++ ":" ++ providerSlug ++ ":" ++ returnURL)

def generateStateToken (userID providerSlug returnURL : String) : Svc String := do
  failIf (conf.stateKey == "") (.fault "connect: empty state signing key")
  let stateID ← generateRandomString env ctx
  pure (stateID ++ "." ++
    conf.encodeBase64 (computeStateHMAC conf stateID userID providerSlug returnURL))

def verifyStateToken (stateToken userID providerSlug returnURL : String) : Except Err Bool :=
  if conf.stateKey == "" then .error (.fault "connect: empty state signing key")
  else
    let stateID := String.ofList (stateToken.toList.takeWhile (· != '.'))
    match stateToken.toList.dropWhile (· != '.') with
    | [] => .ok false
    | _ :: encoded =>
      match conf.decodeBase64 (String.ofList encoded) with
      | none => .ok false
      | some sig => .ok (sig == computeStateHMAC conf stateID userID providerSlug returnURL)

/-! ### URLs -/

/-- The configured base URL, without the slashes at its end. -/
def redirectBase : String :=
  String.ofList (conf.redirectBaseURL.toList.reverse.dropWhile (· == '/')).reverse

def callbackURL (providerSlug : String) : String :=
  let base := if redirectBase conf == "" then env.issuer else redirectBase conf
  if base == "" then "" else base ++ "/connect/" ++ providerSlug ++ "/callback"

def loopbackWildcardPrefix (pattern : String) : Option String :=
  if pattern == "http://localhost:*" then some "http://localhost:"
  else if pattern == "https://localhost:*" then some "https://localhost:"
  else if pattern == "http://127.0.0.1:*" then some "http://127.0.0.1:"
  else if pattern == "https://127.0.0.1:*" then some "https://127.0.0.1:"
  else none

/-- What follows the host of a loopback URL: a port, and then nothing or a path. -/
def matchPort (rest : List Char) : Bool :=
  let digit (c : Char) : Bool := '0' ≤ c && c ≤ '9'
  !(rest.takeWhile digit).isEmpty &&
    ((rest.dropWhile digit).isEmpty || (rest.dropWhile digit).head? == some '/')

/-- `matchReturnURL`: exact, or with a port wildcard. -/
def matchReturnURL (pattern returnURL : String) : Bool :=
  pattern == returnURL ||
    match loopbackWildcardPrefix pattern with
    | none => false
    | some host =>
      host.toList.isPrefixOf returnURL.toList &&
        matchPort (returnURL.toList.drop host.toList.length)

def matchesASelf (returnURL : String) : Bool :=
  [redirectBase conf, env.issuer].any fun b => b != "" && returnURL == b ++ "/connections"

/-- `isReturnURLAllowed`. -/
def isReturnURLAllowed (returnURL : String) (target : Resource) : Bool :=
  returnURL != "" &&
    (matchesASelf env conf returnURL || target.policy.connectAllowedReturnURLs.any
      (matchReturnURL · returnURL) ||
      conf.allowedReturnURLs.any (matchReturnURL · returnURL))

def rebindStateInURL (upstreamURL stateToken : String) : String :=
  match env.urlParse upstreamURL with
  | none => upstreamURL
  | some u =>
    let q := Query.parse (bytesOf u.rawQuery)
    if (Query.values (bytesOf "state") q).isEmpty then upstreamURL
    else env.urlString
      { u with
        rawQuery := asciiText (Query.encode (Query.set (bytesOf "state") (bytesOf stateToken) q)) }

/-! ### Resources -/

def singleBrokerResourceForProvider (providerID : String) (w : World) : Except Err Resource :=
  match (ResourceStore.list w).filter fun r => r.isBroker &&
    (providerID == "" || r.brokerProviderID == providerID) with
  | [] =>
    .error (.wrapped .invalidTarget ("no broker resource references provider " ++
      env.quote providerID))
  | [r] => .ok r
  | rows => .error (.wrapped .ambiguousBrokerResource
      ("provider " ++ env.quote providerID ++ " has " ++ toString rows.length ++
        " broker-backed resources"))

/-- The resource that a connection is started for. -/
def targetResource (resourceSlug : String) (provider : BrokerProvider) (w : World) :
    Except Err Resource :=
  if resourceSlug != "" then do
    let target ← ResourceRegistry.resolve resourceSlug w
    if target.isBroker then .ok target
    else .error (.wrapped .invalidTarget ("resource " ++ env.quote resourceSlug ++
      " is not broker-backed"))
  else singleBrokerResourceForProvider env provider.id w

/-- `ResourceRegistry.GetWithProvider`, for the resource. -/
def getWithProvider (resourceID : String) : Svc Resource := do
  let r ← fetch (ResourceStore.getByID resourceID)
  if r.isBroker then do
    let _ ← wrapErr
      ("broker provider " ++ env.quote r.brokerProviderID ++ " for resource " ++ env.quote r.id)
      (fetch (BrokerProviderStore.getByID r.brokerProviderID))
    pure r
  else pure r

/-- The resource that a connection was started from, if any. -/
def originatingResource (resourceID : String) : Svc (Option Resource) :=
  if resourceID == "" then pure none
  else do
    let r ← wrapErr "resolve originating resource" (getWithProvider env resourceID)
    pure (some r)

/-! ### Starting -/

/-- How a failure of `BuildConnectURL` is reported. -/
def buildError (provider : BrokerProvider) (providerSlug : String) (e : Err) : Err :=
  if e.is .noConnectStep then
    .wrapped .invalidTarget
      ("provider " ++ env.quote providerSlug ++ " (protocol " ++ provider.protocol ++
        ") has no per-user connect step")
  else e.wrap "build connect url"

def pendingState (built : ConnectPendingState) (stateToken userID returnURL : String)
    (provider : BrokerProvider)
    (target : Resource) (now : Time) : ConnectPendingState :=
  { built with
    id := stateToken
    userID := userID
    providerID := provider.id
    resourceID := target.id
    returnURL := returnURL
    -- `stateExpiry`: ten minutes
    expiresAt := if built.expiresAt == zeroTime then now + 600 * 1000000000 else built.expiresAt }

variable (userID providerSlug resourceSlug returnURL : String)

/-- `StartConnect` up to the adapter's `BuildConnectURL`: the URL, and the pending state to
store. -/
def prepareConnect : Svc (String × ConnectPendingState) := do
  let provider ← (fetch (BrokerProviderStore.getBySlug providerSlug)).mapError fun e =>
    if e.is .resourceNotFound then .sentinel .serviceNotFound else e
  let target ← fetch (targetResource env resourceSlug provider)
  failIf (!isReturnURLAllowed env conf returnURL target) (.sentinel .invalidReturnURL)
  failIf (!env.adapterRegistered provider.protocol)
    (.wrapped .adapterNotRegistered ("lookup brokerproto adapter " ++ env.quote provider.protocol))
  let stateToken ← wrapErr "generate state token"
    (generateStateToken env conf ctx userID providerSlug returnURL)
  let verifier ← generateRandomString env ctx
  let id ← generateRandomString env ctx
  let now ← timeNow
  let built ← Prog.ofExcept
    ((conf.buildConnectURL provider target userID returnURL (callbackURL env conf providerSlug)
      target.catalog verifier
      id now).mapError (buildError env provider providerSlug))
  match built.2 with
  | none =>
    Prog.fail (.fault ("brokerproto adapter " ++ env.quote provider.protocol ++
      " returned nil pending state"))
  | some st => do
    let now ← timeNow
    pure (built.1, pendingState st stateToken userID returnURL provider target now)

/-- `ConnectService.StartConnect`. -/
def startConnect : Prog Connections Err String := do
  let prepared ← onWorld (prepareConnect env conf ctx userID providerSlug resourceSlug returnURL)
  (insert ctx prepared.2).mapError (Err.wrap "insert pending state")
  pure (rebindStateInURL env prepared.1 prepared.2.id)

/-! ### Completing -/

/-- `CompleteConnectResult`, without the timestamps of the grant. -/
structure CompleteConnectResult where
  provider : String
  scopesGranted : List String
  returnURL : String
  deriving DecidableEq, Repr

/-- The grant that `CompleteConnect` stores. -/
def desiredGrant (id userID providerID credential : String)
    (scopesGranted : List String) : BrokerGrant where
  id := id
  userID := userID
  brokerProviderID := providerID
  credentialData := credential
  scopesGranted := scopesGranted
  version := 0
  revokedAt := none

/-- `CompleteConnect` from the consumed state to the callback: the provider and the resource. -/
def verifyConnect (userID stateToken : String) (pending : ConnectPendingState) :
    Svc (BrokerProvider × Option Resource) := do
  let provider ← wrapErr "lookup broker provider"
    (fetch (BrokerProviderStore.getByID pending.providerID))
  let stateOK ← Prog.ofExcept
    (verifyStateToken conf stateToken userID provider.slug pending.returnURL)
  failIf (!stateOK) (.sentinel .invalidState)
  failIf (!env.adapterRegistered provider.protocol)
    (.wrapped .adapterNotRegistered ("lookup brokerproto adapter " ++ env.quote provider.protocol))
  let res ← originatingResource env pending.resourceID
  pure (provider, res)

/-- The adapter's `HandleCallback`, which is recorded. -/
def callBack (code : String) (pending : ConnectPendingState)
    (verified : BrokerProvider × Option Resource) :
      Prog Connections Err (String × List String) := do
  let now ← Prog.step fun s => (s.world.clock, { s with
    calledBack := (ctx, pending) :: s.calledBack })
  Prog.ofExcept
    ((conf.handleCallback verified.1 verified.2 code (callbackURL env conf verified.1.slug)
      pending now).mapError
      (Err.wrap "handle callback"))

/-- `CompleteConnect` from the answer of the callback on. -/
def storeCredential (userID : String) (provider : BrokerProvider)
    (answer : String × List String) : Svc BrokerGrant := do
  let credential ← Prog.ofExcept
    (match env.encrypt answer.1 (BrokerIssuer.brokerOwnerContext userID provider.id) with
    | some encrypted => .ok encrypted
    | none => .error (.fault "encrypt broker credential"))
  let id ← generateRandomString env ctx
  wrapErr "upsert broker grant"
    (store (BrokerGrantStore.upsert (desiredGrant id userID provider.id credential answer.2)))

/-- `ConnectService.CompleteConnect`. -/
def completeConnect (userID stateToken code : String) :
    Prog Connections Err CompleteConnectResult := do
  let pending ← (consume ctx stateToken).mapError fun e =>
    if e.is .pendingStateNotFound then .sentinel .stateNotFound else e
  failIf (pending.userID != userID) (.sentinel .stateForeignUser)
  let verified ← onWorld (verifyConnect env conf userID stateToken pending)
  let answer ← callBack env conf ctx code pending verified
  let grant ← onWorld (storeCredential env ctx userID verified.1 answer)
  pure ⟨verified.1.slug, grant.scopesGranted, pending.returnURL⟩

/-- `ConnectService.Disconnect`. -/
def disconnect (userID providerSlug : String) : Svc Unit := do
  let provider ← (fetch (BrokerProviderStore.getBySlug providerSlug)).mapError fun e =>
    if e.is .resourceNotFound then .sentinel .connectionNotFound else e
  let found ← fetch (BrokerGrantStore.get userID provider.id)
  match found with
  | none => Prog.fail (.sentinel .connectionNotFound)
  | some grant => wrapErr "revoke broker grant" (store (BrokerGrantStore.revoke grant.id))

end ConnectService

/-- `GrantAdminService.RevokeBroker`. -/
def revokeBroker (id : String) : Svc Unit := do
  failIf (id == "") (.wrapped .invalidRequest "id is required")
  let _ ← wrapErr "lookup broker grant" (fetch (BrokerGrantStore.getByID id))
  wrapErr "revoke broker grant" (store (BrokerGrantStore.revoke id))

end AuthServer
