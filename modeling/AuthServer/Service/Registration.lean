import AuthServer.Domain.Registration
import AuthServer.Metadata.Fetcher
import AuthServer.Service.MachineGrant

/-!
# Clients that register themselves

The two ways in which a client comes into the store without an administrator. `RegisterClient` of
`internal/services/dcr.go` takes the client's metadata from the request; `VerifyCIMD` of
`internal/services/cimd.go` takes them from a document that the client publishes at the URL by which
it is identified, and writes them into the row that is there already, if there is one.

What the services are wired with is a `Registrar`: the providers of the policy, of the enabled
grants and of the default scope, which may answer differently to every request, and the fetcher of
documents. A document comes from the fetcher checked, and with defaults filled in, as `readDocument`
leaves it.

The columns for the times of registration and of the last update are not modelled.
-/

namespace AuthServer

open Interleave

structure DCRMode where
  mode : String
  approvedRedirects : List String
  deriving DecidableEq, Repr

/-- `output.CIMDConfig`, without the timeout. -/
structure CIMDConfig where
  enabled : Bool
  requireHTTPS : Bool
  allowPrivateAddresses : Bool
  cacheTTL : Time
  deriving DecidableEq, Repr

def CIMDConfig.fetchConfig (cfg : CIMDConfig) : CIMDFetchConfig :=
  ⟨cfg.requireHTTPS, cfg.allowPrivateAddresses, cfg.cacheTTL⟩

/-- What the registration services are wired with. -/
structure Registrar (env : Env) where
  /-- `DCRModeProvider.Get`. -/
  dcrMode : ReqID → Except Err DCRMode
  /-- `CIMDConfigProvider.Config`. -/
  cimdConfig : ReqID → Except Err CIMDConfig
  /-- `EnabledGrantsProvider.Get`; there is no set when there is no provider. -/
  enabledGrants : ReqID → Except Err (Option (List String))
  /-- `DefaultClientScope` of the OAuth configuration; empty when there is none. -/
  defaultClientScope : ReqID → Except Err String
  /-- `crypto.HashClientSecret`. -/
  hashClientSecret : String → Except Err String
  /-- `CIMDFetcher.Fetch`. -/
  fetch : ReqID → String → CIMDFetchConfig → Except Err CIMDDocument
  fetched : ∀ {ctx url cfg doc}, fetch ctx url cfg = .ok doc →
    ∃ resp, CIMD.readDocument env resp url = .ok doc

namespace Registrar

variable {env : Env} (reg : Registrar env)

def resolveEnabledGrants (ctx : ReqID) : Except Err (Option (List String)) :=
  (reg.enabledGrants ctx).mapError (Err.wrap "resolve enabled grants")

def policy (ctx : ReqID) : Except Err DCRMode :=
  (reg.dcrMode ctx).mapError (Err.wrap "get dcr mode")

/-- The scope ceiling of a client that registers itself: none unless a user is in the loop of all
its grants. -/
def ceiling (ctx : ReqID) (grantTypes : List String) : Except Err String :=
  if isDelegatedOnly grantTypes then
    (reg.defaultClientScope ctx).mapError (Err.wrap "resolve oauth config")
  else .ok ""

end Registrar

/-- Every redirect URI is in the approved list, as it stands. -/
def requireApproved (env : Env) (what : String) (approved redirectURIs : List String) :
    Except Err Unit :=
  redirectURIs.forM fun uri =>
    if approved.contains uri then .ok ()
    else .error (.wrapped .invalidRedirectURI
      (what ++ " " ++ env.quote uri ++ " not in approved list"))

namespace DCRService

/-- The mode of registration. -/
def enforceMode (env : Env) (policy : DCRMode) (redirectURIs : List String) : Except Err Unit :=
  if policy.mode == "open" then .ok ()
  else if policy.mode == "approved_redirects" then
    requireApproved env "redirect_uri" policy.approvedRedirects redirectURIs
  else if policy.mode == "admin_only" then .error (.sentinel .registrationDisabled)
  else .error (.fault ("unknown dcr mode: " ++ policy.mode))

structure RegisterClientRequest where
  redirectURIs : List String
  clientName : String
  grantTypes : List String
  responseTypes : List String
  tokenEndpointAuthMethod : String
  applicationType : String
  agent : Bool
  agentDescription : String
  deriving DecidableEq, Repr

structure RegisterClientResponse where
  clientID : String
  clientSecret : String
  clientIDIssuedAt : Int
  /-- Zero, for never, with a secret. -/
  clientSecretExpiresAt : Option Int
  redirectURIs : List String
  clientName : String
  grantTypes : List String
  responseTypes : List String
  tokenEndpointAuthMethod : String
  applicationType : String
  scope : String
  agent : Bool
  agentDescription : String
  deriving DecidableEq, Repr

def RegisterClientRequest.params (req : RegisterClientRequest) : CreateParams :=
  CreateParams.defaults
    { name := req.clientName, redirectURIs := req.redirectURIs, grantTypes := req.grantTypes
      responseTypes := req.responseTypes, tokenEndpointAuthMethod := req.tokenEndpointAuthMethod
      isAgent := req.agent, agentDescription := req.agentDescription }

def newClient (params : CreateParams) (applicationType id secretHash scope : String) : Client where
  id := id
  secretHash := secretHash
  redirectURIs := params.redirectURIs
  grantTypes := params.grantTypes
  status := .active
  cimdURL := ""
  scope := scope
  isAgent := params.isAgent
  registrationSource := .dcr
  name := params.name
  responseTypes := params.responseTypes
  tokenEndpointAuthMethod := params.tokenEndpointAuthMethod
  agentDescription := params.agentDescription
  applicationType := applicationType
  version := 0

def respond (c : Client) (now : Time) (plainSecret : String) : RegisterClientResponse where
  clientID := c.id
  clientSecret := plainSecret
  clientIDIssuedAt := unix now
  clientSecretExpiresAt := if plainSecret == "" then none else some 0
  redirectURIs := c.redirectURIs
  clientName := c.name
  grantTypes := c.grantTypes
  responseTypes := c.responseTypes
  tokenEndpointAuthMethod := c.tokenEndpointAuthMethod
  applicationType := c.effectiveApplicationType
  scope := c.scope
  agent := c.isAgent
  agentDescription := c.agentDescription

def generateSecret {env : Env} (reg : Registrar env) (ctx : ReqID) (method : String) :
    Svc (String × String) :=
  if method != "none" then do
    let plain ← generateRandomString env ctx
    let hash ← Prog.ofExcept ((reg.hashClientSecret plain).mapError (Err.wrap "hash client secret"))
    pure (plain, hash)
  else pure ("", "")

/-- `RegisterClient` once the request has passed its checks. -/
def persist {env : Env} (reg : Registrar env) (ctx : ReqID) (params : CreateParams)
    (applicationType scope : String) : Svc RegisterClientResponse := do
  let now ← timeNow
  let id ← generateRandomString env ctx
  let secret ← generateSecret reg ctx params.tokenEndpointAuthMethod
  let c := newClient params applicationType id secret.2 scope
  wrapErr "create client" (store (ClientStore.create c))
  pure (respond c now secret.1)

/-- `DCRService.RegisterClient`. -/
def registerClient {env : Env} (reg : Registrar env) (ctx : ReqID) (req : RegisterClientRequest) :
    Svc RegisterClientResponse := do
  let policy ← Prog.ofExcept (reg.policy ctx)
  Prog.ofExcept (enforceMode env policy req.redirectURIs)
  Prog.ofExcept ((validateApplicationType req.applicationType).mapError (.wrapped .invalidClient))
  let enabled ← Prog.ofExcept (reg.resolveEnabledGrants ctx)
  Prog.ofExcept ((validateCreateParams env req.params enabled).mapError (.wrapped .invalidClient))
  let scope ← Prog.ofExcept (reg.ceiling ctx req.params.grantTypes)
  persist reg ctx req.params req.applicationType scope

end DCRService

namespace CIMDService

/-- An existing client, with the metadata of its document. A ceiling is cleared when the grants no
longer qualify. -/
def refreshed (c : Client) (doc : CIMDDocument) : Client :=
  { c with
    name := doc.clientName
    redirectURIs := doc.redirectURIs
    grantTypes := doc.grantTypes
    responseTypes := doc.responseTypes
    tokenEndpointAuthMethod := doc.tokenEndpointAuthMethod
    scope := if isDelegatedOnly doc.grantTypes then c.scope else "" }

/-- A new client: its identifier is the URL of the document. -/
def newClient (doc : CIMDDocument) (clientID scope : String) : Client where
  id := clientID
  secretHash := ""
  redirectURIs := doc.redirectURIs
  grantTypes := doc.grantTypes
  status := .active
  cimdURL := clientID
  scope := scope
  isAgent := false
  registrationSource := .cimd
  name := doc.clientName
  responseTypes := doc.responseTypes
  tokenEndpointAuthMethod := doc.tokenEndpointAuthMethod
  agentDescription := ""
  applicationType := ""
  version := 0

def knownMode (mode : String) : Bool :=
  mode == "open" || mode == "approved_redirects" || mode == "admin_only"

/-- Update the row of the document, or create one. -/
def ingest {env : Env} (reg : Registrar env) (ctx : ReqID) (clientID : String)
    (doc : CIMDDocument) :
    Option Client → Svc Client
  | some existing => do
    wrapErr "update cimd client" (store (ClientStore.update (refreshed existing doc)))
    pure (refreshed existing doc)
  | none => do
    let scope ← Prog.ofExcept (reg.ceiling ctx doc.grantTypes)
    wrapErr "create cimd client" (store (ClientStore.create (newClient doc clientID scope)))
    pure (newClient doc clientID scope)

/-- `VerifyCIMD` up to its first look at the store: the document, once it has passed the policy. -/
def permit {env : Env} (reg : Registrar env) (ctx : ReqID) (clientID : String) :
    Except Err CIMDDocument := do
  let cfg ← (reg.cimdConfig ctx).mapError (Err.wrap "resolve cimd config")
  if !cfg.enabled then throw (.sentinel .registrationDisabled)
  let policy ← reg.policy ctx
  if !knownMode policy.mode then throw (.fault ("unknown dcr mode: " ++ policy.mode))
  if policy.mode == "admin_only" then throw (.sentinel .registrationDisabled)
  let doc ← reg.fetch ctx clientID cfg.fetchConfig
  let enabled ← reg.resolveEnabledGrants ctx
  (validateGrantTypesEnabled env doc.grantTypes enabled).mapError (.wrapped .invalidClient)
  if policy.mode == "approved_redirects" then
    requireApproved env "cimd redirect_uri" policy.approvedRedirects doc.redirectURIs
  pure doc

/-- `CIMDService.VerifyCIMD`. -/
def verifyCIMD {env : Env} (reg : Registrar env) (ctx : ReqID)
    (clientID : String) : Svc Client := do
  let doc ← Prog.ofExcept (permit reg ctx clientID)
  let existing ← wrapErr "lookup cimd client" (fetch (ClientStore.getByCIMDURL clientID))
  ingest reg ctx clientID doc existing

end CIMDService

end AuthServer
