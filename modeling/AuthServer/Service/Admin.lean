import AuthServer.Service.Token

/-!
# Revoking consent and editing resources

`GrantAdminService.RevokeConsent` and the writing methods of `ResourceAdminService`. A consent is
revoked in three parts that are not one transaction: the grant row, the issuance rows in its
lineage, and the refresh families of the same user and client whose stored resource URI is the
current URI of the granted resource. Only a failure of the first part is reported to the caller; the
others are visible in the report, which the source writes to its audit trail.
-/

namespace AuthServer

open Interleave

namespace GrantAdminService

/-- What the audit entry of a revocation says. -/
structure RevokeConsentReport where
  revokedIssuances : ℕ
  cascadeFailed : Bool
  revokedFamilies : ℕ
  familyCascadeFailed : Bool
  deriving DecidableEq, Repr

/-- The page size of `revokeRefreshFamilies`. -/
def page : ℕ := 50

/-- One page of the active families of a user and client. Reading a short page, the last one, is
recorded in the history variable. -/
def listPage (ctx : ReqID) (userID clientID : String) (offset : ℕ) : Call (List Family) := fun w =>
  let families := TokenStore.listActiveFamilies userID clientID page offset w
  (.ok families, if families.length < page then w.note ctx (.familiesListed userID clientID) else w)

/-- The listing loop of `revokeRefreshFamilies`: collect the families stored for the URI. The source
goes on until a page is short; here the number of pages is bounded as well, by a bound that is
reached only if families are created while the loop runs. -/
def listTargets (ctx : ReqID) (userID clientID uri : String) :
    ℕ → ℕ → List String → Svc (List String)
  | 0, _, _ => Prog.fail (.fault "list token families")
  | pages + 1, offset, targets => do
    let families ← wrapErr "list token families" (store (listPage ctx userID clientID offset))
    let targets' := targets ++ (families.filter (·.resource == uri)).map Family.id
    if families.length < page then pure targets'
    else listTargets ctx userID clientID uri pages (offset + page) targets'

/-- The revocation loop of `revokeRefreshFamilies`: revoke each family and denylist its access
tokens, stopping at the first failure. Returns how many were revoked, and the failure. -/
def revokeTargets (ctx : ReqID) : List String → ℕ → Svc (ℕ × Option Err)
  | [], revoked => pure (revoked, none)
  | id :: rest, revoked => do
    let r ← (store (TokenStore.revokeFamily ctx id)).attempt
    match r with
    | .error e => pure (revoked, some (e.wrap ("revoke family " ++ id)))
    | .ok changed => do
      let d ← (store (RevocationStore.revokeByFamily ctx id)).attempt
      match d with
      | .error e => pure (revoked, some (e.wrap ("denylist jtis for family " ++ id)))
      | .ok _ => revokeTargets ctx rest (if changed then revoked + 1 else revoked)

def revokeFamiliesOf (ctx : ReqID) (userID clientID uri : String) : Svc (ℕ × Option Err) := do
  let bound ← Prog.step fun w => (w.families.length, w)
  let targets ← (listTargets ctx userID clientID uri (bound + 1) 0 []).attempt
  match targets with
  | .error e => pure (0, some e)
  | .ok ids => revokeTargets ctx ids 0

/-- Revoke the refresh families at the grant's resource. -/
def revokeRefreshFamilies (ctx : ReqID) (userID clientID resourceID : String) :
    Svc (ℕ × Option Err) := do
  let r ← (fetch (ResourceStore.getByID resourceID)).attempt
  match r with
  | .error e =>
    pure (0, if e.is .resourceNotFound then none else some (e.wrap "resolve grant resource"))
  | .ok res => revokeFamiliesOf ctx userID clientID res.uri

def cascade (ctx : ReqID) : Option ConsentGrant → Svc RevokeConsentReport
  | none => pure ⟨0, false, 0, false⟩
  | some g => do
    let n ← (store (IssuanceStore.revokeFamily ctx g.userID g.clientID g.resourceID)).attempt
    let f ← revokeRefreshFamilies ctx g.userID g.clientID g.resourceID
    pure ⟨n.toOption.getD 0, !n.isOk, f.1, f.2.isSome⟩

/-- `GrantAdminService.RevokeConsent`. -/
def revokeConsent (ctx : ReqID) (id : String) : Svc RevokeConsentReport := do
  failIf (id == "") (invalidRequest "id is required")
  let grant ← wrapErr "lookup consent grant" (fetch (ConsentGrantStore.getByID id))
  wrapErr "revoke consent grant" (store (ConsentGrantStore.revoke id))
  cascade ctx grant

end GrantAdminService

variable (env : Env)

namespace ResourceAdminService

/-- `input.ResourcePatch`: the fields to change. -/
structure ResourcePatch where
  slug : Option String
  uri : Option String
  backendKind : Option BackendKind
  brokerProviderID : Option String
  scopes : Option (List CatalogScope)
  policy : Option Policy
  deriving DecidableEq, Repr

namespace ResourcePatch

/-- No field is to be changed. -/
def isEmpty (p : ResourcePatch) : Bool :=
  p.slug.isNone && p.uri.isNone && p.backendKind.isNone && p.brokerProviderID.isNone &&
    p.scopes.isNone && p.policy.isNone

def apply (p : ResourcePatch) (r : Resource) : Except Err Resource := do
  let slug ← match p.slug with
    | some s => normalizeSlug s
    | none => .ok r.slug
  .ok { r with
    slug := slug
    uri := p.uri.getD r.uri
    backendKind := p.backendKind.getD r.backendKind
    brokerProviderID := p.brokerProviderID.getD r.brokerProviderID
    scopes := p.scopes.getD r.scopes
    policy := p.policy.getD r.policy }

end ResourcePatch

def validateBrokerProviderRef (r : Resource) : Svc Unit :=
  if r.isBroker then do
    failIf (r.brokerProviderID == "")
      (invalidRequest "broker resource must reference a broker provider")
    let p ← (fetch (BrokerProviderStore.getByID r.brokerProviderID)).attempt
    Prog.ofExcept ((p.map fun _ => ()).mapError fun e =>
      if e.is .resourceNotFound then
        invalidRequest ("broker_provider_id " ++ env.quote r.brokerProviderID ++ " does not exist")
      else e.wrap ("lookup broker provider " ++ env.quote r.brokerProviderID))
  else pure ()

def validateClientIDList (env : Env) (field : String) : List String → Svc Unit
  | [] => pure ()
  | cid :: rest => do
    failIf (cid == "") (invalidRequest (field ++ " must not contain empty entries"))
    let c ← (fetch (ClientStore.getByID cid)).attempt
    Prog.ofExcept ((c.map fun _ => ()).mapError fun e =>
      if e.is .invalidClient then
        invalidRequest ("client_id " ++ env.quote cid ++ " in " ++ field ++ " does not exist")
      else e.wrap ("lookup client " ++ env.quote cid))
    validateClientIDList env field rest

def validatePolicyClients (p : Policy) : Svc Unit := do
  validateClientIDList env "policy.exchange.allowed_client_ids" p.exchangeAllowedClientIDs
  validateClientIDList env "policy.runtime.client_ids" p.runtimeClientIDs

def assertSlugAvailable (slug excludeID : String) : Svc Unit := do
  let existing ← (fetch (ResourceStore.getBySlug slug)).attempt
  Prog.ofExcept (match existing with
    | .ok r => if r.id == excludeID then .ok ()
        else .error (.wrapped .conflict ("slug " ++ env.quote slug ++ " is already in use"))
    | .error e => if e.is .resourceNotFound then .ok ()
        else .error (e.wrap ("lookup resource by slug " ++ env.quote slug)))

/-- The scopes of a resource that a fronting link refers to, each with the link: keys where it is
the source, values where it is the target. -/
def referencedScopes (slug : String) (l : FrontingLink) : List (String × FrontingLink) :=
  ((if l.sourceSlug == slug then l.scopeMap.entries.map Prod.fst else []) ++
    (if l.targetSlug == slug then l.scopeMap.entries.flatMap Prod.snd else [])).map fun s => (s, l)

/-- `FrontingService.ValidateResourceUpdate`, on the links listed. -/
def validateResourceUpdate (links : List FrontingLink) (prev next : Resource) : Except Err Unit :=
  if links.isEmpty then .ok ()
  else if prev.backendKind != next.backendKind then
    .error (invalidRequest ("resource " ++ env.quote prev.slug ++ " has " ++
      Nat.repr links.length ++
      " fronting link(s); kind change (" ++ prev.backendKind.name ++ "→" ++ next.backendKind.name ++
      ") is forbidden — drop links first"))
  else
    match (links.flatMap (referencedScopes prev.slug)).find? fun e =>
        prev.catalog.contains e.1 && !next.catalog.contains e.1 with
    | some (s, l) => .error (invalidRequest ("cannot remove scope " ++ env.quote s ++
        " from resource " ++ env.quote prev.slug ++ ": referenced by fronting link source=" ++
        l.sourceSlug ++ " target=" ++ l.targetSlug))
    | none => .ok ()

def listForResource (slug : String) : Svc (List FrontingLink) :=
  wrapErr "list fronting links for resource"
    (fetch fun w => .ok (FrontingLinkStore.listForResource slug w))

/-- A slug that fronting links refer to cannot be changed. -/
def checkRename (prev next : Resource) : Svc Unit := do
  let deps ← listForResource prev.slug
  failIf (!deps.isEmpty) (invalidRequest ("cannot rename resource " ++ env.quote prev.slug ++
    " to " ++ env.quote next.slug ++ ": " ++ Nat.repr deps.length ++
    " fronting link(s) reference the current slug — drop the links first"))

/-- The fronting checks of `Patch`. -/
def checkFronting (patch : ResourcePatch) (id : String) (r : Resource) : Svc Unit := do
  let prev ← fetch (ResourceStore.getByID id)
  runIf (patch.slug.isSome && prev.slug != r.slug) (checkRename env prev r)
  let links ← listForResource prev.slug
  Prog.ofExcept (validateResourceUpdate env links prev r)

def stripMintConnectPolicy (r : Resource) : Resource :=
  if r.isMint then { r with policy := { r.policy with connectAllowedReturnURLs := [] } } else r

def applyPatch (id : String) (patch : ResourcePatch) (r : Resource) : Svc Resource := do
  Prog.ofExcept (r.validate env)
  runIf (patch.backendKind.isSome || patch.brokerProviderID.isSome)
    (validateBrokerProviderRef env r)
  runIf patch.policy.isSome (validatePolicyClients env r.policy)
  runIf patch.slug.isSome (assertSlugAvailable env r.slug r.id)
  checkFronting env patch id r
  store (ResourceStore.update (stripMintConnectPolicy r))
  pure (stripMintConnectPolicy r)

/-- `ResourceAdminService.Patch`. -/
def patch (env : Env) (id : String) (patch : ResourcePatch) : Svc Resource := do
  failIf (id == "") (invalidRequest "id is required")
  let row ← fetch (ResourceStore.getByID id)
  let r ← Prog.ofExcept (patch.apply row)
  if patch.isEmpty then pure r else applyPatch env id patch r

/-- `ResourceAdminService.Create`: the row as it is stored. -/
def create (env : Env) (ctx : ReqID) (r : Resource) : Svc Resource := do
  failIf (r.id != "") (invalidRequest "id must not be supplied on create")
  let slug ← Prog.ofExcept (normalizeSlug r.slug)
  let named := { r with slug := slug }
  Prog.ofExcept (named.validate env)
  validateBrokerProviderRef env named
  validatePolicyClients env named.policy
  assertSlugAvailable env named.slug ""
  let id ← generateRandomString env ctx
  let row := { stripMintConnectPolicy named with id := id }
  store (ResourceStore.create row)
  pure row

/-- The row with another `policy.exchange.allowed_client_ids`. -/
def setAllowedClients (r : Resource) (allowed : List String) : Resource :=
  { r with policy := { r.policy with exchangeAllowedClientIDs := allowed } }

/-- `ResourceAdminService.AddAllowedClient`: the client must exist; returns the list. -/
def addAllowedClient (slug clientID : String) : Svc (List String) := do
  failIf (clientID == "") (invalidRequest "client_id is required")
  let c ← (fetch (ClientStore.getByID clientID)).attempt
  Prog.ofExcept ((c.map fun _ => ()).mapError fun e =>
    if e.is .invalidClient then
      invalidRequest ("client_id " ++ env.quote clientID ++ " does not exist")
    else e.wrap ("lookup client " ++ env.quote clientID))
  let r ← fetch (ResourceStore.getBySlug slug)
  let allowed := r.policy.exchangeAllowedClientIDs
  if allowed.contains clientID then pure allowed
  else do
    store (ResourceStore.update (setAllowedClients r (allowed ++ [clientID])))
    pure (allowed ++ [clientID])

/-- `ResourceAdminService.RemoveAllowedClient`: takes out the first entry for the client, if there
is one, and returns the list. -/
def removeAllowedClient (slug clientID : String) : Svc (List String) := do
  failIf (clientID == "") (invalidRequest "client_id is required")
  let r ← fetch (ResourceStore.getBySlug slug)
  let allowed := r.policy.exchangeAllowedClientIDs
  if !allowed.contains clientID then pure allowed
  else do
    store (ResourceStore.update (setAllowedClients r (allowed.erase clientID)))
    pure (allowed.erase clientID)

/-- `FrontingService.CascadeDeleteForResource`, inside the transaction of its caller. -/
def cascadeDeleteForResource (slug : String) : Call (List FrontingLink) := fun w =>
  let dependents := FrontingLinkStore.listForResource slug w
  if dependents.isEmpty then (.ok [], w)
  else ((FrontingLinkStore.deleteForResource slug w).1.map fun _ => dependents,
    (FrontingLinkStore.deleteForResource slug w).2)

/-- The transaction of `DeleteWithCascade`: the links, if there are any, and then the row. -/
def doDelete (id slug : String) (cascade : Bool) : Call Unit :=
  if cascade then (cascadeDeleteForResource slug).andThen fun _ => ResourceStore.delete id
  else ResourceStore.delete id

/-- `ResourceAdminService.DeleteWithCascade`; `Delete` is the case without cascade. -/
def deleteWithCascade (id : String) (cascade : Bool) : Svc (List FrontingLink) := do
  failIf (id == "") (invalidRequest "id is required")
  let r ← fetch (ResourceStore.getByID id)
  let dependents ← listForResource r.slug
  failIf (!dependents.isEmpty && !cascade) (.sentinel .resourceHasFrontingLinks)
  withTransaction (doDelete id r.slug (cascade && !dependents.isEmpty))
  pure dependents

end ResourceAdminService

end AuthServer
