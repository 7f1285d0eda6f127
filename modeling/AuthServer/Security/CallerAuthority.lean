import AuthServer.Security.ExchangeChain
import AuthServer.Service.ExchangeRules

/-!
# Who may spend someone else's token

An exchange is asked for by a client, the caller, with a token that was issued to a client, usually
the same one. When the two differ, something must have authorised the caller. There are five ways
through `Exchange`, with three gates in different orders, and on each way it is something else: the
operator's lists on the target, the operator's lists on the source of a fronting link, or a resource
the caller acts as, each of the direct ways together with a grant of the user. `CallerAuthority`
lists them; the main theorem says that no exchange with a foreign token succeeds on any other
ground.

One of the ways rests on a convention that is being retired: a caller that no resource lists among
its runtime clients acts as the resource whose slug or URI is the caller's identifier. -/

namespace AuthServer

open Interleave

structure LiveGrant (w : World) (userID clientID resourceID : String)
    (g : ConsentGrant) : Prop where
  mem : g ∈ w.consentGrants
  isFor : g.userID = userID ∧ g.clientID = clientID ∧ g.resourceID = resourceID
  live : g.isRevoked = false

variable {w : World} {clientID : String}

theorem LiveGrant.of_get {userID resourceID : String} {g : ConsentGrant}
    (h : ConsentGrantStore.get userID clientID resourceID w = .ok (some g)) :
    LiveGrant w userID clientID resourceID g := by
  have hfound := Except.ok.inj h
  have hg := List.find?_some hfound
  simp only [ConsentGrantStore.isFor, Bool.and_eq_true, beq_iff_eq, Option.isNone_iff_eq_none] at hg
  refine ⟨List.mem_of_find?_eq_some hfound, ⟨hg.1.1.1, hg.1.1.2, hg.1.2⟩, ?_⟩
  simp [ConsentGrant.isRevoked, hg.2]

/-- The one resource that lists a client among its runtime clients. -/
def RuntimeMatch (w : World) (clientID : String) (r : Resource) : Prop :=
  (w.resources.filter fun r => r.policy.runtimeClientIDs.contains clientID) = [r]

/-- No resource lists the client, and the resource is the only one with this slug or URI. -/
def SlugMatch (w : World) (clientID : String) (r : Resource) : Prop :=
  (∀ r ∈ w.resources, clientID ∉ r.policy.runtimeClientIDs) ∧
    (w.resources.filter fun r => r.slug == clientID || r.uri == clientID) = [r]

/-- What authorises the caller of an exchange for a target, answered between two worlds. -/
inductive CallerAuthority (w w' : World) (req : TokenExchangeRequest) (claims : AccessTokenClaims)
    (target : Resource) (resp : TokenExchangeResponse) : Prop
  /-- A Mint resource, directly: the operator lists the caller on it, and the user's grant to the
  token's client covers every issued scope. -/
  | mint (c : AccessTokenClaims) (g : ConsentGrant) (hkind : target.isMint = true)
      (hissued : resp.accessToken = .minted c)
      (hlisted : req.clientID ∈ target.policy.exchangeAllowedClientIDs ∨
        req.clientID ∈ target.policy.runtimeClientIDs)
      (hgrant : LiveGrant w claims.subject claims.clientID target.id g)
      (hcovers : ∀ sc ∈ Text.fields c.scope, sc ∈ g.scopes)
  /-- Through a fronting link from a Mint resource in the token's audience: the operator lists the
  caller on the target or as a runtime client of the source. -/
  | fronted (source : Resource) (link : FrontingLink) (hsource : source.isMint = true)
      (haudience : ∃ aud ∈ claims.audience, ResourceRegistry.resolve aud w = .ok source)
      (hlink : FrontingLinkStore.get source.slug target.slug w = .ok link)
      (hlisted : req.clientID ∈ target.policy.exchangeAllowedClientIDs ∨
        req.clientID ∈ source.policy.runtimeClientIDs)
  /-- A Broker resource, directly: the caller acts as a Mint resource, and the user's grant to the
  token's client on *that* resource covers every scope that was asked for and vended. -/
  | broker (actor : Resource) (g : ConsentGrant) (row : Issuance) (hkind : target.isBroker = true)
      (hactor : actor.isMint = true)
      (hmatch : RuntimeMatch w req.clientID actor ∨ SlugMatch w req.clientID actor)
      (hgrant : LiveGrant w claims.subject claims.clientID actor.id g)
      (hrow : row ∈ w'.issuances ∧ row.resourceID = target.id ∧ row.clientID = req.clientID)
      (hasked : Text.fields req.scope ≠ [] → row.scopes = Text.fields req.scope)
      (hcovers : ∀ sc ∈ row.scopes, sc ∈ g.scopes)

theorem CallerAuthority.of_quiet {u w' : World} {req : TokenExchangeRequest}
    {claims : AccessTokenClaims} {target : Resource} {resp : TokenExchangeResponse} (hu : w.Quiet u)
    (h : CallerAuthority u w' req claims target resp) :
      CallerAuthority w w' req claims target resp := by
  obtain ⟨_, _, _, -, rfl⟩ := hu
  cases h with
  | mint c g hkind hissued hlisted hgrant hcovers =>
    exact .mint c g hkind hissued hlisted ⟨hgrant.mem, hgrant.isFor, hgrant.live⟩ hcovers
  | fronted source link hsource haudience hlink hlisted =>
    exact .fronted source link hsource haudience hlink hlisted
  | broker actor g row hkind hactor hmatch hgrant hrow hasked hcovers =>
    exact .broker actor g row hkind hactor hmatch
      ⟨hgrant.mem, hgrant.isFor, hgrant.live⟩ hrow hasked hcovers

/-! ### Which resource the caller acts as -/

theorem RuntimeMatch.of_find {r : Resource}
    (h : ResourceStore.findByRuntimeClientID clientID w = .ok r) : RuntimeMatch w clientID r := by
  unfold ResourceStore.findByRuntimeClientID at h
  split at h
  · cases h
  · split at h
    · cases h
    · rename_i r' hmatch
      obtain rfl : r' = r := Except.ok.inj h
      exact eq_singleton_of_take_two hmatch
    · cases h

theorem SlugMatch.of_resolve {r : Resource} {e : Err}
    (hnone : ResourceStore.findByRuntimeClientID clientID w = .error e)
    (he : e.is .resourceNotFound = true) (h : ResourceRegistry.resolve clientID w = .ok r) :
    SlugMatch w clientID r := by
  have hne : clientID ≠ "" := (ResourceRegistry.mem_of_resolve_ok h).2.2
  refine ⟨fun r' hr' hlisted => ?_, ?_⟩
  · unfold ResourceStore.findByRuntimeClientID at hnone
    simp only [beq_iff_eq, hne, if_false] at hnone
    split at hnone
    · rename_i hnil
      have hmem : r' ∈ w.resources.filter fun r => r.policy.runtimeClientIDs.contains clientID := by
        simpa [hr'] using hlisted
      rw [List.take_eq_nil_iff] at hnil
      rw [hnil.resolve_left (by decide)] at hmem
      cases hmem
    · cases hnone
    · rw [← Except.error.inj hnone] at he
      exact absurd he (by decide)
  · exact (ResourceRegistry.filter_of_resolve_ok h).2

namespace TokenExchange

variable {env : Env} {req : TokenExchangeRequest} {claims : AccessTokenClaims} {target : Resource}
  {i : ReqID} {faulty : Prop} {s : World}

theorem ensures_resolveActorMCP (clientID : String) :
    Ensures (solo i faulty) i (fun actor t => s.Quiet t ∧
      (RuntimeMatch s clientID actor ∨ SlugMatch s clientID actor))
        (resolveActorMCP clientID) s := by
  have hC := tolerant_solo i faulty
  unfold resolveActorMCP
  refine .bind (hC.attempt_fetch trivial fun r hr t hst _ => ?_)
  cases r with
  | ok actor => exact ⟨hst rfl, .inl (.of_find (attempt_ok hr))⟩
  | error e =>
    simp only
    split
    · rename_i he
      have hnone : ResourceStore.findByRuntimeClientID clientID s = .error e := by
        rcases hr with hr | ⟨hr, -⟩
        · exact hr.symm
        · rw [Except.error.inj hr] at he
          exact absurd he (by decide)
      refine .bind (hC.attempt_fetch trivial fun r' hr' t' htt' _ => ?_)
      refine Ensures.ofExcept fun actor hactor => ⟨World.Quiet.trans (hst rfl) (htt' rfl), .inr ?_⟩
      rw [mapError_eq_ok] at hactor
      subst hactor
      obtain ⟨_, _, _, -, rfl⟩ := hst rfl
      exact .of_resolve hnone he (attempt_ok hr')
    · trivial

/-- A vended token leaves an audit row with the scopes that were vended. -/
theorem ensures_brokerIssue (request : BrokerIssueRequest) :
    Ensures (solo i faulty) i (fun _ t => ∃ row ∈ t.issuances, row.resourceID =
      request.resource.id ∧ row.clientID = request.actorClientID ∧ row.scopes = request.scopes)
      (BrokerIssuer.issue env i request) s := by
  have hC := tolerant_solo i faulty
  unfold BrokerIssuer.issue
  refine hC.pass (each_clear env request) trivial fun cleared t₁ _ _ => ?_
  refine hC.pass each_timeNow trivial fun now₀ t₂ _ _ => ?_
  refine .bindOfExcept fun vended _ => ?_
  refine hC.pass (each_persistRotation _ _ _) trivial fun _ t₃ _ _ => ?_
  refine hC.pass each_timeNow trivial fun now t₄ _ _ => ?_
  refine hC.pass (each_generateRandomString _ _) trivial fun id t₅ _ _ => ?_
  refine .bind (ensures_wrapErr (Ensures.exec (fun _ => ⟨trivial, fun h => absurd rfl h⟩) ?_))
  intro _ hok _ t₆ hst _
  refine ⟨BrokerIssuer.issuanceRow request id now vended.expiresIn, ?_, rfl, rfl, rfl⟩
  have hmem : BrokerIssuer.issuanceRow request id now vended.expiresIn ∈
      (IssuanceStore.insert i (BrokerIssuer.issuanceRow request id now vended.expiresIn)
        t₅).2.issuances := by
    unfold IssuanceStore.insert at hok ⊢
    split at hok
    · cases hok
    · rename_i hnew
      simp [hnew, World.note]
  obtain ⟨_, _, _, -, heq⟩ := hst rfl
  rw [heq]
  exact hmem

theorem brokerScopes_ok {actor : Resource} {attestation : ConsentGrant} {requested : List String}
    (h : brokerScopes req claims target actor attestation = .ok requested) :
    (Text.fields req.scope ≠ [] → requested = Text.fields req.scope) ∧
      ∀ sc ∈ requested, sc ∈ attestation.scopes := by
  unfold brokerScopes at h
  simp only [List.isEmpty_iff] at h
  generalize hlist : (if Text.fields req.scope = [] then
    directBrokerDefaultScopes attestation target (ScopeSet.parse claims.scope)
    else Text.fields req.scope) = list at h
  split at h
  · cases h
  split at h
  · cases h
  rename_i hmissing
  obtain rfl := Except.ok.inj h
  refine ⟨fun hnamed => ?_, scopesNotConsented_eq_nil.mp (by simpa using hmissing)⟩
  rw [← hlist, if_neg hnamed]

theorem ensures_dispatchDirectBroker (hkind : target.isBroker = true) :
    Ensures (solo i faulty) i (fun resp t => CallerAuthority s t req claims target resp)
      (dispatchDirectBroker env i req claims target) s := by
  have hC := tolerant_solo i faulty
  unfold dispatchDirectBroker
  refine .bindOfExcept fun _ _ => ?_
  refine .bind (Safe.attempt (Safe.mono (ensures_resolveActorMCP req.clientID) ?_ fun e t _ => ?_))
  · rintro actor t₁ ⟨h₁, hmatch⟩
    refine Ensures.bindOfExcept fun actor' hactor' => ?_
    obtain rfl : actor = actor' := by simpa using hactor'
    refine .bindFailIf fun hmint => ?_
    refine .bind (ensures_wrapErr (hC.fetch trivial fun found hfound t₂ h₂ _ => ?_))
    refine Ensures.bindOfExcept fun attestation hattestation => ?_
    obtain rfl : found = some attestation := by
      cases found with
      | none => cases hattestation
      | some g => simpa using hattestation
    refine .bindOfExcept fun requested hrequested => ?_
    obtain ⟨hasked, hcovers⟩ := brokerScopes_ok hrequested
    refine hC.pass (each_providerOf _ _) trivial fun provider t₃ _ _ => ?_
    refine hC.pass (each_dpopThumbprint _ _) trivial fun jkt t₄ _ _ => ?_
    refine hC.pass (each_extractAgentIdentityClaims _ _ _) trivial fun agent t₅ _ _ => ?_
    refine .bind (Safe.attempt (Safe.mono (ensures_brokerIssue _) ?_ fun e t _ => ?_))
    · rintro resp t₆ ⟨row, hrow, hresource, hclient, hscopes⟩
      refine Ensures.bindOfExcept fun resp' _ => ?_
      have hgrant : LiveGrant s claims.subject claims.clientID actor.id attestation := by
        obtain ⟨_, _, _, -, rfl⟩ := h₁
        exact .of_get hfound
      exact .broker actor attestation row hkind (by simpa using hmint) hmatch hgrant
        ⟨hrow, hresource, hclient⟩ (fun hne => hscopes.trans (hasked hne)) fun sc hsc =>
          hcovers sc (by rwa [hscopes] at hsc)
    · exact Ensures.bindOfExcept fun _ h => by cases h
  · exact Ensures.bindOfExcept fun _ h => by cases h

theorem mem_of_frontedCallerAuthorized {source : Resource}
    (h : frontedCallerAuthorized source target clientID = true) :
    clientID ∈ target.policy.exchangeAllowedClientIDs ∨
      clientID ∈ source.policy.runtimeClientIDs := by
  simpa [frontedCallerAuthorized] using h

/-- The operator lets the client exchange for the target, and the client has an authority for it. -/
def Cleared (s t : World) (req : TokenExchangeRequest) (claims : AccessTokenClaims)
    (target : Resource) (resp : TokenExchangeResponse) : Prop :=
  operatorAllowsClient target.policy.exchangeAllowedClientIDs req.clientID = true ∧
    CallerAuthority s t req claims target resp

theorem ensures_dispatchBroker (hkind : target.isBroker = true) :
    Ensures (solo i faulty) i (fun resp t => Cleared s t req claims target resp)
      (dispatchBroker env i req claims target) s := by
  have hC := tolerant_solo i faulty
  unfold dispatchBroker
  refine .bindFailIf fun _ => .bindFailIf fun hoperator => ?_
  have hoperator :
    operatorAllowsClient target.policy.exchangeAllowedClientIDs req.clientID = true := by
    simpa using hoperator
  refine .seq (ensures_resolveSourceForFronting hC trivial env claims.audience) ?_
  rintro source t₁ ⟨h₁, -, hsource⟩
  have hdirect : Ensures (solo i faulty) i (fun resp t => Cleared s t req claims target resp)
      (dispatchDirectBroker env i req claims target) t₁ :=
    Ensures.mono (ensures_dispatchDirectBroker hkind) fun resp t h =>
      ⟨hoperator, h.of_quiet (h₁ rfl)⟩
  cases source with
  | none => exact hdirect
  | some source =>
    simp only [dispatchBrokerFrom]
    split
    · exact hdirect
    refine .bind (hC.attempt_fetch trivial fun r hr t₂ h₂ _ => ?_)
    cases r with
    | error e => trivial
    | ok link =>
      obtain ⟨hmint, aud, haud, hresolved⟩ := hsource source rfl
      have hcaller : (dispatchFrontedBroker env i req claims target ⟨source, link⟩).Yields fun _ =>
          frontedCallerAuthorized source target req.clientID = true :=
        Prog.Yields.bind (Prog.yields_failIf fun h =>
          (Prog.yields_true _).mono fun _ _ => by simpa using h)
      refine Ensures.mono (Safe.and_yields (ensures_solo _) hcaller) fun resp t h => ⟨hoperator, ?_⟩
      refine .fronted source link hmint ⟨aud, haud, ?_⟩ ?_ (mem_of_frontedCallerAuthorized h.2)
      · refine hresolved.of_solo fun u hu hread => ?_
        obtain ⟨_, _, _, -, rfl⟩ := hu
        exact hread
      · obtain ⟨_, _, _, -, rfl⟩ := h₁ rfl
        exact attempt_ok hr

theorem frontedCallerAuthorized_of_frontedScope {f : Fronting} {scope : String}
    (h : frontedScope env req claims target f = .ok scope) :
    frontedCallerAuthorized f.source target req.clientID = true := by
  unfold frontedScope at h
  split at h
  · cases h
  · rename_i hcaller
    simpa using hcaller

theorem ensures_dispatchMint_authority (hkind : target.isMint = true)
    (hcross : req.clientID ≠ claims.clientID) :
    Ensures (solo i faulty) i (fun resp t => Cleared s t req claims target resp)
      (dispatchMint env i req claims target) s := by
  refine ensures_dispatchMint (tolerant_solo i faulty) trivial
    fun fronting scope jkt act agent now t hst _ hoperator hfronted hgranted => ?_
  refine .mono ensures_mintAndRelease ?_
  rintro resp t' ⟨c, hissued, hscope, -⟩
  refine ⟨hoperator, ?_⟩
  have hgranted := hgranted.of_solo fun u hu => ScopeGranted.of_quiet hu
  cases hgranted with
  | @fronted f _ hf =>
    have hby := hfronted f rfl
    obtain ⟨aud, haud, hresolved⟩ := hby.source
    refine .fronted f.source f.link hby.mint ⟨aud, haud, ?_⟩ ?_
      (mem_of_frontedCallerAuthorized (frontedCallerAuthorized_of_frontedScope hf))
    · refine hresolved.of_solo fun u hu hread => ?_
      obtain ⟨_, _, _, -, rfl⟩ := hu
      exact hread
    · refine hby.link.of_solo fun u hu hread => ?_
      obtain ⟨_, _, _, -, rfl⟩ := hu
      exact hread
  | selfExchange hself _ _ =>
    -- a self-exchange has one client only
    simp only [isSelfExchange, Bool.and_eq_true, beq_iff_eq] at hself
    exact absurd hself.2 hcross
  | @consented g _ _ hallowed _ hget _ hcovered =>
    refine .mint c g hkind hissued ?_ (.of_get hget) fun sc hsc => hcovered sc ?_
    · simpa [crossClientAllowed, hcross] using hallowed
    · rw [hscope] at hsc
      simpa [mintRequest, fields_join_fields] using hsc

/-- **Only an authorised caller spends someone else's token.** -/
theorem foreign_exchange_authorised {ctx : ReqID} {plan : List Bool} {w w' : World}
    {resp : TokenExchangeResponse} (hsubject : req.subjectToken = some claims)
    (hcross : req.clientID ≠ claims.clientID)
    (hrun : (exchange env ctx req).run plan w = (.ok resp, w')) :
    req.resource ≠ "" ∧ ∃ target, ResourceRegistry.resolve req.resource w = .ok target ∧
      (target.policy.exchangeAllowedClientIDs = [] ∨
        req.clientID ∈ target.policy.exchangeAllowedClientIDs) ∧
      CallerAuthority w w' req claims target resp := by
  have hC := tolerant_solo ctx True
  have hens : Ensures (solo ctx True) ctx (fun resp t => req.resource ≠ "" ∧
      ∃ target, ResourceRegistry.resolve req.resource w = .ok target ∧
        Cleared w t req claims target resp) (exchange env ctx req) w := by
    unfold exchange
    refine .bindOfExcept fun raw hraw => ?_
    obtain rfl : claims = raw := by simpa [hsubject] using hraw
    refine hC.pass (each_authenticateMachine _ _ _) trivial fun client t₁ h₁ _ => ?_
    refine .bindFailIf fun _ => .bindFailIf fun _ => ?_
    refine .seq (Safe.and_yields (hC.quiet (each_acceptSubject env claims) trivial
      fun _ t hst _ => hst) (yields_acceptSubject env claims)) ?_
    rintro claims' t₂ ⟨h₂, rfl⟩
    unfold exchangeFor
    split
    · -- without a resource only the token's own client passes the policy check
      unfold exchangeLegacy
      refine hC.pass (each_verifyActor _ _) trivial fun _ t₃ _ _ => ?_
      refine .bindOfExcept fun _ _ => .bindOfExcept fun _ hpolicy => ?_
      simp [checkPolicy, hcross] at hpolicy
    · rename_i hresource
      refine .bind (hC.attempt_fetch trivial fun r hr t₃ h₃ _ => ?_)
      refine Ensures.bindOfExcept fun target htarget => ?_
      rw [mapError_eq_ok] at htarget
      subst htarget
      have hquiet : w.Quiet t₃ := ((h₁ rfl).trans (h₂ rfl)).trans (h₃ rfl)
      have hresolved : ResourceRegistry.resolve req.resource w = .ok target := by
        obtain ⟨_, _, _, -, rfl⟩ := (h₁ rfl).trans (h₂ rfl)
        exact attempt_ok hr
      unfold handleViaRegistry
      refine hC.pass (each_isFrontedBrokerExchange _ _ _) trivial fun _ t₄ h₄ _ => ?_
      refine .bindOfExcept fun _ _ => ?_
      have hdone : ∀ resp t, Cleared t₄ t req claims' target resp → req.resource ≠ "" ∧
          ∃ target, ResourceRegistry.resolve req.resource w = .ok target ∧
            Cleared w t req claims' target resp := by
        rintro resp t ⟨hoperator, hauthority⟩
        exact ⟨by simpa using hresource, target, hresolved, hoperator,
          hauthority.of_quiet (hquiet.trans (h₄ rfl))⟩
      unfold dispatch
      split
      · rename_i hkind
        exact .mono (ensures_dispatchMint_authority (by simp [Resource.isMint, hkind]) hcross) hdone
      · rename_i hkind
        exact .mono (ensures_dispatchBroker (by simp [Resource.isBroker, hkind])) hdone
  obtain ⟨hne, target, hresolved, hoperator, hauthority⟩ := post_of_run hrun hens
  refine ⟨hne, target, hresolved, ?_, hauthority⟩
  simpa [operatorAllowsClient] using hoperator

/-! ### Runs -/

def foreignToken : AccessTokenClaims :=
  { Sample.portalToken none with clientID := "agent" }

/-- The portal's client exchanges it for the archive behind the portal. -/
theorem foreign_exchange_authorised_portal : ∃ resp w' target,
    (exchange Env.plain 0 (Sample.exchange foreignToken none "archive" "")).run []
        (Sample.archiveWorld [foreignToken]) = (.ok resp, w') ∧
      ResourceRegistry.resolve "archive" (Sample.archiveWorld [foreignToken]) = .ok target ∧
      (target.policy.exchangeAllowedClientIDs = [] ∨
        "app" ∈ target.policy.exchangeAllowedClientIDs) ∧
      CallerAuthority (Sample.archiveWorld [foreignToken]) w'
        (Sample.exchange foreignToken none "archive" "") foreignToken target resp := by
  have hrun : (exchange Env.plain 0 (Sample.exchange foreignToken none "archive" "")).run []
      (Sample.archiveWorld [foreignToken]) = (.ok _, _) := rfl
  have hsubject : (Sample.exchange foreignToken none "archive" "").subjectToken =
    some foreignToken := rfl
  obtain ⟨-, target, h⟩ := foreign_exchange_authorised hsubject (by decide) hrun
  exact ⟨_, _, target, hrun, h⟩

/-- A mailbox at an upstream provider. -/
def mailbox : Resource :=
  ⟨"r4", "mailbox", "https://mailbox", .broker, "p", [⟨"mail:read", "mail.readonly"⟩], ⟨[], [], []⟩⟩

/-- A service that the client `app` is named after, and that lists no runtime client. -/
def appService : Resource :=
  ⟨"r5", "app", "https://app", .mint, "", [⟨"mail:read", ""⟩], ⟨[], [], []⟩⟩

/-- The user connected the mailbox, and let the agent use the service. -/
def mailboxWorld : World :=
  { Sample.world [] with
    resources := [mailbox, appService]
    brokerProviders := [⟨"p", "mail", "oauth"⟩]
    brokerGrants := [⟨"b", "user", "p", "credential", ["mail.readonly"], 1, none⟩]
    consentGrants := [⟨"g", "user", "agent", "r5", ["mail:read"], none⟩]
    released := [agentMailToken] }
where
  agentMailToken : AccessTokenClaims :=
    ⟨"https://as", "user", ["https://as"], "agent", "mail:read", "t", 900, 2000, 900,
      none, none, "", []⟩

/-- A deployment with an upstream that answers. -/
def vending : Env :=
  { Env.plain with
    adapterRegistered := fun protocol => protocol == "oauth"
    vend := fun _ _ _ _ _ => .ok ⟨"upstream token", 3600, none⟩ }

/-- **The retired convention still authorises.** The client `app` exchanges the agent's token for a
token of the mailbox, although no list of any resource names it: it is taken for the service of that
name. -/
theorem unlisted_caller_vends : ∃ resp,
    ((exchange vending 0 (Sample.exchange mailboxWorld.agentMailToken none "mailbox" "")).run []
      mailboxWorld).1 = .ok resp ∧ resp.accessToken = .vended "upstream token" ∧
    ResourceRegistry.resolve "mailbox" mailboxWorld = .ok mailbox ∧
    mailboxWorld.agentMailToken.clientID ≠ "app" ∧
    ∀ r ∈ mailboxWorld.resources, "app" ∉ r.policy.exchangeAllowedClientIDs ∧
      "app" ∉ r.policy.runtimeClientIDs :=
  ⟨_, rfl, rfl, rfl, by decide, by decide⟩

end TokenExchange

end AuthServer
