import AuthServer.Service.Write

/-!
# What each method writes

`Uses` says that a step is quiet or is a write of a given kind, and the lemmas below say of every
service method which kinds it uses. A property that does not depend on some kind of write is thereby
kept by all methods that use no other.
-/

namespace AuthServer

open Interleave

/-- A step that is quiet, or a write of one of the given kinds. -/
def Uses (env : Env) (ctx : ReqID) (kinds : Write → Prop) (w w' : World) : Prop :=
  w.Quiet w' ∨ ∃ x, kinds x ∧ w' = x.run env ctx w

variable {env : Env} {ctx : ReqID} {kinds : Write → Prop} {α : Type} {kinds' : Write → Prop}

theorem Uses.mono {w w' : World} (h : Uses env ctx kinds w w')
    (hk : ∀ x, kinds x → kinds' x) : Uses env ctx kinds' w w' := by
  rcases h with h | ⟨x, hx, rfl⟩
  · exact .inl h
  · exact .inr ⟨x, hk x hx, rfl⟩

variable {p : Svc α}

theorem uses_of_quiet (hp : p.Each World.Quiet) : p.Each (Uses env ctx kinds) :=
  hp.mono fun _ _ h => .inl h

theorem uses_after {β : Type} {p : Svc β} {g : β → Svc α} (hp : p.Each World.Quiet)
    (hg : ∀ b, (g b).Each (Uses env ctx kinds)) : (p >>= g).Each (Uses env ctx kinds) :=
  (uses_of_quiet hp).bind hg

theorem uses_mono (hp : p.Each (Uses env ctx kinds))
    (hk : ∀ x, kinds x → kinds' x) : p.Each (Uses env ctx kinds') :=
  hp.mono fun _ _ h => h.mono hk

theorem uses_fetch {f : World → Except Err α} : (fetch f).Each (Uses env ctx kinds) :=
  uses_of_quiet each_fetch

theorem uses_store {f : Call α} (x : Write) (hx : kinds x) (hf : ∀ w, (f w).2 = x.run env ctx w) :
    (store f).Each (Uses env ctx kinds) :=
  Prog.each_exec fun w => .inr ⟨x, hx, hf w⟩

theorem uses_release {c : AccessTokenClaims} {e : Event} (hx : kinds (.release c e)) :
    (release ctx c e).Each (Uses env ctx kinds) :=
  Prog.each_step fun _ => .inr ⟨.release c e, hx, rfl⟩

/-! ### Issuing -/

theorem uses_issue {req : IssueRequest} (h : ∀ i, kinds (.insertIssuance i)) :
    (MintIssuer.issue env ctx req).Each (Uses env ctx kinds) := by
  refine uses_after each_timeNow fun now =>
    uses_after (each_generateRandomString env ctx) fun jti =>
    .ofExcept fun signed => Prog.Each.bind ?_ fun _ => Prog.each_pure _
  unfold MintIssuer.recordIssuance
  split
  · exact each_wrapErr (uses_store (.insertIssuance _) (h _) fun _ => rfl)
  · trivial

theorem each_updateWithVersion (g : BrokerGrant) :
    (store (BrokerGrantStore.updateWithVersion g)).Each World.Quiet := by
  refine Prog.each_exec fun w => ?_
  unfold BrokerGrantStore.updateWithVersion
  split
  · exact ⟨w.drawn, w.dpopJTIs, _, fun _ => le_rfl, rfl⟩
  · exact .refl w

theorem each_persistRotation (owner : String) (grant : BrokerGrant) (cred : Option String) :
    (BrokerIssuer.persistRotation env owner grant cred).Each World.Quiet := by
  cases cred with
  | none => trivial
  | some cred =>
    simp only [BrokerIssuer.persistRotation]
    split
    · trivial
    · refine (each_updateWithVersion _).attempt.bind fun r => ?_
      cases r with
      | ok u => trivial
      | error e => exact each_ite trivial trivial

theorem each_clear (env : Env) (req : BrokerIssueRequest) :
    (BrokerIssuer.clear env req).Each World.Quiet :=
  .failIf <| (each_wrapErr each_fetch).bind fun _ => .ofExcept fun _ =>
    .ofExcept fun _ => .failIf <|
    .ofExcept fun _ => .failIf <| Prog.each_pure _

theorem uses_brokerIssue {req : BrokerIssueRequest} (h : ∀ i, kinds (.insertIssuance i)) :
    (BrokerIssuer.issue env ctx req).Each (Uses env ctx kinds) := by
  refine uses_after (each_clear env req) fun cleared => uses_after each_timeNow fun now₀ =>
    .ofExcept fun vended => uses_after (each_persistRotation _ _ _) fun _ =>
    uses_after each_timeNow fun now =>
    uses_after (each_generateRandomString env ctx) fun id => Prog.Each.bind ?_ fun _ =>
    Prog.each_pure _
  exact each_wrapErr (uses_store (.insertIssuance _) (h _) fun _ => rfl)

/-! ### Exchange -/

def Write.ofExchange : Write → Prop
  | insertIssuance _ => True
  | revokeIssuance _ => True
  | saveMachineToken _ => True
  | release _ (.exchanged _ _ _) => True
  | _ => False

variable {id : String}

namespace TokenExchange

variable {claims : AccessTokenClaims} {target : Resource}

theorem uses_refuseIfRevokedSinceCheck {consentGated : Bool}
    (h : ∀ id, kinds (.revokeIssuance id)) :
    (refuseIfRevokedSinceCheck claims target consentGated id).Each (Uses env ctx kinds) := by
  have hgrant : (recheckGrant claims target).Each World.Quiet :=
    each_fetch.attempt.bind fun _ => Prog.each_pure _
  have hsubject : (recheckSubject claims).Each World.Quiet := by
    unfold recheckSubject
    exact each_ite trivial (each_fetch.attempt.bind fun _ => Prog.each_pure _)
  have hrecheck : (recheck claims target consentGated).Each World.Quiet := by
    refine hsubject.bind fun r => ?_
    cases r with
    | some e => trivial
    | none => exact each_ite hgrant trivial
  refine uses_after hrecheck fun refusal => ?_
  cases refusal with
  | none => trivial
  | some e =>
    exact (uses_store (.revokeIssuance id) (h id) fun _ => rfl).attempt.bind fun _ => trivial

variable {req : TokenExchangeRequest}

theorem uses_dispatchMint :
    (dispatchMint env ctx req claims target).Each (Uses env ctx Write.ofExchange) := by
  refine .failIf <| uses_after (each_resolveSourceForFronting _ _) fun source =>
    uses_after (each_mintFronting _ _) fun fronting =>
    uses_after (each_authorizeScope _ _ _ _ _) fun scope =>
    uses_after (each_verifyActor _ _) fun actor =>
    uses_after (each_mintAct _ _ _ _) fun act => .failIf <|
    uses_after (each_exchangeThumbprint _ _ _) fun jkt =>
    uses_after (each_extractAgentIdentityClaims _ _ _) fun agent =>
    uses_after each_timeNow fun now => ?_
  exact (uses_issue fun _ => trivial).bind fun resp =>
    (uses_refuseIfRevokedSinceCheck fun _ => trivial).bind fun _ =>
    (uses_release trivial).bind fun _ => Prog.each_pure _

theorem uses_dispatchDirectBroker :
    (dispatchDirectBroker env ctx req claims target).Each (Uses env ctx Write.ofExchange) :=
  .ofExcept fun _ => (uses_of_quiet (each_resolveActorMCP _)).attempt.bind fun _ =>
    .ofExcept fun _ => .failIf <| (each_wrapErr uses_fetch).bind fun _ => .ofExcept fun _ =>
    .ofExcept fun _ => uses_after (each_providerOf _ _) fun _ =>
    uses_after (each_dpopThumbprint _ _) fun _ =>
    uses_after (each_extractAgentIdentityClaims _ _ _) fun _ =>
    (uses_brokerIssue fun _ => trivial).attempt.bind fun _ => .ofExcept fun _ => Prog.each_pure _

theorem uses_dispatchFrontedBroker {f : Fronting} :
    (dispatchFrontedBroker env ctx req claims target f).Each (Uses env ctx Write.ofExchange) :=
  .failIf <| uses_after (each_providerOf _ _) fun _ =>
    .ofExcept fun _ => uses_after (each_extractAgentIdentityClaims _ _ _) fun _ =>
    uses_after (each_exchangeThumbprint _ _ _) fun _ =>
    (uses_brokerIssue fun _ => trivial).bind fun _ => Prog.each_pure _

theorem uses_dispatchBroker :
    (dispatchBroker env ctx req claims target).Each (Uses env ctx Write.ofExchange) := by
  refine .failIf <| .failIf <| uses_after (each_resolveSourceForFronting _ _) fun source => ?_
  cases source with
  | none => exact uses_dispatchDirectBroker
  | some src =>
    refine each_ite uses_dispatchDirectBroker (uses_fetch.attempt.bind fun r => ?_)
    cases r with
    | ok link => exact uses_dispatchFrontedBroker
    | error e => trivial

theorem uses_exchangeLegacy {actingClient : Client} :
    (exchangeLegacy env ctx req actingClient claims).Each (Uses env ctx Write.ofExchange) := by
  refine uses_after (each_verifyActor _ _) fun actor => .ofExcept fun scopes =>
    .ofExcept fun _ => .failIf <|
    .failIf <| uses_after (each_dpopThumbprint _ _) fun jkt =>
    uses_after each_timeNow fun now =>
    uses_after (each_generateRandomString _ _) fun jti =>
    uses_after (each_extractAgentIdentityClaims _ _ _) fun agent =>
    .ofExcept fun signed => Prog.Each.bind ?_ fun _ =>
    (uses_release trivial).bind fun _ => Prog.each_pure _
  exact each_wrapErr (uses_store (.saveMachineToken _) trivial fun _ => rfl)

theorem uses_exchange : (exchange env ctx req).Each (Uses env ctx Write.ofExchange) := by
  refine .ofExcept fun raw => uses_after (each_authenticateMachine _ _ _) fun actingClient =>
    .failIf <| .failIf <| uses_after (each_acceptSubject _ _) fun claims => ?_
  refine each_ite uses_exchangeLegacy (uses_fetch.attempt.bind fun r =>
    .ofExcept fun target => uses_after (each_isFrontedBrokerExchange _ _ _) fun fronted =>
    .ofExcept fun _ => ?_)
  unfold dispatch
  split
  · exact uses_dispatchMint
  · exact uses_dispatchBroker

end TokenExchange

/-! ### Redemption and refresh -/

/-- The writes of the response to a replay. -/
def Write.ofReuse : Write → Prop
  | revokeFamily _ => True
  | denylistFamily _ => True
  | _ => False

def Write.ofRedemption : Write → Prop
  | consumeCode _ => True
  | revokeFamily _ => True
  | denylistFamily _ => True
  | insertIssuance _ => True
  | openFamily _ _ _ _ _ _ => True
  | release _ (.redeemed _ _) => True
  | _ => False

/-- The writes of a refresh after the presented token was consumed. -/
def Write.ofRotation : Write → Prop
  | insertIssuance _ => True
  | trackJTI _ _ _ => True
  | revokeIssuance _ => True
  | createRefreshToken _ _ _ => True
  | release _ (.refreshed _ _) => True
  | _ => False

def Write.ofRefresh : Write → Prop
  | consumeRefreshToken _ => True
  | revokeFamily _ => True
  | denylistFamily _ => True
  | insertIssuance _ => True
  | trackJTI _ _ _ => True
  | revokeIssuance _ => True
  | createRefreshToken _ _ _ => True
  | release _ (.refreshed _ _) => True
  | _ => False

variable {clientID : String} {c : Client}

namespace TokenService

theorem each_buildMintRequest (now expiry : Time) (p : MintParams) :
    (buildMintRequest now expiry p).Each World.Quiet :=
  (each_resolveForIssuance _).bind fun _ => Prog.each_pure _

theorem uses_runReuseHalves {familyID : String} :
    (runReuseHalves ctx familyID).Each (Uses env ctx Write.ofReuse) :=
  (uses_store (.revokeFamily familyID) trivial fun _ => rfl).attempt.bind fun _ =>
    (uses_store (.denylistFamily familyID) trivial fun _ => rfl).attempt.bind fun _ =>
    Prog.each_pure _

variable {sess : AuthSession}

theorem uses_handleCodeReuse {verifier : String} :
    (handleCodeReuse env ctx sess verifier clientID).Each (Uses env ctx Write.ofReuse) := by
  refine each_ite (uses_fetch.attempt.bind fun r => ?_) trivial
  cases r with
  | ok fam =>
    exact each_ite (uses_runReuseHalves.bind fun _ => Prog.each_pure _)
      ((uses_store (.denylistFamily _) trivial fun _ => rfl).attempt.bind fun _ => Prog.each_pure _)
  | error e => trivial

variable {resp : IssueResponse} {now expiry : Time}

theorem uses_openFamily :
    (openFamily env ctx sess c resp now expiry).Each (Uses env ctx Write.ofRedemption) := by
  have hanswers : answers.Each (Uses env ctx Write.ofRedemption) :=
    ⟨fun w => .inl (.refl w), fun _ => trivial⟩
  refine uses_after (each_generateRandomString _ _) fun familyID =>
    hanswers.bind fun tracked => Prog.Each.bind ?_ fun refreshPlain =>
    (uses_release trivial).bind fun _ => Prog.each_pure _
  exact uses_store (.openFamily _ _ _ _ _ _) trivial fun _ => rfl

theorem uses_redeem {req : ExchangeCodeRequest} :
    (redeem env ctx req sess).Each (Uses env ctx Write.ofRedemption) :=
  uses_after each_timeNow fun _ => .failIf <| .failIf <| .failIf <|
    uses_after (each_authenticateClient _ _ _) fun _ => .failIf <|
    uses_after (each_validateRequestedResource _ _ _) fun _ =>
    uses_after (each_checkSubject _ _) fun _ =>
    uses_after (each_dpopThumbprint _ _) fun _ =>
    uses_after each_timeNow fun _ =>
    uses_after (each_buildMintRequest _ _ _) fun _ =>
    (uses_issue fun _ => trivial).bind fun _ => uses_openFamily

theorem uses_exchangeCode {req : ExchangeCodeRequest} :
    (exchangeCode env ctx req).Each (Uses env ctx Write.ofRedemption) := by
  have hreuse : ∀ x, Write.ofReuse x → Write.ofRedemption x := by
    intro x hx
    cases x <;> trivial
  refine (uses_store (.consumeCode _) trivial fun _ => rfl).bind fun use =>
    Prog.Each.bind ?_ fun sess => uses_redeem
  cases use with
  | consumed sess => trivial
  | alreadyConsumed sess =>
    exact (uses_mono uses_handleCodeReuse hreuse).bind fun _ => trivial

variable {family : Family} {scope : String}

theorem uses_storeSuccessor :
    (storeSuccessor env ctx family scope resp now expiry).Each (Uses env ctx Write.ofRotation) := by
  refine .bind ?_ fun _ => Prog.Each.bind ?_ fun family' => Prog.Each.bind ?_ fun _ =>
    (uses_release trivial).bind fun _ => Prog.each_pure _
  · exact (uses_store (.trackJTI _ _ _) trivial fun _ => rfl).attempt.bind fun _ => Prog.each_pure _
  · exact (each_wrapErr uses_fetch).bind fun family => each_ite trivial
      ((uses_store (.revokeIssuance _) trivial fun _ => rfl).attempt.bind fun _ => trivial)
  · exact uses_store (.createRefreshToken _ _ _) trivial fun _ => rfl

variable {req : RefreshTokenRequest}

theorem uses_rotate :
    (rotate env ctx req family c scope).Each (Uses env ctx Write.ofRotation) :=
  uses_after (each_checkSubject _ _) fun _ =>
    uses_after (each_dpopThumbprint _ _) fun _ =>
    uses_after each_timeNow fun _ =>
    uses_after (each_buildMintRequest _ _ _) fun _ =>
    (uses_issue fun _ => trivial).bind fun _ => uses_storeSuccessor

theorem each_admitRefresh : (admitRefresh env req).Each World.Quiet :=
  each_fetch.attempt.bind fun _ => .ofExcept fun _ => each_timeNow.bind fun _ =>
    .failIf <| (each_wrapErr each_fetch).bind fun _ =>
    .failIf <| .failIf <| (each_authenticateClient _ _ _).bind fun _ => .failIf <|
    (each_validateRequestedResource _ _ _).bind fun _ => .ofExcept fun _ =>
    (each_wrapErr each_fetch).bind fun _ => Prog.each_pure _

theorem uses_consumeOrRevokeFamily {rt : RefreshToken} :
    (consumeOrRevokeFamily ctx rt).Each (Uses env ctx Write.ofRefresh) := by
  have hreuse : ∀ x, Write.ofReuse x → Write.ofRefresh x := by
    intro x hx
    cases x <;> trivial
  refine (uses_store (.consumeRefreshToken rt.id) trivial fun _ => rfl).attempt.bind fun r => ?_
  cases r with
  | ok t => trivial
  | error e => exact each_ite ((uses_mono uses_runReuseHalves hreuse).bind fun _ => trivial) trivial

theorem uses_refreshToken :
    (refreshToken env ctx req).Each (Uses env ctx Write.ofRefresh) := by
  have hrotation : ∀ x, Write.ofRotation x → Write.ofRefresh x := by
    intro x hx
    cases x with
    | release c e => cases e <;> trivial
    | _ => trivial
  exact uses_after each_admitRefresh fun a =>
    uses_consumeOrRevokeFamily.bind fun _ => uses_mono uses_rotate hrotation

end TokenService

/-! ### The grants without a user -/

/-- The writes of the grants without a user in the loop. -/
def Write.ofMachineGrant : Write → Prop
  | consumeAssertion _ _ => True
  | insertIssuance _ => True
  | saveMachineToken _ => True
  | release _ (.granted _) => True
  | _ => False

theorem MachineIssue.uses_issue {detail : String} {lifetime : Time} {m : MachineIssue} :
    (m.issue env ctx detail lifetime).Each (Uses env ctx Write.ofMachineGrant) := by
  have hrecord : ∀ agent, (m.record ctx detail agent).Each (Uses env ctx Write.ofMachineGrant) := by
    intro agent
    refine each_ite trivial (uses_fetch.attempt.bind fun r => ?_)
    cases r with
    | ok res => exact each_wrapErr (uses_store (.insertIssuance _) trivial fun _ => rfl)
    | error e => trivial
  exact uses_after (each_extractAgentIdentityClaims _ _ _) fun _ =>
    .ofExcept fun _ => (hrecord _).bind fun _ =>
    (each_wrapErr (uses_store (.saveMachineToken _) trivial fun _ => rfl)).bind fun _ =>
    (uses_release trivial).bind fun _ => Prog.each_pure _

theorem ClientCredentialsService.each_resolveCatalog (resource : String) :
    (resolveCatalog env resource).Each World.Quiet := by
  refine each_ite trivial (Prog.Each.bind ((each_wrapErr (each_wrapErr each_fetch)).bind fun _ =>
    Prog.each_pure _) fun info => ?_)
  cases info <;> trivial

theorem ClientCredentialsService.uses_exchange {req : ClientCredentialsRequest} :
    (exchange env ctx req).Each (Uses env ctx Write.ofMachineGrant) :=
  uses_after (each_authenticateMachine _ _ _) fun _ => .failIf <|
    uses_after (each_resolveCatalog _) fun _ => .ofExcept fun _ =>
    uses_after (each_dpopThumbprint _ _) fun _ => uses_after each_timeNow fun _ =>
    uses_after (each_generateRandomString _ _) fun _ => MachineIssue.uses_issue

theorem SubjectMappingService.each_resolveSubject (idpID idpIssuer idpSubject : String)
    (mode : SubjectMode) : (resolveSubject idpID idpIssuer idpSubject mode).Each World.Quiet := by
  refine each_fetch.attempt.bind fun r => ?_
  cases r with
  | ok m =>
    refine each_ite (Prog.Each.bind (each_fetch.attempt.bind fun u => ?_) fun _ =>
      Prog.each_pure _) trivial
    cases u with
    | ok user => exact Prog.each_failIf _ _
    | error e => exact each_ite trivial trivial
  | error e => cases mode <;> trivial

theorem XAAPolicyService.each_evaluatePolicy (idpID : String) (assertion : IdentityAssertion)
    (requested : ScopeSet) (resource : String) :
    (evaluatePolicy env idpID assertion requested resource).Each World.Quiet :=
  (each_wrapErr each_fetch).bind fun _ => Prog.each_ofExcept _

theorem JWTBearerService.each_tokenSubject (idp : TrustedIDP) (assertion : IdentityAssertion) :
    (tokenSubject env idp assertion).Each World.Quiet :=
  each_ite (SubjectMappingService.each_resolveSubject _ _ _ _) trivial

theorem JWTBearerService.each_lookupIDP (issuer : String) :
    (lookupIDP env issuer).Each World.Quiet :=
  each_fetch.attempt.bind fun _ => .ofExcept fun _ => .failIf <| Prog.each_pure _

theorem JWTBearerService.each_validateAssertion (idp : TrustedIDP) (a : SignedAssertion) :
    (validateAssertion env idp a).Each World.Quiet :=
  each_timeNow.bind fun _ => .ofExcept fun _ => each_timeNow.bind fun _ =>
    Prog.each_ofExcept _

theorem JWTBearerService.each_checkResource (resource : String) :
    (checkResource env resource).Each World.Quiet :=
  each_runIf (Prog.Each.bind (each_fetch.attempt.bind fun _ => Prog.each_pure _) fun _ =>
    Prog.each_failIf _ _)

variable {req : JWTBearerRequest}

theorem JWTBearerService.uses_grantAsserted {idp : TrustedIDP}
    {assertion : IdentityAssertion} {resource : String} :
    (grantAsserted env ctx req c idp assertion resource).Each (Uses env ctx Write.ofMachineGrant) :=
  ((uses_store (.consumeAssertion _ _) trivial fun _ => rfl).attempt.bind fun _ =>
      Prog.each_ofExcept _).bind fun _ => .ofExcept fun _ =>
        uses_after (each_checkResource _) fun _ =>
    uses_after (XAAPolicyService.each_evaluatePolicy _ _ _ _) fun _ =>
    uses_after (each_dpopThumbprint _ _) fun _ => uses_after each_timeNow fun _ =>
    uses_after (each_generateRandomString _ _) fun _ =>
    uses_after (each_tokenSubject _ _) fun _ =>
    MachineIssue.uses_issue

theorem JWTBearerService.uses_grantJWTBearer :
    (grantJWTBearer env ctx req).Each (Uses env ctx Write.ofMachineGrant) :=
  uses_after (each_authenticateMachine _ _ _) fun _ => .failIf <| .ofExcept fun _ =>
    .ofExcept fun _ =>
    uses_after (each_lookupIDP _) fun _ =>
    uses_after (each_validateAssertion _ _) fun _ =>
    .failIf <| .ofExcept fun _ => uses_grantAsserted

/-! ### Authorization and consent -/

def Write.ofAuthorization : Write → Prop
  | createSession _ _ => True
  | updateCode _ _ _ => True
  | _ => False

def Write.ofConsent : Write → Prop
  | approve _ _ _ _ _ => True
  | _ => False

theorem AuthorizeService.uses_completeAuthorization {sessionID : String} :
    (completeAuthorization env ctx sessionID).Each (Uses env ctx Write.ofAuthorization) :=
  (each_wrapErr uses_fetch).bind fun _ => uses_after each_timeNow fun _ =>
    .failIf <| uses_after (each_generateRandomString _ _) fun _ =>
    (each_wrapErr (uses_store (.updateCode _ _ _) trivial fun _ => rfl)).bind fun _ =>
    Prog.each_pure _

theorem AuthorizeService.uses_startFor {req : AuthorizeRequest} :
    (startFor env ctx req c).Each (Uses env ctx Write.ofAuthorization) := by
  refine .failIf <| .failIf <| .failIf <| .failIf ?_
  refine uses_after (each_resolveMint _) fun _ => ?_
  refine uses_after (each_requestedScope _ _ _ _) fun _ => .ofExcept fun _ => ?_
  refine uses_after (each_validateScopes _ _ _) fun _ => ?_
  refine uses_after (each_consentCovers _ _ _ _) fun _ => ?_
  refine uses_after each_timeNow fun _ => uses_after (each_generateRandomString _ _) fun _ => ?_
  refine (each_wrapErr (uses_store (.createSession _ _) trivial fun _ => rfl)).bind fun _ => ?_
  exact Prog.each_pure _

theorem AuthorizeService.uses_handleAuthorize {req : AuthorizeRequest} :
    (handleAuthorize env ctx req).Each (Uses env ctx Write.ofAuthorization) := by
  have hfail : (Prog.fail (.sentinel .invalidClient) : Svc Client).Each World.Quiet := trivial
  have hstart : (startAuthorization env (Prog.fail (.sentinel .invalidClient)) ctx req).Each
      (Uses env ctx Write.ofAuthorization) :=
    .failIf <| uses_after (each_lookupClient hfail _) fun _ => uses_startFor
  refine hstart.bind fun _ => each_ite trivial ?_
  exact uses_completeAuthorization.bind fun _ => Prog.each_pure _

theorem ConsentService.uses_grantConsent {req : GrantConsentRequest} :
    (grantConsent env ctx req).Each (Uses env ctx Write.ofConsent) := by
  refine (each_wrapErr uses_fetch).bind fun _ => uses_after each_timeNow fun _ =>
    .failIf <| .failIf <| .failIf <| .failIf <| uses_after (each_resolveMint _) fun _ =>
    uses_after (each_generateRandomString _ _) fun _ => Prog.Each.bind ?_ fun _ =>
    Prog.each_pure _
  exact uses_store (.approve _ _ _ _ _) trivial fun _ => rfl

def Write.ofDenial (sessionID : String) : Write → Prop
  | deleteSession id => id = sessionID
  | _ => False

theorem ConsentService.uses_denyConsent {sessionID userID : String} :
    (denyConsent sessionID userID).Each (Uses env ctx (Write.ofDenial sessionID)) := by
  have hdelete : (store (SessionStore.delete sessionID)).Each
      (Uses env ctx (Write.ofDenial sessionID)) :=
    uses_store (.deleteSession sessionID) rfl fun _ => rfl
  refine uses_after each_fetch.attempt fun _ => .failIf ?_
  exact hdelete.attempt.bind fun _ => Prog.each_pure _

/-! ### Administration -/

def Write.ofConsentRevocation : Write → Prop
  | revokeGrant _ => True
  | cascade _ _ _ => True
  | listPage _ _ _ => True
  | revokeFamily _ => True
  | denylistFamily _ => True
  | _ => False

/-- The writes of the second half of a consent revocation, on the families. -/
def Write.ofFamilyCascade : Write → Prop
  | listPage _ _ _ => True
  | revokeFamily _ => True
  | denylistFamily _ => True
  | _ => False

def Write.ofPatch : Write → Prop
  | updateResource _ => True
  | _ => False

def Write.ofRevocation : Write → Prop
  | revokeFamily _ => True
  | revokeFamiliesOfClient _ => True
  | listUser _ => True
  | revokeFamiliesOfUser _ => True
  | denylistFamily _ => True
  | revokeMachineToken _ => True
  | revokeIssuance _ => True
  | _ => False

namespace GrantAdminService

theorem uses_listTargets {userID uri : String} {pages offset : ℕ} {targets : List String} :
    (listTargets ctx userID clientID uri pages offset targets).Each
      (Uses env ctx Write.ofFamilyCascade) := by
  induction pages generalizing offset targets with
  | zero => trivial
  | succ pages ih =>
    exact (each_wrapErr (uses_store (.listPage _ _ _) trivial fun _ => rfl)).bind fun families =>
      each_ite trivial ih

theorem uses_revokeTargets {ids : List String} {revoked : ℕ} :
    (revokeTargets ctx ids revoked).Each (Uses env ctx Write.ofFamilyCascade) := by
  induction ids generalizing revoked with
  | nil => trivial
  | cons id rest ih =>
    refine (uses_store (.revokeFamily id) trivial fun _ => rfl).attempt.bind fun r => ?_
    cases r with
    | error e => trivial
    | ok changed =>
      refine (uses_store (.denylistFamily id) trivial fun _ => rfl).attempt.bind fun d => ?_
      cases d with
      | error e => trivial
      | ok u => exact ih

theorem uses_revokeRefreshFamilies {userID resourceID : String} :
    (revokeRefreshFamilies ctx userID clientID resourceID).Each
      (Uses env ctx Write.ofFamilyCascade) := by
  refine uses_fetch.attempt.bind fun r => ?_
  cases r with
  | error e => trivial
  | ok res =>
    have hbound : (Prog.step fun w : World => (w.families.length, w) : Svc ℕ).Each
        (Uses env ctx Write.ofFamilyCascade) := Prog.each_step fun w => .inl (.refl w)
    refine hbound.bind fun bound => uses_listTargets.attempt.bind fun targets => ?_
    cases targets with
    | error e => trivial
    | ok ids => exact uses_revokeTargets

theorem uses_revokeConsent :
    (revokeConsent ctx id).Each (Uses env ctx Write.ofConsentRevocation) := by
  refine .failIf <| (each_wrapErr uses_fetch).bind fun grant =>
    (each_wrapErr (uses_store (.revokeGrant _) trivial fun _ => rfl)).bind fun _ => ?_
  cases grant with
  | none => trivial
  | some g =>
    refine (uses_store (.cascade _ _ _) trivial fun _ => rfl).attempt.bind fun n =>
      Prog.Each.bind (uses_mono uses_revokeRefreshFamilies fun x hx => ?_) fun f => Prog.each_pure _
    cases x <;> first | exact hx.elim | trivial

end GrantAdminService

namespace ResourceAdminService

theorem each_validateBrokerProviderRef (r : Resource) :
    (validateBrokerProviderRef env r).Each World.Quiet := by
  unfold validateBrokerProviderRef
  exact each_ite (.failIf <| each_fetch.attempt.bind fun _ =>
    Prog.each_ofExcept _) trivial

theorem each_validateClientIDList (field : String) (ids : List String) :
    (validateClientIDList env field ids).Each World.Quiet := by
  induction ids with
  | nil => trivial
  | cons id rest ih =>
    exact .failIf <| each_fetch.attempt.bind fun _ =>
      .ofExcept fun _ => ih

theorem each_checkFronting (p : ResourcePatch) (id : String) (r : Resource) :
    (checkFronting env p id r).Each World.Quiet :=
  each_fetch.bind fun _ =>
    (each_runIf ((each_wrapErr each_fetch).bind fun _ => Prog.each_failIf _ _)).bind fun _ =>
    (each_wrapErr each_fetch).bind fun _ => Prog.each_ofExcept _

theorem uses_patch {p : ResourcePatch} : (patch env id p).Each (Uses env ctx Write.ofPatch) := by
  refine .failIf <| uses_fetch.bind fun row =>
    .ofExcept fun r => each_ite trivial ?_
  refine .ofExcept fun _ =>
    (each_runIf (uses_of_quiet (each_validateBrokerProviderRef _))).bind fun _ =>
    (each_runIf (uses_of_quiet ((each_validateClientIDList _ _).bind fun _ =>
      each_validateClientIDList _ _))).bind fun _ =>
    (each_runIf (uses_fetch.attempt.bind fun _ => Prog.each_ofExcept _)).bind fun _ =>
    uses_after (each_checkFronting _ _ _) fun _ => Prog.Each.bind ?_ fun _ =>
    Prog.each_pure _
  exact uses_store (.updateResource _) trivial fun _ => rfl

end ResourceAdminService

theorem RevocationService.uses_revokeToken {req : RevokeRequest} :
    (revokeToken env ctx req).Each (Uses env ctx Write.ofRevocation) := by
  refine uses_fetch.attempt.bind fun _ => .ofExcept fun _ => .ofExcept fun _ => each_runIf ?_
  cases req.token with
  | access raw =>
    refine uses_fetch.attempt.bind fun verdict => ?_
    split
    · exact each_ite trivial
        ((uses_store (.revokeMachineToken _) trivial fun _ => rfl).attempt.bind fun _ => trivial)
    · trivial
  | refresh plain =>
    refine uses_fetch.attempt.bind fun r => ?_
    cases r with
    | error e => trivial
    | ok rt =>
      refine uses_fetch.attempt.bind fun found => ?_
      cases found with
      | error e => trivial
      | ok family =>
        refine each_ite trivial
          ((uses_store (.revokeFamily _) trivial fun _ => rfl).attempt.bind fun r => ?_)
        cases r with
        | error e => trivial
        | ok b =>
          exact (uses_store (.denylistFamily _) trivial fun _ => rfl).attempt.bind fun _ => trivial

namespace AdminService

theorem uses_revokeToken {jti : String} :
    (revokeToken ctx jti).Each (Uses env ctx Write.ofRevocation) := by
  refine uses_fetch.attempt.bind fun found => ?_
  cases found with
  | ok f =>
    exact (each_wrapErr (uses_store (.revokeFamily _) trivial fun _ => rfl)).bind fun _ =>
      (uses_store (.denylistFamily _) trivial fun _ => rfl).attempt.bind fun _ => trivial
  | error e =>
    refine (each_wrapErr uses_fetch).bind fun found => ?_
    cases found with
    | some mt => exact each_wrapErr (uses_store (.revokeMachineToken _) trivial fun _ => rfl)
    | none => trivial

theorem uses_denylistFamilies {families : List Family} :
    (denylistFamilies ctx families).Each (Uses env ctx Write.ofRevocation) := by
  induction families with
  | nil => trivial
  | cons f rest ih =>
    exact (uses_store (.denylistFamily _) trivial fun _ => rfl).attempt.bind fun _ => ih

theorem uses_forceLogoutUser : (forceLogoutUser ctx id).Each (Uses env ctx Write.ofRevocation) :=
  uses_fetch.bind fun _ =>
    (each_wrapErr (uses_store (.listUser _) trivial fun _ => rfl)).bind fun _ =>
    (each_wrapErr (uses_store (.revokeFamiliesOfUser _) trivial fun _ => rfl)).bind fun _ =>
    uses_denylistFamilies.bind fun _ => Prog.each_pure _

end AdminService

theorem IssuanceAdminService.uses_revoke : (revoke id).Each (Uses env ctx Write.ofRevocation) :=
  .failIf <| (each_wrapErr uses_fetch).bind fun _ =>
    each_wrapErr (uses_store (.revokeIssuance _) trivial fun _ => rfl)

end AuthServer
