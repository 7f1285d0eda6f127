import AuthServer.Service.Uses

/-!
# The server

A request is served by the program of its service method, and the server is the pool of all requests
being served: `Server.start` is the pool before the first store call, and `Pool.exec` runs it under
any interleaving of the calls. Every natural number is the identifier of a request; those that a
schedule does not mention have not been received yet. -/

namespace AuthServer

open Interleave

/-- The requests the server answers, and what else happens to its store. -/
inductive Request
  | authorize (req : AuthorizeRequest)
  | completeAuthorization (sessionID : String)
  | grantConsent (req : GrantConsentRequest)
  | denyConsent (sessionID userID : String)
  | exchangeCode (req : ExchangeCodeRequest)
  | refreshToken (req : RefreshTokenRequest)
  | exchange (req : TokenExchangeRequest)
  | clientCredentials (req : ClientCredentialsRequest)
  | jwtBearer (req : JWTBearerRequest)
  | revokeConsent (id : String)
  | patchResource (id : String) (p : ResourceAdminService.ResourcePatch)
  | revokeToken (req : RevokeRequest)
  | adminRevokeToken (jti : String)
  | forceLogoutUser (userID : String)
  | revokeFamiliesOfClient (clientID : String)
  | revokeIssuance (id : String)
  | maintain (m : Maintenance)

/-- What the server answers. -/
inductive Response
  | code (r : Option CompleteAuthResult)
  | token (r : TokenResponse)
  | exchanged (r : TokenExchangeResponse)
  | machine (r : MachineTokenResponse)
  | report (r : GrantAdminService.RevokeConsentReport)
  | resource (r : Resource)
  | loggedOut (revoked : ℕ)
  | done

/-- The program that serves a request. -/
def serve (env : Env) (ctx : ReqID) : Request → Svc Response
  | .authorize req => do
    let r ← AuthorizeService.handleAuthorize env ctx req
    pure (.code r)
  | .completeAuthorization sessionID => do
    let r ← AuthorizeService.completeAuthorization env ctx sessionID
    pure (.code (some r))
  | .grantConsent req => do
    let r ← ConsentService.grantConsent env ctx req
    pure (.code (some r))
  | .denyConsent sessionID userID => do
    ConsentService.denyConsent sessionID userID
    pure .done
  | .exchangeCode req => do
    let r ← TokenService.exchangeCode env ctx req
    pure (.token r)
  | .refreshToken req => do
    let r ← TokenService.refreshToken env ctx req
    pure (.token r)
  | .exchange req => do
    let r ← TokenExchange.exchange env ctx req
    pure (.exchanged r)
  | .clientCredentials req => do
    let r ← ClientCredentialsService.exchange env ctx req
    pure (.machine r)
  | .jwtBearer req => do
    let r ← JWTBearerService.grantJWTBearer env ctx req
    pure (.machine r)
  | .revokeConsent id => do
    let r ← GrantAdminService.revokeConsent ctx id
    pure (.report r)
  | .patchResource id p => do
    let r ← ResourceAdminService.patch env id p
    pure (.resource r)
  | .revokeToken req => do
    RevocationService.revokeToken env ctx req
    pure .done
  | .adminRevokeToken jti => do
    AdminService.revokeToken ctx jti
    pure .done
  | .forceLogoutUser userID => do
    let n ← AdminService.forceLogoutUser ctx userID
    pure (.loggedOut n)
  | .revokeFamiliesOfClient clientID => do
    store (TokenStore.revokeByClientID clientID)
    pure .done
  | .revokeIssuance id => do
    IssuanceAdminService.revoke id
    pure .done
  | .maintain m => do
    store m.call
    pure .done

/-- The server at work: the store, and what each request has left to do. -/
abbrev Server := Pool ReqID World Err fun _ => Response

/-- The server before any of the requests has made a store call. -/
def Server.start (env : Env) (reqs : ReqID → Request) (w : World) : Server where
  store := w
  procs := fun i => serve env i (reqs i)

/-- The tokens a redemption or a refresh was answered with. -/
def Server.tokens (c : Server) (i : ReqID) : Option TokenResponse :=
  match c.procs i with
  | .ret (.token tr) => some tr
  | _ => none

variable {c : Server} {i : ReqID}

theorem Server.ret_of_tokens {tr : TokenResponse} (h : c.tokens i = some tr) : c.procs i =
    .ret (.token tr) := by
  unfold Server.tokens at h
  split at h
  · rename_i tr' hp
    rw [hp, Option.some.inj h]
  · cases h

def Server.exchanged (c : Server) (i : ReqID) : Option TokenExchangeResponse :=
  match c.procs i with
  | .ret (.exchanged r) => some r
  | _ => none

theorem Server.ret_of_exchanged {r : TokenExchangeResponse} (h : c.exchanged i = some r) :
    c.procs i = .ret (.exchanged r) := by
  unfold Server.exchanged at h
  split at h
  · rename_i r' hp
    rw [hp, Option.some.inj h]
  · cases h

def Server.minted (c : Server) (i : ReqID) : Option AccessTokenClaims :=
  (c.exchanged i).bind fun r =>
    match r.accessToken with
    | .minted claims => some claims
    | .vended _ => none

theorem Server.exchanged_of_minted {claims : AccessTokenClaims} (h : c.minted i = some claims) :
    ∃ r, c.procs i = .ret (.exchanged r) ∧ r.accessToken = .minted claims := by
  obtain ⟨r, hr, hclaims⟩ := Option.bind_eq_some_iff.mp h
  refine ⟨r, Server.ret_of_exchanged hr, ?_⟩
  split at hclaims
  · rename_i claims' heq
    rw [heq, Option.some.inj hclaims]
  · cases hclaims

def Server.report (c : Server) (i : ReqID) : Option GrantAdminService.RevokeConsentReport :=
  match c.procs i with
  | .ret (.report r) => some r
  | _ => none

theorem Server.ret_of_report {r : GrantAdminService.RevokeConsentReport} (h : c.report i = some r) :
    c.procs i = .ret (.report r) := by
  unfold Server.report at h
  split at h
  · rename_i r' hp
    rw [hp, Option.some.inj h]
  · cases h

/-- The kinds of writes a request can make. -/
def Request.kinds : Request → Write → Prop
  | authorize _ => Write.ofAuthorization
  | completeAuthorization _ => Write.ofAuthorization
  | grantConsent _ => Write.ofConsent
  | denyConsent sessionID _ => Write.ofDenial sessionID
  | exchangeCode _ => Write.ofRedemption
  | refreshToken _ => Write.ofRefresh
  | exchange _ => Write.ofExchange
  | clientCredentials _ => Write.ofMachineGrant
  | jwtBearer _ => Write.ofMachineGrant
  | revokeConsent _ => Write.ofConsentRevocation
  | patchResource _ _ => Write.ofPatch
  | revokeToken _ => Write.ofRevocation
  | adminRevokeToken _ => Write.ofRevocation
  | forceLogoutUser _ => Write.ofRevocation
  | revokeFamiliesOfClient _ => Write.ofRevocation
  | revokeIssuance _ => Write.ofRevocation
  | maintain m => fun x => x = .maintain m

/-- **Every request writes only what its kind allows.** -/
theorem uses_serve (env : Env) (ctx : ReqID) (req : Request) :
    (serve env ctx req).Each (Uses env ctx req.kinds) := by
  cases req with
  | authorize req => exact AuthorizeService.uses_handleAuthorize.bind fun _ => trivial
  | completeAuthorization id =>
    exact AuthorizeService.uses_completeAuthorization.bind fun _ => trivial
  | grantConsent req => exact ConsentService.uses_grantConsent.bind fun _ => trivial
  | denyConsent id u => exact ConsentService.uses_denyConsent.bind fun _ => trivial
  | exchangeCode req => exact TokenService.uses_exchangeCode.bind fun _ => trivial
  | refreshToken req => exact TokenService.uses_refreshToken.bind fun _ => trivial
  | exchange req => exact TokenExchange.uses_exchange.bind fun _ => trivial
  | clientCredentials req => exact ClientCredentialsService.uses_exchange.bind fun _ => trivial
  | jwtBearer req => exact JWTBearerService.uses_grantJWTBearer.bind fun _ => trivial
  | revokeConsent id => exact GrantAdminService.uses_revokeConsent.bind fun _ => trivial
  | patchResource id p => exact ResourceAdminService.uses_patch.bind fun _ => trivial
  | revokeToken req => exact RevocationService.uses_revokeToken.bind fun _ => trivial
  | adminRevokeToken jti => exact AdminService.uses_revokeToken.bind fun _ => trivial
  | forceLogoutUser id => exact AdminService.uses_forceLogoutUser.bind fun _ => trivial
  | revokeFamiliesOfClient id =>
    exact (uses_store (.revokeFamiliesOfClient id) trivial fun _ => rfl).bind fun _ => trivial
  | revokeIssuance id => exact IssuanceAdminService.uses_revoke.bind fun _ => trivial
  | maintain m =>
    have hcall : (store m.call).Each (Uses env ctx (Request.maintain m).kinds) :=
      uses_store (.maintain m) rfl fun _ => rfl
    exact hcall.bind fun _ => trivial

section Runs

variable {env : Env} {reqs : ReqID → Request} {w : World}
    {sched : Schedule ReqID} {entry : Entry}

/-- What quiet steps and the writes of the requests keep holds after every run. -/
theorem Server.inv_exec {I : World → Prop} (hquiet : ∀ u v, u.Quiet v → I u → I v)
    (hwrite : ∀ i x u, (reqs i).kinds x → I u → I (x.run env i u)) (hw : I w)
    (sched : Schedule ReqID) : I ((Server.start env reqs w).exec sched).store := by
  refine Pool.inv_exec (fun i => uses_serve env i (reqs i)) (fun i u v h hu => ?_) hw sched
  rcases h with hq | ⟨x, hx, rfl⟩
  · exact hquiet u v hq hu
  · exact hwrite i x u hx hu

/-- What every request has left to do at any point of a run. -/
theorem Server.uses_exec (env : Env) (reqs : ReqID → Request) (w : World)
    (sched : Schedule ReqID)
    (i : ReqID) :
      (((Server.start env reqs w).exec sched).procs i).Each (Uses env i (reqs i).kinds) :=
  Pool.each_exec (c := Server.start env reqs w) (fun i => uses_serve env i (reqs i)) sched i

/-- The history only grows. -/
theorem Server.mem_journal_exec (hc : ∀ i, (c.procs i).Each (Uses env i (reqs i).kinds))
    (h : entry ∈ c.store.journal) (sched : Schedule ReqID) :
    entry ∈ (c.exec sched).store.journal := by
  refine Pool.inv_exec (I := fun u : World => entry ∈ u.journal) hc (fun i u v huv hu => ?_) h sched
  rcases huv with ⟨_, _, _, -, rfl⟩ | ⟨x, -, rfl⟩
  · exact hu
  · rcases (x.frame env i u).journal with hsame | ⟨e, -, hcons⟩
    · exact hsame ▸ hu
    · exact hcons ▸ List.mem_cons_of_mem _ hu

/-- What a run notes for a request, a write of that request notes. -/
theorem Server.exists_noting (hno : entry ∉ w.journal)
    (hmem : entry ∈ ((Server.start env reqs w).exec sched).store.journal) :
    ∃ pre bad post x, sched = pre ++ (entry.ctx, bad) :: post ∧ (reqs entry.ctx).kinds x ∧
      x.notes entry.event ∧
      (((Server.start env reqs w).exec pre).step entry.ctx bad).store =
        x.run env entry.ctx ((Server.start env reqs w).exec pre).store ∧
      (x.run env entry.ctx ((Server.start env reqs w).exec pre).store).journal =
        entry :: ((Server.start env reqs w).exec pre).store.journal := by
  obtain ⟨pre, ⟨j, bad⟩, post, rfl, hbefore, hafter⟩ :=
    Pool.exists_step (c := Server.start env reqs w)
      (I := fun u : World => entry ∈ u.journal) hno hmem
  rcases (Pool.step_of_each (Server.uses_exec env reqs w pre) j bad).1 with
    hsame | ⟨_, _, _, -, heq⟩ | ⟨x, hx, heq⟩
  · exact absurd (hsame ▸ hafter) hbefore
  · rw [heq] at hafter
    exact absurd hafter hbefore
  rw [heq] at hafter
  rcases (x.frame env j ((Server.start env reqs w).exec pre).store).journal with
    hjournal | ⟨e, hnotes, hjournal⟩
  · exact absurd (hjournal ▸ hafter) hbefore
  rw [hjournal] at hafter
  obtain rfl := (List.mem_cons.mp hafter).resolve_right hbefore
  exact ⟨pre, bad, post, x, rfl, hx, hnotes, heq, hjournal⟩

end Runs

/-! ### A small deployment

One confidential client, one user and one Mint resource, for runs that can be computed. -/

namespace Sample

def app : Client :=
  ⟨"app", "secret", ["https://app"], ["refresh_token", grantTypeTokenExchange], .active,
    "", "", false, .admin, "App", ["code"], "client_secret_basic", "", "", 1⟩

def notes : Resource :=
  ⟨"r1", "notes", "https://notes", .mint, "", [⟨"notes:read", ""⟩], ⟨["app"], ["app"], []⟩⟩

/-- A session of the user with the client, for which a code has been issued. -/
def session (id code : String) : AuthSession :=
  ⟨id, "app", "user", "https://app", "notes:read", "https://notes", "", Env.plain.hashSHA256 code,
    "pkce", "S256", 2000000000000, none, 0⟩

def world (sessions : List AuthSession) : World :=
  { World.empty 1000000000000 with
    clients := [app], users := [⟨"user", true⟩], resources := [notes], sessions := sessions }

def redeem (code : String) : Request :=
  .exchangeCode ⟨code, "pkce", "https://app", "app", "secret", "", ⟨"", "", ""⟩⟩

def refresh (token : String) : Request :=
  .refreshToken ⟨token, "app", "secret", "", "", ⟨"", "", ""⟩⟩

def userToken (jti : String) : AccessTokenClaims :=
  ⟨"https://as", "user", ["https://notes"], "app", "notes:read", jti, 900, 2000, 900,
    none, none, "", []⟩

/-- A request takes as many steps as it needs, without faults. -/
def turn (i : ReqID) : Schedule ReqID := List.replicate 40 (i, false)

end Sample

end AuthServer
