import AuthServer.Security.UserDeletion

/-!
# Revoking an access token at the revocation endpoint

`RevokeToken` verifies an access token, asks that it belong to the caller, and sets the flag of its
machine-token row. Only the tokens of client credentials, of `jwt-bearer` and of exchanges without a
resource have such a row. For the tokens of code redemption, of refresh and of exchanges for a Mint
resource the statement changes no row, the endpoint answers success, and the token stays active:
neither the denylist nor the issuance row, which introspection looks at for these tokens, is
touched. -/

namespace AuthServer

open Interleave Table

open IntrospectionService

namespace RevocationService

variable {env : Env} {ctx : ReqID} {c : AccessTokenClaims} {w : World}

def afterRevocation (env : Env) (c : AccessTokenClaims) (w : World) : World :=
  match verifyAccessToken env c w with
  | .ok _ => (MachineTokenStore.revoke c.jti w).2
  | .error _ => w

theorem run_tryRevokeMachineToken :
    (tryRevokeMachineToken env c.clientID c).run [] w = (.ok (), afterRevocation env c w) := by
  simp only [tryRevokeMachineToken, Prog.run_bind, run_attempt_fetch, afterRevocation]
  cases hverify : verifyAccessToken env c w with
  | error e => rfl
  | ok claims =>
    obtain ⟨rfl, -⟩ := verifyAccessToken_ok hverify
    simp only [bne_self_eq_false, Bool.false_eq_true, if_false]
    rfl

variable {clientSecret : String} {cl : Client}

theorem run_revokeToken (hget : ClientStore.getByID c.clientID w = .ok cl)
    (hstanding : standing env cl clientSecret = .ok true) :
    (revokeToken env ctx ⟨.access c, c.clientID, clientSecret⟩).run [] w =
      (.ok (), afterRevocation env c w) := by
  simp only [revokeToken, Prog.run_bind, run_attempt_fetch, hget, Except.mapError, Prog.ofExcept,
    Prog.run, hstanding]
  exact run_tryRevokeMachineToken

theorem machineIn_revoke : machineIn c (MachineTokenStore.revoke c.jti w).2 =
    (machineIn c w).map fun mt => { mt with revoked := true } := by
  have hfind := find?_updateWhere (t := w.machineTokens) (q := (·.jti == c.jti))
    (p := (·.jti == c.jti)) (f := fun mt => { mt with revoked := true }) fun _ => rfl
  unfold machineIn
  split
  · rfl
  · rw [MachineTokenStore.revoke, hfind]
    cases hrow : w.machineTokens.find? (·.jti == c.jti) with
    | none => rfl
    | some mt =>
      have hjti := List.find?_some hrow
      simp only [Option.map_some, hjti, if_true]

/-- Setting the flag of the machine-token row makes a token inactive exactly when there is one. -/
theorem liveIn_revoke : liveIn c (MachineTokenStore.revoke c.jti w).2 =
    (liveIn c w && (machineIn c w).isNone) := by
  have hunlisted : unlistedIn c (MachineTokenStore.revoke c.jti w).2 =
      (unlistedIn c w && (machineIn c w).isNone) := by
    unfold unlistedIn
    rw [machineIn_revoke]
    cases machineIn c w with
    | none => simp [MachineTokenStore.revoke]
    | some mt => simp
  have hsubject : subjectIn c (machineIn c (MachineTokenStore.revoke c.jti w).2).isSome
      (MachineTokenStore.revoke c.jti w).2 = subjectIn c (machineIn c w).isSome w := by
    rw [machineIn_revoke, Option.isSome_map]
    rfl
  have hstands : standsIn c (MachineTokenStore.revoke c.jti w).2 = standsIn c w := rfl
  have hissuer : issuerIn c (MachineTokenStore.revoke c.jti w).2 = issuerIn c w := rfl
  rw [liveIn, hunlisted, hsubject, hstands, hissuer, liveIn]
  ac_rfl

theorem reportedActive_afterRevocation {callerID callerSecret : String} :
    ReportedActive env ⟨c, callerID, callerSecret⟩ (afterRevocation env c w) ↔
      ReportedActive env ⟨c, callerID, callerSecret⟩ w ∧ machineIn c w = none := by
  unfold afterRevocation
  cases hverify : verifyAccessToken env c w with
  | error e =>
    have hinactive : ¬ReportedActive env ⟨c, callerID, callerSecret⟩ w := by
      rw [reportedActive_iff, hverify]
      rintro ⟨-, hok, -⟩
      cases hok
    exact ⟨fun h => (hinactive h).elim, fun h => (hinactive h.1).elim⟩
  | ok claims =>
    simp only [reportedActive_iff, liveIn_revoke, Bool.and_eq_true, Option.isNone_iff_eq_none]
    -- the caller's credentials, the verification and the entitlement do not look at machine tokens
    change Accepted env callerID callerSecret w ∧ verifyAccessToken env c w = .ok c ∧
      entitledIn env callerID c w = true ∧ liveIn c w = true ∧ machineIn c w = none ↔ _
    tauto

/-- **What revoking an access token achieves.** Its own client, authenticated as required and
active, revokes an access token, with no store call failing. The endpoint answers success, and
afterwards introspection reports the token inactive exactly when the token has a machine-token row
or was reported inactive before. -/
theorem inactive_after_revocation_iff (ctx : ReqID)
    (hget : ClientStore.getByID c.clientID w = .ok cl)
    (hstanding : standing env cl clientSecret = .ok true) (callerID callerSecret : String) :
    ((revokeToken env ctx ⟨.access c, c.clientID, clientSecret⟩).run [] w).1 = .ok () ∧
      (¬ReportedActive env ⟨c, callerID, callerSecret⟩
          ((revokeToken env ctx ⟨.access c, c.clientID, clientSecret⟩).run [] w).2 ↔
        machineIn c w ≠ none ∨ ¬ReportedActive env ⟨c, callerID, callerSecret⟩ w) := by
  rw [run_revokeToken hget hstanding]
  refine ⟨rfl, ?_⟩
  rw [reportedActive_afterRevocation, not_and_or, or_comm]

end RevocationService

/-! ### The tokens that have a machine-token row -/

namespace MachineRecord

/-- The end of the token's validity, as an instant. -/
def expiresAt (c : AccessTokenClaims) : Time := c.expiry * 1000000000

/-- The token has a machine-token row that lasts as long as it does, or has expired. -/
def Recorded (c : AccessTokenClaims) (w : World) : Prop :=
  expiresAt c < w.clock ∨ ∃ mt ∈ w.machineTokens, mt.jti = c.jti ∧ expiresAt c ≤ mt.expiresAt

/-- Machine-token rows are deleted only when they have expired. -/
structure Keeps (u v : World) : Prop where
  clock : u.clock ≤ v.clock
  row : ∀ mt ∈ u.machineTokens, mt.expiresAt < v.clock ∨
    ∃ mt' ∈ v.machineTokens, mt'.jti = mt.jti ∧ mt'.expiresAt = mt.expiresAt

variable {u v : World}

theorem Keeps.of_subset (hclock : u.clock ≤ v.clock)
    (hrows : u.machineTokens ⊆ v.machineTokens) : Keeps u v :=
  ⟨hclock, fun mt hmt => .inr ⟨mt, hrows hmt, rfl, rfl⟩⟩

theorem Keeps.refl (w : World) : Keeps w w :=
  .of_subset (le_refl _) (List.Subset.refl _)

theorem Keeps.of_quiet (h : u.Quiet v) : Keeps u v := by
  obtain ⟨_, _, _, -, rfl⟩ := h
  exact .of_subset (le_refl _) (List.Subset.refl _)

theorem Keeps.trans {u v w : World} (h : Keeps u v) (h' : Keeps v w) : Keeps u w := by
  refine ⟨h.clock.trans h'.clock, fun mt hmt => ?_⟩
  rcases h.row mt hmt with hpast | ⟨mt', hmt', hjti, hexp⟩
  · exact .inl (hpast.trans_le h'.clock)
  · rcases h'.row mt' hmt' with hpast | ⟨mt'', hmt'', hjti', hexp'⟩
    · exact .inl (hexp ▸ hpast)
    · exact .inr ⟨mt'', hmt'', hjti'.trans hjti, hexp'.trans hexp⟩

variable {c : AccessTokenClaims}

theorem Recorded.of_keeps (h : Recorded c u) (hk : Keeps u v) :
    Recorded c v := by
  rcases h with hpast | ⟨mt, hmt, hjti, hexp⟩
  · exact .inl (hpast.trans_le hk.clock)
  · rcases hk.row mt hmt with hpast | ⟨mt', hmt', hjti', hexp'⟩
    · exact .inl (hexp.trans_lt hpast)
    · exact .inr ⟨mt', hmt', hjti'.trans hjti, hexp'.symm ▸ hexp⟩

theorem Recorded.machineIn_ne_none {w : World} (h : Recorded c w)
    (hjti : c.jti ≠ "") (hlive : w.clock ≤ expiresAt c) : machineIn c w ≠ none := by
  obtain ⟨mt, hmt, hmtjti, -⟩ := h.resolve_left (not_lt.mpr hlive)
  unfold machineIn
  rw [if_neg (by simpa using hjti)]
  intro hnone
  exact List.find?_eq_none.mp hnone mt hmt (by simpa using hmtjti)

variable {env : Env} {i : ReqID} {s : World}

/-- **Every write keeps the rows that have not expired.** -/
theorem keeps_run (env : Env) (i : ReqID) (x : Write) (w : World) : Keeps w (x.run env i w) := by
  have hclock := x.clock_le env i w
  by_cases htouch : Part.machineTokens ∈ x.touches
  · cases x with
    | saveMachineToken mt =>
      refine .of_subset hclock ?_
      simp only [Write.run, MachineTokenStore.save]
      split
      · exact List.Subset.refl _
      · exact List.subset_append_left _ _
    | revokeMachineToken jti =>
      refine ⟨hclock, fun mt hmt => .inr ?_⟩
      refine ⟨if mt.jti == jti then { mt with revoked := true } else mt,
        mem_updateWhere.mpr ⟨mt, hmt, rfl⟩, ?_⟩
      split <;> exact ⟨rfl, rfl⟩
    | maintain m =>
      cases m with
      | purgeMachineTokens =>
        refine ⟨hclock, fun mt hmt => ?_⟩
        by_cases hpast : mt.expiresAt < w.clock
        · exact .inl hpast
        · exact .inr ⟨mt, List.mem_filter.mpr ⟨hmt, by simpa using hpast⟩, rfl, rfl⟩
      | _ => simp [Write.touches, Maintenance.touches] at htouch
    | _ => simp [Write.touches] at htouch
  · refine .of_subset hclock ?_
    rw [(x.frame env i w).same .machineTokens htouch]
    exact List.Subset.refl _

theorem keeps_uses {kinds : Write → Prop} (h : Uses env i kinds u v) : Keeps u v := by
  rcases h with hquiet | ⟨x, -, rfl⟩
  · exact .of_quiet hquiet
  · exact keeps_run env i x u

/-- The contract between the requests: everyone keeps the rows that have not expired. -/
def contract : Contract ReqID World where
  inv _ := True
  rely _ := Keeps
  guar _ := Keeps
  admits _ _ _ := True
  faulty := True
  rely_refl _ w := .refl w
  rely_trans h h' := h.trans h'
  rely_of_guar _ _ h := h

theorem tolerant : Tolerant contract i :=
  fun _ _ _ h => ⟨trivial, .of_quiet h, .of_quiet h⟩

variable {mt : MachineToken}

theorem recorded_save (hjti : mt.jti = c.jti)
    (hexp : expiresAt c ≤ mt.expiresAt) {w w' : World}
    (h : MachineTokenStore.save mt w = (.ok (), w')) : Recorded c w' := by
  unfold MachineTokenStore.save at h
  split at h
  · cases (Prod.mk.inj h).1
  · obtain rfl := (Prod.mk.inj h).2
    exact .inr ⟨mt, List.mem_append_right _ (List.mem_singleton_self mt), hjti, hexp⟩

variable {detail : String}

/-- Saving a row and handing the token out. -/
theorem ensures_saveAndRelease {α : Type}
    (hjti : mt.jti = c.jti) (hexp : expiresAt c ≤ mt.expiresAt) {e : Event}
    {a : α} : Ensures contract i (fun a' t => a' = a ∧ Recorded c t)
      (do wrapErr detail (store (MachineTokenStore.save mt)); release i c e; pure a) s := by
  have hstep : ∀ w, Keeps w (MachineTokenStore.save mt w).2 := fun w =>
    keeps_run Env.plain i (.saveMachineToken mt) w
  refine .bind (ensures_wrapErr
    (Ensures.exec (fun _ => ⟨trivial, hstep s⟩) fun u hu _ t hst _ => ?_))
  have hsaved : Recorded c t := (recorded_save hjti hexp (Prod.ext hu rfl)).of_keeps hst
  have hrelease : Keeps t ({ t with released := c :: t.released }.note i e) :=
    .of_subset (le_refl _) (List.Subset.refl _)
  exact .bind (safe_step fun _ =>
    ⟨trivial, hrelease, fun t' ht' _ => ⟨rfl, (hsaved.of_keeps hrelease).of_keeps ht'⟩⟩)

theorem expiresAt_le (t : Time) : unix t * 1000000000 ≤ t :=
  Int.ediv_mul_le t (by decide)

def Granted (c : AccessTokenClaims) (w : World) : Prop := c.jti ≠ "" ∧ Recorded c w

/-- **A grant without a user records the token it hands out.** -/
theorem ensures_issue {lifetime : Time} {m : MachineIssue} :
    Ensures contract i (fun resp t => Granted resp.accessToken t)
      (m.issue env i detail lifetime) s := by
  refine tolerant.pass (each_extractAgentIdentityClaims _ _ _) trivial fun agent t₁ _ _ => ?_
  refine .bindOfExcept fun signed hsigned => ?_
  obtain ⟨rfl, -, -, hjti⟩ := signAccessToken_ok (mapError_eq_ok.mp hsigned)
  have hrecord : (m.record i detail agent).Each Keeps := by
    refine each_ite trivial ((each_fetch.attempt.mono fun _ _ => .of_quiet).bind fun r => ?_)
    cases r with
    | ok res => exact each_wrapErr (Prog.each_exec fun u => keeps_run env i (.insertIssuance _) u)
    | error e => trivial
  refine .pass hrecord (fun _ _ _ h => ⟨trivial, h, h⟩) trivial fun _ t₂ _ _ => ?_
  have hexp : expiresAt (m.claims env agent) ≤ m.row.expiresAt := expiresAt_le m.expiry
  refine .mono (ensures_saveAndRelease (by rfl) hexp) fun a t h => ?_
  obtain ⟨rfl, hrecorded⟩ := h
  exact ⟨hjti, hrecorded⟩

theorem ensures_clientCredentials {req : ClientCredentialsRequest} :
    Ensures contract i (fun resp t => Granted resp.accessToken t)
      (ClientCredentialsService.exchange env i req) s := by
  refine tolerant.pass (each_authenticateMachine _ _ _) trivial fun c t₁ _ _ => ?_
  refine .bindFailIf fun _ => ?_
  refine tolerant.pass (ClientCredentialsService.each_resolveCatalog _) trivial
    fun catalog t₂ _ _ => ?_
  refine .bindOfExcept fun scopes _ => ?_
  refine tolerant.pass (each_dpopThumbprint _ _) trivial fun jkt t₃ _ _ => ?_
  refine tolerant.pass each_timeNow trivial fun now t₄ _ _ => ?_
  exact tolerant.pass (each_generateRandomString _ _) trivial fun jti t₅ _ _ => ensures_issue

theorem ensures_jwtBearer {req : JWTBearerRequest} :
    Ensures contract i (fun resp t => Granted resp.accessToken t)
      (JWTBearerService.grantJWTBearer env i req) s := by
  refine tolerant.pass (each_authenticateMachine _ _ _) trivial fun c t₁ _ _ => ?_
  refine .bindFailIf fun _ => ?_
  refine .bindOfExcept fun a _ => ?_
  refine .bindOfExcept fun issuer _ => ?_
  refine tolerant.pass (JWTBearerService.each_lookupIDP _) trivial fun idp t₂ _ _ => ?_
  refine tolerant.pass (JWTBearerService.each_validateAssertion _ _)
    trivial fun assertion t₃ _ _ => ?_
  refine .bindFailIf fun _ => ?_
  refine .bindOfExcept fun resource _ => ?_
  -- spending the assertion touches no machine token
  have hconsume : (JWTBearerService.consumeAssertion assertion).Each Keeps :=
    (Prog.each_exec fun u => keeps_run env i (.consumeAssertion _ _) u).attempt.bind fun _ =>
      Prog.each_ofExcept _
  refine .pass hconsume (fun _ _ _ h => ⟨trivial, h, h⟩) trivial fun _ t₄ _ _ => ?_
  refine .bindOfExcept fun requested _ => ?_
  refine tolerant.pass (JWTBearerService.each_checkResource _) trivial fun _ t₅ _ _ => ?_
  refine tolerant.pass
    (XAAPolicyService.each_evaluatePolicy _ _ _ _) trivial fun scopes t₆ _ _ => ?_
  refine tolerant.pass (each_dpopThumbprint _ _) trivial fun jkt t₇ _ _ => ?_
  refine tolerant.pass each_timeNow trivial fun now t₈ _ _ => ?_
  refine tolerant.pass (each_generateRandomString _ _) trivial fun jti t₉ _ _ => ?_
  exact tolerant.pass (JWTBearerService.each_tokenSubject _ _) trivial
    fun sub t₁₀ _ _ => ensures_issue

theorem ensures_exchange {req : TokenExchangeRequest} (hreq : req.resource = "") :
    Ensures contract i (fun resp t => ∃ c, resp.accessToken = .minted c ∧ Granted c t)
      (TokenExchange.exchange env i req) s := by
  refine .bindOfExcept fun raw _ => ?_
  refine tolerant.pass (each_authenticateMachine _ _ _) trivial fun acting t₁ _ _ => ?_
  refine .bindFailIf fun _ => ?_
  refine .bindFailIf fun _ => ?_
  refine tolerant.pass (TokenExchange.each_acceptSubject _ _) trivial fun claims t₂ _ _ => ?_
  rw [TokenExchange.exchangeFor, if_pos (by simpa using hreq)]
  refine tolerant.pass (TokenExchange.each_verifyActor _ _) trivial fun actor t₃ _ _ => ?_
  refine .bindOfExcept fun scopes _ => ?_
  refine .bindOfExcept fun _ _ => ?_
  refine .bindFailIf fun _ => ?_
  refine .bindFailIf fun _ => ?_
  refine tolerant.pass (each_dpopThumbprint _ _) trivial fun jkt t₄ _ _ => ?_
  refine tolerant.pass each_timeNow trivial fun now t₅ _ _ => ?_
  refine tolerant.pass (each_generateRandomString _ _) trivial fun jti t₆ _ _ => ?_
  refine tolerant.pass (each_extractAgentIdentityClaims _ _ _) trivial fun agent t₇ _ _ => ?_
  refine .bindOfExcept fun signed hsigned => ?_
  obtain ⟨rfl, -, -, hjti⟩ := signAccessToken_ok (mapError_eq_ok.mp hsigned)
  have hexp : expiresAt (TokenExchange.legacyClaims env req claims scopes jti jkt
      (actClaimToMap (if actor.isSome then TokenExchange.actorHop req.clientID acting.isAgent ::
        sanitizeNonIdentityClaims (actClaimFromMap claims.act)
        else sanitizeNonIdentityClaims (actClaimFromMap claims.act))) agent now) ≤
      (TokenExchange.legacyRow env req scopes jti now).expiresAt :=
    expiresAt_le (now + env.tokenExchange.tokenExpiry)
  refine .mono (ensures_saveAndRelease (by rfl) hexp) fun resp t h => ?_
  obtain ⟨rfl, hrecorded⟩ := h
  exact ⟨_, rfl, hjti, hrecorded⟩

/-- The access token a request was answered with, for the grants that record it as a machine
token. -/
def issuedBy (req : Request) (resp : Response) : Option AccessTokenClaims :=
  match req, resp with
  | .clientCredentials _, .machine r => some r.accessToken
  | .jwtBearer _, .machine r => some r.accessToken
  | .exchange req, .exchanged r =>
    match r.accessToken with
    | .minted c => if req.resource == "" then some c else none
    | _ => none
  | _, _ => none

theorem safe_serve (req : Request) :
    Ensures contract i (fun resp t => ∀ c, issuedBy req resp = some c → Granted c t)
      (serve env i req) s := by
  have hany : Ensures contract i (fun _ _ => True) (serve env i req) s :=
    Safe.of_each_inv (uses_serve env i req) (fun _ _ _ h => ⟨trivial, keeps_uses h⟩) trivial
  cases req with
  | clientCredentials r =>
    refine .seq ensures_clientCredentials fun resp t h c hc => ?_
    obtain rfl := Option.some.inj hc
    exact h
  | jwtBearer r =>
    refine .seq ensures_jwtBearer fun resp t h c hc => ?_
    obtain rfl := Option.some.inj hc
    exact h
  | exchange r =>
    by_cases hres : r.resource = ""
    · refine .seq (ensures_exchange hres) fun resp t h c hc => ?_
      obtain ⟨c', hminted, hgranted⟩ := h
      simp only [issuedBy, hminted, hres, beq_self_eq_true, if_true, Option.some.injEq] at hc
      exact hc ▸ hgranted
    · refine .mono hany fun resp t _ c hc => ?_
      have hnone : issuedBy (.exchange r) resp = none := by
        cases resp with
        | exchanged r' =>
          simp only [issuedBy]
          split <;> simp [hres]
        | _ => rfl
      rw [hnone] at hc
      cases hc
  | _ => exact .mono hany fun resp t _ c hc => by cases resp <;> cases hc

end MachineRecord

open MachineRecord

/-- **Revoking a machine token takes effect.** Take any store, any requests of every kind, and any
interleaving of their calls with any of them failing. If an access token was returned by a
`client_credentials` grant, by a `jwt-bearer` grant or by an exchange without a resource, and has
not expired, then its own client, authenticated as required and active, revokes it at the endpoint
with no store error, and introspection reports it inactive from then on. -/
theorem RevocationService.machine_token_revoked (env : Env) (reqs : ReqID → Request) (w : World)
    (sched : Schedule ReqID) (i : ReqID) (resp : Response) (c : AccessTokenClaims)
    (hresp : ((Server.start env reqs w).exec sched).procs i = .ret resp)
    (hissued : issuedBy (reqs i) resp = some c)
    (hlive : ((Server.start env reqs w).exec sched).store.clock ≤ expiresAt c)
    (ctx : ReqID) (cl : Client) (clientSecret : String)
    (hget : ClientStore.getByID c.clientID ((Server.start env reqs w).exec sched).store = .ok cl)
    (hstanding : standing env cl clientSecret = .ok true) (callerID callerSecret : String) :
    ((revokeToken env ctx ⟨.access c, c.clientID, clientSecret⟩).run []
        ((Server.start env reqs w).exec sched).store).1 = .ok () ∧
      ¬ReportedActive env ⟨c, callerID, callerSecret⟩
        ((revokeToken env ctx ⟨.access c, c.clientID, clientSecret⟩).run []
          ((Server.start env reqs w).exec sched).store).2 := by
  have hstart : Pool.Ready contract
      (fun i resp t => ∀ c, issuedBy (reqs i) resp = some c → Granted c t) (fun _ _ _ => True)
      (Server.start env reqs w) := ⟨trivial, fun i t _ _ => safe_serve (reqs i)⟩
  have hready := hstart.exec sched
    (Pool.admitted_of_all (fun _ _ _ => trivial) sched fun _ _ _ => trivial)
  obtain ⟨hjti, hrecorded⟩ := hready.post hresp c hissued
  have hiff := inactive_after_revocation_iff ctx hget hstanding callerID callerSecret
  exact ⟨hiff.1, hiff.2.mpr (.inl (hrecorded.machineIn_ne_none hjti hlive))⟩

namespace Sample

def redeemAndRefresh : ReqID → Request
  | 0 => redeem "code"
  | _ => refresh (tally 0 2)

def refreshed : Server :=
  (Server.start Env.plain redeemAndRefresh (world [session "s" "code"])).exec (turn 0 ++ turn 1)

def exchangeServed : Server :=
  (Server.start Env.plain (fun _ => .exchange exchangeUserToken)
    { world [] with released := [userToken "t"] }).exec (turn 0)

def revokeAndAsk (c : AccessTokenClaims) (w : World) :
    Except Err Unit × Except Err IntrospectResponse :=
  let revoked := (RevocationService.revokeToken Env.plain 2 ⟨.access c, "app", "secret"⟩).run [] w
  (revoked.1, ((introspectToken Env.plain ⟨c, "app", "secret"⟩).run [] revoked.2).1)

end Sample

open Sample in
/-- **The revocation of an access token has no effect.** The client redeems a code and refreshes; it
revokes both access tokens, the endpoint answers success, and both are reported active. -/
theorem RevocationService.revoked_token_active :
    (refreshed.store.released.length = 2 ∧
      refreshed.store.released.map (·.clientID) = ["app", "app"]) ∧ ∀ c ∈ refreshed.store.released,
        revokeAndAsk c refreshed.store = (.ok (), .ok (activeResponse c)) := by
  decide +kernel

open Sample in
/-- The token of an exchange without a resource is inactive once it is revoked. -/
theorem RevocationService.machine_token_revoked_exchanged :
    ReportedActive Env.plain askExchanged exchangeServed.store ∧
      ¬ReportedActive Env.plain askExchanged
        ((RevocationService.revokeToken Env.plain 1
          ⟨.access askExchanged.token, askExchanged.token.clientID, "secret"⟩).run []
          exchangeServed.store).2 := by
  have hanswer : ((Server.exchanged exchangeServed 0).bind fun r =>
      issuedBy (.exchange exchangeUserToken) (.exchanged r)) = some askExchanged.token := by
    decide +kernel
  obtain ⟨r, hr, hissued⟩ := Option.bind_eq_some_iff.mp hanswer
  refine ⟨⟨activeResponse askExchanged.token, by decide +kernel, rfl⟩, ?_⟩
  exact (RevocationService.machine_token_revoked Env.plain (fun _ => .exchange exchangeUserToken)
    { world [] with released := [userToken "t"] } (turn 0) 0 (.exchanged r) askExchanged.token
    (Server.ret_of_exchanged hr) hissued (by decide +kernel) 1 app "secret" (by decide +kernel)
    (by decide +kernel) "app" "secret").2

end AuthServer
