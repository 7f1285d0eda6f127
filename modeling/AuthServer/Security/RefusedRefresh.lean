import AuthServer.Service.Paced
import AuthServer.Service.Serve

/-!
# Refused refreshes and replayed codes

A refresh looks at its token, the family, the client, the resource, the scope and the configuration
before it presents the token to be consumed. `TokenService.admitted_of_ok` says what it has
established when it gets there, and up to then its calls are quiet: a request that fails any of the
checks leaves the refresh tokens, the families and the denylist as they were. What it does
afterwards stays within the family of the token (`Spares`), the response to a reused token included.

A replayed code is the other way to that response. It is set off for the family of the session and
by the holder of the verifier only.

Both methods are run at any pace, with any of their store calls failing.
-/

namespace AuthServer

open Interleave Table

/-! ### What is left alone -/

/-- No refresh token, no family and no denylist entry is different, and nothing was noted of them.
-/
def Untouched (w t : World) : Prop :=
  t.refreshTokens = w.refreshTokens ∧ t.families = w.families ∧ t.revokedJTIs = w.revokedJTIs ∧
    t.journal = w.journal

/-- At most the family `f` was revoked, at most its refresh tokens were consumed, and the entries
that joined the denylist are access tokens tracked for it. -/
structure Spares (f : String) (w t : World) : Prop where
  tokens : ∀ r ∈ w.refreshTokens, r.familyID ≠ f → r ∈ t.refreshTokens
  families : ∀ r ∈ w.families, r.id ≠ f → r ∈ t.families
  denylist : ∀ r ∈ w.revokedJTIs, r ∈ t.revokedJTIs
  denylisted : ∀ r ∈ t.revokedJTIs, r ∈ w.revokedJTIs ∨
    ∃ j ∈ t.accessTokenJTIs, j.familyID = f ∧ j.jti = r.jti
  tracked : ∀ j ∈ w.accessTokenJTIs, j ∈ t.accessTokenJTIs

variable {env : Env} {ctx : ReqID} {f : String} {w t u : World} {pace : Pace}

theorem World.Idle.untouched (h : w.Idle t) : Untouched w t := by
  obtain ⟨_, -, _, _, _, -, rfl⟩ := h
  exact ⟨rfl, rfl, rfl, rfl⟩

theorem Untouched.trans (h : Untouched w t) (h' : Untouched t u) : Untouched w u :=
  ⟨h'.1.trans h.1, h'.2.1.trans h.2.1, h'.2.2.1.trans h.2.2.1, h'.2.2.2.trans h.2.2.2⟩

namespace Spares

theorem refl (f : String) (w : World) : Spares f w w :=
  ⟨fun _ h _ => h, fun _ h _ => h, fun _ h => h, fun _ h => .inl h, fun _ h => h⟩

theorem trans (h : Spares f w t) (h' : Spares f t u) : Spares f w u where
  tokens r hr hne := h'.tokens r (h.tokens r hr hne) hne
  families r hr hne := h'.families r (h.families r hr hne) hne
  denylist r hr := h'.denylist r (h.denylist r hr)
  tracked j hj := h'.tracked j (h.tracked j hj)
  denylisted r hr := by
    rcases h'.denylisted r hr with hr | hnew
    · rcases h.denylisted r hr with hold | ⟨j, hj, hf⟩
      · exact .inl hold
      · exact .inr ⟨j, h'.tracked j hj, hf⟩
    · exact .inr hnew

theorem of_tables (htokens : ∀ r ∈ w.refreshTokens, r ∈ t.refreshTokens)
    (hfamilies : t.families = w.families) (hdenylist : t.revokedJTIs = w.revokedJTIs)
    (htracked : ∀ j ∈ w.accessTokenJTIs, j ∈ t.accessTokenJTIs) : Spares f w t :=
  ⟨fun r hr _ => htokens r hr, fun _ hr _ => hfamilies ▸ hr, fun _ hr => hdenylist ▸ hr,
    fun _ hr => .inl (hdenylist ▸ hr), htracked⟩

theorem of_idle (f : String) (h : w.Idle t) : Spares f w t := by
  obtain ⟨_, -, _, _, _, -, rfl⟩ := h
  exact .of_tables (fun _ hr => hr) rfl rfl fun _ hj => hj

theorem of_frame {parts : List Part} {notes : Event → Prop} (h : Frame parts notes ctx w t)
    (hparts : ∀ p ∈ [Part.refreshTokens, .families, .revokedJTIs, .accessTokenJTIs], p ∉ parts) :
      Spares f w t := by
  have htokens : t.refreshTokens = w.refreshTokens := h.same _ (hparts .refreshTokens (by simp))
  have htracked : t.accessTokenJTIs = w.accessTokenJTIs :=
    h.same _ (hparts .accessTokenJTIs (by simp))
  exact .of_tables (fun _ hr => htokens ▸ hr) (h.same _ (hparts .families (by simp)))
    (h.same _ (hparts .revokedJTIs (by simp))) fun _ hj => htracked ▸ hj

theorem drifts (f : String) : Prog.Drifts World.wait (Spares f) :=
  ⟨.refl f, .trans, fun d w => .of_idle f (World.Idle.drifts.waits d w)⟩

end Spares

def BelongsTo (f id : String) (w : World) : Prop :=
  ∀ r ∈ w.refreshTokens, r.id = id → r.familyID = f

/-- A step within the family `f` that leaves the token `id` there. -/
def Within (f id : String) (w t : World) : Prop :=
  BelongsTo f id w → BelongsTo f id t ∧ Spares f w t

theorem Within.drifts (f id : String) : Prog.Drifts World.wait (Within f id) where
  refl w h := ⟨h, .refl f w⟩
  trans h h' hw := ⟨(h' (h hw).1).1, (h hw).2.trans (h' (h hw).1).2⟩
  waits d w h := ⟨h, (Spares.drifts f).waits d w⟩

/-- Setting a column that is neither the identifier nor the family. -/
theorem BelongsTo.updateWhere {id : String} {p : RefreshToken → Bool} {now : Time}
    {rows : List RefreshToken} (h : ∀ r ∈ rows, r.id = id → r.familyID = f) :
    ∀ r ∈ Table.updateWhere p (fun r => { r with consumedAt := some now }) rows,
      r.id = id → r.familyID = f := by
  intro r hr hid
  obtain ⟨r₀, hr₀, rfl⟩ := mem_updateWhere.mp hr
  cases hp : p r₀ <;> simp only [hp, Bool.false_eq_true, if_true, if_false] at hid ⊢ <;>
    exact h r₀ hr₀ hid

theorem within_consumeRefreshToken {id : String} :
    Within f id w (TokenStore.consumeRefreshToken ctx id w).2 := by
  intro h
  rcases TokenStore.consumeRefreshToken_cases ctx id w with ⟨e, hrun⟩ | ⟨r, -, -, -, hrun⟩
  · rw [hrun]
    exact ⟨h, .refl f w⟩
  · rw [hrun]
    refine ⟨BelongsTo.updateWhere h, fun r hr hne => ?_, fun _ hr _ => hr, fun _ hr => hr,
      fun _ hr => .inl hr, fun _ hj => hj⟩
    refine mem_updateWhere_of_eq_false hr ?_
    simp only [Bool.and_eq_false_iff, beq_eq_false_iff_ne]
    exact .inl fun hid => hne (h r hr hid)

theorem spares_revokeFamily : Spares f w (TokenStore.revokeFamily ctx f w).2 := by
  have hrows : Spares f w { w with families := TokenStore.revokeRow f w.clock w.families
                                   refreshTokens :=
                                     TokenStore.consumeRows f w.clock w.refreshTokens } := by
    refine ⟨fun r hr hne => ?_, fun r hr hne => ?_, fun _ hr => hr, fun _ hr =>
      .inl hr, fun _ hj => hj⟩
    · exact mem_updateWhere_of_eq_false hr (by simp [hne])
    · exact mem_updateWhere_of_eq_false hr (by simp [hne])
  unfold TokenStore.revokeFamily
  split
  · exact ⟨hrows.tokens, hrows.families, hrows.denylist, hrows.denylisted, hrows.tracked⟩
  · exact hrows

theorem within_revokeFamily {id : String} : Within f id w (TokenStore.revokeFamily ctx f w).2 := by
  intro h
  refine ⟨?_, spares_revokeFamily⟩
  unfold TokenStore.revokeFamily
  split <;> exact BelongsTo.updateWhere h

theorem spares_revokeByFamily : Spares f w (RevocationStore.revokeByFamily ctx f w).2 := by
  refine ⟨fun _ hr _ => hr, fun _ hr _ => hr, fun _ hr => List.mem_append_left _ hr, fun r hr => ?_,
    fun _ hj => hj⟩
  rcases List.mem_append.mp hr with hold | hnew
  · exact .inl hold
  · obtain ⟨j, hj, rfl⟩ := List.mem_map.mp hnew
    obtain ⟨hj, hmatch⟩ := List.mem_filter.mp hj
    simp only [Bool.and_eq_true, beq_iff_eq] at hmatch
    exact .inr ⟨j, hj, hmatch.1, rfl⟩

/-- After the consumption a refresh only adds to the tables. -/
theorem spares_of_rotation (h : Uses env ctx Write.ofRotation w t) : Spares f w t := by
  rcases h with hquiet | ⟨x, hx, rfl⟩
  · exact .of_idle f (.of_quiet hquiet)
  · have hframe := x.frame env ctx w
    cases x with
    | createRefreshToken familyID now expiry =>
      rcases TokenService.createRefreshToken_cases env ctx familyID now expiry w with
        ⟨e, hrun⟩ | ⟨w', hrow, hrun⟩
      · simp only [Write.run, hrun]
        exact .of_idle f (.of_quiet ((w.quiet_draw ctx).trans (World.quiet_draw _ ctx)))
      · simp only [Write.run, hrun]
        obtain ⟨-, rfl⟩ := TokenStore.createRefreshToken_ok hrow
        exact .of_tables (fun _ hr => List.mem_append_left _ hr) rfl rfl fun _ hj => hj
    | trackJTI jti familyID expiry =>
      rcases RevocationStore.trackJTI_cases jti familyID expiry w with ⟨-, hrun⟩ | ⟨-, hrun⟩
      · simp only [Write.run, hrun]
        exact .refl f w
      · simp only [Write.run, hrun]
        exact .of_tables (fun _ hr => hr) rfl rfl fun _ hj => List.mem_append_left _ hj
    | insertIssuance i => exact .of_frame hframe (by simp [Write.touches])
    | revokeIssuance id => exact .of_frame hframe (by simp [Write.touches])
    | release c e => exact .of_frame hframe (by simp [Write.touches])
    | _ => exact hx.elim

/-! ### The refresh -/

namespace TokenService

/-- The request of a grant may be for the resource it names. -/
def Covers (env : Env) (w : World) (requested authorized : String) : Prop :=
  requested = "" ∨ requested = authorized ∨ resourceIdentityEqual env requested authorized = true ∨
    ∃ r r', ResourceRegistry.resolve requested w = .ok r ∧
      ResourceRegistry.resolve authorized w = .ok r' ∧ r'.id = r.id

/-- What a refresh has established when it presents its token to be consumed. -/
structure Admitted (env : Env) (req : RefreshTokenRequest) (w : World)
    (a : RefreshAdmission) : Prop where
  token : TokenStore.getRefreshTokenByHash (env.hashSHA256 req.refreshToken) w = .ok a.token
  unexpired : w.clock ≤ a.token.expiresAt
  family : TokenStore.getFamily a.token.familyID w = .ok a.family
  active : a.family.isActive = true
  named : req.clientID = a.family.clientID
  client : ClientStore.getByID a.family.clientID w = .ok a.client
  clientActive : a.client.isActive = true
  authenticated : secretMatches env a.client req.clientSecret = true
  registered : hasGrantType a.client.grantTypes "refresh_token" = true
  resource : Covers env w req.resource a.family.resource
  scope : refreshScope req.scope a.family.scope a.client = .ok a.scope

theorem ok_of_authenticateClient {clientID clientSecret : String} {c : Client}
    (h : (authenticateClient env clientID clientSecret).runPaced World.wait pace w = (.ok c, t)) :
    w.Idle t ∧ ClientStore.getByID clientID w = .ok c ∧ c.isActive = true ∧
      secretMatches env c clientSecret = true := by
  obtain ⟨c', u, rest, hidle, hread, h⟩ := ok_of_read_bind h
  obtain ⟨hactive, h⟩ := Prog.ok_of_runPaced_failIf_bind h
  obtain ⟨hsecret, h⟩ := Prog.ok_of_runPaced_failIf_bind h
  obtain ⟨hc, rfl⟩ := Prod.mk.inj h
  obtain rfl := Except.ok.inj hc
  exact ⟨hidle, hidle.getByID clientID ▸ hread, by simpa using hactive, by simpa using hsecret⟩

theorem ok_of_authorizesResource {r : Resource} {authorized : String}
    (h : (authorizesResource r authorized).runPaced World.wait pace w = (.ok true, t)) :
    w.Idle t ∧ ∃ r', ResourceRegistry.resolve authorized w = .ok r' ∧ r'.id = r.id := by
  unfold authorizesResource at h
  split at h
  · cases Except.ok.inj (Prod.mk.inj h).1
  · obtain ⟨rest, hread⟩ :=
      Prog.runPaced_attempt_bind (fetch (ResourceRegistry.resolve authorized)) _ pace w
    obtain ⟨hcovers, rfl⟩ := Prod.mk.inj (hread.symm.trans h)
    have hcovers := Except.ok.inj hcovers
    split at hcovers
    · rename_i r' hr'
      obtain ⟨hidle, hresolved⟩ := ok_of_fetch (Prod.ext hr' rfl)
      exact ⟨hidle, r', hidle.resolve authorized ▸ hresolved, by simpa using hcovers⟩
    · cases hcovers

theorem ok_of_validateRequestedResource {requested authorized : String}
    (h : (validateRequestedResource env requested authorized).runPaced
      World.wait pace w = (.ok (), t)) :
    w.Idle t ∧ Covers env w requested authorized := by
  unfold validateRequestedResource at h
  split at h
  · rename_i hsame
    obtain ⟨-, rfl⟩ := Prod.mk.inj h
    simp only [Bool.or_eq_true, beq_iff_eq, or_assoc] at hsame
    exact ⟨World.Idle.drifts.refl w, hsame.imp id fun h => h.imp id .inl⟩
  · obtain ⟨r, u, rest, hidle, hread, h⟩ := ok_of_read_bind h
    obtain ⟨covered, u', rest', hcovered, h⟩ := Prog.ok_of_runPaced_bind h
    cases covered with
    | false => cases (Prod.mk.inj h).1
    | true =>
      obtain ⟨-, rfl⟩ := Prod.mk.inj h
      obtain ⟨hidle', r', hr', hid⟩ := ok_of_authorizesResource hcovered
      exact ⟨World.Idle.drifts.trans hidle hidle', .inr (.inr (.inr
        ⟨r, r', hidle.resolve requested ▸ hread, hidle.resolve authorized ▸ hr', hid⟩))⟩

theorem admitted_of_ok {req : RefreshTokenRequest} {a : RefreshAdmission}
    (h : (admitRefresh env req).runPaced World.wait pace w = (.ok a, t)) :
      Admitted env req w a := by
  have trans : ∀ {u v}, w.Idle u → u.Idle v → w.Idle v := World.Idle.drifts.trans
  obtain ⟨rt, u₁, pace₁, h₁, htoken, h⟩ := ok_of_read_bind h
  obtain ⟨d, pace₂, hnow⟩ := runPaced_timeNow_bind _ pace₁ u₁
  have h₂ := trans h₁ (World.Idle.drifts.waits d u₁)
  obtain ⟨hunexpired, h⟩ := Prog.ok_of_runPaced_failIf_bind (hnow.symm.trans h)
  obtain ⟨family, u₃, pace₃, h₃, hfamily, h⟩ := ok_of_wrapErr_bind h
  replace h₃ := trans h₂ h₃
  obtain ⟨hactive, h⟩ := Prog.ok_of_runPaced_failIf_bind h
  obtain ⟨hnamed, h⟩ := Prog.ok_of_runPaced_failIf_bind h
  obtain ⟨c, u₄, pace₄, hc, h⟩ := Prog.ok_of_runPaced_bind h
  obtain ⟨h₄, hclient, hclientActive, hsecret⟩ := ok_of_authenticateClient hc
  replace h₄ := trans h₃ h₄
  obtain ⟨hregistered, h⟩ := Prog.ok_of_runPaced_failIf_bind h
  obtain ⟨_, u₅, pace₅, hr, h⟩ := Prog.ok_of_runPaced_bind h
  obtain ⟨-, hcovers⟩ := ok_of_validateRequestedResource hr
  obtain ⟨scope, hscope, h⟩ := Prog.ok_of_runPaced_ofExcept_bind h
  obtain ⟨_, _, _, -, -, h⟩ := ok_of_wrapErr_bind h
  obtain rfl := Except.ok.inj (Prod.mk.inj h).1
  exact {
    token := h₁.getRefreshTokenByHash _ ▸ htoken
    unexpired := h₂.clock_le.trans (Int.not_lt.mp (of_decide_eq_false hunexpired))
    family := h₃.getFamily _ ▸ hfamily
    active := by simpa using hactive
    named := by simpa using hnamed
    client := h₃.getByID _ ▸ hclient
    clientActive := hclientActive
    authenticated := hsecret
    registered := by simpa using hregistered
    resource := by simpa only [Covers, h₄.resolve] using hcovers
    scope := hscope }

/-! ### The response to a reused token or code -/

variable {rt : RefreshToken} {sess : AuthSession} {verifier clientID : String}

theorem within_runReuseHalves (id : String) : (runReuseHalves ctx f).Each (Within f id) :=
  (Prog.each_exec fun _ => within_revokeFamily).attempt.bind fun _ =>
    (Prog.each_exec fun _ h => ⟨h, spares_revokeByFamily⟩).attempt.bind fun _ => Prog.each_pure _

theorem within_consumeOrRevokeFamily :
    (consumeOrRevokeFamily ctx rt).Each (Within rt.familyID rt.id) := by
  refine (Prog.each_exec fun _ => within_consumeRefreshToken).attempt.bind fun r => ?_
  cases r with
  | ok _ => trivial
  | error e => exact each_ite ((within_runReuseHalves rt.id).bind fun _ => trivial) trivial

theorem spares_respondToCodeReuse (fam : Family) :
    (respondToCodeReuse ctx fam).Each (Spares fam.id) := by
  have hdenylist : (denylistFamilyJTIs ctx fam.id).Each (Spares fam.id) :=
    (Prog.each_exec fun _ => spares_revokeByFamily).attempt
  refine each_ite (Prog.Each.bind ?_ fun _ => Prog.each_pure _)
    (hdenylist.bind fun _ => Prog.each_pure _)
  exact (Prog.each_exec fun _ => spares_revokeFamily).attempt.bind fun _ =>
    hdenylist.bind fun _ => Prog.each_pure _

/-- A refresh stops before the consumption with nothing changed, or goes on within the family. -/
theorem refreshToken_cases (env : Env) (ctx : ReqID) (req : RefreshTokenRequest)
    (pace : Pace) {w : World}
    (hids : (w.refreshTokens.map RefreshToken.id).Nodup) :
    (∃ e u, (admitRefresh env req).runPaced World.wait pace w = (.error e, u) ∧
      (refreshToken env ctx req).runPaced World.wait pace w = (.error e, u) ∧ Untouched w u) ∨
    ∃ a u, (admitRefresh env req).runPaced World.wait pace w = (.ok a, u) ∧ Admitted env req w a ∧
      Spares a.family.id w ((refreshToken env ctx req).runPaced World.wait pace w).2 := by
  have hquiet : (admitRefresh env req).Each World.Idle :=
    each_admitRefresh.mono fun _ _ => .of_quiet
  have hidle := hquiet.runPaced World.Idle.drifts pace w
  rcases Prog.runPaced_bind (admitRefresh env req) (fun a => do
    consumeOrRevokeFamily ctx a.token
    rotate env ctx req a.family a.client a.scope) pace
      w with ⟨e, u, hstop, hrun⟩ | ⟨a, u, rest, hok, hrun⟩
  · rw [hstop] at hidle
    exact .inl ⟨e, u, hstop, hrun, hidle.untouched⟩
  · rw [hok] at hidle
    have ha := admitted_of_ok hok
    refine .inr ⟨a, u, hok, ha, ?_⟩
    rw [(TokenStore.getFamily_ok ha.family).2]
    have hbelongs : BelongsTo a.token.familyID a.token.id u := by
      intro r hr hid
      rw [hidle.untouched.1] at hr
      rw [List.inj_on_of_nodup_map hids hr (TokenStore.getRefreshTokenByHash_ok ha.token).1 hid]
    refine (Spares.of_idle _ hidle).trans ?_
    rw [show (refreshToken env ctx req).runPaced World.wait pace w = _ from hrun]
    rcases within_consumeOrRevokeFamily.runPaced_bind (Within.drifts _ _)
      (fun _ => rotate env ctx req a.family a.client a.scope) rest u with
      ⟨hwithin, -⟩ | ⟨_, v, rest', hwithin, -, hrotate⟩
    · exact (hwithin hbelongs).2
    · have huses :
        (rotate env ctx req a.family a.client a.scope).Each (Uses env ctx Write.ofRotation) :=
        uses_rotate
      rw [hrotate]
      exact (hwithin hbelongs).2.trans
        ((huses.mono fun _ _ => spares_of_rotation).runPaced (Spares.drifts _) rest' v)

/-- A replayed code changes nothing, or is answered within the family of its session. -/
theorem handleCodeReuse_cases (env : Env) (ctx : ReqID) (sess : AuthSession)
    (verifier clientID : String)
    (pace : Pace) (w : World) :
    Untouched w ((handleCodeReuse env ctx sess verifier clientID).runPaced World.wait pace w).2 ∨
    env.verifyS256 verifier sess.codeChallenge = true ∧ clientID = sess.clientID ∧
      ∃ fam, TokenStore.getFamilyByAuthSessionID sess.id w = .ok fam ∧
        Spares fam.id w
          ((handleCodeReuse env ctx sess verifier clientID).runPaced World.wait pace w).2 := by
  unfold handleCodeReuse
  split
  · rename_i hproof
    obtain ⟨hverifier, hclient⟩ := Bool.and_eq_true_iff.mp hproof
    obtain ⟨rest, hrun⟩ := Prog.runPaced_attempt_bind
      (fetch (TokenStore.getFamilyByAuthSessionID sess.id)) _ pace w
    rw [hrun]
    split
    · rename_i fam hfam
      obtain ⟨hidle, hfound⟩ := ok_of_fetch (Prod.ext hfam rfl)
      refine .inr ⟨hverifier, beq_iff_eq.mp hclient, fam,
        hidle.getFamilyByAuthSessionID sess.id ▸ hfound, (Spares.of_idle _ hidle).trans ?_⟩
      exact (spares_respondToCodeReuse fam).runPaced (Spares.drifts _) rest _
    · exact .inl (idle_fetch _ pace w).untouched
  · exact .inl (World.Idle.drifts.refl w).untouched

theorem exchangeCode_cases (env : Env) (ctx : ReqID) (req : ExchangeCodeRequest) (pace : Pace)
    (h : (SessionStore.consumeByCodeHash ctx (env.hashSHA256 req.code) w).1 =
      .ok (.alreadyConsumed sess)) :
    Untouched w ((exchangeCode env ctx req).runPaced World.wait pace w).2 ∨
    env.verifyS256 req.codeVerifier sess.codeChallenge = true ∧ req.clientID = sess.clientID ∧
      ∃ fam, TokenStore.getFamilyByAuthSessionID sess.id w = .ok fam ∧
        Spares fam.id w ((exchangeCode env ctx req).runPaced World.wait pace w).2 := by
  obtain ⟨u, hu, hcall⟩ := Prog.runPaced_exec storeFault
    (SessionStore.consumeByCodeHash ctx (env.hashSHA256 req.code)) pace w
  obtain ⟨d, rfl⟩ := eq_wait_of_waited hu
  have hidle := World.Idle.drifts.waits d w
  have hreplay : SessionStore.consumeByCodeHash ctx (env.hashSHA256 req.code) (w.wait d) =
      (.ok (.alreadyConsumed sess), w.wait d) :=
    SessionStore.consumeByCodeHash_of_replay (show (w.wait d).sessions = w.sessions from rfl) h
  rw [hreplay] at hcall
  rcases Prog.runPaced_bind (store (SessionStore.consumeByCodeHash ctx (env.hashSHA256 req.code)))
    (fun use => redeemedSession env ctx req use >>= redeem env ctx req) pace w with
    ⟨e, t, hstop, hrun⟩ | ⟨use, t, rest, hok, hrun⟩
  · have ht : t = w.wait d := by
      rcases hcall with hmade | hfailed
      · cases (Prod.mk.inj (hmade.symm.trans hstop)).1
      · exact (Prod.mk.inj (hstop.symm.trans hfailed)).2
    left
    rw [show (exchangeCode env ctx req).runPaced World.wait pace w = _ from hrun, ht]
    exact hidle.untouched
  · obtain ⟨rfl, rfl⟩ : SessionStore.CodeUse.alreadyConsumed sess = use ∧ w.wait d = t := by
      rcases hcall with hmade | hfailed
      · obtain ⟨hr, ht⟩ := Prod.mk.inj (hmade.symm.trans hok)
        exact ⟨Except.ok.inj hr, ht⟩
      · cases (Prod.mk.inj (hfailed.symm.trans hok)).1
    -- whatever the response returns, the replay is then refused without another call
    have hlast : ((exchangeCode env ctx req).runPaced World.wait pace w).2 =
        ((handleCodeReuse env ctx sess req.codeVerifier req.clientID).runPaced World.wait rest
          (w.wait d)).2 := by
      rw [show (exchangeCode env ctx req).runPaced World.wait pace w = _ from hrun, redeemedSession,
        Prog.bind_assoc]
      rcases Prog.runPaced_bind (handleCodeReuse env ctx sess req.codeVerifier req.clientID)
        (fun _ => Prog.fail (.sentinel .codeConsumed) >>= redeem env ctx req) rest (w.wait d) with
        ⟨e, v, hhandled, hend⟩ | ⟨_, v, rest', hhandled, hend⟩
      · rw [hend, hhandled]
      · rw [hend, hhandled]
        rfl
    rw [hlast]
    rcases handleCodeReuse_cases env ctx sess req.codeVerifier req.clientID rest (w.wait d) with
      hsame | ⟨hverifier, hclient, fam, hfam, hspares⟩
    · exact .inl (hidle.untouched.trans hsame)
    · exact .inr ⟨hverifier, hclient, fam, hidle.getFamilyByAuthSessionID sess.id ▸ hfam,
        (Spares.of_idle _ hidle).trans hspares⟩

/-- **A refused refresh or a replayed code changes nothing unless the caller proved itself.** Take
any store in which the identifiers of refresh tokens are distinct.
* A refresh that fails before it presents its token to be consumed answers that error and leaves
  every refresh token, family and denylist entry as it was.
* If a refresh does change one of them, then its token was found unexpired in an active family, it
  named the client of the family and authenticated as it, the client is registered for the grant,
  and resource and scope were granted; and all it changed belongs to that family.
* If presenting a spent code changes one of them, then the caller held the verifier of the session
  and named its client, and all that changed belongs to the family of the session. -/
theorem refusal_changes_nothing (env : Env) (ctx : ReqID) (pace : Pace) (w : World)
    (hids : (w.refreshTokens.map RefreshToken.id).Nodup) :
    (∀ req e u, (admitRefresh env req).runPaced World.wait pace w = (.error e, u) →
      (refreshToken env ctx req).runPaced World.wait pace w = (.error e, u) ∧ Untouched w u) ∧
    (∀ req, ¬ Untouched w ((refreshToken env ctx req).runPaced World.wait pace w).2 →
      ∃ a, Admitted env req w a ∧
        Spares a.family.id w ((refreshToken env ctx req).runPaced World.wait pace w).2) ∧
    ∀ req sess, (SessionStore.consumeByCodeHash ctx (env.hashSHA256 req.code) w).1 =
        .ok (.alreadyConsumed sess) →
      ¬ Untouched w ((exchangeCode env ctx req).runPaced World.wait pace w).2 →
      env.verifyS256 req.codeVerifier sess.codeChallenge = true ∧ req.clientID = sess.clientID ∧
        ∃ fam, TokenStore.getFamilyByAuthSessionID sess.id w = .ok fam ∧
          Spares fam.id w ((exchangeCode env ctx req).runPaced World.wait pace w).2 := by
  refine ⟨fun req e u hrefused => ?_, fun req hchanged => ?_, fun req sess hspent hchanged => ?_⟩
  · rcases refreshToken_cases env ctx req pace hids with ⟨e', u', hstop, hrun,
      hsame⟩ | ⟨a, u', hok, -⟩
    · obtain ⟨he, rfl⟩ := Prod.mk.inj (hstop.symm.trans hrefused)
      obtain rfl := Except.error.inj he
      exact ⟨hrun, hsame⟩
    · cases (Prod.mk.inj (hok.symm.trans hrefused)).1
  · rcases refreshToken_cases env ctx req pace
      hids with ⟨e, u, -, hrun, hsame⟩ | ⟨a, -, -, ha, hspares⟩
    · rw [hrun] at hchanged
      exact absurd hsame hchanged
    · exact ⟨a, ha, hspares⟩
  · exact (exchangeCode_cases env ctx req pace hspent).resolve_left hchanged

end TokenService

def Sample.redeemed : World :=
  { Sample.world [{ Sample.session "s" "code" with consumedAt := some 0 }] with
    families := [TokenService.familyOf (Sample.session "s" "code") "family" 0]
    refreshTokens := [⟨"id", "family", Env.plain.hashSHA256 "token", 2000000000000, none, 0⟩] }

def Sample.refreshWith (clientSecret : String) : RefreshTokenRequest :=
  ⟨"token", "app", clientSecret, "", "", ⟨"", "", ""⟩⟩

def Sample.replayWith (verifier : String) : ExchangeCodeRequest :=
  ⟨"code", verifier, "https://app", "app", "", "", ⟨"", "", ""⟩⟩

/-- The wrong secret changes nothing. The right one and the verifier of the code do, in the family
of the client. -/
theorem TokenService.refusal_changes_nothing_redeemed :
    (∃ e u, (admitRefresh Env.plain (Sample.refreshWith "guess")).runPaced World.wait
      [] Sample.redeemed =
      (.error e, u) ∧ Untouched Sample.redeemed u) ∧
    (∃ a, Admitted Env.plain (Sample.refreshWith "secret") Sample.redeemed a) ∧
    ∃ fam, TokenStore.getFamilyByAuthSessionID "s" Sample.redeemed = .ok fam ∧
      Spares fam.id Sample.redeemed
        ((exchangeCode Env.plain 0 (Sample.replayWith "pkce")).runPaced World.wait
          [] Sample.redeemed).2 := by
  obtain ⟨hrefused, hrefreshed, hreplayed⟩ :=
    refusal_changes_nothing Env.plain 0 [] Sample.redeemed (by decide)
  refine ⟨⟨_, _, rfl, (hrefused (Sample.refreshWith "guess") _ _ rfl).2⟩, ?_, ?_⟩
  · obtain ⟨a, ha, -⟩ := hrefreshed (Sample.refreshWith "secret") fun h =>
      absurd (congrArg List.length h.2.2.2) (by decide +kernel)
    exact ⟨a, ha⟩
  · exact (hreplayed (Sample.replayWith "pkce") _ rfl fun h =>
      absurd (congrArg List.length h.2.2.2) (by decide +kernel)).2.2

end AuthServer
