import AuthServer.Service.IntrospectionRules
import AuthServer.Service.Serve

/-!
# What a stranger can find out about a token

A client that authenticates may present any string to introspection and to revocation. Introspection
is to tell it nothing about a token that it is not entitled to ask about, revocation is to do
nothing to a token that is not its own, and neither is to let it see the difference to a string that
is no token at all.

Both come to one answer. `run_introspect_stranger` and `run_revoke_stranger` compute it, for any
failures of the lookups behind the client's own; `stranger_learns_nothing` compares two strings. -/

namespace AuthServer

open Interleave IntrospectionService RevocationService

variable {env : Env} {ctx : ReqID} {w : World} {clientID clientSecret : String} {cl : Client}

/-- What introspection reads in a string: the claims of an access token, and nothing in any other
string. -/
def PresentedToken.claims : PresentedToken → AccessTokenClaims
  | .access claims => claims
  | .refresh _ => ⟨"", "", [], "", "", "", 0, 0, 0, none, none, "", []⟩

/-- The client may ask about the token: the token verifies, and the client is entitled. -/
def MayAsk (env : Env) (w : World) (clientID : String) (token : PresentedToken) : Prop :=
  verifyAccessToken env token.claims w = .ok token.claims ∧
    entitledIn env clientID token.claims w = true

/-- The token is the client's: a refresh token of one of its families, or an access token that was
issued to it. -/
def Owns (env : Env) (w : World) (clientID : String) : PresentedToken → Prop
  | .refresh plain =>
    ∃ rt family, TokenStore.getRefreshTokenByHash (env.hashSHA256 plain) w = .ok rt ∧
      TokenStore.getFamily rt.familyID w = .ok family ∧ family.clientID = clientID
  | .access claims => verifyAccessToken env claims w = .ok claims ∧ claims.clientID = clientID

/-! ### Introspection -/

theorem run_audienceAuthorizes_stranger {audience : List String}
    (h : audience.any (fun aud => aud != "" && aud != env.issuer &&
      match ResourceRegistry.resolve aud w with
      | .ok r => resourceAuthorizes r clientID
      | .error _ => false) = false) (plan : List Bool) :
    (audienceAuthorizes env clientID audience).run plan w = (.ok false, w) := by
  induction audience generalizing plan with
  | nil => rfl
  | cons aud rest ih =>
    obtain ⟨haud, hrest⟩ := Bool.or_eq_false_iff.mp h
    unfold audienceAuthorizes
    split
    · exact ih hrest plan
    · rename_i hskip
      simp only [Bool.or_eq_true, beq_iff_eq, not_or] at hskip
      rw [run_attempt_fetch_bind]
      cases plan.headD false with
      | true => exact ih hrest plan.tail
      | false =>
        rw [if_neg Bool.false_ne_true]
        cases hres : ResourceRegistry.resolve aud w with
        | error e => exact ih hrest plan.tail
        | ok res =>
          have hdenied : resourceAuthorizes res clientID = false := by
            simpa [hskip, hres] using haud
          dsimp only
          rw [hdenied]
          exact ih hrest plan.tail

theorem run_callerEntitlement_stranger {c : AccessTokenClaims}
    (h : entitledIn env clientID c w = false)
    (plan : List Bool) : (callerEntitlement env clientID c).run plan w = (.ok false, w) := by
  obtain ⟨hown, haud⟩ := Bool.or_eq_false_iff.mp h
  unfold callerEntitlement
  rw [hown, if_neg Bool.false_ne_true]
  exact run_audienceAuthorizes_stranger haud plan

variable {token : PresentedToken}

theorem run_introspect_stranger (hget : ClientStore.getByID clientID w = .ok cl)
    (haccepts : accepts env cl clientSecret = true) (h : ¬MayAsk env w clientID token)
      (plan : List Bool) :
    ((introspectToken env ⟨token.claims, clientID, clientSecret⟩).run plan w).1 =
      if plan.headD false then .error (.sentinel .invalidClient) else .ok inactive := by
  rw [introspectToken, authenticateCaller, Prog.bind_assoc, run_attempt_fetch_bind]
  cases plan.headD false with
  | true => rfl
  | false =>
    rw [if_neg Bool.false_ne_true, if_neg Bool.false_ne_true, hget]
    change (Prog.run ((failIf (!accepts env cl clientSecret) _ >>= fun _ => pure cl) >>= _)
      plan.tail w).1 = _
    rw [haccepts]
    change (Prog.run ((fetch fun w => .ok (verifyAccessToken env token.claims w)).attempt >>= _)
      plan.tail w).1 = _
    rw [run_attempt_fetch_bind]
    cases plan.tail.headD false with
    | true => rfl
    | false =>
      rw [if_neg Bool.false_ne_true]
      cases hverify : verifyAccessToken env token.claims w with
      | error e => rfl
      | ok claims =>
        obtain rfl := (verifyAccessToken_ok hverify).1
        obtain rfl := (ClientStore.mem_of_getByID hget).2
        have hstranger := Bool.eq_false_iff.mpr fun hentitled => h ⟨hverify, hentitled⟩
        obtain ⟨rest, hrun⟩ :=
          Prog.exists_run_bind (run_callerEntitlement_stranger hstranger plan.tail.tail)
          fun entitled => if entitled then do
            let live ← isLive token.claims
            pure (if live then activeResponse token.claims else inactive)
          else pure inactive
        exact congrArg Prod.fst hrun

/-! ### Revocation -/

theorem run_revokePresented_stranger (h : ¬Owns env w clientID token) (plan : List Bool) :
    (revokePresented env ctx clientID token).run plan w = (.ok (), w) := by
  cases token with
  | refresh plain =>
    rw [revokePresented, run_attempt_fetch_bind]
    cases plan.headD false with
    | true => rfl
    | false =>
      rw [if_neg Bool.false_ne_true]
      cases hrt : TokenStore.getRefreshTokenByHash (env.hashSHA256 plain) w with
      | error e => rfl
      | ok rt =>
        dsimp only
        rw [revokeOwnFamily, run_attempt_fetch_bind]
        cases plan.tail.headD false with
        | true => rfl
        | false =>
          rw [if_neg Bool.false_ne_true]
          cases hfamily : TokenStore.getFamily rt.familyID w with
          | error e => rfl
          | ok family =>
            have hother : family.clientID ≠ clientID := fun heq => h ⟨rt, family, hrt, hfamily, heq⟩
            dsimp only
            rw [if_pos (by simpa using hother)]
            rfl
  | access claims =>
    rw [revokePresented, tryRevokeMachineToken, run_attempt_fetch_bind]
    cases plan.headD false with
    | true => rfl
    | false =>
      rw [if_neg Bool.false_ne_true]
      cases hverify : verifyAccessToken env claims w with
      | error e => rfl
      | ok claims' =>
        obtain rfl := (verifyAccessToken_ok hverify).1
        have hother : claims'.clientID ≠ clientID := fun heq => h ⟨hverify, heq⟩
        dsimp only
        rw [if_pos (by simpa using hother)]
        rfl

theorem run_revoke_stranger (hget : ClientStore.getByID clientID w = .ok cl)
    (hstanding : standing env cl clientSecret = .ok true) (h : ¬Owns env w clientID token)
      (plan : List Bool) :
    (revokeToken env ctx ⟨token, clientID, clientSecret⟩).run plan w =
      (if plan.headD false then .error (.sentinel .invalidClient) else .ok (), w) := by
  rw [revokeToken, run_attempt_fetch_bind]
  cases plan.headD false with
  | true => rfl
  | false =>
    rw [if_neg Bool.false_ne_true, if_neg Bool.false_ne_true, hget]
    change (Prog.ofExcept (standing env cl clientSecret) >>= fun allowed =>
      runIf allowed (revokePresented env ctx clientID token)).run plan.tail w = _
    rw [hstanding]
    exact run_revokePresented_stranger h plan.tail

/-- **A stranger learns nothing and changes nothing.** For a client that introspection accepts, two
strings that it is not entitled to ask about get the same response; for a client with standing to
revoke, two strings that are not its own get the same answer, and the world is as it was. The
lookups may fail in any way, other than one run finding the client and the other not. -/
theorem stranger_learns_nothing (env : Env) (ctx : ReqID) (w : World)
    (clientID clientSecret : String) (cl : Client)
    (token token' : PresentedToken) (plan plan' : List Bool)
      (hget : ClientStore.getByID clientID w = .ok cl)
    (hplan : plan.headD false = plan'.headD false) :
    (accepts env cl clientSecret = true → ¬MayAsk env w clientID token →
      ¬MayAsk env w clientID token' →
      ((introspectToken env ⟨token.claims, clientID, clientSecret⟩).run plan w).1 =
        ((introspectToken env ⟨token'.claims, clientID, clientSecret⟩).run plan' w).1) ∧
    (standing env cl clientSecret = .ok true → ¬Owns env w clientID token →
      ¬Owns env w clientID token' →
      ((revokeToken env ctx ⟨token, clientID, clientSecret⟩).run plan w).1 =
        ((revokeToken env ctx ⟨token', clientID, clientSecret⟩).run plan' w).1 ∧
      ((revokeToken env ctx ⟨token, clientID, clientSecret⟩).run plan w).2 = w ∧
      ((revokeToken env ctx ⟨token', clientID, clientSecret⟩).run plan' w).2 = w) := by
  constructor
  · intro haccepts h h'
    rw [run_introspect_stranger hget haccepts h, run_introspect_stranger hget haccepts h', hplan]
  · intro hstanding h h'
    rw [run_revoke_stranger hget hstanding h, run_revoke_stranger hget hstanding h', hplan]
    exact ⟨rfl, rfl, rfl⟩

/-- The small deployment with a second client and a live token of the first. -/
def Sample.visited : World :=
  { Sample.world [] with
    clients := [Sample.app, { Sample.app with id := "other" }]
    released := [Sample.userToken "t"] }

/-- The live token of another client, against a string that is no token. -/
theorem stranger_learns_nothing_live :
    verifyAccessToken Env.plain (Sample.userToken "t") Sample.visited = .ok (Sample.userToken "t") ∧
      ((introspectToken Env.plain ⟨Sample.userToken "t", "other", "secret"⟩).run
        [] Sample.visited).1 =
        ((introspectToken Env.plain ⟨(PresentedToken.refresh "x").claims, "other", "secret"⟩).run
          [] Sample.visited).1 ∧
      ((revokeToken Env.plain 0 ⟨.access (Sample.userToken "t"), "other", "secret"⟩).run []
        Sample.visited).2 = Sample.visited := by
  have hclient : (Sample.userToken "t").clientID ≠ "other" := by decide
  have hstranger : ¬MayAsk Env.plain Sample.visited "other" (.access (Sample.userToken "t")) :=
    fun h => absurd h.2 (by decide)
  have hnone : ¬MayAsk Env.plain Sample.visited "other" (.refresh "x") :=
    fun h => absurd h.1 (by decide)
  have hboth := stranger_learns_nothing Env.plain 0 Sample.visited "other" "secret"
    { Sample.app with id := "other" } (.access (Sample.userToken "t")) (.refresh "x") [] [] rfl rfl
  refine ⟨rfl, hboth.1 rfl hstranger hnone, ?_⟩
  refine (hboth.2 rfl (fun h => hclient h.2) ?_).2.1
  rintro ⟨rt, -, hrt, -⟩
  cases hrt

end AuthServer
