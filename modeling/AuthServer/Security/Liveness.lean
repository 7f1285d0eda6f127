import AuthServer.Service.ExchangeRules
import AuthServer.Service.IntrospectionRules

/-!
# Introspection against exchange

Introspection and the exchange decide on their own whether a token may still be used. This module
lists the reasons for which introspection calls a token of an entitled caller inactive, and says for
each of them whether the exchange refuses the token, as a subject token and as an actor token.

## The distinction that decides it

* An issuing client or a subject that is *gone* makes introspection say inactive. The exchange lets
  it pass on purpose: a token minted through a fronting link names a resource where others name a
  client, and the subject of a machine token may be no user.
* Introspection takes a token to be a machine token when it has a machine-token row. The exchange
  takes it to be one when its subject is its client, and looks at the machine-token row of those and
  at the denylist for the others.
* An actor token is checked for liveness only, not for revocation. -/

namespace AuthServer

open Interleave

/-- Why introspection calls a token inactive. -/
inductive InactiveCause
  | issuanceRevoked
  | machineTokenRevoked
  | denylisted
  | clientInactive
  | clientGone
  | subjectDisabled
  | subjectGone
  deriving DecidableEq, Repr

namespace InactiveCause

def Holds (c : AccessTokenClaims) (w : World) : InactiveCause → Prop
  | issuanceRevoked => ∃ iss, IssuanceStore.getByJTI c.jti w = .ok (some iss) ∧ iss.isRevoked = true
  | machineTokenRevoked =>
    ∃ mt, MachineTokenStore.getByJTI c.jti w = .ok (some mt) ∧ mt.revoked = true
  | denylisted => RevocationStore.isRevoked c.jti w = .ok true
  | clientInactive => ∃ cl, ClientStore.getByID c.clientID w = .ok cl ∧ cl.isActive = false
  | clientGone => ∀ cl, ClientStore.getByID c.clientID w ≠ .ok cl
  | subjectDisabled => ∃ u, UserStore.getByID c.subject w = .ok u ∧ u.isActive = false
  | subjectGone => ∀ u, UserStore.getByID c.subject w ≠ .ok u

def StopsSubject (c : AccessTokenClaims) : InactiveCause → Prop
  | issuanceRevoked => True
  | machineTokenRevoked => c.subject = c.clientID
  | denylisted => c.subject ≠ c.clientID
  | clientInactive => True
  | clientGone => False
  | subjectDisabled => c.subject ≠ c.clientID
  | subjectGone => False

def StopsActor (c : AccessTokenClaims) : InactiveCause → Prop
  | clientInactive => True
  | subjectDisabled => c.subject ≠ c.clientID
  | _ => False

theorem Holds.of_quiet {cause : InactiveCause} {c : AccessTokenClaims} {w w' : World}
    (h : cause.Holds c w) (hq : w.Quiet w') : cause.Holds c w' := by
  obtain ⟨_, _, _, -, rfl⟩ := hq
  cases cause <;> exact h

end InactiveCause

/-! ### What introspection finds -/

namespace IntrospectionService

variable {c : AccessTokenClaims} {w : World}

theorem exists_cause_of_not_live (hjti : c.jti ≠ "") (h : liveIn c w = false) :
    ∃ cause, InactiveCause.Holds c w cause := by
  simp only [liveIn, Bool.and_eq_false_iff] at h
  rcases h with ((hstands | hunlisted) | hissuer) | hsubject
  · refine ⟨.issuanceRevoked, ?_⟩
    cases hfound : w.issuances.find? fun i => i.jti == c.jti && c.jti != "" with
    | none => simp [standsIn, hfound] at hstands
    | some iss =>
      exact ⟨iss, congrArg Except.ok hfound, by simpa [standsIn, hfound, hjti] using hstands⟩
  · have hrow : MachineTokenStore.getByJTI c.jti w = .ok (machineIn c w) := by
      simp [machineIn, hjti, MachineTokenStore.getByJTI]
    unfold unlistedIn at hunlisted
    split at hunlisted
    · rename_i mt hmt
      exact ⟨.machineTokenRevoked, mt, hmt ▸ hrow, by simpa using hunlisted⟩
    · exact ⟨.denylisted, by simpa [InactiveCause.Holds, RevocationStore.isRevoked,
        hjti] using hunlisted⟩
  · unfold issuerIn at hissuer
    split at hissuer
    · rename_i cl hget
      exact ⟨.clientInactive, cl, hget, hissuer⟩
    · rename_i e hget
      exact ⟨.clientGone, fun cl => by simp [hget]⟩
  · unfold subjectIn at hsubject
    split at hsubject
    · cases hsubject
    split at hsubject
    · rename_i u hget
      exact ⟨.subjectDisabled, u, hget, hsubject⟩
    · rename_i e hget
      exact ⟨.subjectGone, fun u => by simp [hget]⟩

/-- Introspection says inactive of a verified token to an entitled caller for one of the causes
only. -/
theorem exists_cause_of_inactive {env : Env} {clientID clientSecret : String} (hjti : c.jti ≠ "")
    (hverify : verifyAccessToken env c w = .ok c) (hentitled : entitledIn env clientID c w = true)
    (hinactive : ((introspectToken env ⟨c, clientID, clientSecret⟩).run [] w).1 = .ok inactive) :
    ∃ cause, InactiveCause.Holds c w cause := by
  refine exists_cause_of_not_live hjti (Bool.eq_false_iff.mpr fun hlive => ?_)
  obtain ⟨-, hresp⟩ := ok_of_introspectToken hinactive
  simp [hverify, hentitled, hlive, inactive, activeResponse] at hresp

end IntrospectionService

/-! ### What the exchange refuses -/

namespace TokenExchange

variable {i : ReqID} {env : Env} {c : AccessTokenClaims} {w : World} {cause : InactiveCause}

/-- With no store errors and nothing but quiet steps around it, a read returns what the world held
at the start. -/
theorem ensures_attempt_fetch {α : Type} {f : World → Except Err α}
    {Q : Except Err α → World → Prop}
    {s : World} (h : ∀ t, s.Quiet t → Q (f s) t) :
      Ensures (solo i False) i Q (fetch f).attempt s := by
  refine (tolerant_solo i False).attempt_fetch trivial fun r hr t hst _ => ?_
  rcases hr with rfl | ⟨-, hf⟩
  · exact h t (hst rfl)
  · exact hf.elim

theorem ensures_clientActive {id : String} {cl : Client}
    (hget : ClientStore.getByID id w = .ok cl) :
    Ensures (solo i False) i (fun active _ => active = cl.isActive) (clientActive env id) w := by
  refine .bind (ensures_attempt_fetch fun t hq => ?_)
  simp only [hget]
  rfl

theorem refused_checkIssuingClient (hne : c.clientID ≠ "")
    (h : InactiveCause.clientInactive.Holds c w) :
    Ensures (solo i False) i (fun _ _ => False) (checkIssuingClient env c) w := by
  obtain ⟨cl, hget, hinactive⟩ := h
  simp only [checkIssuingClient, beq_iff_eq, hne, if_false]
  refine .seq (ensures_clientActive hget) ?_
  rintro active t rfl
  exact Ensures.failIf fun hc => by simp [hinactive] at hc

theorem refused_checkSubjectAlive (hsub : c.subject ≠ "") (hne : c.subject ≠ c.clientID)
    (h : InactiveCause.subjectDisabled.Holds c w) :
    Ensures (solo i False) i (fun _ _ => False) (checkSubjectAlive env c) w := by
  obtain ⟨u, hget, hinactive⟩ := h
  simp only [checkSubjectAlive, beq_iff_eq, hsub, hne, Bool.or_eq_true, or_self, if_false]
  refine .bind (ensures_attempt_fetch fun t hq => ?_)
  simp only [hget]
  exact Ensures.failIf fun hc => by simp [hinactive] at hc

theorem refused_checkLiveness (hclient : c.clientID ≠ "") (hsub : c.subject ≠ "")
    (h : cause.Holds c w) (hstops : cause.StopsActor c) :
    Ensures (solo i False) i (fun _ _ => False) (checkLiveness env c) w := by
  have hC := tolerant_solo i False
  unfold checkLiveness
  cases cause with
  | clientInactive =>
    exact .seq (refused_checkIssuingClient hclient h) fun _ _ hF => hF.elim
  | subjectDisabled =>
    refine hC.pass (each_checkIssuingClient _ _) trivial fun _ t hst _ => ?_
    exact refused_checkSubjectAlive hsub hstops
      (h.of_quiet (hst rfl))
  | _ => exact hstops.elim

theorem refused_checkRevocation (hjti : c.jti ≠ "") (h : cause.Holds c w)
    (hstops : cause.StopsSubject c) (hactor : ¬cause.StopsActor c) :
    Ensures (solo i False) i (fun _ _ => False) (checkRevocation c) w := by
  have hC := tolerant_solo i False
  simp only [checkRevocation, beq_iff_eq, hjti, if_false]
  refine .bind (ensures_wrapErr (hC.fetch trivial fun found hfound t hst _ => ?_))
  refine Ensures.bindFailIf fun hrevoked => ?_
  have ht := h.of_quiet (hst rfl)
  cases cause with
  | issuanceRevoked =>
    obtain ⟨iss, hget, hrev⟩ := h
    obtain rfl : found = some iss := by simpa [hfound] using hget
    simp [hrev] at hrevoked
  | machineTokenRevoked =>
    obtain ⟨mt, hget, hrev⟩ := ht
    have hsame : c.subject = c.clientID := hstops
    simp only [checkLegacyRevocation, beq_iff_eq, hsame, if_true]
    refine Safe.bind (ensures_attempt_fetch fun t' _ => Ensures.failIf fun hc => ?_)
    simp [hget, hrev] at hc
  | denylisted =>
    have hne : c.subject ≠ c.clientID := hstops
    simp only [checkLegacyRevocation, beq_iff_eq, hne, if_false]
    refine Safe.bind (ensures_attempt_fetch fun t' _ => Ensures.failIf fun hc => ?_)
    rw [show RevocationStore.isRevoked c.jti t = .ok true from ht] at hc
    cases hc
  | clientInactive => exact absurd trivial hactor
  | subjectDisabled => exact absurd hstops hactor
  | clientGone => exact hstops.elim
  | subjectGone => exact hstops.elim

theorem refused_acceptSubject (hjti : c.jti ≠ "") (hclient : c.clientID ≠ "")
    (hsub : c.subject ≠ "")
    (h : cause.Holds c w) (hstops : cause.StopsSubject c) :
    Ensures (solo i False) i (fun _ _ => False) (acceptSubject env c) w := by
  have hC := tolerant_solo i False
  refine .seq (ensures_verifyToken hC trivial c) ?_
  rintro c' t₁ ⟨hrely, -, rfl, -⟩
  have hq₁ : w.Quiet t₁ := hrely rfl
  refine Ensures.bindFailIf fun _ => ?_
  have h₁ := h.of_quiet hq₁
  by_cases hactor : cause.StopsActor c'
  · refine hC.pass (each_checkRevocation _) trivial fun _ t₂ hst _ => ?_
    have h₂ := h₁.of_quiet (hst rfl)
    exact .seq (refused_checkLiveness hclient hsub h₂ hactor)
      fun _ _ hF => hF.elim
  · exact .seq (refused_checkRevocation hjti h₁ hstops hactor)
      fun _ _ hF => hF.elim

variable {req : TokenExchangeRequest}

theorem refused_verifyActor (hreq : req.actorToken = some c) (hclient : c.clientID ≠ "")
    (hsub : c.subject ≠ "") (h : cause.Holds c w) (hstops : cause.StopsActor c) :
    Ensures (solo i False) i (fun _ _ => False) (verifyActor env req) w := by
  simp only [verifyActor, hreq]
  refine .bindFailIf fun _ => ?_
  refine .seq (ensures_verifyToken (tolerant_solo i False) trivial c) ?_
  rintro c' t ⟨hrely, -, rfl, -⟩
  have ht := h.of_quiet (hrely rfl)
  exact .seq (refused_checkLiveness hclient hsub ht hstops) fun _ _ hF => hF.elim

/-- Whatever path a request takes, an actor token is looked at before a token is handed out. -/
theorem refused_of_actor (hreq : req.actorToken = some c) (hclient : c.clientID ≠ "")
    (hsub : c.subject ≠ "") (h : cause.Holds c w) (hstops : cause.StopsActor c) :
    Ensures (solo i False) i (fun _ _ => False) (exchange env i req) w := by
  have hC := tolerant_solo i False
  have hactor :
    ∀ {α : Type} {g : Option AccessTokenClaims → Svc α} {Q : α → World → Prop} {t : World},
      w.Quiet t → Ensures (solo i False) i Q (verifyActor env req >>= g) t := fun hq =>
    .seq (refused_verifyActor hreq hclient hsub
      (h.of_quiet hq) hstops) fun _ _ hF => hF.elim
  refine .bindOfExcept fun raw _ => ?_
  refine hC.pass (each_authenticateMachine _ _ _) trivial fun actingClient t₁ h₁ _ => ?_
  refine .bindFailIf fun _ => .bindFailIf fun _ => ?_
  refine hC.pass (each_acceptSubject _ _) trivial fun claims t₂ h₂ _ => ?_
  have hq₂ := (h₁ rfl).trans (h₂ rfl)
  unfold exchangeFor
  split
  · exact hactor hq₂
  · refine hC.pass each_fetch.attempt trivial fun r t₃ h₃ _ => ?_
    refine .bindOfExcept fun target _ => ?_
    refine hC.pass (each_isFrontedBrokerExchange _ _ _) trivial fun fronted t₄ h₄ _ => ?_
    refine .bindOfExcept fun _ _ => ?_
    have hq₄ := (hq₂.trans (h₃ rfl)).trans (h₄ rfl)
    unfold dispatch
    split
    · refine .bindFailIf fun _ => ?_
      refine hC.pass (each_resolveSourceForFronting _ _) trivial fun source t₅ h₅ _ => ?_
      refine hC.pass (each_mintFronting _ _) trivial fun fronting t₆ h₆ _ => ?_
      refine hC.pass (each_authorizeScope _ _ _ _ _) trivial fun scope t₇ h₇ _ => ?_
      exact hactor (((hq₄.trans (h₅ rfl)).trans (h₆ rfl)).trans (h₇ rfl))
    · refine .bindFailIf fun hnone => ?_
      simp [hreq] at hnone

theorem refused_of_subject (hreq : req.subjectToken = some c) (hjti : c.jti ≠ "")
    (hclient : c.clientID ≠ "") (hsub : c.subject ≠ "") (h : cause.Holds c w)
      (hstops : cause.StopsSubject c) :
    Ensures (solo i False) i (fun _ _ => False) (exchange env i req) w := by
  have hC := tolerant_solo i False
  refine .bindOfExcept fun raw hraw => ?_
  obtain rfl : c = raw := by simpa [hreq] using hraw
  refine hC.pass (each_authenticateMachine _ _ _) trivial fun actingClient t₁ h₁ _ => ?_
  refine .bindFailIf fun _ => .bindFailIf fun _ => ?_
  have ht₁ := h.of_quiet (h₁ rfl)
  exact .seq (refused_acceptSubject hjti hclient hsub ht₁ hstops)
    fun _ _ hF => hF.elim

def Refused (env : Env) (ctx : ReqID) (req : TokenExchangeRequest) (w : World) : Prop :=
  ∀ resp, ((exchange env ctx req).run [] w).1 ≠ .ok resp

theorem refused_of_ensures
    (h : Ensures (solo i False) i (fun _ _ => False) (exchange env i req) w) :
    Refused env i req w := fun resp hresp =>
  (h.run trivial (fun _ _ => trivial) [] fun _ h => by simp at h).2.2.1 resp hresp

/-- **What introspection calls inactive, and what of it the exchange refuses.** A signed token that
verifies and that introspection reports inactive to an entitled caller is so for one of the listed
causes, and every cause that stops the token in its role makes the exchange refuse it. -/
theorem introspected_inactive_refused {clientID clientSecret : String}
    (hsigned : signAccessToken c = .ok c) (hverify : verifyAccessToken env c w = .ok c)
    (hentitled : IntrospectionService.entitledIn env clientID c w = true)
    (hinactive : ((IntrospectionService.introspectToken env
      ⟨c, clientID, clientSecret⟩).run [] w).1 =
      .ok IntrospectionService.inactive) :
    (∃ cause, InactiveCause.Holds c w cause) ∧
      ∀ cause, InactiveCause.Holds c w cause → ∀ ctx req,
        (req.subjectToken = some c → cause.StopsSubject c → Refused env ctx req w) ∧
        (req.actorToken = some c → cause.StopsActor c → Refused env ctx req w) := by
  obtain ⟨-, hsub, hclient, hjti⟩ := signAccessToken_ok hsigned
  refine ⟨IntrospectionService.exists_cause_of_inactive hjti hverify hentitled hinactive, ?_⟩
  intro cause hcause ctx req
  exact ⟨fun hreq hstops =>
    refused_of_ensures (refused_of_subject hreq hjti hclient hsub hcause hstops),
    fun hreq hstops => refused_of_ensures (refused_of_actor hreq hclient hsub hcause hstops)⟩

/-! ### Runs -/

def exchangingClient (id : String) : Client :=
  ⟨id, "secret", [], [grantTypeTokenExchange], .active, "", "", false, .admin, "", [], "", "", "",
    1⟩

/-- A service for which one client may exchange other clients' tokens. -/
def mail : Resource :=
  ⟨"r1", "mail", "https://mail", .mint, "", [⟨"mail:read", ""⟩], ⟨["agent"], ["agent"], []⟩⟩

/-- A service behind it. -/
def archive : Resource :=
  ⟨"r2", "archive", "https://archive", .mint, "", [⟨"archive:read", ""⟩], ⟨[], [], []⟩⟩

def mailToken (subject clientID jti : String) : AccessTokenClaims :=
  ⟨"https://as", subject, ["https://mail"], clientID, "mail:read", jti, 1000, 2000, 1000,
    none, none, "", []⟩

/-- A deployment in which these tokens have been handed out. -/
def mailHosting (tokens : List AccessTokenClaims) : World :=
  { World.empty 1000000000000 with
    clients := [exchangingClient "agent"], users := [⟨"user", true⟩], resources := [mail, archive]
    frontingLinks := [⟨"mail", "archive", ⟨[("mail:read", ["archive:read"])], by decide⟩⟩]
    released := tokens }

def present (resource : String) (subject : AccessTokenClaims) (actor : Option AccessTokenClaims) :
    TokenExchangeRequest :=
  ⟨"agent", "secret", some subject, tokenTypeAccessToken, actor, "", resource, "", ⟨"", "", ""⟩⟩

def ask (c : AccessTokenClaims) : IntrospectRequest := ⟨c, "agent", "secret"⟩

def ReportedInactive (c : AccessTokenClaims) (w : World) : Prop :=
  ((IntrospectionService.introspectToken Env.plain (ask c)).run [] w).1 =
    .ok IntrospectionService.inactive

def revokedIssuance (jti : String) : Issuance :=
  ⟨jti, "user", "agent", "r1", [], .mint, true, 0, 0, some 0, jti, "", "", [], "agent", ""⟩

/-- A token whose user has been disabled. -/
theorem introspected_inactive_refused_disabled :
    Refused Env.plain 0 (present "" (mailToken "user" "agent" "t") none)
      { mailHosting [mailToken "user" "agent" "t"] with users := [⟨"user", false⟩] } := by
  have h := @introspected_inactive_refused Env.plain (mailToken "user" "agent" "t")
    { mailHosting [mailToken "user" "agent" "t"] with users := [⟨"user", false⟩] }
    "agent" "secret" rfl rfl rfl rfl
  exact (h.2 .subjectDisabled ⟨⟨"user", false⟩, rfl, rfl⟩ 0 _).1 rfl
    (show "user" ≠ "agent" by decide)

/-- **Inactive, and exchanged all the same:** a token whose user is gone; a token whose issuing
client is gone, through a fronting link; a user's token with a revoked machine-token row; a
denylisted token whose subject is its client; and, as an actor token, one whose issuance row is
revoked. -/
theorem introspected_inactive_exchanged :
    (∃ w resp, ReportedInactive (mailToken "user" "agent" "t") w ∧ w.users = [] ∧
      ((exchange Env.plain 0 (present "" (mailToken "user" "agent" "t") none)).run [] w).1 =
        .ok resp) ∧
    (∃ w resp, ReportedInactive (mailToken "user" "former" "t") w ∧
      ClientStore.getByID "former" w = .error (.sentinel .invalidClient) ∧
      ((exchange Env.plain 0 (present "archive" (mailToken "user" "former" "t") none)).run [] w).1 =
        .ok resp) ∧
    (∃ w resp, ReportedInactive (mailToken "user" "agent" "t") w ∧
      w.machineTokens.any (fun mt => mt.jti == "t" && mt.revoked) = true ∧
      ((exchange Env.plain 0 (present "" (mailToken "user" "agent" "t") none)).run [] w).1 =
        .ok resp) ∧
    (∃ w resp, ReportedInactive (mailToken "agent" "agent" "t") w ∧
      RevocationStore.isRevoked "t" w = .ok true ∧
      ((exchange Env.plain 0 (present "" (mailToken "agent" "agent" "t") none)).run [] w).1 =
        .ok resp) ∧
    ∃ w resp, ReportedInactive (mailToken "user" "agent" "t") w ∧
      ((exchange Env.plain 0 (present "" (mailToken "user" "agent" "s")
        (some (mailToken "user" "agent" "t")))).run [] w).1 = .ok resp := by
  refine ⟨⟨{ mailHosting [mailToken "user" "agent" "t"] with users := [] }, _, rfl, rfl, rfl⟩,
    ⟨mailHosting [mailToken "user" "former" "t"], _, rfl, rfl, rfl⟩,
    ⟨{ mailHosting [mailToken "user" "agent" "t"] with
        machineTokens := [⟨"t", "agent", ScopeSet.parse "mail:read", "", 0, 0, true⟩] },
      _, rfl, rfl, rfl⟩,
    ⟨{ mailHosting [mailToken "agent" "agent" "t"] with
        revokedJTIs := [⟨"t", 0⟩], users := [⟨"agent", true⟩] }, _, rfl, rfl, rfl⟩,
    ⟨{ mailHosting [mailToken "user" "agent" "t", mailToken "user" "agent" "s"] with
        issuances := [revokedIssuance "t"] }, _, rfl, rfl⟩⟩

end TokenExchange

end AuthServer
