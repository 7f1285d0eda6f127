import AuthServer.Service.IntrospectionRules
import AuthServer.Service.Serve

/-!
# Introspection when lookups fail

Each lookup that introspection makes may fail, and each has its own rule for that. The rules are
strict but for one: a machine-token lookup that fails is taken for the answer that the token has no
machine-token row, and the row's revocation is then overlooked. What else the token is checked for
still counts, so the overlooked row matters exactly where nothing else stands against the token.
-/

namespace AuthServer

open Interleave IntrospectionService

namespace IntrospectionService

variable {env : Env} {c : AccessTokenClaims} {w : World}

/-- Introspection reports the token active to the caller, with the calls of the plan failing. -/
def ReportedActiveUnder (env : Env) (req : IntrospectRequest) (plan : List Bool)
    (w : World) : Prop :=
  ∃ resp, ((introspectToken env req).run plan w).1 = .ok resp ∧ resp.active = true

/-- Every check after the failed lookup passes where only the row is revoked. -/
theorem exists_run_isLive (h : OnlyRowRevoked c w) : ∃ plan,
    (isLive c).run plan w = (.ok true, w) := by
  obtain ⟨hstands, ⟨mt, hmt, -⟩, hlist, hissuer, hsubject⟩ := h
  have hjti : c.jti ≠ "" := by
    intro hjti
    simp [machineIn, hjti] at hmt
  have hstood : (issuanceStands c).run [] w = (.ok true, w) := by rw [run_issuanceStands, hstands]
  obtain ⟨n, hn⟩ := Prog.exists_run_bind_append (β := Bool) hstood
  -- the row's lookup is the first call after those of the issuance check
  refine ⟨List.replicate n false ++ [true], ?_⟩
  unfold isLive
  rw [hn, if_pos rfl]
  -- a failed lookup is taken for the answer that there is no row
  have hrest : ∀ g : Option MachineToken → Svc Bool,
      (machineRow c >>= g).run [true] w = (g none).run [] w := by
    intro g
    simp only [machineRow, beq_iff_eq, hjti, if_false]
    rfl
  have hnot : (notDenylisted c none).run [] w = (.ok true, w) := by
    simp only [notDenylisted, beq_iff_eq, hjti, if_false, Prog.run_bind, run_attempt_fetch,
      RevocationStore.isRevoked, hlist]
    rfl
  rw [hrest]
  simp only [Prog.run_bind, hnot, if_true, run_issuerAlive, hissuer, Option.isSome_none,
    run_subjectAlive, hsubject]

theorem exists_run_introspectToken {clientID clientSecret : String}
    (haccepted : Accepted env clientID clientSecret w)
      (hentitled : entitledIn env clientID c w = true)
    (hverify : verifyAccessToken env c w = .ok c) (h : OnlyRowRevoked c w) :
    ∃ plan, ReportedActiveUnder env ⟨c, clientID, clientSecret⟩ plan w := by
  obtain ⟨cl, hget, haccepts⟩ := haccepted
  obtain ⟨plan, hlive⟩ := exists_run_isLive h
  have hauth : (authenticateCaller env ⟨c, clientID, clientSecret⟩).run [] w = (.ok cl, w) := by
    rw [run_authenticateCaller hget, if_pos haccepts]
  obtain ⟨n₁, h₁⟩ := Prog.exists_run_bind_append (β := IntrospectResponse) hauth
  obtain ⟨n₂, h₂⟩ := Prog.exists_run_bind_append (β := IntrospectResponse)
    (run_attempt_fetch (fun w => .ok (verifyAccessToken env c w)) w)
  have hmay : (callerEntitlement env cl.id c).run [] w = (.ok true, w) := by
    rw [run_callerEntitlement, (ClientStore.mem_of_getByID hget).2, hentitled]
  obtain ⟨n₃, h₃⟩ := Prog.exists_run_bind_append (β := IntrospectResponse) hmay
  refine ⟨List.replicate n₁ false ++ (List.replicate n₂ false ++ (List.replicate n₃ false ++ plan)),
    activeResponse c, ?_, rfl⟩
  unfold introspectToken
  rw [h₁, h₂, hverify]
  simp only
  unfold introspectVerified
  rw [h₃, if_pos rfl]
  obtain ⟨rest, hrest⟩ := Prog.exists_run_bind hlive fun live =>
    (pure (if live then activeResponse c else inactive) : Svc IntrospectResponse)
  rw [hrest]
  rfl

end IntrospectionService

/-- **When a failing store brings no dead token back.** For a caller that is accepted and entitled:
a token that is reported inactive with no lookup failing is reported active under no choice of
failing lookups, exactly when it is not one that verifies and has nothing against it but its revoked
machine-token row. -/
theorem IntrospectionService.dead_stays_dead_iff (env : Env) (w : World) (c : AccessTokenClaims)
    (clientID clientSecret : String) (haccepted : Accepted env clientID clientSecret w)
    (hentitled : entitledIn env clientID c w = true) :
    (¬ ReportedActive env ⟨c, clientID, clientSecret⟩ w →
      ∀ plan, ¬ ReportedActiveUnder env ⟨c, clientID, clientSecret⟩ plan w) ↔
    ¬ (verifyAccessToken env c w = .ok c ∧ OnlyRowRevoked c w) := by
  constructor
  · rintro hdead ⟨hverify, hrow⟩
    have hinactive : ¬ ReportedActive env ⟨c, clientID, clientSecret⟩ w := by
      intro hactive
      obtain ⟨-, -, -, hlive⟩ := reportedActive_iff.mp hactive
      rw [hrow.not_live] at hlive
      cases hlive
    obtain ⟨plan, hplan⟩ := exists_run_introspectToken haccepted hentitled hverify hrow
    exact hdead hinactive plan hplan
  · rintro hnot hinactive plan ⟨resp, hrun, hactive⟩
    obtain ⟨hverify, hlive | hrow⟩ := active_of_run hrun hactive
    · exact hinactive (reportedActive_iff.mpr ⟨haccepted, hverify, hentitled, hlive⟩)
    · exact hnot ⟨hverify, hrow⟩

namespace Sample

def exchangedTokenWorld (denylist : List RevokedJTI) : World :=
  { world [] with
    released := [userToken "t"]
    revokedJTIs := denylist
    machineTokens :=
      [⟨"t", "app", ScopeSet.parse "notes:read", "", 900000000000, 2000000000000, true⟩] }

def askOwn : IntrospectRequest := ⟨userToken "t", "app", "secret"⟩

end Sample

open Sample in
/-- The fourth lookup, that of the machine-token row, fails, and the revoked token is reported
active. -/
theorem IntrospectionService.failed_lookup_revives :
    entitledIn Env.plain "app" (userToken "t") (exchangedTokenWorld []) = true ∧
    ((introspectToken Env.plain askOwn).run [] (exchangedTokenWorld [])).1 = .ok inactive ∧
    ((introspectToken Env.plain askOwn).run [false, false, false, true]
      (exchangedTokenWorld [])).1 =
      .ok (activeResponse (userToken "t")) := by
  decide +kernel

open Sample in
/-- A token that is on the denylist as well stays dead. -/
theorem IntrospectionService.dead_stays_dead_denylisted :
    ¬ ReportedActive Env.plain askOwn (exchangedTokenWorld [⟨"t", 2000000000000⟩]) ∧
      ∀ plan, ¬ ReportedActiveUnder Env.plain askOwn plan
        (exchangedTokenWorld [⟨"t", 2000000000000⟩]) := by
  have hinactive : ¬ ReportedActive Env.plain askOwn
    (exchangedTokenWorld [⟨"t", 2000000000000⟩]) := by
    rintro ⟨resp, hrun, hactive⟩
    have hresp : ((introspectToken Env.plain askOwn).run []
        (exchangedTokenWorld [⟨"t", 2000000000000⟩])).1 = .ok inactive := by decide +kernel
    rw [hresp] at hrun
    obtain rfl := Except.ok.inj hrun
    cases hactive
  refine ⟨hinactive, ?_⟩
  refine (IntrospectionService.dead_stays_dead_iff Env.plain
    (exchangedTokenWorld [⟨"t", 2000000000000⟩]) (userToken "t") "app" "secret"
    ⟨app, rfl, by decide +kernel⟩ (by decide +kernel)).mpr ?_ hinactive
  rintro ⟨-, -, -, hlist, -⟩
  exact absurd hlist (by decide)

end AuthServer
