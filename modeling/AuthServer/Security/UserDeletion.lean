import AuthServer.Service.IntrospectionRules
import AuthServer.Service.Serve

/-!
# Deleting the subject of a token

Introspection asks whether the subject of a token is an active user. For a token with a
machine-token row the question is skipped when there is no such user, because the subject of a
`jwt-bearer` token may be federated. `DeleteUser` removes the row of a local user and leaves the
machine-token rows of the tokens issued for that user as they are, and nothing tells a deleted user
from one that never was local: a token that was inactive because its user was disabled is active
again, and one that was active stays so.
-/

namespace AuthServer

open Interleave

open IntrospectionService

/-! ### What a deletion does -/

/-- A deletion removes the user and leaves alone what introspection reads. -/
structure Deleted (userID : String) (w w' : World) : Prop where
  user : UserStore.getByID userID w' = .error (.sentinel .userNotFound)
  clock : w'.clock = w.clock
  clients : w'.clients = w.clients
  resources : w'.resources = w.resources
  released : w'.released = w.released
  issuances : w'.issuances = w.issuances
  machineTokens : w'.machineTokens = w.machineTokens
  revokedJTIs : w'.revokedJTIs = w.revokedJTIs

variable {id : String}

theorem UserStore.deleted_of_delete {w w' : World}
    (h : UserStore.delete id w = (.ok (), w')) : Deleted id w w' := by
  unfold UserStore.delete at h
  split at h
  · obtain rfl := (Prod.mk.inj h).2
    refine ⟨?_, rfl, rfl, rfl, rfl, rfl, rfl, rfl⟩
    exact Table.lookup_eq_error.mpr (by simp [List.find?_eq_none])
  · cases (Prod.mk.inj h).1

theorem AdminService.deleted_of_deleteUser {ctx : ReqID} {force : Bool} {w w' : World}
    (h : (AdminService.deleteUser ctx id force).run [] w = (.ok (), w')) : Deleted id w w' := by
  have hcall : (AdminService.doDelete ctx id force).atomically w = (.ok (), w') := by
    change ((Prog.ofExcept ((AdminService.doDelete ctx id force).atomically w).1 : Svc Unit).run []
      ((AdminService.doDelete ctx id force).atomically w).2) = _ at h
    generalize (AdminService.doDelete ctx id force).atomically w = r at h ⊢
    obtain ⟨r₁, r₂⟩ := r
    cases r₁ with
    | ok u => exact h
    | error e => cases (Prod.mk.inj h).1
  rcases Call.atomically_cases (AdminService.doDelete ctx id force) w with
    ⟨u, w₁, hbody, hrun⟩ | ⟨e, hrun⟩
  · rw [hrun] at hcall
    obtain rfl := (Prod.mk.inj hcall).2
    unfold AdminService.doDelete at hbody
    split at hbody
    · cases (Prod.mk.inj hbody).1
    · split at hbody
      · exact UserStore.deleted_of_delete (Call.wrapErr_ok hbody)
      · split at hbody
        · cases (Prod.mk.inj hbody).1
        · -- the families are revoked first, which introspection does not look at
          obtain ⟨n, w₂, hrevoke, hdelete⟩ := Call.andThen_ok hbody
          obtain rfl := (Prod.mk.inj (Call.wrapErr_ok hrevoke)).2
          have hd := UserStore.deleted_of_delete (Call.wrapErr_ok hdelete)
          exact ⟨hd.user, hd.clock, hd.clients, hd.resources, hd.released, hd.issuances,
            hd.machineTokens, hd.revokedJTIs⟩
  · rw [hrun] at hcall
    cases (Prod.mk.inj hcall).1

/-! ### What introspection says afterwards -/

/-- Everything but the subject speaks for the token. -/
def OtherwiseActive (env : Env) (req : IntrospectRequest) (w : World) : Prop :=
  Accepted env req.clientID req.clientSecret w ∧ verifyAccessToken env req.token w = .ok req.token ∧
    entitledIn env req.clientID req.token w = true ∧
    (standsIn req.token w && unlistedIn req.token w && issuerIn req.token w) = true

def DisabledSubject (env : Env) (req : IntrospectRequest) (w : World) : Prop :=
  OtherwiseActive env req w ∧ ¬ReportedActive env req w ∧
    ∃ u, UserStore.getByID req.token.subject w = .ok u ∧ u.isActive = false

variable {env : Env} {req : IntrospectRequest} {w w' : World}

theorem reportedActive_iff_otherwise : ReportedActive env req w ↔ OtherwiseActive env req w ∧
    subjectIn req.token (machineIn req.token w).isSome w = true := by
  obtain ⟨c, clientID, clientSecret⟩ := req
  rw [reportedActive_iff]
  simp only [OtherwiseActive, liveIn, Bool.and_eq_true]
  tauto

variable {c : AccessTokenClaims}

theorem Deleted.machineIn_eq (h : Deleted id w w') :
    machineIn c w' = machineIn c w := by
  simp only [machineIn, h.machineTokens]

theorem Deleted.resolve_eq (h : Deleted id w w') (s : String) :
    ResourceRegistry.resolve s w' = ResourceRegistry.resolve s w := by
  simp only [ResourceRegistry.resolve, ResourceStore.resolve, h.resources]

theorem Deleted.otherwiseActive_iff (h : Deleted id w w') :
    OtherwiseActive env req w' ↔ OtherwiseActive env req w := by
  simp only [OtherwiseActive, Accepted, ClientStore.getByID, h.clients,
    verifyAccessToken, h.released,
    h.clock, entitledIn, h.resolve_eq, standsIn, h.issuances, unlistedIn, h.machineIn_eq,
    h.revokedJTIs, issuerIn, frontedIn]

theorem Deleted.subjectIn_eq (h : Deleted c.subject w w')
    (hsub : c.subject ≠ "") (machine : Bool) : subjectIn c machine w' = machine := by
  simp only [subjectIn, h.user, beq_iff_eq, hsub, Bool.or_eq_true, Bool.and_eq_true, false_or]
  cases machine <;> simp [Err.is]

/-- **Deleting the subject.** After a user was deleted, forced or not, introspection reports a token
of that user inactive exactly when the token has no machine-token row, or something other than its
subject stood against it before. In particular a token that was inactive because its subject was
disabled stays so exactly when it has no machine-token row. -/
theorem AdminService.deleted_user_inactive_iff (env : Env) (req : IntrospectRequest) (ctx : ReqID)
    (force : Bool) (w w' : World) (hsub : req.token.subject ≠ "")
    (hdelete : (AdminService.deleteUser ctx req.token.subject force).run [] w = (.ok (), w')) :
    (¬ReportedActive env req w' ↔
        machineIn req.token w = none ∨ ¬OtherwiseActive env req w) ∧
      (DisabledSubject env req w →
        (¬ReportedActive env req w' ↔ machineIn req.token w = none)) := by
  have hdeleted := AdminService.deleted_of_deleteUser hdelete
  have hiff : ¬ReportedActive env req w' ↔
      machineIn req.token w = none ∨ ¬OtherwiseActive env req w := by
    rw [reportedActive_iff_otherwise, hdeleted.otherwiseActive_iff, hdeleted.subjectIn_eq hsub,
      hdeleted.machineIn_eq, not_and_or, Bool.not_eq_true, Option.isSome_eq_false_iff,
      Option.isNone_iff_eq_none]
    exact or_comm
  exact ⟨hiff, fun h => hiff.trans (or_iff_left (not_not.mpr h.1))⟩

/-! ### A token that comes back -/

namespace Sample

def exchangeUserToken : TokenExchangeRequest :=
  ⟨"app", "secret", some (userToken "t"), tokenTypeAccessToken, none, "", "", "", ⟨"", "", ""⟩⟩

def exchangedWorld : World :=
  ((TokenExchange.exchange Env.plain 0 exchangeUserToken).run []
    { world [] with released := [userToken "t"] }).2

def askExchanged : IntrospectRequest :=
  ⟨exchangedWorld.released.headD (userToken ""), "app", "secret"⟩

def disabledWorld : World :=
  { exchangedWorld with users := [⟨"user", false⟩] }

end Sample

open Sample in
/-- **A deletion revives a token.** The token that an exchange without a resource returned is
inactive once its user is disabled, and active once the user is deleted. -/
theorem AdminService.deleted_user_revived :
    askExchanged.token.subject = "user" ∧ askExchanged.token ≠ userToken "t" ∧
    ((introspectToken Env.plain askExchanged).run [] disabledWorld).1 = .ok inactive ∧
    ((AdminService.deleteUser 1 "user" true).run [] disabledWorld).1 = .ok () ∧
    ((introspectToken Env.plain askExchanged).run []
      ((AdminService.deleteUser 1 "user" true).run [] disabledWorld).2).1 =
        .ok (activeResponse askExchanged.token) := by
  decide +kernel

open Sample in
/-- A token without a machine-token row is inactive after the deletion. -/
theorem AdminService.deleted_user_inactive_iff_plain :
    ¬ReportedActive Env.plain ⟨userToken "t", "app", "secret"⟩
      ((AdminService.deleteUser 1 "user" true).run []
        { world [] with released := [userToken "t"] }).2 := by
  have h := AdminService.deleted_user_inactive_iff Env.plain ⟨userToken "t", "app", "secret"⟩ 1 true
    { world [] with released := [userToken "t"] } _ (by decide) rfl
  exact h.1.mpr (.inl rfl)

end AuthServer
