import AuthServer.Service.JWTBearer
import AuthServer.Service.Revocation
import AuthServer.Service.Rules

/-!
# The writes of the services

Every write a service can make is one of the constructors of `Write`, and `Write.run` is what it
does to the world, whether or not the call succeeds.

`Write.frame` says what each of them leaves alone: the tables it does not touch, and the kinds of
events it does not note in the history. An invariant that reads some tables only is then kept by
every write that touches none of them, and needs an argument for the others alone. -/

namespace AuthServer

open Interleave

/-- What happens to the store outside the services modelled here: rows that have expired are purged,
administrators edit the directory, and time passes. -/
inductive Maintenance
  | purgeTokens
  | purgeSessions
  | purgeRevocations
  | purgeMachineTokens
  | purgeIssuances (before : Time)
  | purgeAssertions
  | editFederation (trustedIDPs : List TrustedIDP) (xaaPolicies : List XAAPolicy)
      (subjectMappings : List SubjectMapping)
  | editDirectory (clients : List Client) (users : List User) (frontingLinks : List FrontingLink)
      (brokerProviders : List BrokerProvider) (dpopNonces : List (String × Time))
  | tick (nanoseconds : ℕ)

/-- What a maintenance step does. -/
def Maintenance.call : Maintenance → Call Unit
  | purgeTokens => TokenStore.purgeExpired
  | purgeSessions => SessionStore.deleteExpired
  | purgeRevocations => RevocationStore.purgeExpired
  | purgeMachineTokens => MachineTokenStore.purgeExpired
  | purgeIssuances before => IssuanceStore.purgeExpired before
  | purgeAssertions => AssertionJTIStore.purgeExpired
  | editFederation trustedIDPs xaaPolicies subjectMappings => fun w =>
      (.ok (), { w with trustedIDPs := trustedIDPs, xaaPolicies := xaaPolicies
                        subjectMappings := subjectMappings })
  | editDirectory clients users frontingLinks brokerProviders dpopNonces => fun w =>
      (.ok (), { w with clients := clients, users := users, frontingLinks := frontingLinks
                        brokerProviders := brokerProviders, dpopNonces := dpopNonces })
  | tick d => fun w => (.ok (), { w with clock := w.clock + d })

/-- The writes of the services. A transaction is one write. -/
inductive Write
  | createSession (s : AuthSession) (resourceID : Option String)
  | deleteSession (id : String)
  | consumeCode (codeHash : String)
  | updateCode (sessionID codeHash scope : String)
  | approve (req : GrantConsentRequest) (clientID : String) (resolved : Option Resource)
      (codeHash scope : String)
  | openFamily (f : Family) (jti : String) (now expiry : Time) (issueRefresh tracked : Bool)
  | createRefreshToken (familyID : String) (now refreshExpiry : Time)
  | consumeRefreshToken (id : String)
  | revokeFamily (id : String)
  | revokeFamiliesOfClient (clientID : String)
  | revokeFamiliesOfUser (userID : String)
  | denylistFamily (id : String)
  | trackJTI (jti familyID : String) (expiresAt : Time)
  | saveMachineToken (mt : MachineToken)
  | revokeMachineToken (jti : String)
  | insertIssuance (i : Issuance)
  | revokeIssuance (id : String)
  | cascade (userID clientID resourceID : String)
  | revokeGrant (id : String)
  | listPage (userID clientID : String) (offset : ℕ)
  | listUser (userID : String)
  | updateResource (r : Resource)
  | consumeAssertion (jti : String) (expiry : Time)
  | release (c : AccessTokenClaims) (e : Event)
  | maintain (m : Maintenance)

variable (env : Env)

namespace Write

def run (ctx : ReqID) : Write → World → World
  | createSession s resourceID, w => (SessionStore.create ctx s resourceID w).2
  | deleteSession id, w => (SessionStore.delete id w).2
  | consumeCode codeHash, w => (SessionStore.consumeByCodeHash ctx codeHash w).2
  | updateCode sessionID codeHash scope, w =>
      (SessionStore.updateCodeHashAndScope sessionID codeHash scope w).2
  | approve req clientID resolved codeHash scope, w =>
      ((ConsentService.persistAndCode env ctx req clientID resolved codeHash scope).atomically w).2
  | openFamily f jti now expiry issueRefresh tracked, w =>
      ((TokenService.createFamilyAndRefresh env ctx f jti now expiry issueRefresh
        tracked).atomically
        w).2
  | createRefreshToken familyID now refreshExpiry, w =>
      (TokenService.createRefreshToken env ctx familyID now refreshExpiry w).2
  | consumeRefreshToken id, w => (TokenStore.consumeRefreshToken ctx id w).2
  | revokeFamily id, w => (TokenStore.revokeFamily ctx id w).2
  | revokeFamiliesOfClient clientID, w => (TokenStore.revokeByClientID clientID w).2
  | revokeFamiliesOfUser userID, w => (TokenStore.revokeByUserID ctx userID w).2
  | denylistFamily id, w => (RevocationStore.revokeByFamily ctx id w).2
  | trackJTI jti familyID expiresAt, w => (RevocationStore.trackJTI jti familyID expiresAt w).2
  | saveMachineToken mt, w => (MachineTokenStore.save mt w).2
  | revokeMachineToken jti, w => (MachineTokenStore.revoke jti w).2
  | insertIssuance i, w => (IssuanceStore.insert ctx i w).2
  | revokeIssuance id, w => (IssuanceStore.revoke id w).2
  | cascade userID clientID resourceID, w =>
      (IssuanceStore.revokeFamily ctx userID clientID resourceID w).2
  | revokeGrant id, w => (ConsentGrantStore.revoke id w).2
  | listPage userID clientID offset, w =>
    (GrantAdminService.listPage ctx userID clientID offset w).2
  | listUser userID, w => (AdminService.listForLogout ctx userID w).2
  | updateResource r, w => (ResourceStore.update r w).2
  | consumeAssertion jti expiry, w => (AssertionJTIStore.consumeJTI jti expiry w).2
  | release c e, w => { w with released := c :: w.released }.note ctx e
  | maintain m, w => (m.call w).2

end Write

/-! ### The two transactions -/

theorem run_approve_cases (ctx : ReqID) (req : GrantConsentRequest) (clientID : String)
    (resolved : Option Resource) (codeHash scope : String) (w : World) :
    Write.run env ctx (.approve req clientID resolved codeHash scope) w = w ∨
      ∃ w₁ w₂, ConsentService.persistGrant env ctx req.userID clientID
        (Text.fields scope) resolved w =
          (.ok (), w₁) ∧
        SessionStore.updateCodeHashAndScope req.sessionID codeHash scope w₁ = (.ok (), w₂) ∧
        Write.run env ctx (.approve req clientID resolved codeHash scope) w =
          w₂.note ctx (.approved req.userID (Text.fields scope)) := by
  rcases Call.atomically_cases
    (ConsentService.persistAndCode env ctx req clientID resolved codeHash scope) w with
    ⟨u, w', hbody, hrun⟩ | ⟨e, hrun⟩
  · obtain ⟨u₁, w₁, h₁, hrest⟩ := Call.andThen_ok hbody
    obtain ⟨u₂, w₂, h₂, hlast⟩ := Call.andThen_ok hrest
    refine .inr ⟨w₁, w₂, h₁, Call.wrapErr_ok h₂, ?_⟩
    rw [Write.run, hrun]
    exact (Prod.mk.inj hlast).2.symm
  · left
    rw [Write.run, hrun]

variable {ctx : ReqID} {w w' : World}

theorem ConsentService.persistGrant_frame {env : Env} {userID clientID : String}
    {scopes : List String} {resolved : Option Resource}
    (h : persistGrant env ctx userID clientID scopes resolved w = (.ok (), w')) :
    ∃ drawn grants, (∀ j, w.drawn j ≤ drawn j) ∧
      w' = { w with drawn := drawn, consentGrants := grants } := by
  rcases persistGrant_ok h with ⟨-, rfl⟩ | ⟨r, -, hup⟩
  · exact ⟨w'.drawn, w'.consentGrants, fun _ => le_rfl, rfl⟩
  · have hd := (w.quiet_draw ctx).drawn_le
    rcases ConsentGrantStore.upsert_ok hup with rfl | ⟨-, rfl⟩
    · exact ⟨_, _, hd, rfl⟩
    · exact ⟨_, _, hd, rfl⟩

theorem run_approve_frame (ctx : ReqID) (req : GrantConsentRequest) (clientID : String)
    (resolved : Option Resource) (codeHash scope : String) (w : World) :
    Write.run env ctx (.approve req clientID resolved codeHash scope) w = w ∨
      ∃ drawn grants sessions codes, (∀ j, w.drawn j ≤ drawn j) ∧
        Write.run env ctx (.approve req clientID resolved codeHash scope) w =
          { w with drawn := drawn, consentGrants := grants, sessions := sessions
                   codes := codes }.note ctx (.approved req.userID (Text.fields scope)) := by
  rcases run_approve_cases env ctx req clientID resolved codeHash scope
    w with h | ⟨w₁, w₂, h₁, h₂, h⟩
  · exact .inl h
  · obtain ⟨-, -, rfl⟩ := SessionStore.updateCodeHashAndScope_ok h₂
    obtain ⟨drawn, grants, hd, rfl⟩ := ConsentService.persistGrant_frame h₁
    exact .inr ⟨drawn, grants, _, _, hd, h⟩

theorem run_openFamily_cases (ctx : ReqID) (f : Family) (jti : String) (now expiry : Time)
    (issueRefresh tracked : Bool) (w : World) :
    Write.run env ctx (.openFamily f jti now expiry issueRefresh tracked) w = w ∨
      ∃ w₁ w₂, TokenStore.createFamily f w = (.ok (), w₁) ∧
        TokenService.trackInTransaction tracked jti f.id expiry w₁ = (.ok (), w₂) ∧
        ((issueRefresh = false ∧
            Write.run env ctx (.openFamily f jti now expiry issueRefresh tracked) w = w₂) ∨
          issueRefresh = true ∧ ∃ plain,
            TokenService.createRefreshToken env ctx f.id now env.tokens.refreshTokenExpiry w₂ =
              (.ok plain, Write.run env ctx
                (.openFamily f jti now expiry issueRefresh tracked) w)) := by
  rcases Call.atomically_cases
    (TokenService.createFamilyAndRefresh env ctx f jti now expiry issueRefresh tracked) w with
    ⟨plain, w', hbody, hrun⟩ | ⟨e, hrun⟩
  · obtain ⟨w₁, w₂, h₁, h₂, hlast⟩ := TokenService.createFamilyAndRefresh_ok hbody
    refine .inr ⟨w₁, w₂, h₁, h₂, ?_⟩
    rw [Write.run, hrun]
    exact hlast.imp id fun h => ⟨h.1, plain, h.2⟩
  · left
    rw [Write.run, hrun]

/-- What a redemption leaves alone, and what was not there before. -/
theorem run_openFamily_frame (ctx : ReqID) (f : Family) (jti : String) (now expiry : Time)
    (issueRefresh tracked : Bool) (w : World) :
    Write.run env ctx (.openFamily f jti now expiry issueRefresh tracked) w = w ∨
      ∃ drawn tokens jtis journal, (∀ j, w.drawn j ≤ drawn j) ∧
        (∀ f' ∈ w.families, f'.id ≠ f.id ∧
          (f.authSessionID ≠ "" → f'.authSessionID ≠ f.authSessionID)) ∧
        (journal = w.journal ∨ ∃ hash, journal = ⟨ctx, .refreshCreated hash f.id⟩ :: w.journal) ∧
        Write.run env ctx (.openFamily f jti now expiry issueRefresh tracked) w =
          { w with drawn := drawn, families := w.families ++ [f], refreshTokens := tokens
                   accessTokenJTIs := jtis, journal := journal } := by
  rcases run_openFamily_cases env ctx f jti now expiry issueRefresh tracked w with
    h | ⟨w₁, w₂, hcreate, htrack, hrest⟩
  · exact .inl h
  obtain ⟨hnew, rfl⟩ := TokenStore.createFamily_ok hcreate
  obtain ⟨jtis, rfl⟩ : ∃ jtis, w₂ = { w with
    families := w.families ++ [f], accessTokenJTIs := jtis } := by
    rcases TokenService.trackInTransaction_ok htrack with h | h <;> exact ⟨_, h⟩
  rcases hrest with ⟨-, hrun⟩ | ⟨-, plain, hrun⟩
  · exact .inr ⟨w.drawn, w.refreshTokens, jtis, w.journal, fun _ =>
      Nat.le_refl _, hnew, .inl rfl, hrun⟩
  · rcases TokenService.createRefreshToken_cases env ctx f.id now env.tokens.refreshTokenExpiry
      { w with families := w.families ++ [f], accessTokenJTIs := jtis } with ⟨e,
        herr⟩ | ⟨w', hok, heq⟩
    · rw [herr] at hrun
      cases (Prod.mk.inj hrun).1
    · obtain ⟨-, rfl⟩ := TokenStore.createRefreshToken_ok hok
      rw [heq] at hrun
      have hq := (w.quiet_draw ctx).trans ((w.draw ctx).quiet_draw ctx)
      exact .inr ⟨_, _, jtis, _, hq.drawn_le, hnew, .inr ⟨_, rfl⟩, (Prod.mk.inj hrun).2.symm⟩

/-! ### Frames -/

/-- The parts of the world, up to those that quiet steps change. -/
inductive Part
  | clock
  /-- Clients, users and fronting links. -/
  | directory
  | resources
  | consentGrants
  | sessions
  /-- The history of authorization codes. -/
  | codes
  | families
  | refreshTokens
  | accessTokenJTIs
  | revokedJTIs
  | machineTokens
  | issuances
  /-- Identity providers, their policies and subject mappings. -/
  | federation
  | assertionJTIs
  | released
  deriving DecidableEq

def Maintenance.touches : Maintenance → List Part
  | purgeTokens => [.refreshTokens]
  | purgeSessions => [.sessions]
  | purgeRevocations => [.accessTokenJTIs, .revokedJTIs]
  | purgeMachineTokens => [.machineTokens]
  | purgeIssuances _ => [.issuances]
  | purgeAssertions => [.assertionJTIs]
  | editFederation _ _ _ => [.federation]
  | editDirectory _ _ _ _ _ => [.directory]
  | tick _ => [.clock]

/-- The parts a write changes. -/
def Write.touches : Write → List Part
  | createSession _ _ => [.sessions]
  | deleteSession _ => [.sessions]
  | consumeCode _ => [.sessions]
  | updateCode _ _ _ => [.sessions, .codes]
  | approve _ _ _ _ _ => [.consentGrants, .sessions, .codes]
  | openFamily _ _ _ _ _ _ => [.families, .refreshTokens, .accessTokenJTIs]
  | createRefreshToken _ _ _ => [.refreshTokens]
  | consumeRefreshToken _ => [.refreshTokens]
  | revokeFamily _ => [.families, .refreshTokens]
  | revokeFamiliesOfClient _ => [.families]
  | revokeFamiliesOfUser _ => [.families]
  | denylistFamily _ => [.revokedJTIs]
  | trackJTI _ _ _ => [.accessTokenJTIs]
  | saveMachineToken _ => [.machineTokens]
  | revokeMachineToken _ => [.machineTokens]
  | insertIssuance _ => [.issuances]
  | revokeIssuance _ => [.issuances]
  | cascade _ _ _ => [.issuances]
  | revokeGrant _ => [.consentGrants]
  | listPage _ _ _ => []
  | listUser _ => []
  | updateResource _ => [.resources]
  | consumeAssertion _ _ => [.assertionJTIs]
  | release _ _ => [.released]
  | maintain m => m.touches

def Write.notes : Write → Event → Prop
  | createSession s resourceID, e => e = .authorized s.id s.userID s.scope resourceID
  | consumeCode _, e => ∃ id, e = .codeConsumed id
  | approve req _ _ _ scope, e => e = .approved req.userID (Text.fields scope)
  | openFamily f _ _ _ _ _, e => ∃ hash, e = .refreshCreated hash f.id
  | createRefreshToken familyID _ _, e => ∃ hash, e = .refreshCreated hash familyID
  | consumeRefreshToken _, e => ∃ hash familyID, e = .refreshConsumed hash familyID
  | revokeFamily id, e => e = .familyRevoked id
  | denylistFamily id, e => e = .denylisted id
  | insertIssuance i, e => e = .issued i.jti
  | cascade userID clientID resourceID, e => e = .cascaded userID clientID resourceID
  | listPage userID clientID _, e => e = .familiesListed userID clientID
  | listUser userID, e => e = .userListed userID
  | revokeFamiliesOfUser userID, e => ∃ ids, e = .userRevoked userID ids
  | release _ e', e => e = e'
  | _, _ => False

/-- The part is the same in both worlds. -/
def Part.Same (w w' : World) : Part → Prop
  | clock => w'.clock = w.clock
  | directory => w'.clients = w.clients ∧ w'.users = w.users ∧ w'.frontingLinks = w.frontingLinks
  | resources => w'.resources = w.resources
  | consentGrants => w'.consentGrants = w.consentGrants
  | sessions => w'.sessions = w.sessions
  | codes => w'.codes = w.codes
  | families => w'.families = w.families
  | refreshTokens => w'.refreshTokens = w.refreshTokens
  | accessTokenJTIs => w'.accessTokenJTIs = w.accessTokenJTIs
  | revokedJTIs => w'.revokedJTIs = w.revokedJTIs
  | machineTokens => w'.machineTokens = w.machineTokens
  | issuances => w'.issuances = w.issuances
  | federation => w'.trustedIDPs = w.trustedIDPs ∧ w'.xaaPolicies = w.xaaPolicies ∧
      w'.subjectMappings = w.subjectMappings
  | assertionJTIs => w'.assertionJTIs = w.assertionJTIs
  | released => w'.released = w.released

/-- A step of a request changed no part but the listed ones, and noted no event but the given ones.
-/
structure Frame (parts : List Part) (notes : Event → Prop) (ctx : ReqID) (w w' : World) : Prop where
  drawn : ∀ j, w.drawn j ≤ w'.drawn j := by exact fun _ => le_rfl
  journal : w'.journal = w.journal ∨ ∃ e, notes e ∧ w'.journal = ⟨ctx, e⟩ :: w.journal := by
    exact .inl rfl
  same : ∀ p, p ∉ parts → p.Same w w' := by
    intro p hp
    cases p <;>
      first
        | rfl
        | exact ⟨rfl, rfl, rfl⟩
        | simp [Write.touches, Maintenance.touches] at hp

variable {notes : Event → Prop} {parts : List Part}

theorem Frame.of_quiet
    (h : w.Quiet w') : Frame parts notes ctx w w' := by
  obtain ⟨_, _, _, hd, rfl⟩ := h
  exact { drawn := hd }

theorem Frame.refl (w : World) : Frame parts notes ctx w w :=
  .of_quiet (.refl w)

/-- **Every write stays within its frame.** -/
theorem Write.frame (ctx : ReqID) (x : Write) (w : World) :
    Frame x.touches x.notes ctx w (x.run env ctx w) := by
  cases x with
  | createSession s r =>
    simp only [Write.run, SessionStore.create]
    split
    · exact .refl w
    · exact { journal := .inr ⟨_, rfl, rfl⟩ }
  | deleteSession id => exact {}
  | consumeCode hash =>
    simp only [Write.run, SessionStore.consumeByCodeHash]
    split
    · exact .refl w
    · split
      · exact .refl w
      · exact { journal := .inr ⟨_, ⟨_, rfl⟩, rfl⟩ }
  | updateCode id hash scope =>
    simp only [Write.run, SessionStore.updateCodeHashAndScope]
    split
    · split
      · exact .refl w
      · exact {}
    · exact .refl w
  | approve req c r hash scope =>
    rcases run_approve_frame env ctx req c r hash scope w with h | ⟨_, _, _, _, hd, h⟩
    · rw [h]
      exact .refl w
    · rw [h]
      exact { drawn := hd, journal := .inr ⟨_, rfl, rfl⟩ }
  | openFamily f jti now expiry issueRefresh tracked =>
    rcases run_openFamily_frame env ctx f jti now expiry issueRefresh tracked w with
      h | ⟨_, _, _, _, hd, -, hj, h⟩
    · rw [h]
      exact .refl w
    · rw [h]
      refine { drawn := hd, journal := ?_ }
      rcases hj with rfl | ⟨hash, rfl⟩
      · exact .inl rfl
      · exact .inr ⟨_, ⟨hash, rfl⟩, rfl⟩
  | createRefreshToken f now expiry =>
    have hq := (w.quiet_draw ctx).trans ((w.draw ctx).quiet_draw ctx)
    rcases TokenService.createRefreshToken_cases env ctx f now expiry w with ⟨e, h⟩ | ⟨w', hok, h⟩
    · rw [Write.run, h]
      exact .of_quiet hq
    · obtain ⟨-, rfl⟩ := TokenStore.createRefreshToken_ok hok
      rw [Write.run, h]
      exact { drawn := hq.drawn_le, journal := .inr ⟨_, ⟨_, rfl⟩, rfl⟩ }
  | consumeRefreshToken id =>
    rcases TokenStore.consumeRefreshToken_cases ctx id w with ⟨e, h⟩ | ⟨t, -, -, -, h⟩
    · rw [Write.run, h]
      exact .refl w
    · rw [Write.run, h]
      exact { journal := .inr ⟨_, ⟨_, _, rfl⟩, rfl⟩ }
  | revokeFamily id =>
    simp only [Write.run, TokenStore.revokeFamily]
    split
    · exact { journal := .inr ⟨_, rfl, rfl⟩ }
    · exact {}
  | revokeFamiliesOfClient id => exact {}
  | revokeFamiliesOfUser id => exact { journal := .inr ⟨_, ⟨_, rfl⟩, rfl⟩ }
  | denylistFamily id => exact { journal := .inr ⟨_, rfl, rfl⟩ }
  | trackJTI jti fam exp =>
    rcases RevocationStore.trackJTI_cases jti fam exp w with ⟨-, h⟩ | ⟨-, h⟩
    · rw [Write.run, h]
      exact .refl w
    · rw [Write.run, h]
      exact {}
  | saveMachineToken mt =>
    simp only [Write.run, MachineTokenStore.save]
    split
    · exact .refl w
    · exact {}
  | revokeMachineToken jti => exact {}
  | insertIssuance row =>
    simp only [Write.run, IssuanceStore.insert]
    split
    · exact .refl w
    · exact { journal := .inr ⟨_, rfl, rfl⟩ }
  | revokeIssuance id => exact {}
  | cascade u c r => exact { journal := .inr ⟨_, rfl, rfl⟩ }
  | revokeGrant id => exact {}
  | listPage u c offset =>
    simp only [Write.run, GrantAdminService.listPage]
    split
    · exact { journal := .inr ⟨_, rfl, rfl⟩ }
    · exact .refl w
  | listUser id => exact { journal := .inr ⟨_, rfl, rfl⟩ }
  | updateResource r =>
    simp only [Write.run, ResourceStore.update]
    split
    · split
      · exact .refl w
      · exact {}
    · exact .refl w
  | consumeAssertion jti expiry =>
    simp only [Write.run, AssertionJTIStore.consumeJTI]
    split
    · exact .refl w
    · exact {}
  | release c e => exact { journal := .inr ⟨_, rfl, rfl⟩ }
  | maintain m => cases m <;> exact {}

/-- Time does not go back. -/
theorem Write.clock_le (ctx : ReqID) (x : Write) (w : World) : w.clock ≤
    (x.run env ctx w).clock := by
  by_cases htouch : Part.clock ∈ x.touches
  · cases x with
    | maintain m =>
      cases m with
      | tick d => exact Int.le_add_of_nonneg_right (Int.natCast_nonneg d)
      | _ => simp [Write.touches, Maintenance.touches] at htouch
    | _ => simp [Write.touches] at htouch
  · exact le_of_eq ((x.frame env ctx w).same .clock htouch).symm

end AuthServer
