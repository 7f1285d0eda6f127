import AuthServer.Security.UserDeletion

/-!
# Whether a revocation lasts

A revoked token is remembered in one of three tables: its identifier on the denylist, a flag in its
machine-token row, a time in its issuance row. The purges delete rows of all three. A denylist row
and a machine-token row are deleted once the time of the token's expiry has passed, but a token
verifies for another 30 seconds; a revoked issuance row is deleted by when it was revoked, whatever
the expiry of the token. A token that verifies and whose row is gone is reported active again.

The lookup of the machine-token row is also the one check that introspection skips when the store
fails it: a token that only this row revokes is then reported active.

`Gone` is what lasts otherwise: the token is revoked, or too old to verify. Every step of a
revocation keeps it, and so does every purge that is not premature. -/

namespace AuthServer

open Interleave Table

open IntrospectionService

namespace Permanence

/-- The token is inactive because its identifier, its machine-token row or its issuance row is
revoked. -/
def Revoked (c : AccessTokenClaims) (w : World) : Prop :=
  standsIn c w = false ∨ unlistedIn c w = false

/-- The token is too old to verify. -/
def Past (c : AccessTokenClaims) (w : World) : Prop :=
  c.expiry + clockSkew < unix w.clock

/-- The token will not be reported active. -/
def Gone (c : AccessTokenClaims) (w : World) : Prop :=
  Revoked c w ∨ Past c w

/-- The purge deletes a row that revokes the token while the token may still verify. -/
def Premature (c : AccessTokenClaims) (w : World) : Maintenance → Prop
  | .purgeRevocations => ¬Past c w ∧ ∃ r ∈ w.revokedJTIs, r.jti = c.jti ∧ r.expiresAt < w.clock
  | .purgeMachineTokens =>
    ¬Past c w ∧ ∃ mt ∈ w.machineTokens, mt.jti = c.jti ∧ mt.revoked = true ∧ mt.expiresAt < w.clock
  | .purgeIssuances before =>
    ¬Past c w ∧ ∃ i ∈ w.issuances, i.jti = c.jti ∧ i.isRevoked = true ∧
      IssuanceStore.isPast before i = true
  | _ => False

/-- The requests that revoke, and what happens to the store meanwhile. -/
def Revokes : Request → Prop
  | .revokeConsent _ => True
  | .revokeToken _ => True
  | .adminRevokeToken _ => True
  | .forceLogoutUser _ => True
  | .revokeFamiliesOfClient _ => True
  | .revokeIssuance _ => True
  | .maintain _ => True
  | _ => False

/-- No purge of the run is premature for the token. -/
def Patient (c : AccessTokenClaims) (reqs : ReqID → Request) : Server → Schedule ReqID → Prop
  | _, [] => True
  | s, e :: rest =>
    (∀ m, reqs e.1 = .maintain m → ¬Premature c s.store m) ∧ Patient c reqs (s.step e.1 e.2) rest

/-- The introspection is not one whose store fails while the token's machine-token row is what
revokes it. -/
def Heard (c : AccessTokenClaims) (plan : List Bool) (w : World) : Prop :=
  plan = [] ∨ ∀ mt, machineIn c w = some mt → mt.revoked = false

variable {env : Env} {i : ReqID} {c : AccessTokenClaims} {w w' : World}

/-! ### What is gone is not reported active -/

theorem not_verify_of_past (h : Past c w) : verifyAccessToken env c w ≠ .ok c := by
  unfold verifyAccessToken
  split
  · simp
  · split
    · simp
    · have hlate : unix w.clock > c.expiry + clockSkew := h
      rw [if_pos hlate]
      simp

theorem Revoked.not_live (h : Revoked c w) : liveIn c w ≠ true := by
  rcases h with hstands | hlisted
  · simp [liveIn, hstands]
  · simp [liveIn, hlisted]

theorem Gone.not_active (h : Gone c w) {clientID clientSecret : String} {plan : List Bool}
    {resp : IntrospectResponse} (hheard : Heard c plan w)
    (hrun : ((introspectToken env ⟨c, clientID, clientSecret⟩).run plan w).1 = .ok resp) :
      resp.active = false := by
  rcases hheard with rfl | hrow
  · by_contra hactive
    have hreported : ReportedActive env ⟨c, clientID, clientSecret⟩ w :=
      ⟨resp, hrun, Bool.eq_true_of_not_eq_false hactive⟩
    obtain ⟨-, hverify, -, hlive⟩ := reportedActive_iff.mp hreported
    rcases h with hstopped | hpast
    · exact Revoked.not_live hstopped hlive
    · exact not_verify_of_past hpast hverify
  · by_contra hactive
    obtain ⟨hverify, hlive | ⟨-, ⟨mt, hmt, hrevoked⟩, -⟩⟩ :=
      active_of_run hrun (Bool.eq_true_of_not_eq_false hactive)
    · rcases h with hstopped | hpast
      · exact Revoked.not_live hstopped hlive
      · exact not_verify_of_past hpast hverify
    · rw [hrow mt hmt] at hrevoked
      cases hrevoked

/-! ### The three tables -/

theorem standsIn_eq_false_iff : standsIn c w = false ↔ c.jti ≠ "" ∧
    ∃ iss, w.issuances.find? (fun i => i.jti == c.jti && c.jti != "") = some iss ∧
      iss.isRevoked = true := by
  simp only [standsIn, Bool.or_eq_false_iff, beq_eq_false_iff_ne, Bool.not_eq_false',
    Option.any_eq_true]

theorem unlistedIn_eq_false_iff : unlistedIn c w = false ↔ c.jti ≠ "" ∧
    ((∃ mt, w.machineTokens.find? (·.jti == c.jti) = some mt ∧ mt.revoked = true) ∨
      w.machineTokens.find? (·.jti == c.jti) = none ∧ ∃ r ∈ w.revokedJTIs, r.jti = c.jti) := by
  by_cases hjti : c.jti = ""
  · simp [unlistedIn, machineIn, hjti]
  · cases hfind : w.machineTokens.find? (·.jti == c.jti) with
    | none => simp [unlistedIn, machineIn, hjti, hfind]
    | some mt => simp [unlistedIn, machineIn, hjti, hfind]

theorem stands_of_find (h : standsIn c w = false)
    (hfind : ∀ iss, w.issuances.find? (fun i => i.jti == c.jti && c.jti != "") = some iss →
      iss.isRevoked = true →
        ∃ iss', w'.issuances.find? (fun i => i.jti == c.jti && c.jti != "") = some iss' ∧
          iss'.isRevoked = true) : standsIn c w' = false := by
  obtain ⟨hjti, iss, hiss, hrevoked⟩ := standsIn_eq_false_iff.mp h
  exact standsIn_eq_false_iff.mpr ⟨hjti, hfind iss hiss hrevoked⟩

theorem stands_of_updateWhere {p : Issuance → Bool} {now : Time} (h : standsIn c w = false)
    (hrows : w'.issuances =
      updateWhere p (fun i => { i with revokedAt := some now }) w.issuances) :
    standsIn c w' = false := by
  refine stands_of_find h fun iss hiss hrevoked => ?_
  have hfind :=
    find?_updateWhere (t := w.issuances) (q := fun i => i.jti == c.jti && c.jti != "") (p := p)
    (f := fun i => { i with revokedAt := some now }) fun _ => rfl
  rw [hrows, hfind, hiss]
  refine ⟨if p iss then { iss with revokedAt := some now } else iss, rfl, ?_⟩
  split
  · rfl
  · exact hrevoked

theorem Revoked.of_eq (h : Revoked c w) (hi : w'.issuances = w.issuances)
    (hm : w'.machineTokens = w.machineTokens) (hd : w'.revokedJTIs = w.revokedJTIs) :
      Revoked c w' := by
  unfold Revoked standsIn unlistedIn machineIn at *
  rw [hi, hm, hd]
  exact h

theorem Revoked.of_issuances {p : Issuance → Bool} {now : Time} (h : Revoked c w)
    (hi : w'.issuances = updateWhere p (fun i => { i with revokedAt := some now }) w.issuances)
    (hm : w'.machineTokens = w.machineTokens) (hd : w'.revokedJTIs = w.revokedJTIs) :
      Revoked c w' := by
  rcases h with h | h
  · exact .inl (stands_of_updateWhere h hi)
  · right
    rw [unlistedIn_eq_false_iff] at h ⊢
    rwa [hm, hd]

theorem Revoked.of_denylist (h : Revoked c w) (hi : w'.issuances = w.issuances)
    (hm : w'.machineTokens = w.machineTokens)
      (hd : ∀ r ∈ w.revokedJTIs, r.jti = c.jti → r ∈ w'.revokedJTIs) :
    Revoked c w' := by
  rcases h with h | h
  · left
    rw [standsIn_eq_false_iff] at h ⊢
    rwa [hi]
  · right
    rw [unlistedIn_eq_false_iff] at h ⊢
    rw [hm]
    exact ⟨h.1, h.2.imp id fun ⟨hnone, r, hr, hjti⟩ => ⟨hnone, r, hd r hr hjti, hjti⟩⟩

theorem Revoked.of_machine {p : MachineToken → Bool} (h : Revoked c w)
    (hi : w'.issuances = w.issuances)
    (hm : w'.machineTokens = updateWhere p (fun mt => { mt with revoked := true }) w.machineTokens)
    (hd : w'.revokedJTIs = w.revokedJTIs) : Revoked c w' := by
  rcases h with h | h
  · left
    rw [standsIn_eq_false_iff] at h ⊢
    rwa [hi]
  · right
    rw [unlistedIn_eq_false_iff] at h ⊢
    have hfind := find?_updateWhere (t := w.machineTokens) (q := (·.jti == c.jti)) (p := p)
      (f := fun mt => { mt with revoked := true }) fun _ => rfl
    rw [hm, hd, hfind]
    refine ⟨h.1, h.2.imp ?_ fun ⟨hnone, hlisted⟩ => ⟨by rw [hnone]; rfl, hlisted⟩⟩
    rintro ⟨mt, hmt, hrevoked⟩
    refine ⟨if p mt then { mt with revoked := true } else mt, by rw [hmt]; rfl, ?_⟩
    split
    · rfl
    · exact hrevoked

/-! ### The steps -/

def Kept : Write → Prop := fun x => Write.ofRevocation x ∨ Write.ofConsentRevocation x

theorem revoked_run {x : Write} (hx : Kept x) (h : Revoked c w) : Revoked c (x.run env i w) := by
  have hframe := x.frame env i w
  cases x with
  | denylistFamily id => exact h.of_denylist rfl rfl fun _ hr _ => List.mem_append_left _ hr
  | revokeMachineToken jti => exact h.of_machine rfl rfl rfl
  | revokeIssuance id => exact h.of_issuances rfl rfl rfl
  | cascade u cl r => exact h.of_issuances rfl rfl rfl
  | revokeFamily | revokeFamiliesOfClient | revokeFamiliesOfUser | listUser | revokeGrant
  | listPage =>
    exact h.of_eq (hframe.same .issuances (by simp [Write.touches]))
      (hframe.same .machineTokens (by simp [Write.touches]))
      (hframe.same .revokedJTIs (by simp [Write.touches]))
  | _ => exact (hx.elim id id).elim

theorem Past.run (x : Write) (h : Past c w) : Past c (x.run env i w) := by
  have hclock : unix w.clock ≤ unix (x.run env i w).clock :=
    Int.ediv_le_ediv (by decide) (x.clock_le env i w)
  exact lt_of_lt_of_le h hclock

theorem Revoked.of_machine_filter {keep : MachineToken → Bool} (h : Revoked c w)
    (hkeep : ∀ mt ∈ w.machineTokens, mt.jti = c.jti → mt.revoked = true → keep mt = true)
    (hi : w'.issuances = w.issuances) (hm : w'.machineTokens = w.machineTokens.filter keep)
    (hd : w'.revokedJTIs = w.revokedJTIs) : Revoked c w' := by
  rcases h with h | h
  · left
    rw [standsIn_eq_false_iff] at h ⊢
    rwa [hi]
  · right
    rw [unlistedIn_eq_false_iff] at h ⊢
    rw [hm, hd]
    refine ⟨h.1, h.2.imp ?_ fun ⟨hnone, hlisted⟩ => ⟨find?_filter_eq_none hnone, hlisted⟩⟩
    rintro ⟨mt, hmt, hrevoked⟩
    have hjti : mt.jti = c.jti := by simpa using List.find?_some hmt
    exact ⟨mt, find?_filter_of_kept hmt (hkeep mt (List.mem_of_find?_eq_some hmt) hjti hrevoked),
      hrevoked⟩

theorem Revoked.of_issuances_filter {keep : Issuance → Bool} (h : Revoked c w)
    (hkeep : ∀ i ∈ w.issuances, i.jti = c.jti → i.isRevoked = true → keep i = true)
    (hi : w'.issuances = w.issuances.filter keep) (hm : w'.machineTokens = w.machineTokens)
    (hd : w'.revokedJTIs = w.revokedJTIs) : Revoked c w' := by
  rcases h with h | h
  · left
    refine stands_of_find h fun iss hiss hrevoked => ⟨iss, ?_, hrevoked⟩
    have hjti := List.find?_some hiss
    simp only [Bool.and_eq_true, beq_iff_eq] at hjti
    rw [hi]
    exact find?_filter_of_kept hiss (hkeep iss (List.mem_of_find?_eq_some hiss) hjti.1 hrevoked)
  · right
    rw [unlistedIn_eq_false_iff] at h ⊢
    rwa [hm, hd]

theorem gone_maintain {m : Maintenance} (h : Gone c w) (hm : ¬Premature c w m) :
    Gone c (Write.run env i (.maintain m) w) := by
  by_cases hpast : Past c w
  · exact .inr (hpast.run _)
  have hrevoked : Revoked c w := h.resolve_right hpast
  left
  cases m with
  | purgeTokens | purgeSessions | purgeAssertions | editFederation | editDirectory | tick =>
    exact hrevoked.of_eq rfl rfl rfl
  | purgeRevocations =>
    refine hrevoked.of_denylist rfl rfl fun r hr hjti => List.mem_filter.mpr ⟨hr, ?_⟩
    by_contra hlate
    exact hm ⟨hpast, r, hr, hjti, by simpa using hlate⟩
  | purgeMachineTokens =>
    refine hrevoked.of_machine_filter (fun mt hmt hjti hrev => ?_) rfl rfl rfl
    by_contra hlate
    exact hm ⟨hpast, mt, hmt, hjti, hrev, by simpa using hlate⟩
  | purgeIssuances before =>
    refine hrevoked.of_issuances_filter (fun iss hiss hjti hrev => ?_) rfl rfl rfl
    by_contra hlate
    exact hm ⟨hpast, iss, hiss, hjti, hrev, by simpa using hlate⟩

/-! ### Runs -/

theorem gone_uses {req : Request} (hreq : Revokes req) (h : Gone c w)
    (hpatient : ∀ m, req = .maintain m → ¬Premature c w m)
      (huses : Uses env i req.kinds w w') : Gone c w' := by
  rcases huses with hquiet | ⟨x, hx, rfl⟩
  · obtain ⟨_, _, _, -, rfl⟩ := hquiet
    exact h.imp (fun hr => hr.of_eq rfl rfl rfl) id
  · have hkept : Kept x → Gone c (x.run env i w) := fun hk => h.imp (revoked_run hk) (Past.run x)
    cases req with
    | maintain m =>
      obtain rfl : x = .maintain m := hx
      exact gone_maintain h (hpatient m rfl)
    | revokeConsent id => exact hkept (.inr hx)
    | revokeToken | adminRevokeToken | forceLogoutUser | revokeFamiliesOfClient | revokeIssuance =>
      exact hkept (.inl hx)
    | _ => exact hreq.elim

theorem gone_exec {reqs : ReqID → Request} (hreqs : ∀ i, Revokes (reqs i)) {s : Server}
    {sched : Schedule ReqID} (hprocs : ∀ i, (s.procs i).Each (Uses env i (reqs i).kinds))
    (h : Gone c s.store) (hpatient : Patient c reqs s sched) : Gone c (s.exec sched).store := by
  induction sched generalizing s with
  | nil => exact h
  | cons e rest ih =>
    obtain ⟨hstep, hrest⟩ := hpatient
    obtain ⟨hstore, hnext⟩ := Pool.step_of_each hprocs e.1 e.2
    refine ih hnext ?_ hrest
    rcases hstore with hsame | huses
    · rwa [hsame]
    · exact gone_uses (hreqs e.1) h hstep huses

end Permanence

open Permanence

/-- **A revocation lasts.** Take any token, any world, any revocations, purges and passing of time,
in any interleaving of their store calls and with any store errors. If the token is revoked at some
point of the run, and no purge from there on deletes a row that revokes it while it may still
verify, then no introspection of the token after that reports it active, whoever asks and whatever
store calls of the introspection fail, unless it is only a machine-token row that revokes the token
and a call fails. -/
theorem IntrospectionService.revocation_lasts (env : Env) (c : AccessTokenClaims)
    (reqs : ReqID → Request) (hreqs : ∀ i, Revokes (reqs i)) (w : World)
    (before after : Schedule ReqID)
    (hrevoked : Revoked c ((Server.start env reqs w).exec before).store)
    (hpatient : Patient c reqs ((Server.start env reqs w).exec before) after)
    (clientID clientSecret : String) (plan : List Bool)
    (hheard : Heard c plan ((Server.start env reqs w).exec (before ++ after)).store)
    (resp : IntrospectResponse)
    (hresp : ((introspectToken env ⟨c, clientID, clientSecret⟩).run plan
      ((Server.start env reqs w).exec (before ++ after)).store).1 = .ok resp) :
    resp.active = false := by
  have hprocs :=
    Pool.each_exec (c := Server.start env reqs w) (fun i => uses_serve env i (reqs i)) before
  have hgone : Gone c ((Server.start env reqs w).exec (before ++ after)).store := by
    rw [Pool.exec_append]
    exact gone_exec hreqs hprocs (.inl hrevoked) hpatient
  exact hgone.not_active hheard hresp

namespace Sample

/-- A token of the user that was issued for the service, ten seconds after its expiry. -/
def lateWorld : World :=
  { world [] with released := [userToken "t"], clock := 2010000000000 }

def denylistedWorld : World :=
  { lateWorld with revokedJTIs := [⟨"t", 2000000000000⟩] }

def revokedMachineWorld : World :=
  { lateWorld with
    machineTokens :=
      [⟨"t", "app", ScopeSet.parse "notes:read", "", 900000000000, 2000000000000, true⟩] }

def recordedWorld : World :=
  { lateWorld with
    issuances := [⟨"i1", "user", "app", "r1", ["notes:read"], .mint, true, 900000000000,
      2000000000000, none, "t", "", "", [], "app", ""⟩] }

def revokeAndPurge (i : ReqID) : Request :=
  if i = 0 then .revokeIssuance "i1" else .maintain .purgeRevocations

def askLate (plan : List Bool) (w : World) : Except Err IntrospectResponse :=
  ((introspectToken Env.plain ⟨userToken "t", "app", "secret"⟩).run plan w).1

end Sample

open Sample in
/-- **A purge revives a token.** The token is on the denylist and reported inactive; a purge deletes
the row, ten seconds after the expiry, and the token is reported active. And a token whose
machine-token row is revoked is reported active when the store fails the lookup of that row. -/
theorem IntrospectionService.revocation_lapses :
    askLate [] denylistedWorld = .ok inactive ∧
    askLate [] ((Server.start Env.plain (fun _ => .maintain .purgeRevocations) denylistedWorld).exec
      [(0, false)]).store = .ok (activeResponse (userToken "t")) ∧
    askLate [] revokedMachineWorld = .ok inactive ∧
    askLate [false, false, false, true] revokedMachineWorld =
      .ok (activeResponse (userToken "t")) := by
  decide +kernel

open Sample in
/-- A revoked issuance, and a purge that finds nothing to delete. -/
theorem IntrospectionService.revocation_lasts_issuance :
    askLate [] recordedWorld = .ok (activeResponse (userToken "t")) ∧
      ∃ resp, askLate [] ((Server.start Env.plain revokeAndPurge recordedWorld).exec
        (turn 0 ++ [(1, false)])).store = .ok resp ∧ resp.active = false := by
  refine ⟨by decide +kernel, inactive, by decide +kernel, ?_⟩
  refine IntrospectionService.revocation_lasts Env.plain
    (userToken "t") revokeAndPurge (fun i => ?_)
    recordedWorld (turn 0) [(1, false)] (.inl (by decide +kernel)) ⟨fun m hm => ?_, trivial⟩
    "app" "secret" [] (.inl rfl) inactive (by decide +kernel)
  · unfold revokeAndPurge
    split <;> trivial
  · cases hm
    rintro ⟨-, r, hr, -⟩
    cases hr

end AuthServer
