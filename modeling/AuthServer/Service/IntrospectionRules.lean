import AuthServer.Service.Introspection

/-!
# What introspection comes to

With no store call failing, introspection only reads, and its answer is a function of the world. The
functions below are the checks of `IntrospectToken` in that case, and `reportedActive_iff` says that
a token is reported active exactly when the caller is accepted and entitled, the token verifies, and
none of the checks stands against it. -/

namespace AuthServer

open Interleave

variable {α : Type}

theorem run_attempt_fetch (f : World → Except Err α) (w : World) :
    (fetch f).attempt.run [] w = (.ok (f w), w) := by
  change ((Prog.ofExcept (f w)).attempt).run [] w = _
  cases f w <;> rfl

namespace IntrospectionService

/-- `issuanceStands`, in a world. -/
def standsIn (c : AccessTokenClaims) (w : World) : Bool :=
  c.jti == "" || !(w.issuances.find? fun i => i.jti == c.jti && c.jti != "").any Issuance.isRevoked

/-- `machineRow`, in a world. -/
def machineIn (c : AccessTokenClaims) (w : World) : Option MachineToken :=
  if c.jti == "" then none else w.machineTokens.find? (·.jti == c.jti)

/-- `notDenylisted`, in a world. -/
def unlistedIn (c : AccessTokenClaims) (w : World) : Bool :=
  match machineIn c w with
  | some mt => !mt.revoked
  | none => c.jti == "" || !w.revokedJTIs.any (·.jti == c.jti)

/-- `issuedThroughFrontingSource`, in a world. -/
def frontedIn (c : AccessTokenClaims) (w : World) : Bool :=
  if c.clientID == "" || (c.act.map (Json.Object.text "sub")).getD "" != c.clientID then false
  else
    match ResourceRegistry.resolve c.clientID w with
    | .ok res => res.slug == c.clientID
    | .error _ => false

/-- `issuerAlive`, in a world. -/
def issuerIn (c : AccessTokenClaims) (w : World) : Bool :=
  match ClientStore.getByID c.clientID w with
  | .ok cl => cl.isActive
  | .error e => (e.is .invalidClient || e.is .clientNotFound) && frontedIn c w

/-- `subjectAlive`, in a world. -/
def subjectIn (c : AccessTokenClaims) (machine : Bool) (w : World) : Bool :=
  if c.subject == "" || (machine && c.subject == c.clientID) then true
  else
    match UserStore.getByID c.subject w with
    | .ok u => u.isActive
    | .error e => machine && e.is .userNotFound

/-- `callerEntitlement`, in a world: the caller is the token's client, or a resource in its audience
authorizes the caller. The issuer in the audience stands for no resource. -/
def entitledIn (env : Env) (clientID : String) (c : AccessTokenClaims) (w : World) : Bool :=
  clientID == c.clientID || c.audience.any fun aud => aud != "" && aud != env.issuer &&
    match ResourceRegistry.resolve aud w with
    | .ok r => resourceAuthorizes r clientID
    | .error _ => false

/-! ### Each check -/

variable {env : Env} {c : AccessTokenClaims} {w : World}

theorem run_issuanceStands : (issuanceStands c).run [] w = (.ok (standsIn c w), w) := by
  unfold issuanceStands standsIn
  by_cases hjti : c.jti = ""
  · simp only [hjti, beq_self_eq_true, if_true, Bool.true_or]
    rfl
  · simp only [beq_iff_eq, hjti, if_false, Prog.run_bind, run_attempt_fetch, IssuanceStore.getByJTI]
    simp only [beq_eq_false_iff_ne.mpr hjti, Bool.false_or]
    rfl

theorem run_machineRow : (machineRow c).run [] w = (.ok (machineIn c w), w) := by
  unfold machineRow machineIn
  split
  · rfl
  · simp only [Prog.run_bind, run_attempt_fetch, MachineTokenStore.getByJTI]
    rfl

theorem run_notDenylisted : (notDenylisted c (machineIn c w)).run [] w =
    (.ok (unlistedIn c w), w) := by
  unfold unlistedIn
  cases machineIn c w with
  | some mt => rfl
  | none =>
    unfold notDenylisted
    by_cases hjti : c.jti = ""
    · simp only [hjti, beq_self_eq_true, if_true, Bool.true_or]
      rfl
    · simp only [beq_eq_false_iff_ne.mpr hjti, Bool.false_or]
      rfl

theorem run_issuedThroughFrontingSource : (issuedThroughFrontingSource c).run [] w =
    (.ok (frontedIn c w), w) := by
  unfold issuedThroughFrontingSource frontedIn
  split
  · rfl
  · simp only [Prog.run_bind, run_attempt_fetch]
    rfl

theorem run_issuerAlive : (issuerAlive c).run [] w = (.ok (issuerIn c w), w) := by
  unfold issuerAlive issuerIn
  simp only [Prog.run_bind, run_attempt_fetch]
  cases ClientStore.getByID c.clientID w with
  | ok cl => rfl
  | error e =>
    simp only
    by_cases hgone : (e.is .invalidClient || e.is .clientNotFound) = true
    · rw [if_pos hgone, run_issuedThroughFrontingSource, hgone, Bool.true_and]
    · rw [if_neg hgone, Bool.eq_false_iff.mpr hgone, Bool.false_and]
      rfl

variable {machine : Bool}

theorem run_subjectAlive : (subjectAlive c machine).run [] w =
    (.ok (subjectIn c machine w), w) := by
  unfold subjectAlive subjectIn
  split
  · rfl
  · simp only [Prog.run_bind, run_attempt_fetch]
    rfl

/-- All the checks. -/
def liveIn (c : AccessTokenClaims) (w : World) : Bool :=
  standsIn c w && unlistedIn c w && issuerIn c w && subjectIn c (machineIn c w).isSome w

theorem run_isLive : (isLive c).run [] w = (.ok (liveIn c w), w) := by
  unfold isLive liveIn
  simp only [Prog.run_bind, run_issuanceStands]
  cases standsIn c w with
  | false => rfl
  | true =>
    simp only [if_true, Prog.run_bind, run_machineRow, run_notDenylisted, Bool.true_and]
    cases unlistedIn c w with
    | false => rfl
    | true =>
      simp only [if_true, Prog.run_bind, run_issuerAlive, Bool.true_and]
      cases issuerIn c w with
      | false => rfl
      | true => simp only [if_true, run_subjectAlive, Bool.true_and]

variable {audience : List String}

theorem run_audienceAuthorizes {clientID : String} :
    (audienceAuthorizes env clientID audience).run [] w =
      (.ok (audience.any fun aud => aud != "" && aud != env.issuer &&
        match ResourceRegistry.resolve aud w with
        | .ok r => resourceAuthorizes r clientID
        | .error _ => false), w) := by
  induction audience with
  | nil => rfl
  | cons aud rest ih =>
    unfold audienceAuthorizes
    rw [List.any_cons]
    by_cases hskip : (aud == "" || aud == env.issuer) = true
    · have hfalse : (aud != "" && aud != env.issuer) = false := by
        rcases Bool.or_eq_true_iff.mp hskip with h | h <;> simp [bne, h]
      rw [if_pos hskip, ih, hfalse, Bool.false_and, Bool.false_or]
    · have htrue : (aud != "" && aud != env.issuer) = true := by
        simpa [bne, not_or] using hskip
      rw [if_neg hskip, Prog.run_bind, run_attempt_fetch, htrue, Bool.true_and]
      cases ResourceRegistry.resolve aud w with
      | ok r =>
        simp only
        cases resourceAuthorizes r clientID with
        | true => rfl
        | false => simpa using ih
      | error e => simpa using ih

theorem run_callerEntitlement {clientID : String} :
    (callerEntitlement env clientID c).run [] w = (.ok (entitledIn env clientID c w), w) := by
  unfold callerEntitlement entitledIn
  by_cases hown : (clientID == c.clientID) = true
  · rw [if_pos hown, hown, Bool.true_or]
    rfl
  · rw [if_neg hown, run_audienceAuthorizes, Bool.eq_false_iff.mpr hown, Bool.false_or]

/-! ### With calls failing

A check that passes although store calls failed was still made, but for the machine-token lookup:
when it fails, the token is treated as one without a machine-token row. -/

section Faults

variable {plan : List Bool} {w' : World}

theorem attempt_fetch_of_run {f : World → Except Err α} {r : Except Err α}
    (h : (fetch f).attempt.run plan w = (.ok r, w')) : w' = w ∧
      (r = f w ∨ r = .error storeFault) := by
  have hleaf : ∀ (x : Except Err α) rest (u : World),
      ((Prog.ofExcept x : Svc α).attempt).run rest u = (.ok x, u) := by
    intro x rest u
    cases x <;> rfl
  have hrun : (fetch f).attempt.run plan w =
      (.ok (Prog.outcome (fun s => (f s, s)) (some (.error storeFault)) (plan.headD false) w).1,
        (Prog.outcome (fun s => (f s, s)) (some (.error storeFault)) (plan.headD false) w).2) :=
    hleaf _ _ _
  rw [hrun] at h
  cases hbad : plan.headD false with
  | false =>
    rw [hbad] at h
    obtain ⟨hr, hw⟩ := Prod.mk.inj h
    exact ⟨hw.symm, .inl (Except.ok.inj hr).symm⟩
  | true =>
    rw [hbad] at h
    obtain ⟨hr, hw⟩ := Prod.mk.inj h
    exact ⟨hw.symm, .inr (Except.ok.inj hr).symm⟩

theorem stands_of_run (h : (issuanceStands c).run plan w = (.ok true, w')) :
    w' = w ∧ standsIn c w = true := by
  unfold issuanceStands at h
  split at h
  · rename_i hjti
    exact ⟨(Prod.mk.inj h).2.symm, by simp [standsIn, hjti]⟩
  · obtain ⟨r, u, rest, hr, hk⟩ := Prog.ok_of_run_bind h
    obtain ⟨hans, rfl⟩ := Prod.mk.inj hk
    obtain ⟨rfl, rfl | rfl⟩ := attempt_fetch_of_run hr
    · simp only [IssuanceStore.getByJTI, Except.ok.injEq] at hans
      exact ⟨rfl, by simp [standsIn, hans]⟩
    · cases hans

theorem machineRow_of_run {row : Option MachineToken}
    (h : (machineRow c).run plan w = (.ok row, w')) : w' = w ∧
      (row = machineIn c w ∨ row = none) := by
  unfold machineRow at h
  split at h
  · obtain ⟨hrow, hw⟩ := Prod.mk.inj h
    exact ⟨hw.symm, .inr (Except.ok.inj hrow).symm⟩
  · rename_i hjti
    obtain ⟨r, u, rest, hr, hk⟩ := Prog.ok_of_run_bind h
    obtain ⟨hans, rfl⟩ := Prod.mk.inj hk
    obtain ⟨rfl, rfl | rfl⟩ := attempt_fetch_of_run hr
    · refine ⟨rfl, .inl ?_⟩
      rw [machineIn, if_neg hjti]
      exact (Except.ok.inj hans).symm
    · exact ⟨rfl, .inr (Except.ok.inj hans).symm⟩

/-- Without a machine-token row the denylist decides. -/
theorem unlisted_of_run_none (h : (notDenylisted c none).run plan w = (.ok true, w')) :
    w' = w ∧ (c.jti == "" || !w.revokedJTIs.any (·.jti == c.jti)) = true := by
  simp only [notDenylisted] at h
  split at h
  · rename_i hjti
    exact ⟨(Prod.mk.inj h).2.symm, by rw [hjti]; rfl⟩
  · obtain ⟨r, u, rest, hr, hk⟩ := Prog.ok_of_run_bind h
    obtain ⟨hans, rfl⟩ := Prod.mk.inj hk
    obtain ⟨rfl, rfl | rfl⟩ := attempt_fetch_of_run hr
    · simp only [RevocationStore.isRevoked, Except.ok.injEq] at hans
      exact ⟨rfl, by simp [hans]⟩
    · cases hans

theorem fronted_of_run (h : (issuedThroughFrontingSource c).run plan w = (.ok true, w')) :
    w' = w ∧ frontedIn c w = true := by
  unfold issuedThroughFrontingSource at h
  unfold frontedIn
  split at h
  · cases (Prod.mk.inj h).1
  · rename_i hact
    obtain ⟨r, u, rest, hr, hk⟩ := Prog.ok_of_run_bind h
    obtain ⟨hans, rfl⟩ := Prod.mk.inj hk
    obtain ⟨rfl, rfl | rfl⟩ := attempt_fetch_of_run hr
    · exact ⟨rfl, by rw [if_neg hact]; exact Except.ok.inj hans⟩
    · cases hans

/-- A client lookup that the store failed is no answer that there is no such client. -/
theorem issuer_of_run (h : (issuerAlive c).run plan w = (.ok true, w')) :
    w' = w ∧ issuerIn c w = true := by
  unfold issuerAlive at h
  unfold issuerIn
  obtain ⟨r, u, rest, hr, hk⟩ := Prog.ok_of_run_bind h
  obtain ⟨rfl, hread⟩ := attempt_fetch_of_run hr
  cases r with
  | ok cl =>
    obtain ⟨hans, rfl⟩ := Prod.mk.inj hk
    obtain hread | hfault := hread
    · exact ⟨rfl, by rw [← hread]; exact Except.ok.inj hans⟩
    · cases hfault
  | error e =>
    simp only at hk
    split at hk
    · rename_i hgone
      obtain ⟨rfl, hfronted⟩ := fronted_of_run hk
      refine ⟨rfl, ?_⟩
      obtain hread | hfault := hread
      · rw [← hread]
        exact Bool.and_eq_true_iff.mpr ⟨hgone, hfronted⟩
      · rw [Except.error.inj hfault] at hgone
        exact absurd hgone (by decide)
    · cases (Prod.mk.inj hk).1

theorem subject_of_run (h : (subjectAlive c machine).run plan w = (.ok true, w')) :
    w' = w ∧ subjectIn c machine w = true := by
  unfold subjectAlive at h
  unfold subjectIn
  split at h
  · rename_i hnone
    exact ⟨(Prod.mk.inj h).2.symm, by rw [if_pos hnone]⟩
  · rename_i hnamed
    obtain ⟨r, u, rest, hr, hk⟩ := Prog.ok_of_run_bind h
    obtain ⟨hans, rfl⟩ := Prod.mk.inj hk
    obtain ⟨rfl, hread⟩ := attempt_fetch_of_run hr
    refine ⟨rfl, ?_⟩
    rw [if_neg hnamed]
    cases r with
    | ok user =>
      obtain hread | hfault := hread
      · rw [← hread]
        exact Except.ok.inj hans
      · cases hfault
    | error e =>
      obtain hread | hfault := hread
      · rw [← hread]
        exact Except.ok.inj hans
      · rw [Except.error.inj hfault] at hans
        have hnot : (machine && storeFault.is .userNotFound) = true := Except.ok.inj hans
        exact absurd (Bool.and_eq_true_iff.mp hnot).2 (by decide)

/-- A subject that passes as that of a user token passes as that of a machine token. -/
theorem subjectIn_machine (h : subjectIn c false w = true) : subjectIn c true w = true := by
  unfold subjectIn at h ⊢
  simp only [Bool.false_and, Bool.or_false] at h
  split
  · rfl
  · rename_i hnamed
    have hsubject : ¬ (c.subject == "") = true := fun hs => hnamed (by rw [hs]; rfl)
    rw [if_neg hsubject] at h
    cases hget : UserStore.getByID c.subject w with
    | ok u => simpa [hget] using h
    | error e => simp [hget] at h

/-- The only thing that stands against the token is its machine-token row: it is revoked, while the
denylist, the issuing client and the subject taken as a user let the token through. -/
def OnlyRowRevoked (c : AccessTokenClaims) (w : World) : Prop :=
  standsIn c w = true ∧ (∃ mt, machineIn c w = some mt ∧ mt.revoked = true) ∧
    w.revokedJTIs.any (·.jti == c.jti) = false ∧ issuerIn c w = true ∧ subjectIn c false w = true

theorem OnlyRowRevoked.not_live (h : OnlyRowRevoked c w) : liveIn c w = false := by
  obtain ⟨-, ⟨mt, hmt, hrevoked⟩, -⟩ := h
  simp [liveIn, unlistedIn, hmt, hrevoked]

/-- **A token that passes every check although store calls failed.** It passes them with none
failing, or its revoked machine-token row was overlooked. -/
theorem live_of_run (h : (isLive c).run plan w = (.ok true, w')) : liveIn c w = true ∨
    OnlyRowRevoked c w := by
  obtain ⟨stands, u, rest, hstands, hk⟩ := Prog.ok_of_run_bind h
  cases stands with
  | false => cases (Prod.mk.inj hk).1
  | true =>
    rw [if_pos rfl] at hk
    obtain ⟨rfl, hstood⟩ := stands_of_run hstands
    obtain ⟨row, v, rest, hrow, hnext⟩ := Prog.ok_of_run_bind hk
    obtain ⟨rfl, hrow⟩ := machineRow_of_run hrow
    obtain ⟨listed, v', rest, hlisted, hlast⟩ := Prog.ok_of_run_bind hnext
    cases listed with
    | false => cases (Prod.mk.inj hlast).1
    | true =>
      rw [if_pos rfl] at hlast
      obtain ⟨issuer, v'', rest, hissuer, hsubject⟩ := Prog.ok_of_run_bind hlast
      cases issuer with
      | false => cases (Prod.mk.inj hsubject).1
      | true =>
        rw [if_pos rfl] at hsubject
        cases row with
        | some mt =>
          obtain hrow | hrow := hrow
          · obtain ⟨hans, rfl⟩ := Prod.mk.inj hlisted
            obtain ⟨rfl, hissuer⟩ := issuer_of_run hissuer
            have hunlisted : unlistedIn c v'' = true := by
              rw [unlistedIn, ← hrow]
              exact Except.ok.inj hans
            left
            rw [liveIn, hstood, hunlisted, hissuer, ← hrow, (subject_of_run hsubject).2]
            rfl
          · cases hrow
        | none =>
          obtain ⟨rfl, hunlisted⟩ := unlisted_of_run_none hlisted
          obtain ⟨rfl, hissuer⟩ := issuer_of_run hissuer
          have hsubject := (subject_of_run hsubject).2
          cases hmachine : machineIn c v'' with
          | none =>
            left
            rw [liveIn, unlistedIn, hstood, hissuer, hmachine]
            simp only [hunlisted, Bool.true_and]
            exact hsubject
          | some mt =>
            cases hrevoked : mt.revoked with
            | false =>
              left
              simp [liveIn, unlistedIn, hstood, hissuer, hmachine, hrevoked,
                subjectIn_machine hsubject]
            | true =>
              right
              have hjti : c.jti ≠ "" := by
                intro hjti
                simp [machineIn, hjti] at hmachine
              have hnot : v''.revokedJTIs.any (·.jti == c.jti) = false := by
                simpa [hjti] using hunlisted
              exact ⟨hstood, ⟨mt, hmachine, hrevoked⟩, hnot, hissuer, hsubject⟩

theorem authenticateCaller_of_run {req : IntrospectRequest} {cl : Client}
    (h : (authenticateCaller env req).run plan w = (.ok cl, w')) : w' = w := by
  obtain ⟨r, u, rest, hr, hk⟩ := Prog.ok_of_run_bind h
  obtain ⟨rfl, -⟩ := attempt_fetch_of_run hr
  cases r with
  | error e => cases (Prod.mk.inj hk).1
  | ok found =>
    rw [Except.mapError, Prog.ofExcept] at hk
    obtain ⟨_, v, rest', hif, hret⟩ := Prog.ok_of_run_bind (p := failIf _ _) hk
    obtain rfl := (Prod.mk.inj hret).2
    unfold failIf at hif
    split at hif
    · cases (Prod.mk.inj hif).1
    · exact (Prod.mk.inj hif).2.symm

variable {clientID : String} {b : Bool}

theorem audienceAuthorizes_of_run
    (h : (audienceAuthorizes env clientID audience).run plan w = (.ok b, w')) : w' = w := by
  induction audience generalizing plan with
  | nil => exact (Prod.mk.inj h).2.symm
  | cons aud rest ih =>
    unfold audienceAuthorizes at h
    split at h
    · exact ih h
    · obtain ⟨r, u, rest', hr, hk⟩ := Prog.ok_of_run_bind h
      obtain ⟨rfl, -⟩ := attempt_fetch_of_run hr
      split at hk
      · split at hk
        · exact (Prod.mk.inj hk).2.symm
        · exact ih hk
      · exact ih hk

theorem callerEntitlement_of_run
    (h : (callerEntitlement env clientID c).run plan w = (.ok b, w')) : w' = w := by
  unfold callerEntitlement at h
  split at h
  · exact (Prod.mk.inj h).2.symm
  · exact audienceAuthorizes_of_run h

theorem introspectVerified_of_run {caller : Client} {resp : IntrospectResponse}
    (h : (introspectVerified env caller c).run plan w = (.ok resp, w'))
      (hactive : resp.active = true) :
    liveIn c w = true ∨ OnlyRowRevoked c w := by
  obtain ⟨entitled, u, rest, hentitled, hk⟩ := Prog.ok_of_run_bind h
  obtain rfl := callerEntitlement_of_run hentitled
  cases entitled with
  | false =>
    obtain rfl := Except.ok.inj (Prod.mk.inj hk).1
    cases hactive
  | true =>
    rw [if_pos rfl] at hk
    obtain ⟨live, v, rest', hlive, hret⟩ := Prog.ok_of_run_bind hk
    cases live with
    | false =>
      obtain rfl := Except.ok.inj (Prod.mk.inj hret).1
      cases hactive
    | true => exact live_of_run hlive

end Faults

/-! ### The answer -/

/-- The caller is known and its credentials are accepted. -/
def Accepted (env : Env) (clientID clientSecret : String) (w : World) : Prop :=
  ∃ cl, ClientStore.getByID clientID w = .ok cl ∧ accepts env cl clientSecret = true

def ReportedActive (env : Env) (req : IntrospectRequest) (w : World) : Prop :=
  ∃ resp, ((introspectToken env req).run [] w).1 = .ok resp ∧ resp.active = true

variable {req : IntrospectRequest} {cl : Client}

theorem run_authenticateCaller
    (hget : ClientStore.getByID req.clientID w = .ok cl) :
    (authenticateCaller env req).run [] w =
      (if accepts env cl req.clientSecret then .ok cl
        else .error (.sentinel .invalidClient), w) := by
  simp only [authenticateCaller, Prog.run_bind, run_attempt_fetch, hget, Except.mapError,
    Prog.ofExcept, Prog.run]
  cases accepts env cl req.clientSecret <;> rfl

theorem run_authenticateCaller_unknown {e : Err}
    (hget : ClientStore.getByID req.clientID w = .error e) :
    (authenticateCaller env req).run [] w = (.error (.sentinel .invalidClient), w) := by
  simp only [authenticateCaller, Prog.run_bind, run_attempt_fetch, hget, Except.mapError]
  rfl

theorem run_introspectVerified {caller : Client} :
    (introspectVerified env caller c).run [] w =
      (.ok (if entitledIn env caller.id c w && liveIn c w then activeResponse c
        else inactive), w) := by
  simp only [introspectVerified, Prog.run_bind, run_callerEntitlement]
  cases entitledIn env caller.id c w with
  | false => rfl
  | true =>
    simp only [if_true, Prog.run_bind, run_isLive, Bool.true_and]
    rfl

theorem run_introspectToken
    (hget : ClientStore.getByID req.clientID w = .ok cl)
      (haccepts : accepts env cl req.clientSecret = true) :
    (introspectToken env req).run [] w =
      (.ok (match verifyAccessToken env req.token w with
        | .ok claims =>
          if entitledIn env cl.id claims w &&
            liveIn claims w then activeResponse claims else inactive
        | .error _ => inactive), w) := by
  simp only [introspectToken, Prog.run_bind, run_authenticateCaller hget, haccepts, if_true,
    run_attempt_fetch]
  cases verifyAccessToken env req.token w with
  | error e => rfl
  | ok claims => exact run_introspectVerified

variable {clientID clientSecret : String} {resp : IntrospectResponse}

/-- What an introspection that is answered says. -/
theorem ok_of_introspectToken
    (h : ((introspectToken env ⟨c, clientID, clientSecret⟩).run [] w).1 = .ok resp) :
    Accepted env clientID clientSecret w ∧
      resp = match verifyAccessToken env c w with
        | .ok claims =>
          if entitledIn env clientID claims w &&
            liveIn claims w then activeResponse claims else inactive
        | .error _ => inactive := by
  cases hget : ClientStore.getByID clientID w with
  | error e =>
    have hauth := @run_authenticateCaller_unknown env w ⟨c, clientID, clientSecret⟩ e hget
    simp [introspectToken, Prog.run_bind, hauth] at h
  | ok cl =>
    cases haccepts : accepts env cl clientSecret with
    | false =>
      have hauth := @run_authenticateCaller env w ⟨c, clientID, clientSecret⟩ cl hget
      simp [introspectToken, Prog.run_bind, hauth, haccepts] at h
    | true =>
      rw [run_introspectToken hget haccepts, (ClientStore.mem_of_getByID hget).2] at h
      exact ⟨⟨cl, hget, haccepts⟩, (Except.ok.inj h).symm⟩

/-- **When a token is reported active.** -/
theorem reportedActive_iff :
    ReportedActive env ⟨c, clientID, clientSecret⟩ w ↔
      Accepted env clientID clientSecret w ∧ verifyAccessToken env c w = .ok c ∧
        entitledIn env clientID c w = true ∧ liveIn c w = true := by
  constructor
  · rintro ⟨resp, hrun, hactive⟩
    obtain ⟨haccepted, rfl⟩ := ok_of_introspectToken hrun
    cases hverify : verifyAccessToken env c w with
    | error e => simp [hverify, inactive] at hactive
    | ok claims =>
      obtain ⟨rfl, -⟩ := verifyAccessToken_ok hverify
      simp only [hverify] at hactive
      split at hactive
      · rename_i hboth
        obtain ⟨hentitled, hlive⟩ := Bool.and_eq_true_iff.mp hboth
        exact ⟨haccepted, rfl, hentitled, hlive⟩
      · cases hactive
  · rintro ⟨⟨cl, hget, haccepts⟩, hverify, hentitled, hlive⟩
    refine ⟨activeResponse c, ?_, rfl⟩
    rw [run_introspectToken hget haccepts, hverify]
    simp only [(ClientStore.mem_of_getByID hget).2, hentitled, hlive, Bool.and_self, if_true]

/-- A token that is reported active although store calls failed. -/
theorem active_of_run {plan : List Bool}
    (h : ((introspectToken env ⟨c, clientID, clientSecret⟩).run plan w).1 = .ok resp)
      (hactive : resp.active = true) :
    verifyAccessToken env c w = .ok c ∧ (liveIn c w = true ∨ OnlyRowRevoked c w) := by
  obtain ⟨caller, u, rest, hcaller, hk⟩ := Prog.ok_of_run_bind (Prod.ext h rfl)
  obtain rfl := authenticateCaller_of_run hcaller
  obtain ⟨verdict, v, rest', hverdict, hlast⟩ := Prog.ok_of_run_bind hk
  have hinactive : resp ≠ inactive := by
    rintro rfl
    cases hactive
  obtain ⟨rfl, rfl | rfl⟩ := attempt_fetch_of_run hverdict
  · cases hverify : verifyAccessToken env c v with
    | error e =>
      simp only [hverify] at hlast
      exact (hinactive (Except.ok.inj (Prod.mk.inj hlast).1).symm).elim
    | ok claims =>
      obtain ⟨rfl, -⟩ := verifyAccessToken_ok hverify
      simp only [hverify] at hlast
      exact ⟨rfl, introspectVerified_of_run hlast hactive⟩
  · exact (hinactive (Except.ok.inj (Prod.mk.inj hlast).1).symm).elim

end IntrospectionService

end AuthServer
