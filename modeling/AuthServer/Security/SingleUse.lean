import Mathlib.Tactic.Linarith
import AuthServer.Security.AssertedScope
import AuthServer.Service.Paced

/-!
# Proofs and assertions are used once

The server remembers the identifier of every DPoP proof it accepted, and of every identity
assertion, until a purge pass deletes it. Single use therefore needs each identifier to be kept for
as long as what it stands for would be accepted again. The runs here are sequences of requests and
purge passes; the clock may advance between any two store calls, and the store may fail any of them.

A proof is accepted up to one lifetime before and after its `iat`. Its identifier is kept for two
lifetimes from its consumption, so from an acceptance as early as possible to the end of the window.

An assertion is accepted until half a minute after its expiry, and its identifier is kept for a
minute. The purge compares the two times as texts, which is why the year in which an assertion
expires matters. -/

namespace AuthServer

open Interleave

/-! ### DPoP proofs -/

section Proofs

variable {env : Env} {cfg : DPoPConfig} {req : DPoPRequest} {pace : Pace} {w t : World}

/-- Time passed, and the identifiers seen are the same. -/
structure SameJTIs (w w' : World) : Prop where
  clock_le : w.clock ≤ w'.clock
  jtis : w'.dpopJTIs = w.dpopJTIs

theorem SameJTIs.refl (w : World) : SameJTIs w w := ⟨Int.le_refl _, rfl⟩

theorem SameJTIs.drifts : Prog.Drifts World.wait SameJTIs where
  refl := .refl
  trans h h' := ⟨h.clock_le.trans h'.clock_le, h'.jtis.trans h.jtis⟩
  waits d w := ⟨w.clock_le_wait d, rfl⟩

variable {jti : String}

theorem ok_of_consumeJTI {expiry : Time} {u : Unit}
    (h : DPoPNonceStore.consumeJTI jti expiry w = (.ok u, t)) :
    (∀ row ∈ w.dpopJTIs, row.1 ≠ jti) ∧ t = { w with
      dpopJTIs := w.dpopJTIs ++ [(jti, expiry)] } := by
  unfold DPoPNonceStore.consumeJTI at h
  split at h
  · cases (Prod.mk.inj h).1
  · rename_i hnew
    refine ⟨fun row hrow hjti => hnew ?_, (Prod.mk.inj h).2.symm⟩
    exact List.any_eq_true.mpr ⟨row, hrow, beq_iff_eq.mpr hjti⟩

/-- Between the two worlds the proof was found valid, at some moment, and its identifier
recorded. -/
structure ProofAccepted (lifetime : Time) (p : OpenedProof) (w w' : World)
    (now expiry : Time) : Prop where
  after : w.clock ≤ now
  before : now ≤ w'.clock
  age : proofAge p.claims.iat now ≤ lifetime
  kept : now + int64 (lifetime * 2) ≤ expiry
  fresh : ∀ row ∈ w.dpopJTIs, row.1 ≠ p.claims.jti
  recorded : (p.claims.jti, expiry) ∈ w'.dpopJTIs

/-- **What a validation that succeeds has done.** -/
theorem accepted_of_validateDPoP {jkt : String} (hcfg : env.dpop = some cfg)
    (hon : cfg.enabled = true)
    (h : (validateDPoP env req).runPaced World.wait pace w = (.ok jkt, t)) :
    ∃ p now expiry, openProof env req.proof = .ok p ∧
      ProofAccepted cfg.proofLifetime p w t now expiry := by
  unfold validateDPoP at h
  simp only [hcfg, hon, if_true] at h
  -- the first reading of the clock, and the proof
  obtain ⟨d, pace₁, hnow⟩ := runPaced_timeNow_bind _ pace w
  rw [hnow] at h
  obtain ⟨result, hproof, h⟩ := Prog.ok_of_runPaced_ofExcept_bind h
  obtain ⟨p, hopen, hjti, -, hage⟩ := validateProof_ok hproof
  rw [hcfg] at hage
  -- the nonce
  obtain ⟨-, w₁, pace₂, hs₁, h⟩ := (Prog.each_failIf _ _).ok_of_runPaced_bind SameJTIs.drifts h
  obtain ⟨-, w₂, pace₃, hs₂, h⟩ := (each_checkNonce SameJTIs.refl _ _).ok_of_runPaced_bind
    SameJTIs.drifts h
  -- the second reading, and the consumption
  obtain ⟨d', pace₄, hnow'⟩ := runPaced_timeNow_bind _ pace₃ w₂
  rw [hnow'] at h
  obtain ⟨⟨⟩, w₃, pace₅, hstore, h⟩ := Prog.ok_of_runPaced_bind h
  obtain ⟨u, hu, hconsume⟩ := Prog.ok_of_runPaced_exec hstore
  obtain ⟨d'', rfl⟩ := eq_wait_of_waited hu
  obtain ⟨hnew, rfl⟩ := ok_of_consumeJTI hconsume
  obtain rfl := (Prod.mk.inj h).2
  have hsame : SameJTIs (w.wait d) (w₂.wait d') :=
    SameJTIs.drifts.trans (SameJTIs.drifts.trans hs₁ hs₂) (SameJTIs.drifts.waits d' w₂)
  refine ⟨p, (w.wait d).clock, (w₂.wait d').clock + int64 (cfg.proofLifetime * 2), hopen, ?_⟩
  exact {
    after := w.clock_le_wait d
    before := hsame.clock_le.trans (World.clock_le_wait d'' _)
    age := hage
    kept := Int.add_le_add_right hsame.clock_le _
    fresh := fun row hrow => hjti ▸ hnew row (hsame.jtis ▸ hrow)
    recorded := hjti ▸ List.mem_append_right _ List.mem_cons_self }

/-- The proof will not be accepted any more: its identifier is kept until its window is over, or the
window is over. -/
def ProofSpent (lifetime : Time) (p : OpenedProof) (w : World) : Prop :=
  (∃ row ∈ w.dpopJTIs, row.1 = p.claims.jti ∧ timeUnix p.claims.iat + lifetime ≤ row.2) ∨
    timeUnix p.claims.iat + lifetime < w.clock

variable {lifetime : Time} {p : OpenedProof} {now expiry : Time}

/-- In the range in which ages are distances, an accepted proof is within its window. -/
theorem ProofAccepted.window (h : ProofAccepted lifetime p w t now expiry)
    (hstart : timeUnix p.claims.iat - years290 ≤ w.clock)
      (hend : t.clock ≤ timeUnix p.claims.iat + years290) :
    timeUnix p.claims.iat - lifetime ≤ now ∧ now ≤ timeUnix p.claims.iat + lifetime := by
  have hnear : |now - timeUnix p.claims.iat| ≤ years290 :=
    abs_le.mpr ⟨by linarith [h.after], by linarith [h.before]⟩
  have hage := h.age
  rw [proofAge_eq hnear] at hage
  obtain ⟨hl, hu⟩ := abs_le.mp hage
  constructor <;> linarith

theorem ProofAccepted.spent (h : ProofAccepted lifetime p w t now expiry)
    (hfits : lifetime * 2 ≤ 9223372036854775807)
      (hstart : timeUnix p.claims.iat - years290 ≤ w.clock)
    (hend : t.clock ≤ timeUnix p.claims.iat + years290) : ProofSpent lifetime p t := by
  obtain ⟨hl, hu⟩ := h.window hstart hend
  have hkept := h.kept
  rw [int64_eq_self (by linarith) hfits] at hkept
  exact .inl ⟨_, h.recorded, rfl, by linarith⟩

theorem ProofSpent.not_accepted (h : ProofSpent lifetime p w)
    (hstart : timeUnix p.claims.iat - years290 ≤ w.clock)
    (hend : t.clock ≤ timeUnix p.claims.iat + years290) :
      ¬ ProofAccepted lifetime p w t now expiry := by
  intro haccepted
  rcases h with ⟨row, hrow, hjti, -⟩ | hover
  · exact haccepted.fresh row hrow hjti
  · exact absurd ((haccepted.after.trans (haccepted.window hstart hend).2)) (not_le.mpr hover)

theorem ProofSpent.wait (d : ℕ) (h : ProofSpent lifetime p w) : ProofSpent lifetime p (w.wait d) :=
  h.imp_right fun hover => hover.trans_le (w.clock_le_wait d)

theorem ProofSpent.consumeJTI (h : ProofSpent lifetime p w) :
    ProofSpent lifetime p (DPoPNonceStore.consumeJTI jti expiry w).2 := by
  unfold DPoPNonceStore.consumeJTI
  split
  · exact h
  · exact h.imp_left fun ⟨row, hrow, hkept⟩ => ⟨row, List.mem_append_left _ hrow, hkept⟩

/-- A purge deletes what expired in the past: the identifier, only when the window is over. -/
theorem ProofSpent.purgeJTIs (hnow : now ≤ w.clock) (h : ProofSpent lifetime p w) :
    ProofSpent lifetime p (DPoPNonceStore.purgeJTIs now w).2 := by
  rcases h with ⟨row, hrow, hjti, hkept⟩ | hover
  · by_cases hold : row.2 < now
    · exact .inr ((hkept.trans_lt hold).trans_le hnow)
    · exact .inl ⟨row, List.mem_filter.mpr ⟨hrow, by simpa using hold⟩, hjti, hkept⟩
  · exact .inr hover

end Proofs

/-! ### Runs -/

/-- A validation of a proof at the token endpoint, or a purge pass, each at its pace. -/
inductive ProofStep
  | validate (req : DPoPRequest) (pace : Pace)
  | purge (pace : Pace)

theorem before_consumeJTI (jti : String) (expiry : Time) (w : World) :
    w.Before (DPoPNonceStore.consumeJTI jti expiry w).2 := by
  unfold DPoPNonceStore.consumeJTI
  split <;> exact ⟨Int.le_refl _, rfl⟩

namespace ProofStep

variable {env : Env} {cfg : DPoPConfig} {proof : String}

def run (env : Env) (x : ProofStep) (w : World) : World :=
  match x with
  | validate req pace => ((validateDPoP env req).runPaced World.wait pace w).2
  | purge pace => (DPoPNonceStore.purgeExpired.runPaced World.wait pace w).2

/-- Does the step validate this proof, consume its identifier and succeed? -/
def accepts (env : Env) (proof : String) (x : ProofStep) (w : World) : Bool :=
  match x with
  | validate req pace =>
    req.proof == proof && ((validateDPoP env req).runPaced World.wait pace w).1.isOk
  | purge _ => false

theorem before_run (x : ProofStep) (w : World) : w.Before (x.run env w) := by
  have hpurge : DPoPNonceStore.purgeExpired.Each World.Before := by
    refine (Prog.each_step World.Before.refl).bind fun now => ?_
    refine (each_wrapErr (Prog.each_exec fun _ => ⟨Int.le_refl _, rfl⟩)).bind fun _ => ?_
    exact each_wrapErr (Prog.each_exec fun _ => ⟨Int.le_refl _, rfl⟩)
  cases x with
  | validate req pace =>
    exact (each_validateDPoP World.Before.refl before_consumeJTI env req).runPaced
      World.Before.drifts pace w
  | purge pace =>
    exact hpurge.runPaced World.Before.drifts pace w

variable {w : World}

theorem spent_run {lifetime : Time} {p : OpenedProof} (x : ProofStep)
    (h : ProofSpent lifetime p w) : ProofSpent lifetime p (x.run env w) := by
  cases x with
  | validate req pace =>
    exact (each_validateDPoP (P := fun w w' => ProofSpent lifetime p w → ProofSpent lifetime p w')
      (fun _ => id) (fun _ _ _ => ProofSpent.consumeJTI) env req).runPaced
      (.of_inv fun d _ => ProofSpent.wait d) pace w h
  | purge pace =>
    refine runPaced_timeNow_inv (fun d _ => ProofSpent.wait d) (fun now => ?_) pace w h
    exact (each_wrapErr (Prog.each_exec fun u hu => ⟨hu.1, hu.2.purgeJTIs hu.1⟩)).bind fun _ =>
      each_wrapErr (Prog.each_exec fun _ => id)

theorem accepted_of_accepts {x : ProofStep} (hcfg : env.dpop = some cfg)
    (hon : cfg.enabled = true) (h : x.accepts env proof w = true) :
    ∃ p now expiry, openProof env proof = .ok p ∧
      ProofAccepted cfg.proofLifetime p w (x.run env w) now expiry := by
  cases x with
  | purge pace => cases h
  | validate req pace =>
    obtain ⟨hproof, hok⟩ := Bool.and_eq_true_iff.mp h
    obtain rfl := beq_iff_eq.mp hproof
    cases hrun : (validateDPoP env req).runPaced World.wait pace w with
    | mk r t =>
      rw [hrun] at hok
      cases r with
      | error e => cases hok
      | ok jkt =>
        have hworld : (validate req pace).run env w = t := congrArg Prod.snd hrun
        exact hworld ▸ accepted_of_validateDPoP hcfg hon hrun

end ProofStep

/-- Accepting a proof, however it is done, marks it as spent, and it is then not accepted again
before the clock can no longer tell. -/
theorem proof_hits_le_one {κ : Type} {hit : κ → World → Bool}
    {next : κ → World → World} {lifetime : Int}
    {proof : String} (hfits : lifetime * 2 ≤ 9223372036854775807)
    (hclock : ∀ x w, w.clock ≤ (next x w).clock)
    (hspent : ∀ x w p, ProofSpent lifetime p w → ProofSpent lifetime p (next x w))
    (haccepted : ∀ x w, hit x w = true → ∃ p now expiry, openProof env proof = .ok p ∧
      ProofAccepted lifetime p w (next x w) now expiry) (steps : List κ) (w : World)
    (hstart : ∀ p, openProof env proof = .ok p → |w.clock - timeUnix p.claims.iat| ≤ years290)
    (hend : ∀ p, openProof env proof = .ok p →
      |(after next steps w).clock - timeUnix p.claims.iat| ≤ years290) :
    hits hit next steps w ≤ 1 := by
  refine hits_le_one
    (fun w => ∀ p, openProof env proof = .ok p → timeUnix p.claims.iat - years290 ≤ w.clock)
    (fun w => ∀ p, openProof env proof = .ok p → w.clock ≤ timeUnix p.claims.iat + years290)
    (fun w => ∀ p, openProof env proof = .ok p → ProofSpent lifetime p w)
    (fun x w h p hp => (h p hp).trans (hclock x w))
    (fun x w h p hp => Int.le_trans (hclock x w) (h p hp)) ?_
    (fun x w h p hp => hspent x w p (h p hp)) ?_ steps w ?_ ?_
  · intro x w hearly hlate hhit p hp
    obtain ⟨p', now, expiry, hp', hx⟩ := haccepted x w hhit
    obtain rfl := Except.ok.inj (hp.symm.trans hp')
    exact hx.spent hfits (hearly p hp) (hlate p hp)
  · intro x w hearly hlate hspent
    refine Bool.eq_false_iff.mpr fun hhit => ?_
    obtain ⟨p, now, expiry, hp, hx⟩ := haccepted x w hhit
    exact (hspent p hp).not_accepted (hearly p hp) (hlate p hp) hx
  · exact fun p hp => by linarith [(abs_le.mp (hstart p hp)).1]
  · exact fun p hp => by linarith [(abs_le.mp (hend p hp)).2]

/-- **A DPoP proof is accepted at most once** in a run of validations and purge passes. Its `iat` is
within 290 years of the clock throughout, and twice the proof lifetime is a `time.Duration`: a
configured lifetime is at most five minutes. -/
theorem proof_accepted_once (env : Env) (cfg : DPoPConfig) (hcfg : env.dpop = some cfg)
    (hon : cfg.enabled = true)
      (hfits : cfg.proofLifetime * 2 ≤ 9223372036854775807) (proof : String)
    (steps : List ProofStep) (w : World)
    (hstart : ∀ p, openProof env proof = .ok p → |w.clock - timeUnix p.claims.iat| ≤ years290)
    (hend : ∀ p, openProof env proof = .ok p →
      |(after (ProofStep.run env) steps w).clock - timeUnix p.claims.iat| ≤ years290) :
    hits (ProofStep.accepts env proof) (ProofStep.run env) steps w ≤ 1 := by
  exact proof_hits_le_one hfits (fun x w => (x.before_run w).clock) (fun x w p h => x.spent_run h)
    (fun x w h => ProofStep.accepted_of_accepts hcfg hon h) steps w hstart hend

namespace Sample

/-- A deployment that accepts one proof, made at second 1000. -/
def oneProof : Env :=
  { Env.plain with
    dpop := some ⟨true, false, 60 * 1000000000⟩
    parseSigned := fun _ => some [⟨"dpop+jwt", some ⟨.ecdsa .p256, true, "k"⟩, none⟩]
    signedClaims := fun _ _ => some ⟨"1", "POST", "as", 1000, "", ""⟩ }

def presents : DPoPRequest := ⟨"proof", "POST", "as"⟩

/-- It is presented 50 seconds early, and again after a purge pass at the end of its window. -/
def presentedTwice : List ProofStep :=
  [.validate presents [], .purge [(110 * 1000000000, false)], .validate presents []]

end Sample

theorem proof_accepted_once_twice :
    (ProofStep.validate Sample.presents []).accepts Sample.oneProof "proof"
      (World.empty (950 * 1000000000)) = true ∧
    hits (ProofStep.accepts Sample.oneProof "proof") (ProofStep.run Sample.oneProof)
      Sample.presentedTwice
      (World.empty (950 * 1000000000)) ≤ 1 := by
  have hproof : openProof Sample.oneProof "proof" =
      .ok ⟨⟨.ecdsa .p256, true, "k"⟩, ⟨"1", "POST", "as", 1000, "", ""⟩⟩ := by decide
  refine ⟨by decide, proof_accepted_once Sample.oneProof ⟨true, false, 60 * 1000000000⟩ rfl rfl
    (by decide) "proof" Sample.presentedTwice _ (fun p hp => ?_) fun p hp => ?_⟩
  · obtain rfl := Except.ok.inj (hproof.symm.trans hp)
    decide
  · obtain rfl := Except.ok.inj (hproof.symm.trans hp)
    decide

/-! ### Identity assertions -/

section Assertions

variable {α β : Type} {env : Env} {pace : Pace} {w t : World}

/-- Time passed, and the assertions used are the same. -/
structure SameAssertions (w w' : World) : Prop where
  clock_le : w.clock ≤ w'.clock
  jtis : w'.assertionJTIs = w.assertionJTIs

theorem SameAssertions.of_quiet {w w' : World} (h : w.Quiet w') : SameAssertions w w' := by
  obtain ⟨_, _, _, -, rfl⟩ := h
  exact ⟨Int.le_refl _, rfl⟩

theorem SameAssertions.drifts : Prog.Drifts World.wait SameAssertions where
  refl _ := ⟨Int.le_refl _, rfl⟩
  trans h h' := ⟨h.clock_le.trans h'.clock_le, h'.jtis.trans h.jtis⟩
  waits d w := ⟨w.clock_le_wait d, rfl⟩

variable {r : Except Err β}

theorem changed_after {p : Svc α} {g : α → Svc β} (hp : p.Each World.Quiet)
    (hrun : (p >>= g).runPaced World.wait pace w = (r, t)) (h : t.assertionJTIs ≠ w.assertionJTIs) :
    ∃ a u rest, p.runPaced World.wait pace w = (.ok a, u) ∧ SameAssertions w u ∧
      (g a).runPaced World.wait rest u = (r, t) ∧ t.assertionJTIs ≠ u.assertionJTIs := by
  rcases (hp.mono fun _ _ => SameAssertions.of_quiet).runPaced_bind
    SameAssertions.drifts g pace w with
    ⟨hsame, -⟩ | ⟨a, u, rest, hsame, hok, hgo⟩
  · rw [hrun] at hsame
    exact absurd hsame.jtis h
  · exact ⟨a, u, rest, hok, hsame, hgo.symm.trans hrun, hsame.jtis ▸ h⟩

theorem AssertionJTIStore.consumeJTI_cases (jti : String) (expiry : Time) (w : World) :
    AssertionJTIStore.consumeJTI jti expiry w = (.error (.sentinel .assertionReplay), w) ∨
    (∀ row ∈ w.assertionJTIs, row.1 ≠ jti) ∧ AssertionJTIStore.consumeJTI jti expiry w =
      (.ok (), { w with assertionJTIs := w.assertionJTIs ++ [(jti, expiry)] }) := by
  unfold AssertionJTIStore.consumeJTI
  split
  · exact .inl rfl
  · rename_i hnew
    refine .inr ⟨fun row hrow hjti => hnew ?_, rfl⟩
    exact List.any_eq_true.mpr ⟨row, hrow, beq_iff_eq.mpr hjti⟩

namespace JWTBearerService

variable {a : SignedAssertion} {c : IdentityAssertion}

theorem checked_of_validateAssertion {idp : TrustedIDP}
    (h : (validateAssertion env idp a).runPaced World.wait pace w = (.ok c, t)) :
    c = a.claims ∧ ∃ now, w.clock ≤ now ∧
      validateClaims env a.claims (unix now) env.xaa.maxAssertionAge = .ok () := by
  obtain ⟨d, pace₁, hnow⟩ := runPaced_timeNow_bind _ pace w
  have h := hnow.symm.trans h
  obtain ⟨keys, -, h⟩ := Prog.ok_of_runPaced_ofExcept_bind h
  obtain ⟨d', pace₂, hnow'⟩ := runPaced_timeNow_bind _ pace₁ (w.wait d)
  have h := hnow'.symm.trans h
  rw [Prog.runPaced_ofExcept] at h
  obtain ⟨hc, hchecked⟩ := validateIDJAG_ok (Prod.mk.inj h).1
  exact ⟨hc, _, (w.clock_le_wait d).trans (World.clock_le_wait d' _), hchecked⟩

/-- Consuming an assertion fails and changes nothing, or records it for the first time. -/
theorem runPaced_consumeAssertion (c : IdentityAssertion) (pace : Pace) (w : World) :
    SameAssertions w ((consumeAssertion c).runPaced World.wait pace w).2 ∧
      (∃ e, ((consumeAssertion c).runPaced World.wait pace w).1 = .error e) ∨
    (∀ row ∈ w.assertionJTIs, row.1 ≠ c.jti) ∧
      (c.jti, timeUnix c.expiry + 60 * 1000000000) ∈
        ((consumeAssertion c).runPaced World.wait pace w).2.assertionJTIs := by
  obtain ⟨u, hu, hcall⟩ := Prog.runPaced_exec storeFault
    (AssertionJTIStore.consumeJTI c.jti (timeUnix c.expiry + 60 * 1000000000)) pace w
  have hsame := SameAssertions.drifts.waited hu
  -- turning the error into a replay leaves the world as the call left it
  rw [consumeAssertion, Prog.runPaced_attempt_ofExcept, store]
  rcases hcall with hmade | hfailed
  · rw [hmade]
    rcases AssertionJTIStore.consumeJTI_cases c.jti (timeUnix c.expiry + 60 * 1000000000) u with
      hused | ⟨hnew, hdone⟩
    · rw [hused]
      exact .inl ⟨hsame, _, rfl⟩
    · rw [hdone]
      exact .inr ⟨fun row hrow => hnew row (hsame.jtis ▸ hrow),
        List.mem_append_right _ List.mem_cons_self⟩
  · rw [hfailed]
    exact .inl ⟨hsame, _, rfl⟩

end JWTBearerService

/-- The assertion will not be accepted any more: its identifier is recorded, or it has expired. -/
def AssertionSpent (c : IdentityAssertion) (w : World) : Prop :=
  (c.jti, timeUnix c.expiry + 60 * 1000000000) ∈ w.assertionJTIs ∨
    c.expiry + clockSkew < unix w.clock

variable {a : SignedAssertion} {c : IdentityAssertion} {ctx : ReqID}

theorem unix_le_unix {t t' : Int} (h : t ≤ t') : unix t ≤ unix t' :=
  Int.ediv_le_ediv (by decide) h

theorem AssertionSpent.of_same {w w' : World} (h : SameAssertions w w') (hw : AssertionSpent c w) :
    AssertionSpent c w' :=
  hw.imp (fun hrow => h.jtis ▸ hrow) fun hover => hover.trans_le (unix_le_unix h.clock_le)

theorem AssertionSpent.of_uses {w w' : World} (h : Uses env ctx Write.ofMachineGrant w w')
    (hw : AssertionSpent c w) : AssertionSpent c w' := by
  have hframe : ∀ x : Write, .clock ∉ x.touches → .assertionJTIs ∉ x.touches →
      SameAssertions w (x.run env ctx w) := fun x hclock hjtis =>
    ⟨((x.frame env ctx w).same .clock hclock).ge, (x.frame env ctx w).same .assertionJTIs hjtis⟩
  rcases h with hquiet | ⟨x, hx, rfl⟩
  · exact hw.of_same (.of_quiet hquiet)
  · cases x with
    | consumeAssertion jti expiry =>
      rcases AssertionJTIStore.consumeJTI_cases jti expiry w with hused | ⟨-, hdone⟩
      · simpa only [Write.run, hused] using hw
      · simp only [Write.run, hdone]
        exact hw.imp_left (List.mem_append_left _)
    | insertIssuance i =>
      exact hw.of_same (hframe _ (by simp [Write.touches]) (by simp [Write.touches]))
    | saveMachineToken m =>
      exact hw.of_same (hframe _ (by simp [Write.touches]) (by simp [Write.touches]))
    | release claims e =>
      exact hw.of_same (hframe _ (by simp [Write.touches]) (by simp [Write.touches]))
    | _ => exact absurd hx id

theorem recorded_after {g : Unit → Svc β}
    (hg : (JWTBearerService.consumeAssertion c >>= g).Each (Uses env ctx Write.ofMachineGrant))
    (hrun : (JWTBearerService.consumeAssertion c >>= g).runPaced World.wait pace w = (r, t))
    (h : t.assertionJTIs ≠ w.assertionJTIs) : AssertionSpent c t ∧ ∀ row ∈ w.assertionJTIs,
      row.1 ≠ c.jti := by
  have hconsume := JWTBearerService.runPaced_consumeAssertion c pace w
  rcases Prog.runPaced_bind (JWTBearerService.consumeAssertion c) g pace w with
    ⟨e, u, hfirst, hstop⟩ | ⟨_, u, rest, hfirst, hgo⟩
  · obtain ⟨-, rfl⟩ := Prod.mk.inj (hstop.symm.trans hrun)
    rw [hfirst] at hconsume
    rcases hconsume with ⟨hsame, -⟩ | ⟨hnew, hrow⟩
    · exact absurd hsame.jtis h
    · exact ⟨.inl hrow, hnew⟩
  · rw [hfirst] at hconsume
    rcases hconsume with ⟨-, e, he⟩ | ⟨hnew, hrow⟩
    · cases he
    · refine ⟨?_, hnew⟩
      have hkept := ((hg.rest hfirst).mono fun _ _ => AssertionSpent.of_uses (c := c)).runPaced
        (.of_inv fun d w => AssertionSpent.of_same (SameAssertions.drifts.waits d w))
          rest u (.inl hrow)
      rwa [← hgo, hrun] at hkept

/-- **What a request that recorded an assertion has done.** It was checked, recorded for the first
time and is recorded at the end. -/
theorem recorded_of_grantJWTBearer {req : JWTBearerRequest} {r : Except Err MachineTokenResponse}
    (hreq : req.assertion = .signed a)
    (hrun : (JWTBearerService.grantJWTBearer env ctx req).runPaced World.wait pace w = (r, t))
    (h : t.assertionJTIs ≠ w.assertionJTIs) :
    AssertionSpent a.claims t ∧ (∀ row ∈ w.assertionJTIs, row.1 ≠ a.claims.jti) ∧
      ∃ now, w.clock ≤ now ∧
        validateClaims env a.claims (unix now) env.xaa.maxAssertionAge = .ok () := by
  have hd := SameAssertions.drifts
  obtain ⟨_, w₁, _, -, h₁, hrun, h⟩ := changed_after (each_authenticateMachine _ _ _) hrun h
  obtain ⟨_, w₂, _, -, h₂, hrun, h⟩ := changed_after (Prog.each_failIf _ _) hrun h
  obtain ⟨a', w₃, _, hparse, h₃, hrun, h⟩ := changed_after (Prog.each_ofExcept _) hrun h
  obtain ⟨_, w₄, _, -, h₄, hrun, h⟩ := changed_after (Prog.each_ofExcept _) hrun h
  obtain ⟨_, w₅, _, -, h₅, hrun, h⟩ := changed_after (JWTBearerService.each_lookupIDP _) hrun h
  obtain ⟨c, w₆, _, hvalidate, h₆, hrun, h⟩ :=
    changed_after (JWTBearerService.each_validateAssertion _ _) hrun h
  obtain ⟨_, w₇, _, -, h₇, hrun, h⟩ := changed_after (Prog.each_failIf _ _) hrun h
  obtain ⟨_, w₈, pace₈, -, h₈, hrun, h⟩ := changed_after (Prog.each_ofExcept _) hrun h
  -- the assertion that was checked is the one presented
  obtain rfl : a' = a := by
    rw [Prog.runPaced_ofExcept, hreq] at hparse
    exact (Except.ok.inj (Prod.mk.inj hparse).1).symm
  obtain ⟨rfl, now, hnow, hchecked⟩ := JWTBearerService.checked_of_validateAssertion hvalidate
  have hbefore : SameAssertions w w₅ := hd.trans (hd.trans (hd.trans (hd.trans h₁ h₂) h₃) h₄) h₅
  have hsame : SameAssertions w w₈ := hd.trans (hd.trans (hd.trans hbefore h₆) h₇) h₈
  obtain ⟨hspent, hnew⟩ := recorded_after JWTBearerService.uses_grantAsserted hrun h
  exact ⟨hspent, fun row hrow => hnew row (hsame.jtis ▸ hrow), now,
    hbefore.clock_le.trans hnow, hchecked⟩

/-- In the years of four digits the expiry of an identifier does not wrap around. -/
theorem expiry_eq {expiry : Int} (h : Store.Writable ((expiry + 60) * 1000000000)) :
    timeUnix expiry + 60 * 1000000000 = (expiry + 60) * 1000000000 := by
  obtain ⟨hl, hu⟩ := h
  unfold unix at hl hu
  unfold timeUnix
  rw [int64_eq_self (by omega) (by omega)]
  ring

theorem AssertionSpent.purgeBefore {now : Time} (hnow : now ≤ w.clock)
    (hexp : Store.Writable ((c.expiry + 60) * 1000000000)) (h : AssertionSpent c w) :
    AssertionSpent c (AssertionJTIStore.purgeBefore now w).2 := by
  rcases h with hrow | hover
  · by_cases hold : Store.formatTime ((c.expiry + 60) * 1000000000) < Store.formatTime now
    · have hwhole : Store.nanosecond ((c.expiry + 60) * 1000000000) = 0 := by
        unfold Store.nanosecond
        rw [Int.mul_emod_left]
        rfl
      have hlt := Store.unix_lt_of_formatTime_lt hexp hwhole hold
      refine .inr (lt_of_lt_of_le ?_ (unix_le_unix hnow))
      have hunix : unix ((c.expiry + 60) * 1000000000) = c.expiry + 60 :=
        Int.mul_ediv_cancel _ (by decide)
      have hskew : clockSkew = 30 := rfl
      omega
    · refine .inl (List.mem_filter.mpr ⟨hrow, ?_⟩)
      rw [expiry_eq hexp]
      simpa using hold
  · exact .inr hover

end Assertions

/-- A purge pass: the clock is read before anything is deleted. -/
def purgeAssertions : Svc Unit := do
  let now ← timeNow
  wrapErr "purge expired assertion jtis" (store (AssertionJTIStore.purgeBefore now))

/-- A `jwt-bearer` request, or a purge pass, each at its pace. -/
inductive AssertionStep
  | grant (ctx : ReqID) (req : JWTBearerRequest) (pace : Pace)
  | purge (pace : Pace)

namespace AssertionStep

variable {env : Env} {a : SignedAssertion} {w : World}

def run (env : Env) (x : AssertionStep) (w : World) : World :=
  match x with
  | grant ctx req pace =>
    ((JWTBearerService.grantJWTBearer env ctx req).runPaced World.wait pace w).2
  | purge pace => (purgeAssertions.runPaced World.wait pace w).2

/-- Does the step present this assertion and get past the consumption of its identifier? Nothing
else in a request changes the table. -/
def consumes (env : Env) (a : SignedAssertion) (x : AssertionStep) (w : World) : Bool :=
  match x with
  | grant _ req _ => req.assertion == .signed a && (x.run env w).assertionJTIs != w.assertionJTIs
  | purge _ => false

theorem recorded_of_consumes {x : AssertionStep} (h : x.consumes env a w = true) :
    AssertionSpent a.claims (x.run env w) ∧ (∀ row ∈ w.assertionJTIs, row.1 ≠ a.claims.jti) ∧
      ∃ now, w.clock ≤ now ∧
        validateClaims env a.claims (unix now) env.xaa.maxAssertionAge = .ok () := by
  cases x with
  | purge pace => cases h
  | grant ctx req pace =>
    obtain ⟨hreq, hchange⟩ := Bool.and_eq_true_iff.mp h
    exact recorded_of_grantJWTBearer (beq_iff_eq.mp hreq) rfl (bne_iff_ne.mp hchange)

theorem assertionSpent_run {c : IdentityAssertion}
    (hexp : Store.Writable ((c.expiry + 60) * 1000000000))
    (x : AssertionStep) (h : AssertionSpent c w) : AssertionSpent c (x.run env w) := by
  cases x with
  | grant ctx req pace =>
    exact (JWTBearerService.uses_grantJWTBearer.mono fun _ _ =>
      AssertionSpent.of_uses (c := c)).runPaced
      (.of_inv fun d w => AssertionSpent.of_same (SameAssertions.drifts.waits d w)) pace w h
  | purge pace =>
    refine runPaced_timeNow_inv
      (fun d w => AssertionSpent.of_same (SameAssertions.drifts.waits d w))
      (fun now => ?_) pace w h
    exact each_wrapErr (Prog.each_exec fun u hu => ⟨hu.1, hu.2.purgeBefore hu.1 hexp⟩)

end AssertionStep

/-- **An identity assertion is consumed at most once** in a run of requests and purge passes, if the
time its identifier is kept until is before the year 10000. -/
theorem assertion_consumed_once (env : Env) (a : SignedAssertion)
    (hexp : Store.Writable ((a.claims.expiry + 60) * 1000000000)) (steps : List AssertionStep)
    (w : World) : hits (AssertionStep.consumes env a) (AssertionStep.run env) steps w ≤ 1 := by
  refine hits_le_one (fun _ => True) (fun _ => True) (AssertionSpent a.claims)
    (fun _ _ _ => trivial)
    (fun _ _ _ => trivial) (fun x w _ _ hhit => (AssertionStep.recorded_of_consumes hhit).1)
    (fun x w h => x.assertionSpent_run hexp h) ?_ steps w trivial trivial
  intro x w _ _ hspent
  refine Bool.eq_false_iff.mpr fun hhit => ?_
  obtain ⟨-, hnew, now, hnow, hchecked⟩ := AssertionStep.recorded_of_consumes hhit
  rcases hspent with hrow | hover
  · exact hnew _ hrow rfl
  · have hlive := le_expiry_of_validateClaims hchecked
    have hfits : int64 (a.claims.expiry + clockSkew) = a.claims.expiry + clockSkew := by
      obtain ⟨hl, hu⟩ := hexp
      have hskew : clockSkew = 30 := rfl
      unfold unix at hl hu
      exact int64_eq_self (by omega) (by omega)
    rw [hfits] at hlive
    exact absurd (hover.trans_le ((unix_le_unix hnow).trans hlive)) (lt_irrefl _)

namespace Sample

def assertionUntil (expiry : Int) : SignedAssertion :=
  ⟨"oauth-id-jag+jwt", "", "https://idp",
    ⟨"https://idp", "user", "https://as", "", "app", "jti", expiry, 990, "notes:read"⟩⟩

def presentedAround (expiry : Int) : List AssertionStep :=
  [.grant 0 ⟨.signed (assertionUntil expiry), "app", "secret", "", "", ⟨"", "", ""⟩⟩ [], .purge [],
    .grant 1 ⟨.signed (assertionUntil expiry), "app", "secret", "", "", ⟨"", "", ""⟩⟩ []]

end Sample

theorem assertion_consumed_once_around :
    hits (AssertionStep.consumes Env.plain (Sample.assertionUntil 1100))
      (AssertionStep.run Env.plain)
      (Sample.presentedAround 1100) (Sample.federated ["notes:read"]) = 1 := by
  refine Nat.le_antisymm (assertion_consumed_once Env.plain (Sample.assertionUntil 1100)
    (by decide) _ _) ?_
  decide +kernel

/-- **An assertion that expires in the year 10000 is consumed twice.** The text of its expiry starts
with `10000-`, which is before every time of the years 1001 to 9999: any purge pass deletes the
identifier. -/
theorem assertion_consumed_twice :
    hits (AssertionStep.consumes Env.plain (Sample.assertionUntil 253402300800))
      (AssertionStep.run Env.plain) (Sample.presentedAround 253402300800)
      (Sample.federated ["notes:read"]) = 2 := by
  decide +kernel

end AuthServer
