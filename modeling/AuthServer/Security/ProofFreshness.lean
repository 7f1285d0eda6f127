import AuthServer.Crypto.DPoP

/-!
# How fresh an accepted DPoP proof is

`ValidateProof` refuses a proof whose age is more than the lifetime. It computes the age on machine
values, and there are three places where the value is not the distance of the clock from `iat`:

* `time.Unix` counts its seconds from the year 1, so that the last 62135596800 values of `iat` wrap
  around;
* `Time.Sub` stops at the greatest and at the least `time.Duration`;
* the least `time.Duration` has no opposite, so that it is its own absolute value.

The third decides. A proof from more than 292 years ahead has the least age there is, and is
accepted under every lifetime; the others need an absurd lifetime or an absurd clock.
`accepted_proof_fresh_iff` is exact about all three. -/

namespace AuthServer

/-- The instant that `time.Unix` makes of the last seconds that an `int64` has. -/
def wrappedInstant (iat : Int) : Int := (iat - 18446744073709551616) * 1000000000

/-- The age of a proof is measured well enough for the lifetime: `iat` is none of the seconds that
wrap around, it is not a whole range of `time.Duration` ahead of the clock and, for the greatest
lifetime there is, not behind it. Of the seconds that wrap around it takes that the wrapped instant
is refused, or again the greatest lifetime. -/
def MeasuredWell (iat now lifetime : Int) : Prop :=
  (iat < 9223372036854775808 - 62135596800 ∧ iat * 1000000000 - now < 9223372036854775808 ∧
      (now - iat * 1000000000 < 9223372036854775808 ∨ lifetime < 9223372036854775807)) ∨
    (9223372036854775808 - 62135596800 ≤ iat ∧ lifetime < |now - wrappedInstant iat| ∧
      wrappedInstant iat - now < 9223372036854775808 ∧
      (now - wrappedInstant iat < 9223372036854775808 ∨ lifetime < 9223372036854775807 ∨
        |now - iat * 1000000000| ≤ 9223372036854775807))

theorem timeUnix_eq {iat : Int} (hl : -9223372036854775808 ≤ iat) (hu : iat ≤ 9223372036854775807) :
    (timeUnix iat : Int) =
      if iat < 9223372036854775808 - 62135596800 then iat * 1000000000 else wrappedInstant iat := by
  unfold timeUnix int64 wrappedInstant
  split
  · rw [Int.bmod_eq_of_le (by omega) (by omega), Int.add_sub_cancel]
  · -- One turn of the `int64` is taken off.
    have hwrap : (iat + 62135596800).bmod 18446744073709551616 =
        (iat + 62135596800 - 18446744073709551616).bmod 18446744073709551616 :=
      (Int.sub_bmod_right _ _).symm
    rw [hwrap, Int.bmod_eq_of_le (by omega) (by omega)]
    congr 1
    omega

/-- The age by the difference of the two instants: it is cut off at the greatest duration behind the
clock, and is the least one from that far ahead. -/
def ageOf (d : Int) : Int := if d ≤ -9223372036854775808 then -9223372036854775808
    else min 9223372036854775807 |d|

theorem opposite_eq_ageOf (d : Int) :
    (if max (-9223372036854775808) (min 9223372036854775807 d) < 0 then
      int64 (-max (-9223372036854775808) (min 9223372036854775807 d))
    else max (-9223372036854775808) (min 9223372036854775807 d)) = ageOf d := by
  unfold ageOf
  by_cases hfar : d ≤ -9223372036854775808
  · have hleast : max (-9223372036854775808) (min 9223372036854775807 d) =
      -9223372036854775808 := by omega
    rw [if_pos hfar, hleast]
    decide
  · rw [if_neg hfar]
    by_cases hneg : d < 0
    · rw [if_pos (by omega), int64_eq_self (by omega) (by omega), abs_of_neg hneg]
      omega
    · rw [if_neg (by omega), abs_of_nonneg (by omega)]
      omega

theorem proofAge_eq_ageOf (iat now : Int) : proofAge iat now = ageOf (now - timeUnix iat) :=
  opposite_eq_ageOf (now - timeUnix iat)

/-- **What the freshness check lets through.** -/
theorem age_exact_iff {iat now lifetime : Int} (hl : -9223372036854775808 ≤ iat)
    (hu : iat ≤ 9223372036854775807) (hleast : -9223372036854775808 ≤ lifetime)
    (hmost : lifetime ≤ 9223372036854775807) :
    (proofAge iat now ≤ lifetime → |now - iat * 1000000000| ≤ lifetime) ↔
      MeasuredWell iat now lifetime := by
  rw [proofAge_eq_ageOf, timeUnix_eq hl hu, MeasuredWell]
  by_cases hwrap : iat < 9223372036854775808 - 62135596800
  · rw [if_pos hwrap]
    generalize hd : now - iat * 1000000000 = d
    have hside : iat * 1000000000 - now = -d := by omega
    rw [hside, ageOf]
    rcases abs_cases d with ⟨habs, hsign⟩ | ⟨habs, hsign⟩ <;> rw [habs] <;> split <;> omega
  · rw [if_neg hwrap]
    have hgap : now - iat * 1000000000 =
      now - wrappedInstant iat - 18446744073709551616000000000 := by
      unfold wrappedInstant
      omega
    generalize hd : now - wrappedInstant iat = d at hgap ⊢
    have hside : wrappedInstant iat - now = -d := by omega
    rw [hside, hgap, ageOf]
    rcases abs_cases d with ⟨habs, hsign⟩ | ⟨habs, hsign⟩ <;>
      rcases abs_cases (d - 18446744073709551616000000000) with ⟨habs',
        hsign'⟩ | ⟨habs', hsign'⟩ <;>
      rw [habs, habs'] <;> split <;> omega

/-! ### Proofs -/

/-- A deployment that is presented a proof with this `iat`, and nothing else is wrong with it. -/
def Env.presenting (iat : Int) : Env :=
  { Env.plain with
    parseSigned := fun _ => some [⟨"dpop+jwt", some ⟨.ecdsa .p256, true, "key"⟩, none⟩]
    signedClaims := fun _ _ => some ⟨"jti", "POST", "https://as/token", iat, "", ""⟩ }

def presented : DPoPRequest := ⟨"proof", "POST", "https://as/token"⟩

theorem openProof_presenting (iat : Int) :
    openProof (Env.presenting iat) "proof" =
      .ok ⟨⟨.ecdsa .p256, true, "key"⟩, ⟨"jti", "POST", "https://as/token", iat, "", ""⟩⟩ := rfl

theorem validateProof_presenting {iat now lifetime : Int} (hiat : iat ≠ 0)
    (hage : proofAge iat now ≤ lifetime) :
    validateProof (Env.presenting iat) presented "" "" lifetime now = .ok ⟨"jti", "key", ""⟩ := by
  have hclaims : checkProofClaims (Env.presenting iat) presented lifetime now
      ⟨"jti", "POST", "https://as/token", iat, "", ""⟩ = .ok () := by
    have hmethod : (Env.presenting iat).equalFold "POST" presented.httpMethod = true := rfl
    have hurl : validateHTU (Env.presenting iat) "https://as/token" presented.httpURL = true := rfl
    simp only [checkProofClaims]
    rw [hmethod, hurl, if_neg (by decide), if_neg (by decide), if_neg (by decide),
      if_neg (by simpa using hiat), if_neg (not_lt.mpr hage)]
  unfold validateProof
  rw [show presented.proof = "proof" from rfl, openProof_presenting]
  show (checkProofClaims _ _ _ _ _ >>= _) = _
  rw [hclaims]
  rfl

/-- **A proof is as fresh as the lifetime asks**, for every clock, every `int64` in `iat` and every
lifetime, exactly when its age is measured well enough for the lifetime. -/
theorem accepted_proof_fresh_iff (iat now lifetime : Int) (hl : -9223372036854775808 ≤ iat)
    (hu : iat ≤ 9223372036854775807) (hleast : -9223372036854775808 ≤ lifetime)
    (hmost : lifetime ≤ 9223372036854775807) :
    (∀ (env : Env) (req : DPoPRequest) (serverNonce accessTokenHash : String) (p : OpenedProof)
      (result : DPoPProof), openProof env req.proof = .ok p → p.claims.iat = iat →
      validateProof env req serverNonce accessTokenHash lifetime now = .ok result →
      |now - iat * 1000000000| ≤ lifetime) ↔
    iat = 0 ∨ MeasuredWell iat now lifetime := by
  rw [← age_exact_iff hl hu hleast hmost]
  constructor
  · intro hfresh
    by_cases hiat : iat = 0
    · exact .inl hiat
    · exact .inr fun hage => hfresh (Env.presenting iat) presented "" "" _ _
        (openProof_presenting iat) rfl
        (validateProof_presenting hiat hage)
  · intro hcond env req serverNonce accessTokenHash p result hopen hiat hok
    obtain ⟨p', hopen', -, hne, hage⟩ := validateProof_ok hok
    obtain rfl : p = p' := Except.ok.inj (hopen.symm.trans hopen')
    rw [hiat] at hage
    rcases hcond with hzero | hexact
    · exact absurd (hiat.trans hzero) hne
    · exact hexact hage

/-- A proof that is half a minute old, in 2025 and under a lifetime of a minute. -/
theorem accepted_proof_fresh_of_today :
    validateProof (Env.presenting 1760000000) presented "" "" 60000000000 1760000030000000000 =
        .ok ⟨"jti", "key", ""⟩ ∧
      |1760000030000000000 - 1760000000 * 1000000000| ≤ (60000000000 : Int) := by
  have hok : validateProof (Env.presenting 1760000000) presented "" "" 60000000000
    1760000030000000000 =
      .ok ⟨"jti", "key", ""⟩ := validateProof_presenting (by decide) (by decide)
  have hwell : MeasuredWell 1760000000 1760000030000000000 60000000000 :=
    .inl ⟨by decide, by decide, .inr (by decide)⟩
  exact ⟨hok, (accepted_proof_fresh_iff _ _ _ (by decide) (by decide)
    (by decide) (by decide)).mpr (.inr hwell)
    (Env.presenting 1760000000) presented "" "" _ _ (openProof_presenting _) rfl hok⟩

/-- **A proof from the year 2603 is accepted** in 2025 under a lifetime of a minute. -/
theorem future_proof_accepted :
    validateProof (Env.presenting 20000000000) presented "" "" 60000000000 1760000000000000000 =
        .ok ⟨"jti", "key", ""⟩ ∧
      ¬ |1760000000000000000 - 20000000000 * 1000000000| ≤ (60000000000 : Int) :=
  ⟨validateProof_presenting (by decide) (by decide), by decide⟩

end AuthServer
