import Mathlib.Data.List.Induction
import AuthServer.Api.AuthLockout

/-!
# Lockouts over whole runs of the tracker

A lockout in force is neither lifted nor prolonged, is announced once, and every announced lockout
has the configured number of failures behind it, counted from the failure that opened the window.
The map stays inside its bound throughout.

The window is anchored at the first failure it counts, so a burst that begins in the last part of an
old window can be split between two windows. `lockedDuring_burst_iff` says exactly when a burst of
failures within one window length still engages the lockout. -/

namespace AuthServer

namespace AuthLockout

variable {a : AuthLockout} {fold : Bytes → Bytes} {m : FailStates} {key : Bytes}

/-! ### A lockout in force -/

variable {now T : Time}

theorem lockedUntil_eq_some :
    a.lockedUntil now key m = some T ↔
      0 < a.authFailMax ∧ ∃ v, m.lookup key = some v ∧ v.lockedUntil = some T ∧ now < T := by
  unfold lockedUntil
  by_cases hmax : a.authFailMax ≤ 0
  · simp [hmax]
  rw [if_neg hmax]
  rcases hv : m.lookup key with _ | v
  · simp
  · rcases hT : v.lockedUntil with _ | T'
    · simp [FailState.lockedAt, hT]
    · by_cases hlt : now < T'
      · simp [FailState.lockedAt, hT, hlt, not_le.mp hmax]
        grind
      · simp [FailState.lockedAt, hT, hlt]
        grind

theorem lockedUntil_eq_none (hmax : 0 < a.authFailMax) :
    a.lockedUntil now key m = none ↔ ((m.lookup key).getD .new).lockedAt now = false := by
  unfold lockedUntil
  rw [if_neg (not_le.mpr hmax)]
  rcases m.lookup key with _ | v
  · simp
  · rcases hT : v.lockedUntil with _ | T <;> simp [FailState.lockedAt, hT]

variable {call : LockoutCall}

theorem not_resets_of_fails (h : call.fails fold key = true) : call.resets fold key = false := by
  cases call <;> simp_all [LockoutCall.fails, LockoutCall.resets]

variable {v : FailState}

/-- Only a `Reset` of the pair touches the entry of a locked pair. -/
theorem lookup_step_of_locked (hv : m.lookup key = some v) (hlocked : v.lockedAt now = true)
    (hcall : call.resets fold key = false) : (a.step fold now m call).lookup key = some v := by
  have hchange : Change a fold now call m (a.step fold now m call) key := change_step call key
  cases hchange with
  | kept h => rw [h, hv]
  | dropped hw hfree => simp_all
  | reset h => simp_all
  | counted _ _ hm' => rw [hm', hv, Option.getD_some, count_of_locked hlocked]

variable {calls : List (Time × LockoutCall)} {t : Time}

theorem lookup_run_of_locked (hv : m.lookup key = some v) (hlocked : v.lockedAt t = true)
    (htimes : ∀ call ∈ calls, call.1 ≤ t)
      (hcalls : ∀ call ∈ calls, call.2.resets fold key = false) :
    (a.run fold calls m).lookup key = some v := by
  induction calls generalizing m with
  | nil => exact hv
  | cons call calls ih =>
    simp only [List.forall_mem_cons] at htimes hcalls
    have hnow : v.lockedAt call.1 = true := v.lockedAt_of_le htimes.1 hlocked
    exact ih (lookup_step_of_locked hv hnow hcalls.1) htimes.2 hcalls.2

theorem lockedUntil_run {t' : Time} (h : a.lockedUntil t key m = some T) (hT : t' < T)
    (htimes : ∀ call ∈ calls, call.1 ≤ t')
      (hcalls : ∀ call ∈ calls, call.2.resets fold key = false) :
    a.lockedUntil t' key (a.run fold calls m) = some T := by
  obtain ⟨hmax, v, hv, hvT, -⟩ := lockedUntil_eq_some.mp h
  have hlocked : v.lockedAt t' = true := FailState.lockedAt_iff.mpr ⟨T, hvT, hT⟩
  exact lockedUntil_eq_some.mpr
    ⟨hmax, v, lookup_run_of_locked hv hlocked htimes hcalls, hvT, hT⟩

/-! ### Announcements -/

/-- The call announces a lockout of the pair, with deadline `T`. -/
def Announces (a : AuthLockout) (fold : Bytes → Bytes) (key : Bytes) (m : FailStates)
    (call : Time × LockoutCall) (T : Time) : Prop :=
  call.2.fails fold key = true ∧ a.result fold call.1 m call.2 = (some T, true)

theorem count_cases (now : Time) (v : FailState) :
    (v.lockedAt now = true ∧ a.count now v = ((v.lockedUntil, false), v)) ∨
    (v.lockedAt now = false ∧ (a.count now v).1 = (some (now + a.authLockout), true) ∧
      (a.count now v).2.lockedUntil = some (now + a.authLockout) ∧
      (a.count now v).2.failCount = 0) ∨
    (v.lockedAt now = false ∧ (a.count now v).1 = (none, false) ∧
      (a.count now v).2.lockedUntil = v.lockedUntil) := by
  cases hlocked : v.lockedAt now with
  | true => exact .inl ⟨rfl, count_of_locked hlocked⟩
  | false =>
    right
    cases hw : a.windowOpen now v with
    | true =>
      rw [count_of_windowOpen hlocked hw]
      split <;> simp
    | false =>
      rw [count_of_windowClosed hlocked hw]
      split <;> simp

/-- A call announces a lockout exactly when the pair was not locked before it and is after it; the
deadline announced is the one that holds. -/
theorem announces_iff {call : Time × LockoutCall} :
    Announces a fold key m call T ↔
      a.lockedUntil call.1 key m = none ∧
        a.lockedUntil call.1 key (a.step fold call.1 m call.2) = some T := by
  obtain ⟨now, call⟩ := call
  have hchange : Change a fold now call m (a.step fold now m call) key := change_step call key
  cases hchange with
  | kept h hreset hfail hresult =>
    have hsame : a.lockedUntil now key (a.step fold now m call) = a.lockedUntil now key m := by
      simp only [lockedUntil, h]
    constructor
    · rintro ⟨hcall, hres⟩
      rw [hresult hcall] at hres
      simp at hres
    · rintro ⟨hbefore, hafter⟩
      rw [hsame, hbefore] at hafter
      cases hafter
  | dropped hv hfree hm' hcall hreset hwhy =>
    refine ⟨fun h => absurd h.1 (by simp [hcall]), fun h => ?_⟩
    obtain ⟨-, v, hv', -⟩ := lockedUntil_eq_some.mp h.2
    simp [hm'] at hv'
  | reset hcall hm' =>
    refine ⟨fun h => ?_, fun h => ?_⟩
    · have hnot := not_resets_of_fails h.1
      simp_all
    · obtain ⟨-, v, hv', -⟩ := lockedUntil_eq_some.mp h.2
      simp [hm'] at hv'
  | counted hcall hmax hm' hresult =>
    have hafter : ∀ T', a.lockedUntil now key (a.step fold now m call) = some T' ↔
        (a.count now ((m.lookup key).getD .new)).2.lockedUntil = some T' ∧ now < T' := by
      intro T'
      rw [lockedUntil_eq_some, hm']
      simp [hmax]
    simp only [Announces, hcall, true_and, hresult, lockedUntil_eq_none hmax, hafter]
    rcases count_cases (a := a) now ((m.lookup key).getD .new) with
      ⟨hl, hc⟩ | ⟨hl, hres, hT, -⟩ | ⟨hl, hres, hT⟩
    · simp [hl, hc]
    · rw [hl, hres, hT]
      have hpos := a.authLockout_pos
      simp only [Prod.mk.injEq, Option.some.injEq, and_true, true_and]
      constructor
      · rintro rfl
        exact ⟨rfl, Int.lt_add_of_pos_right now hpos⟩
      · exact fun h => h.1
    · rw [hl, hres, hT]
      simp only [Prod.mk.injEq, Bool.false_eq_true, and_false, true_and, false_iff]
      rintro ⟨hT', hlt⟩
      have hlocked := FailState.lockedAt_iff.mpr ⟨T, hT', hlt⟩
      rw [hl] at hlocked
      cases hlocked

variable {pre : List (Time × LockoutCall)}

theorem not_announces_of_locked {mid : List (Time × LockoutCall)} {call call' : Time × LockoutCall}
    {T' : Time} (h : Announces a fold key (a.run fold pre m) call T) (hT : call'.1 < T)
    (htimes : ∀ c ∈ mid, c.1 ≤ call'.1) (hcalls : ∀ c ∈ mid, c.2.resets fold key = false) :
    ¬ Announces a fold key (a.run fold (pre ++ call :: mid) m) call' T' := by
  intro h'
  have hin := lockedUntil_run (announces_iff.mp h).2 hT htimes hcalls
  rw [run_append, run_cons] at h'
  rw [(announces_iff.mp h').1] at hin
  cases hin

/-- The announcement behind the lockout in force after `calls`: what comes before it, with no
reset of the pair after it. -/
def AnnouncedBy (a : AuthLockout) (fold : Bytes → Bytes) (key : Bytes)
    (calls : List (Time × LockoutCall)) (T : Time) (pre : List (Time × LockoutCall)) : Prop :=
  ∃ call post, calls = pre ++ call :: post ∧ Announces a fold key (a.run fold pre ∅) call T ∧
    ∀ later ∈ post, later.2.resets fold key = false

theorem exists_announcedBy (htimes : ∀ call ∈ calls, call.1 ≤ t)
    (h : a.lockedUntil t key (a.run fold calls ∅) = some T) :
      ∃ pre, AnnouncedBy a fold key calls T pre := by
  -- from the last call back: either it announced the lockout or the lockout was there before it
  induction calls using List.reverseRecOn with
  | nil => simp [lockedUntil] at h
  | append_singleton calls call ih =>
    simp only [List.forall_mem_append, List.forall_mem_singleton] at htimes
    obtain ⟨hmax, v, hv, hvT, hlt⟩ := lockedUntil_eq_some.mp h
    rw [run_append, run_cons, run_nil] at hv
    have hnow : a.lockedUntil call.1 key (a.step fold call.1 (a.run fold calls ∅) call.2) =
        some T :=
      lockedUntil_eq_some.mpr ⟨hmax, v, hv, hvT, lt_of_le_of_lt htimes.2 hlt⟩
    rcases hbefore : a.lockedUntil call.1 key (a.run fold calls ∅) with _ | T'
    · exact ⟨calls, call, [], rfl, announces_iff.mpr ⟨hbefore, hnow⟩, by simp⟩
    · have hreset : call.2.resets fold key = false := by
        by_contra hreset
        have hchange : Change a fold call.1 call.2 (a.run fold calls ∅)
            (a.step fold call.1 (a.run fold calls ∅) call.2) key := change_step call.2 key
        cases hchange with
        | kept _ hcall => exact hreset hcall
        | dropped _ _ _ _ hcall => exact hreset hcall
        | reset _ hm' => simp [hm'] at hv
        | counted hcall => exact hreset (not_resets_of_fails hcall)
      obtain ⟨-, w, hw, hwT, hlt'⟩ := lockedUntil_eq_some.mp hbefore
      have hwlocked : w.lockedAt call.1 = true := FailState.lockedAt_iff.mpr ⟨T', hwT, hlt'⟩
      have hsame := lookup_step_of_locked (a := a) hw hwlocked hreset
      have hvw : v = w := Option.some.inj (hv.symm.trans hsame)
      obtain ⟨pre, first, post, rfl, hann, hpost⟩ :=
        ih htimes.1 (lockedUntil_eq_some.mpr ⟨hmax, w, hw, hvw ▸ hvT, hlt⟩)
      refine ⟨pre, first, post ++ [call], by simp, hann, ?_⟩
      exact List.forall_mem_append.mpr ⟨hpost, List.forall_mem_singleton.mpr hreset⟩

theorem existsUnique_announcedBy (hsorted : calls.Pairwise (·.1 ≤ ·.1))
    (htimes : ∀ call ∈ calls, call.1 ≤ t) (h : a.lockedUntil t key (a.run fold calls ∅) = some T) :
    ∃! pre, AnnouncedBy a fold key calls T pre := by
  obtain ⟨-, v, -, hvT, hlt⟩ := lockedUntil_eq_some.mp h
  -- an announcement that comes later would find the pair locked
  have hnot : ∀ pre call mid call' post, calls = pre ++ call :: (mid ++ call' :: post) →
      Announces a fold key (a.run fold pre ∅) call T →
      (∀ later ∈ mid ++ call' :: post, later.2.resets fold key = false) →
      ¬ Announces a fold key (a.run fold (pre ++ call :: mid) ∅) call' T := by
    rintro pre call mid call' post rfl hann hpost
    have htail : (call :: (mid ++ call' :: post)).Pairwise (·.1 ≤ ·.1) :=
      (List.pairwise_append.mp hsorted).2.1
    have hmid := (List.pairwise_append.mp (List.pairwise_cons.mp htail).2).2.2
    refine not_announces_of_locked hann ?_ (fun c hc => hmid c hc call' (by simp))
      (fun c hc => hpost c (by simp [hc]))
    exact lt_of_le_of_lt (htimes call' (by simp)) hlt
  obtain ⟨pre, hpre⟩ := exists_announcedBy htimes h
  refine ⟨pre, hpre, fun pre' hpre' => ?_⟩
  obtain ⟨call, post, hcalls, hann, hpost⟩ := hpre
  obtain ⟨call', post', hcalls', hann', hpost'⟩ := hpre'
  rcases List.append_eq_append_iff.mp (hcalls'.symm.trans hcalls) with
    ⟨mid, hmid, htail⟩ | ⟨mid, hmid, htail⟩
  · rcases mid with _ | ⟨c, mid⟩
    · simpa using hmid.symm
    · simp only [List.cons_append, List.cons.injEq] at htail
      obtain ⟨rfl, htail⟩ := htail
      refine absurd (hmid ▸ hann) (hnot pre' call' mid call post ?_ hann' ?_)
      · rw [hcalls', htail]
      · rwa [← htail]
  · rcases mid with _ | ⟨c, mid⟩
    · simpa using hmid
    · simp only [List.cons_append, List.cons.injEq] at htail
      obtain ⟨rfl, htail⟩ := htail
      refine absurd (hmid ▸ hann') (hnot pre call mid call' post' ?_ hann ?_)
      · rw [hcalls, htail]
      · rwa [← htail]

/-! ### What an announced lockout has behind it -/

/-- Along these calls the pair is neither reset nor dropped, and no lockout of it is announced. -/
def Counting (a : AuthLockout) (fold : Bytes → Bytes) (key : Bytes) :
    FailStates → List (Time × LockoutCall) → Prop
  | _, [] => True
  | m, (now, call) :: calls =>
    call.resets fold key = false ∧ ((a.step fold now m call).lookup key).isSome = true ∧
      (call.fails fold key = true → (a.result fold now m call).2 = false) ∧
      Counting a fold key (a.step fold now m call) calls

theorem counting_append_singleton (h : Counting a fold key m calls)
    (hreset : call.resets fold key = false)
    (htracked : ((a.step fold now (a.run fold calls m) call).lookup key).isSome = true)
    (hresult : call.fails fold key = true →
      (a.result fold now (a.run fold calls m) call).2 = false) :
    Counting a fold key m (calls ++ [(now, call)]) := by
  induction calls generalizing m with
  | nil => exact ⟨hreset, htracked, hresult, trivial⟩
  | cons first calls ih =>
    obtain ⟨h₁, h₂, h₃, h₄⟩ := h
    exact ⟨h₁, h₂, h₃, ih h₄ htracked hresult⟩

/-- The call records a failure of the pair, and nothing counted before it counts any more. -/
def OpensWindow (a : AuthLockout) (fold : Bytes → Bytes) (key : Bytes) (m : FailStates)
    (call : Time × LockoutCall) : Prop :=
  call.2.fails fold key = true ∧ a.lockedUntil call.1 key m = none ∧
    a.windowOpen call.1 ((m.lookup key).getD .new) = false

/-- The number of failures of the pair among the calls. -/
def failures (fold : Bytes → Bytes) (key : Bytes) (calls : List (Time × LockoutCall)) : ℕ :=
  calls.countP fun call => call.2.fails fold key

structure Counted (a : AuthLockout) (fold : Bytes → Bytes) (key : Bytes)
    (calls : List (Time × LockoutCall)) (v : FailState) : Prop where
  lt : v.failCount < a.authFailMax
  unlocked : 0 < v.failCount → v.lockedAt v.firstFailure = false
  since : 0 < v.failCount → ∃ old first mid, calls = old ++ first :: mid ∧
    first.1 = v.firstFailure ∧ OpensWindow a fold key (a.run fold old ∅) first ∧
    Counting a fold key (a.run fold old ∅) (first :: mid) ∧
    failures fold key (first :: mid) = v.failCount

theorem Counted.of_zero (hmax : 0 < a.authFailMax) (h : v.failCount = 0) :
    Counted a fold key calls v where
  lt := by omega
  unlocked hpos := by omega
  since hpos := by omega

theorem Counted.append_singleton {v' : FailState} (h : Counted a fold key calls v)
    (hpos : 0 < v.failCount)
    (hlookup : (a.step fold now (a.run fold calls ∅) call).lookup key = some v')
    (hreset : call.resets fold key = false)
    (hresult : call.fails fold key = true → (a.result fold now (a.run fold calls ∅) call).2 = false)
    (hfirst : v'.firstFailure = v.firstFailure) (hlocked : v'.lockedUntil = v.lockedUntil)
    (hcount : v'.failCount = v.failCount + if call.fails fold key = true then 1 else 0)
    (hlt : v'.failCount < a.authFailMax) : Counted a fold key (calls ++ [(now, call)]) v' where
  lt := hlt
  unlocked _ := by
    have hfree := h.unlocked hpos
    rwa [hfirst, FailState.lockedAt, hlocked]
  since _ := by
    obtain ⟨old, first, mid, rfl, hfirst', hopens, hcounting, hfailures⟩ := h.since hpos
    rw [run_append] at hlookup hresult
    refine ⟨old, first, mid ++ [(now, call)], by simp, hfirst'.trans hfirst.symm, hopens, ?_, ?_⟩
    · rw [← List.cons_append]
      exact counting_append_singleton hcounting hreset (by rw [hlookup]; rfl) hresult
    · rw [hcount, ← hfailures, ← List.cons_append, failures, List.countP_append,
        List.countP_singleton, failures]

theorem Counted.of_opens {v' : FailState}
    (hopens : OpensWindow a fold key (a.run fold calls ∅) (now, call))
    (hlookup : (a.step fold now (a.run fold calls ∅) call).lookup key = some v')
    (hresult : (a.result fold now (a.run fold calls ∅) call).2 = false)
    (hfirst : v'.firstFailure = now) (hfree : v'.lockedAt now = false) (hcount : v'.failCount = 1)
    (hlt : 1 < a.authFailMax) : Counted a fold key (calls ++ [(now, call)]) v' where
  lt := by omega
  unlocked _ := by rwa [hfirst]
  since _ := by
    refine ⟨calls, (now, call), [], rfl, hfirst.symm, hopens, ?_, ?_⟩
    · exact ⟨not_resets_of_fails hopens.1, by rw [hlookup]; rfl, fun _ => hresult, trivial⟩
    · rw [failures, List.countP_singleton, hcount]
      exact if_pos hopens.1

theorem counted_run (hmax : 0 < a.authFailMax) (hsorted : calls.Pairwise (·.1 ≤ ·.1))
    (hv : (a.run fold calls ∅).lookup key = some v) : Counted a fold key calls v := by
  induction calls using List.reverseRecOn generalizing v with
  | nil => simp at hv
  | append_singleton calls last ih =>
    obtain ⟨now, call⟩ := last
    rw [run_append, run_cons, run_nil] at hv
    obtain ⟨hsorted, -, htimes⟩ := List.pairwise_append.mp hsorted
    have hchange : Change a fold now call (a.run fold calls ∅)
      (a.step fold now (a.run fold calls ∅) call) key := change_step call key
    cases hchange with
    | kept h hreset hfail hresult =>
      have hw : (a.run fold calls ∅).lookup key = some v := h.symm.trans hv
      have hcall : call.fails fold key = false := by
        by_contra hcall
        rcases hfail (by simpa using hcall) with hoff | ⟨hnone, -⟩
        · omega
        · rw [hnone] at hw
          cases hw
      have hcounted := ih hsorted hw
      rcases Nat.eq_zero_or_pos v.failCount with hzero | hpos
      · exact .of_zero hmax hzero
      · exact hcounted.append_singleton hpos hv hreset (by simp [hcall]) rfl rfl (by simp [hcall])
          hcounted.lt
    | dropped _ _ hm' => simp [hm'] at hv
    | reset _ hm' => simp [hm'] at hv
    | counted hcall _ hm' hresult =>
      obtain rfl : (a.count now (((a.run fold calls ∅).lookup key).getD .new)).2 = v :=
        Option.some.inj (hm'.symm.trans hv)
      generalize hw : ((a.run fold calls ∅).lookup key).getD .new = w at hm' hresult hv ⊢
      have hcounted : 0 < w.failCount → Counted a fold key calls w := fun hpos => by
        rcases hl : (a.run fold calls ∅).lookup key with _ | w'
        · rw [hl] at hw
          subst hw
          exact absurd hpos (by decide)
        · rw [hl, Option.getD_some] at hw
          exact hw ▸ ih hsorted hl
      cases hlocked : w.lockedAt now with
      | true =>
        rw [count_of_locked hlocked]
        -- an open window belongs to a pair that is not locked
        rcases Nat.eq_zero_or_pos w.failCount with hzero | hpos
        · exact .of_zero hmax hzero
        · obtain ⟨old, first, mid, hcalls, hfirst, -⟩ := (hcounted hpos).since hpos
          have hle : w.firstFailure ≤ now := by
            rw [← hfirst]
            exact htimes first (by simp [hcalls]) (now, call) (by simp)
          have hfree := (hcounted hpos).unlocked hpos
          rw [w.lockedAt_of_le hle hlocked] at hfree
          cases hfree
      | false =>
        cases hwin : a.windowOpen now w with
        | true =>
          have hpos : 0 < w.failCount := by
            simp only [windowOpen, Bool.and_eq_true, decide_eq_true_eq] at hwin
            exact hwin.1
          rw [count_of_windowOpen hlocked hwin] at hresult hv ⊢
          split at hresult
          · next hfull =>
            rw [if_pos hfull]
            exact .of_zero hmax rfl
          · next hfull =>
            rw [if_neg hfull] at hv ⊢
            exact (hcounted hpos).append_singleton hpos hv (not_resets_of_fails hcall)
              (fun _ => by rw [hresult]) rfl rfl (by simp [hcall]) (by push_cast; omega)
        | false =>
          have hopens : OpensWindow a fold key (a.run fold calls ∅) (now, call) :=
            ⟨hcall, (lockedUntil_eq_none hmax).mpr
              (by rw [hw]; exact hlocked), by rw [hw]; exact hwin⟩
          rw [count_of_windowClosed hlocked hwin] at hresult hv ⊢
          split at hresult
          · next hfull =>
            rw [if_pos hfull]
            exact .of_zero hmax rfl
          · next hfull =>
            rw [if_neg hfull] at hv ⊢
            exact .of_opens hopens hv (by rw [hresult]) rfl hlocked rfl (by omega)

/-- The calls behind an announcement: from the one that opened the window on, with nothing in
between that would start the count again. -/
structure Backed (a : AuthLockout) (fold : Bytes → Bytes) (key : Bytes)
    (old window : List (Time × LockoutCall)) (call : Time × LockoutCall) : Prop where
  opens : ∃ first, (window ++ [call]).head? = some first ∧
    OpensWindow a fold key (a.run fold old ∅) first ∧
    timeSub call.1 first.1 ≤ a.authFailWindow
  counting : Counting a fold key (a.run fold old ∅) window
  failures_eq : failures fold key (window ++ [call]) = a.authFailMax

theorem backed_of_announces {call : Time × LockoutCall} (hsorted : pre.Pairwise (·.1 ≤ ·.1))
    (h : Announces a fold key (a.run fold pre ∅) call T) :
    ∃ old window, pre = old ++ window ∧ Backed a fold key old window call := by
  obtain ⟨now, call⟩ := call
  have hchange : Change a fold now call (a.run fold pre ∅)
    (a.step fold now (a.run fold pre ∅) call) key := change_step call key
  obtain ⟨hcall, hres⟩ := id h
  simp only at hcall hres
  cases hchange with
  | kept _ _ _ hresult => simp [hresult hcall] at hres
  | dropped _ _ _ hfails => simp [hcall] at hfails
  | reset hreset => simp [not_resets_of_fails hcall] at hreset
  | counted _ hmax _ hresult =>
    have hlocked := (lockedUntil_eq_none hmax).mp (announces_iff.mp h).1
    rw [hresult] at hres
    generalize hw : ((a.run fold pre ∅).lookup key).getD .new = w at hlocked hres
    have hone : failures fold key [(now, call)] = 1 := by simp [failures, hcall]
    cases hwin : a.windowOpen now w with
    | true =>
      rw [count_of_windowOpen hlocked hwin] at hres
      simp only [windowOpen, Bool.and_eq_true, decide_eq_true_eq] at hwin
      have hlookup : (a.run fold pre ∅).lookup key = some w := by
        rcases hl : (a.run fold pre ∅).lookup key with _ | w'
        · rw [hl] at hw
          subst hw
          exact absurd hwin.1 (by decide)
        · rw [hl, Option.getD_some] at hw
          rw [hw]
      have hcounted := counted_run hmax hsorted hlookup
      obtain ⟨old, first, mid, rfl, hfirst, hopens, hcounting, hfailures⟩ :=
        hcounted.since hwin.1
      refine ⟨old, first :: mid, rfl, ⟨first, rfl, hopens, hfirst ▸ hwin.2⟩, hcounting, ?_⟩
      have hlt := hcounted.lt
      have hfull : a.authFailMax ≤ w.failCount + 1 := by
        by_contra hfull
        simp [if_neg hfull] at hres
      rw [failures, List.countP_append, ← failures, ← failures, hfailures, hone]
      push_cast
      omega
    | false =>
      rw [count_of_windowClosed hlocked hwin] at hres
      have hfull : a.authFailMax ≤ 1 := by
        by_contra hfull
        simp [if_neg hfull] at hres
      have hopens : OpensWindow a fold key (a.run fold pre ∅) (now, call) :=
        ⟨hcall, (announces_iff.mp h).1, by rw [hw]; exact hwin⟩
      have hnow : timeSub now now ≤ a.authFailWindow :=
        timeSub_le (by simpa using a.authFailWindow_pos.le) a.authFailWindow_pos.le
      refine ⟨pre, [], by simp, ⟨(now, call), rfl, hopens, hnow⟩, trivial, ?_⟩
      rw [List.nil_append, hone]
      push_cast
      omega

theorem length_run_le (calls : List (Time × LockoutCall)) (h : m.entries.length ≤ a.maxEntries) :
    (a.run fold calls m).entries.length ≤ a.maxEntries := by
  induction calls generalizing m with
  | nil => exact h
  | cons call calls ih => exact ih (length_step_le call.2 h)

/-- A lockout in force is neither lifted, prolonged nor reported twice, the map stays within its
bound, and every announced lockout is the last of the configured number of failures since the one
that opened the window. -/
theorem lockout_kept (cfg : RateLimitConfig) (fold : Bytes → Bytes) (key : Bytes)
    (calls : List (Time × LockoutCall)) (hsorted : calls.Pairwise (·.1 ≤ ·.1)) :
    ((newAuthLockout cfg).run fold calls ∅).entries.length ≤ (newAuthLockout cfg).maxEntries ∧
    (∀ pre post t t' T, calls = pre ++ post →
      (newAuthLockout cfg).lockedUntil t key ((newAuthLockout cfg).run fold pre ∅) = some T →
      t' < T → (∀ call ∈ post, call.1 ≤ t') → (∀ call ∈ post, call.2.resets fold key = false) →
      (newAuthLockout cfg).lockedUntil t' key ((newAuthLockout cfg).run fold calls ∅) = some T) ∧
    (∀ t T, (∀ call ∈ calls, call.1 ≤ t) →
      (newAuthLockout cfg).lockedUntil t key ((newAuthLockout cfg).run fold calls ∅) = some T →
      ∃! pre, AnnouncedBy (newAuthLockout cfg) fold key calls T pre) ∧
    ∀ pre call post T, calls = pre ++ call :: post →
      Announces (newAuthLockout cfg) fold key ((newAuthLockout cfg).run fold pre ∅) call T →
      (newAuthLockout cfg).lockedUntil call.1 key ((newAuthLockout cfg).run fold pre ∅) = none ∧
      (newAuthLockout cfg).lockedUntil call.1 key
        ((newAuthLockout cfg).run fold (pre ++ [call]) ∅) = some T ∧
      ∃ old window, pre = old ++ window ∧ Backed (newAuthLockout cfg) fold key old window call := by
  refine ⟨length_run_le calls (Nat.zero_le _), ?_, fun t T => existsUnique_announcedBy hsorted, ?_⟩
  · rintro pre post t t' T rfl h hT htimes hreset
    rw [run_append]
    exact lockedUntil_run h hT htimes hreset
  · rintro pre call post T rfl h
    obtain ⟨hbefore, hafter⟩ := announces_iff.mp h
    refine ⟨hbefore, by rwa [run_append], ?_⟩
    exact backed_of_announces (List.pairwise_append.mp hsorted).1 h

/-- A failure of one fixed pair. -/
def someFailure : LockoutCall := .recordFailure [97] [49] []

def someKey : Bytes := lockoutKey id [97] [49]

theorem lockout_kept_three_failures :
    (newAuthLockout ⟨3, 100, 10, 5⟩).lockedUntil 70 someKey
      ((newAuthLockout ⟨3, 100, 10, 5⟩).run id
        ([(0, someFailure), (1, someFailure), (2, someFailure)] ++
          [(50, someFailure), (60, .sweep)]) ∅) = some 102 :=
  (lockout_kept ⟨3, 100, 10, 5⟩ id someKey _ (by decide)).2.1 _ _ 2 70 102 rfl (by decide)
    (by decide) (by decide) (by decide)

/-- A failure that has fallen out of the window is behind the lockout too, and is not among those
counted. -/
theorem lockout_after_older_failure :
    [((0 : Time), someFailure), (20, someFailure), (21, someFailure), (22, someFailure)].Pairwise
      (·.1 ≤ ·.1) ∧
    Announces (newAuthLockout ⟨3, 100, 10, 5⟩) id someKey
      ((newAuthLockout ⟨3, 100, 10, 5⟩).run id
        [(0, someFailure), (20, someFailure), (21, someFailure)] ∅) (22, someFailure) 122 ∧
    Counting (newAuthLockout ⟨3, 100, 10, 5⟩) id someKey ∅
      [(0, someFailure), (20, someFailure), (21, someFailure)] ∧
    failures id someKey
      [(0, someFailure), (20, someFailure), (21, someFailure), (22, someFailure)] = 4 := by
  refine ⟨by decide, ⟨by decide, by decide⟩, ?_, by decide⟩
  exact ⟨by decide, by decide, by decide, by decide, by decide, by decide, by decide, by decide,
    by decide, trivial⟩

/-! ### Bursts -/

/-- Some failure of the pair among the calls leaves the pair locked. -/
def lockedDuring (a : AuthLockout) (fold : Bytes → Bytes) (key : Bytes) :
    FailStates → List (Time × LockoutCall) → Bool
  | _, [] => false
  | m, (now, call) :: calls =>
    (call.fails fold key && (a.lockedUntil now key (a.step fold now m call)).isSome) ||
      lockedDuring a fold key (a.step fold now m call) calls

def belowBound (a : AuthLockout) (fold : Bytes → Bytes) :
    FailStates → List (Time × LockoutCall) → Bool
  | _, [] => true
  | m, (now, call) :: calls =>
    m.entries.length < a.maxEntries && belowBound a fold (a.step fold now m call) calls

def failureTimes (fold : Bytes → Bytes) (key : Bytes)
    (calls : List (Time × LockoutCall)) : List Time :=
  (calls.filter fun call => call.2.fails fold key).map (·.1)

/-- A counter of failures with a window of length `window`, opened at `first`: whether failures at
these times bring it to `limit`. -/
def fills (limit : ℕ) (window : Int) : ℕ → Time → List Time → Bool
  | _, _, [] => false
  | count, first, t :: ts =>
    if 0 < count ∧ timeSub t first ≤ window then
      limit ≤ count + 1 || fills limit window (count + 1) first ts
    else limit ≤ 1 || fills limit window 1 t ts

variable {ts : List Time}

section Fills

variable {limit count : ℕ} {window : Int} {first : Time}

theorem fills_of_open (hpos : 0 < count) (h : timeSub t first ≤ window) :
    fills limit window count first (t :: ts) =
      (decide (limit ≤ count + 1) || fills limit window (count + 1) first ts) := by
  rw [fills, if_pos ⟨hpos, h⟩]

theorem fills_of_closed (h : ¬ (0 < count ∧ timeSub t first ≤ window)) :
    fills limit window count first (t :: ts) =
      (decide (limit ≤ 1) || fills limit window 1 t ts) := by
  rw [fills, if_neg h]

theorem fills_iff_of_all (hpos : 0 < count) (h : ∀ t ∈ ts, timeSub t first ≤ window) :
    limit ≤ count ∨ fills limit window count first ts = true ↔ limit ≤ count + ts.length := by
  induction ts generalizing count with
  | nil => simp [fills]
  | cons t ts ih =>
    obtain ⟨ht, hts⟩ := List.forall_mem_cons.mp h
    have hrest := ih (Nat.succ_pos count) hts
    rw [fills_of_open hpos ht, Bool.or_eq_true, decide_eq_true_eq, hrest, List.length_cons]
    omega

theorem fills_iff_of_open (hlimit : 0 < limit) (hpos : 0 < count)
    (hsorted : (t :: ts).Pairwise (· ≤ ·)) (hspan : ∀ t' ∈ ts, ∀ t'' ∈ ts, timeSub t' t'' ≤ window)
    (h : timeSub t first ≤ window) :
    fills limit window count first (t :: ts) = true ↔
      limit ≤ count + (t :: ts).countP (fun t' => timeSub t' first ≤ window) ∨
      limit + (t :: ts).countP (fun t' => timeSub t' first ≤ window) ≤ (t :: ts).length := by
  induction ts generalizing count t with
  | nil =>
    rw [fills_of_open hpos h]
    simp [fills, h]
    omega
  | cons t' ts ih =>
    obtain ⟨htt', hsorted'⟩ := List.pairwise_cons.mp hsorted
    rw [fills_of_open hpos h, List.countP_cons_of_pos (by simpa using h)]
    by_cases h' : timeSub t' first ≤ window
    · rw [Bool.or_eq_true, decide_eq_true_eq, ih (Nat.succ_pos count) hsorted' ?_ h']
      · simp only [List.length_cons]
        omega
      · exact fun x hx y hy => hspan x (by simp [hx]) y (by simp [hy])
    · -- from here on every failure is outside the old window and inside the one opened at `t'`
      have hnone : (t' :: ts).countP (fun x => timeSub x first ≤ window) = 0 := by
        rw [List.countP_eq_zero]
        intro x hx
        have hle : t' ≤ x := by
          rcases List.mem_cons.mp hx with rfl | hx
          · exact le_rfl
          · exact (List.pairwise_cons.mp hsorted').1 x hx
        have hmono := timeSub_mono hle (le_refl first)
        simp only [decide_eq_true_eq]
        omega
      have hall : limit ≤ 1 ∨ fills limit window 1 t' ts = true ↔ limit ≤ 1 + ts.length :=
        fills_iff_of_all Nat.one_pos fun x hx => hspan x (by simp [hx]) t' (by simp)
      rw [fills_of_closed (by simp [h']), hnone]
      simp only [Bool.or_eq_true, decide_eq_true_eq, hall, List.length_cons]
      omega

end Fills

theorem fills_of_over {limit : ℕ} (h : a.windowOpen now v = false) (hts : ∀ t ∈ ts, now ≤ t) :
    fills limit a.authFailWindow v.failCount v.firstFailure ts =
      fills limit a.authFailWindow 0 FailState.new.firstFailure ts := by
  cases ts with
  | nil => rfl
  | cons t ts =>
    rw [fills_of_closed, fills_of_closed (by simp)]
    rintro ⟨hpos, hle⟩
    have hmono := timeSub_mono (hts t (by simp)) (le_refl v.firstFailure)
    simp [windowOpen, hpos, hmono.trans hle] at h

theorem times_of_failureTimes (h : t ∈ failureTimes fold key calls) :
    ∃ call ∈ calls, call.1 = t := by
  simp only [failureTimes, List.mem_map, List.mem_filter] at h
  obtain ⟨call, ⟨hmem, -⟩, rfl⟩ := h
  exact ⟨call, hmem, rfl⟩

theorem count_fills (hmax : 0 < a.authFailMax) (hfree : v.lockedAt now = false) (ts : List Time) :
    ((a.count now v).2.lockedUntil = some (now + a.authLockout) ∧
      fills a.authFailMax.toNat a.authFailWindow v.failCount v.firstFailure (now :: ts) = true) ∨
    ((a.count now v).2.lockedUntil = v.lockedUntil ∧
      fills a.authFailMax.toNat a.authFailWindow v.failCount v.firstFailure (now :: ts) =
        fills a.authFailMax.toNat a.authFailWindow (a.count now v).2.failCount
          (a.count now v).2.firstFailure ts) := by
  cases hwin : a.windowOpen now v with
  | true =>
    rw [count_of_windowOpen hfree hwin]
    simp only [windowOpen, Bool.and_eq_true, decide_eq_true_eq] at hwin
    rw [fills_of_open hwin.1 hwin.2]
    by_cases hfull : a.authFailMax ≤ v.failCount + 1
    · simp [hfull]
    · have hnot : ¬ a.authFailMax.toNat ≤ v.failCount + 1 := by omega
      simp [hfull, hnot]
  | false =>
    rw [count_of_windowClosed hfree hwin, fills_of_closed (by simpa [windowOpen] using hwin)]
    by_cases hfull : a.authFailMax ≤ 1
    · simp [hfull]
    · have hnot : ¬ a.authFailMax.toNat ≤ 1 := by omega
      simp [hfull, hnot]

/-- Below the bound and without a success, a pair that starts out unlocked behaves as the
counter over its failure times. -/
theorem lockedDuring_eq_fills (hmax : 0 < a.authFailMax) (hsorted : calls.Pairwise (·.1 ≤ ·.1))
    (hreset : ∀ call ∈ calls, call.2.resets fold key = false)
    (hbelow : belowBound a fold m calls = true)
    (hfree : ∀ call ∈ calls, ((m.lookup key).getD .new).lockedAt call.1 = false) :
    lockedDuring a fold key m calls =
      fills a.authFailMax.toNat a.authFailWindow ((m.lookup key).getD .new).failCount
        ((m.lookup key).getD .new).firstFailure (failureTimes fold key calls) := by
  induction calls generalizing m with
  | nil => rfl
  | cons head calls ih =>
    obtain ⟨now, call⟩ := head
    obtain ⟨htimes, hsorted⟩ := List.pairwise_cons.mp hsorted
    obtain ⟨hcall, hreset⟩ := List.forall_mem_cons.mp hreset
    obtain ⟨hnow, hfree⟩ := List.forall_mem_cons.mp hfree
    simp only [belowBound, Bool.and_eq_true, decide_eq_true_eq] at hbelow
    obtain ⟨hroom, hbelow⟩ := hbelow
    have hchange : Change a fold now call m (a.step fold now m call) key := change_step call key
    cases hchange with
    | kept h _ hfail _ =>
      have hfails : call.fails fold key = false := by
        by_contra hfails
        rcases hfail (by simpa using hfails) with hoff | ⟨-, hfull⟩ <;> omega
      have htail := ih hsorted hreset hbelow (by rw [h]; exact hfree)
      rw [h] at htail
      simpa [lockedDuring, failureTimes, hfails] using htail
    | dropped hv _ hm' hfails _ hwhy =>
      have hover : a.windowOpen now ((m.lookup key).getD .new) = false := by
        rw [hv]
        exact hwhy.resolve_left (by omega)
      have htail := ih hsorted hreset hbelow (by simp [hm'])
      rw [hm', Option.getD_none] at htail
      have hlater : ∀ t ∈ failureTimes fold key calls, now ≤ t := by
        intro t ht
        obtain ⟨later, hlater, rfl⟩ := times_of_failureTimes ht
        exact htimes later hlater
      have hskip : failureTimes fold key ((now, call) :: calls) = failureTimes fold key calls := by
        simp [failureTimes, hfails]
      rw [hskip, fills_of_over hover hlater, lockedDuring, htail, hfails]
      rfl
    | reset hresets => simp [hcall] at hresets
    | counted hfails _ hm' hresult =>
      have hcons : failureTimes fold key ((now, call) :: calls) =
          now :: failureTimes fold key calls := by simp [failureTimes, hfails]
      rw [hcons, lockedDuring, hfails, Bool.true_and]
      have hbefore : ∀ w : FailState, w.lockedUntil = ((m.lookup key).getD .new).lockedUntil →
          ∀ t, w.lockedAt t = ((m.lookup key).getD .new).lockedAt t := by
        intro w hw t
        rw [FailState.lockedAt, FailState.lockedAt, hw]
      rcases count_fills hmax hnow (failureTimes fold key calls) with
        ⟨hengaged, hfills⟩ | ⟨hlocked, hfills⟩
      · have hafter : a.lockedUntil now key (a.step fold now m call) =
            some (now + a.authLockout) :=
          lockedUntil_eq_some.mpr
            ⟨hmax, _, hm', hengaged, Int.lt_add_of_pos_right now a.authLockout_pos⟩
        rw [hfills, hafter]
        rfl
      · have hafter : a.lockedUntil now key (a.step fold now m call) = none := by
          rw [lockedUntil_eq_none hmax, hm', Option.getD_some, hbefore _ hlocked, hnow]
        have htail := ih hsorted hreset hbelow (by
          intro later hlater
          rw [hm', Option.getD_some, hbefore _ hlocked]
          exact hfree later hlater)
        rw [hm', Option.getD_some] at htail
        rw [hfills, hafter, htail]
        rfl

/-- If the pair has failures left over from an open window when a burst begins at `t₁`, they and
the failures of the burst that fall into that window reach the limit. -/
def ReachesLimit (a : AuthLockout) (key : Bytes) (m : FailStates) (t₁ : Time)
    (ts : List Time) : Prop :=
  ∀ v, m.lookup key = some v → v.lockedAt t₁ = false → a.windowOpen t₁ v = true →
    a.authFailMax ≤ v.failCount + ts.countP fun t => timeSub t v.firstFailure ≤ a.authFailWindow

theorem lockedDuring_of_locked (hmax : 0 < a.authFailMax) (hcall : call.fails fold key = true)
    (hv : m.lookup key = some v) (hlocked : v.lockedAt now = true) :
    lockedDuring a fold key m ((now, call) :: calls) = true := by
  obtain ⟨T, hT, hlt⟩ := FailState.lockedAt_iff.mp hlocked
  have hstep := lookup_step_of_locked (a := a) hv hlocked (not_resets_of_fails hcall)
  have hafter : a.lockedUntil now key (a.step fold now m call) = some T :=
    lockedUntil_eq_some.mpr ⟨hmax, v, hstep, hT, hlt⟩
  simp [lockedDuring, hcall, hafter]

theorem pairwise_failureTimes (h : calls.Pairwise (·.1 ≤ ·.1)) :
    (failureTimes fold key calls).Pairwise (· ≤ ·) :=
  List.pairwise_map.mpr (h.filter _)

/-- The counter, run over the failures of a burst: `c` failures are left over from a window opened
at `first`. -/
theorem fills_burst_iff {limit c : ℕ} {window : Int} {first t₁ : Time} (hlimit : 0 < limit)
    (hlength : (t₁ :: ts).length = limit) (hsorted : (t₁ :: ts).Pairwise (· ≤ ·))
    (hspan : ∀ t ∈ ts, ∀ t' ∈ t₁ :: ts, timeSub t t' ≤ window) :
    fills limit window c first (t₁ :: ts) = true ↔
      (0 < c ∧ timeSub t₁ first ≤ window →
        limit ≤ c + (t₁ :: ts).countP fun t => timeSub t first ≤ window) := by
  by_cases hopen : 0 < c ∧ timeSub t₁ first ≤ window
  · have hone : 0 < (t₁ :: ts).countP fun t => timeSub t first ≤ window :=
      List.countP_pos_iff.mpr ⟨t₁, by simp, by simpa using hopen.2⟩
    rw [fills_iff_of_open hlimit hopen.1 hsorted
      (fun t ht t' ht' => hspan t ht t' (by simp [ht'])) hopen.2]
    constructor
    · exact fun h _ => h.resolve_right (by omega)
    · exact fun h => .inl (h hopen)
  · have hall : limit ≤ 1 ∨ fills limit window 1 t₁ ts = true ↔ limit ≤ 1 + ts.length :=
      fills_iff_of_all Nat.one_pos fun t ht => hspan t ht t₁ (by simp)
    rw [fills_of_closed hopen, Bool.or_eq_true, decide_eq_true_eq, hall]
    rw [List.length_cons] at hlength
    exact iff_of_true (by omega) fun h => absurd h hopen

theorem lockedDuring_iff_reachesLimit {t₁ : Time} {first : LockoutCall}
    {rest : List (Time × LockoutCall)} (hmax : 0 < a.authFailMax)
    (hsorted : ((t₁, first) :: rest).Pairwise (·.1 ≤ ·.1)) (hfirst : first.fails fold key = true)
    (hlimit : (failureTimes fold key ((t₁, first) :: rest)).length = a.authFailMax)
    (hspan : ∀ t ∈ failureTimes fold key ((t₁, first) :: rest), t - t₁ ≤ a.authFailWindow)
    (hreset : ∀ call ∈ (t₁, first) :: rest, call.2.resets fold key = false)
    (hbelow : belowBound a fold m ((t₁, first) :: rest) = true) :
    lockedDuring a fold key m ((t₁, first) :: rest) = true ↔
      ReachesLimit a key m t₁ (failureTimes fold key ((t₁, first) :: rest)) := by
  cases hlocked : ((m.lookup key).getD .new).lockedAt t₁ with
  | true =>
    -- already locked: the first failure of the burst finds it so
    rcases hv : m.lookup key with _ | v
    · simp [hv] at hlocked
    · rw [hv, Option.getD_some] at hlocked
      refine iff_of_true (lockedDuring_of_locked hmax hfirst hv hlocked) fun w hw hfree => ?_
      obtain rfl : v = w := Option.some.inj (hv.symm.trans hw)
      rw [hlocked] at hfree
      cases hfree
  | false =>
    have hfree : ∀ call ∈ (t₁, first) :: rest,
        ((m.lookup key).getD .new).lockedAt call.1 = false := by
      intro call hcall
      have hle : t₁ ≤ call.1 := by
        rcases List.mem_cons.mp hcall with rfl | hcall
        · exact le_rfl
        · exact (List.pairwise_cons.mp hsorted).1 call hcall
      by_contra hlater
      rw [FailState.lockedAt_of_le hle (by simpa using hlater)] at hlocked
      cases hlocked
    have htimes : (failureTimes fold key ((t₁, first) :: rest)).Pairwise (· ≤ ·) :=
      pairwise_failureTimes hsorted
    have hfail : failureTimes fold key ((t₁, first) :: rest) =
        t₁ :: failureTimes fold key rest := by simp [failureTimes, hfirst]
    rw [lockedDuring_eq_fills hmax hsorted hreset hbelow hfree]
    rw [hfail] at hspan hlimit htimes ⊢
    have hbetween : ∀ t ∈ failureTimes fold key rest, ∀ t' ∈ t₁ :: failureTimes fold key rest,
        timeSub t t' ≤ a.authFailWindow := by
      intro t ht t' ht'
      have hle : t₁ ≤ t' := by
        rcases List.mem_cons.mp ht' with rfl | ht'
        · exact le_rfl
        · exact (List.pairwise_cons.mp htimes).1 t' ht'
      exact timeSub_le ((Int.sub_le_sub_left hle t).trans (hspan t (by simp [ht])))
        a.authFailWindow_pos.le
    rw [fills_burst_iff (by omega) (by omega) htimes hbetween]
    rcases hv : m.lookup key with _ | v
    · simp [ReachesLimit, hv, FailState.new]
    · rw [hv] at hlocked
      simp only [ReachesLimit, hv, Option.getD_some, Option.some.injEq, forall_eq',
        windowOpen, Bool.and_eq_true, decide_eq_true_eq]
      rw [Option.getD_some] at hlocked
      simp only [hlocked, true_imp_iff, and_imp]
      refine forall₂_congr fun _ _ => ?_
      omega

/-- As many failures of a pair as the limit, within one window length and with no success between
them, lock the pair exactly when an older window that is still open does not split them. -/
theorem lockedDuring_burst_iff (cfg : RateLimitConfig) (fold : Bytes → Bytes) (key : Bytes)
    (before burst : List (Time × LockoutCall)) (t₁ : Time) (first : LockoutCall)
    (rest : List (Time × LockoutCall)) (hmax : 0 < cfg.authFailMax)
    (hwindow : 0 < cfg.authFailWindow) (hburst : burst = (t₁, first) :: rest)
    (hsorted : (before ++ burst).Pairwise (·.1 ≤ ·.1)) (hfirst : first.fails fold key = true)
    (hlimit : (failureTimes fold key burst).length = cfg.authFailMax)
    (hspan : ∀ t ∈ failureTimes fold key burst, t - t₁ ≤ cfg.authFailWindow)
    (hreset : ∀ call ∈ burst, call.2.resets fold key = false)
    (hbelow : belowBound (newAuthLockout cfg) fold ((newAuthLockout cfg).run fold before ∅) burst =
      true) :
    lockedDuring (newAuthLockout cfg) fold key ((newAuthLockout cfg).run fold before ∅) burst =
        true ↔
      ReachesLimit (newAuthLockout cfg) key ((newAuthLockout cfg).run fold before ∅) t₁
        (failureTimes fold key burst) := by
  have hwin : (newAuthLockout cfg).authFailWindow = cfg.authFailWindow :=
    if_neg (not_le.mpr hwindow)
  subst hburst
  rw [← hwin] at hspan
  exact lockedDuring_iff_reachesLimit hmax (List.pairwise_append.mp hsorted).2.1 hfirst hlimit
    hspan hreset hbelow

theorem lockedDuring_burst_three :
    lockedDuring (newAuthLockout ⟨3, 100, 10, 5⟩) id someKey ∅
        [(0, someFailure), (4, .sweep), (9, someFailure), (10, someFailure)] = true ↔
      ReachesLimit (newAuthLockout ⟨3, 100, 10, 5⟩) someKey ∅ 0 [0, 9, 10] :=
  lockedDuring_burst_iff ⟨3, 100, 10, 5⟩ id someKey [] _ 0 someFailure _ (by decide) (by decide)
    rfl (by decide) (by decide) (by decide) (by decide) (by decide) (by decide)

/-- One failure at 0 and three at 9, 11 and 12, with a limit of three and a window of 10: the one
at 11 starts a new window, and the pair is not locked. -/
theorem burst_across_windows :
    [((0 : Time), someFailure), (9, someFailure), (11, someFailure), (12, someFailure)].Pairwise
      (·.1 ≤ ·.1) ∧
    failureTimes id someKey [(9, someFailure), (11, someFailure), (12, someFailure)] =
      [9, 11, 12] ∧
    belowBound (newAuthLockout ⟨3, 100, 10, 5⟩) id ∅
      [(0, someFailure), (9, someFailure), (11, someFailure), (12, someFailure)] = true ∧
    lockedDuring (newAuthLockout ⟨3, 100, 10, 5⟩) id someKey ∅
      [(0, someFailure), (9, someFailure), (11, someFailure), (12, someFailure)] = false := by
  decide

end AuthLockout

end AuthServer
