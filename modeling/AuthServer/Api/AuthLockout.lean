import Mathlib.Data.List.AList
import AuthServer.Domain.Entity

/-!
# The lockout tracker

`api/shared/authlockout.go`: the bounded map of failed logins. Every method holds the tracker's
mutex from its first read to its last write, so a run of the server is a list of calls, each with
the time it read from the clock. Go visits a map in an order of its own choosing; a call that may
evict carries that order, and only its first `sampleSize` keys are looked at.

The logger and the latch that limits its warnings decide nothing and are left out.
-/

namespace AuthServer

/-- The fields of `config.RateLimitConfig` that the tracker reads. -/
structure RateLimitConfig where
  authFailMax : Int
  authLockout : Time
  authFailWindow : Time
  maxTrackedIdentities : Int
  deriving DecidableEq, Repr

/-- What `NewAuthLockout` keeps of its configuration. -/
structure AuthLockout where
  authFailMax : Int
  authLockout : Time
  authFailWindow : Time
  maxEntries : ℕ
  authLockout_pos : 0 < authLockout
  authFailWindow_pos : 0 < authFailWindow
  maxEntries_pos : 0 < maxEntries

def maxTrackedIdentities : ℕ := 250000

/-- `defaultAuthLockout`: 15 minutes. -/
def defaultAuthLockout : Time := 900000000000

/-- `defaultAuthFailWindow`: 10 minutes. -/
def defaultAuthFailWindow : Time := 600000000000

/-- `NewAuthLockout`: a bound or a duration that is not positive is replaced by its default. The
failure limit is kept as it is, and one that is not positive turns the tracker off. -/
def newAuthLockout (cfg : RateLimitConfig) : AuthLockout where
  authFailMax := cfg.authFailMax
  authLockout := if cfg.authLockout ≤ 0 then defaultAuthLockout else cfg.authLockout
  authFailWindow := if cfg.authFailWindow ≤ 0 then defaultAuthFailWindow else cfg.authFailWindow
  maxEntries :=
    if cfg.maxTrackedIdentities ≤ 0 then maxTrackedIdentities else cfg.maxTrackedIdentities.toNat
  authLockout_pos := by
    split
    · decide
    · next h => exact not_le.mp h
  authFailWindow_pos := by
    split
    · decide
    · next h => exact not_le.mp h
  maxEntries_pos := by
    split
    · decide
    · omega

def maxIdentityLen : ℕ := 254

/-- `lockoutKey`, with `strings.ToLower` after `strings.TrimSpace` as `fold`. -/
def lockoutKey (fold : Bytes → Bytes) (identity ip : Bytes) : Bytes :=
  (fold identity).take maxIdentityLen ++ 0 :: ip

/-- `failState`. The zero value of `lockedUntil` is before every reading of the clock and is
`none`; `firstFailure` is read only where `failCount` is positive. -/
structure FailState where
  failCount : ℕ
  firstFailure : Time
  lockedUntil : Option Time
  deriving DecidableEq, Repr

namespace FailState

/-- `&failState{}`; the zero `time.Time` is the start of the year 1. -/
def new : FailState := ⟨0, -62135596800000000000, none⟩

/-- `now.Before(v.lockedUntil)`. -/
def lockedAt (v : FailState) (now : Time) : Bool := v.lockedUntil.any (now < ·)

theorem lockedAt_iff {v : FailState} {now : Time} : v.lockedAt now = true ↔ ∃ T,
    v.lockedUntil = some T ∧ now < T := by
  unfold lockedAt
  cases v.lockedUntil <;> simp

@[simp] theorem lockedAt_new (now : Time) : new.lockedAt now = false := rfl

theorem lockedAt_of_le {v : FailState} {now now' : Time} (h : now ≤ now')
    (hv : v.lockedAt now' = true) : v.lockedAt now = true := by
  obtain ⟨T, hT, hlt⟩ := lockedAt_iff.mp hv
  exact lockedAt_iff.mpr ⟨T, hT, lt_of_le_of_lt h hlt⟩

end FailState

/-- The tracker's map. -/
abbrev FailStates := AList fun _ : Bytes => FailState

/-! ### The size of a map -/

section Size

variable {α : Type*} {β : α → Type*} [DecidableEq α] {s : AList β} {x : α} {y : β x}

theorem length_erase_of_lookup (h : s.lookup x = some y) : (s.erase x).entries.length + 1 =
    s.entries.length := by
  have hmem : x ∈ s.keys := AList.lookup_isSome.mp (by rw [h]; rfl)
  have hkeys := congrArg List.length (AList.keys_erase x s)
  rw [List.length_erase_of_mem hmem] at hkeys
  have hpos := List.length_pos_of_mem hmem
  simp only [AList.keys, List.keys, List.length_map] at hkeys hpos
  omega

theorem length_insert_le : (s.insert x y).entries.length ≤ s.entries.length + 1 := by
  rw [AList.entries_insert, List.length_cons]
  exact Nat.add_le_add_right (List.kerase_sublist x s.entries).length_le 1

theorem length_insert_of_lookup (h : s.lookup x = some y) (z : β x) :
    (s.insert x z).entries.length = s.entries.length := by
  rw [← length_erase_of_lookup h, AList.entries_insert, List.length_cons]
  rfl

end Size

namespace AuthLockout

variable (a : AuthLockout)

/-- The failures counted so far still count at `now`: there are some, and the first of them is
inside the failure window. -/
def windowOpen (now : Time) (v : FailState) : Bool :=
  0 < v.failCount && timeSub now v.firstFailure ≤ a.authFailWindow

/-! ### Eviction -/

def sampleSize : ℕ := 64

/-- The loop body of `evictOneLocked`: the key found so far, with its failure count. -/
def betterVictim (now : Time) (states : FailStates) (found : Option (Bytes × ℕ)) (key : Bytes) :
    Option (Bytes × ℕ) :=
  match states.lookup key with
  | none => found
  | some v =>
    if v.lockedAt now then found
    else
      match found with
      | none => some (key, v.failCount)
      | some (victim, lowest) =>
        if v.failCount < lowest then some (key, v.failCount) else some (victim, lowest)

/-- `evictOneLocked`, with the order in which the loop visits the map. -/
def evictOneLocked (now : Time) (order : List Bytes) (states : FailStates) : Option FailStates :=
  ((order.take sampleSize).foldl (betterVictim now states) none).map
    fun victim => states.erase victim.1

/-! ### The methods -/

/-- The part of `RecordFailure` that finds or makes the pair's entry; `none` where the newcomer is
refused. -/
def track (now : Time) (order : List Bytes) (key : Bytes) (states : FailStates) :
    Option (FailState × FailStates) :=
  match states.lookup key with
  | some v => some (v, states)
  | none =>
    if a.maxEntries ≤ states.entries.length then
      (evictOneLocked now order states).map fun rest => (.new, rest)
    else some (.new, states)

/-- The part of `RecordFailure` that counts the failure: the call's result and the entry after
it. -/
def count (now : Time) (v : FailState) : (Option Time × Bool) × FailState :=
  -- the deadline does not extend on further attempts
  if v.lockedAt now then ((v.lockedUntil, false), v)
  else
    let counted := if 0 < v.failCount ∧ a.authFailWindow < timeSub now v.firstFailure then 0
      else v.failCount
    let first := if counted = 0 then now else v.firstFailure
    if a.authFailMax ≤ counted + 1 then
      ((some (now + a.authLockout), true), ⟨0, first, some (now + a.authLockout)⟩)
    else ((none, false), ⟨counted + 1, first, v.lockedUntil⟩)

/-- `RecordFailure`: the deadline, whether this call engaged the lockout, and the map after it. -/
def recordFailure (now : Time) (order : List Bytes) (key : Bytes) (states : FailStates) :
    (Option Time × Bool) × FailStates :=
  if a.authFailMax ≤ 0 then ((none, false), states)
  else
    match a.track now order key states with
    | none => ((none, false), states)
    | some (v, rest) => ((a.count now v).1, rest.insert key (a.count now v).2)

def lockedUntil (now : Time) (key : Bytes) (states : FailStates) : Option Time :=
  if a.authFailMax ≤ 0 then none
  else
    match states.lookup key with
    | none => none
    | some v => if v.lockedAt now then v.lockedUntil else none

def reset (key : Bytes) (states : FailStates) : FailStates := states.erase key

/-- The entries that `sweep` leaves in the map. -/
def survives (now : Time) (v : FailState) : Bool := v.lockedAt now || a.windowOpen now v

def sweep (now : Time) (states : FailStates) : FailStates where
  entries := states.entries.filter fun entry => a.survives now entry.2
  nodupKeys := states.nodupKeys.sublist List.filter_sublist

/-- A call of one of the tracker's methods. -/
inductive LockoutCall
  | recordFailure (identity ip : Bytes) (order : List Bytes)
  | lockedUntil (identity ip : Bytes)
  | reset (identity ip : Bytes)
  | sweep
  deriving DecidableEq, Repr

namespace LockoutCall

variable (fold : Bytes → Bytes) (key : Bytes)

def fails : LockoutCall → Bool
  | recordFailure identity ip _ => lockoutKey fold identity ip = key
  | _ => false

/-- The call is a success of the pair with this key. -/
def resets : LockoutCall → Bool
  | reset identity ip => lockoutKey fold identity ip = key
  | _ => false

end LockoutCall

variable (fold : Bytes → Bytes)

/-- The map after a call made at `now`. -/
def step (now : Time) (states : FailStates) : LockoutCall → FailStates
  | .recordFailure identity ip order =>
    (a.recordFailure now order (lockoutKey fold identity ip) states).2
  | .lockedUntil _ _ => states
  | .reset identity ip => reset (lockoutKey fold identity ip) states
  | .sweep => a.sweep now states

/-- What a `RecordFailure` call returns: the deadline, and whether it engaged the lockout. -/
def result (now : Time) (states : FailStates) : LockoutCall → Option Time × Bool
  | .recordFailure identity ip order =>
    (a.recordFailure now order (lockoutKey fold identity ip) states).1
  | _ => (none, false)

def run (calls : List (Time × LockoutCall)) (states : FailStates) : FailStates :=
  calls.foldl (fun m call => a.step fold call.1 m call.2) states

@[simp] theorem run_nil (m : FailStates) : a.run fold [] m = m := rfl

@[simp] theorem run_cons (call : Time × LockoutCall) (calls : List (Time × LockoutCall))
    (m : FailStates) :
    a.run fold (call :: calls) m = a.run fold calls (a.step fold call.1 m call.2) := rfl

@[simp] theorem run_append (pre post : List (Time × LockoutCall)) (m : FailStates) :
    a.run fold (pre ++ post) m = a.run fold post (a.run fold pre m) :=
  List.foldl_append

/-! ### Counting one failure -/

section Count

variable {a : AuthLockout} {now : Time} {v : FailState}

theorem count_of_locked (h : v.lockedAt now = true) : a.count now v =
    ((v.lockedUntil, false), v) := by
  rw [count, if_pos h]

theorem count_of_windowOpen (h : v.lockedAt now = false) (hw : a.windowOpen now v = true) :
    a.count now v = if a.authFailMax ≤ v.failCount + 1 then
        ((some (now + a.authLockout), true),
          ⟨0, v.firstFailure, some (now + a.authLockout)⟩)
      else ((none, false), ⟨v.failCount + 1, v.firstFailure, v.lockedUntil⟩) := by
  simp only [windowOpen, Bool.and_eq_true, decide_eq_true_eq] at hw
  have hpos : v.failCount ≠ 0 := by omega
  simp [count, h, hw.1, hpos, not_lt.mpr hw.2]

theorem count_of_windowClosed (h : v.lockedAt now = false) (hw : a.windowOpen now v = false) :
    a.count now v = if a.authFailMax ≤ 1 then
        ((some (now + a.authLockout), true), ⟨0, now, some (now + a.authLockout)⟩)
      else ((none, false), ⟨1, now, v.lockedUntil⟩) := by
  simp only [windowOpen, Bool.and_eq_false_iff, decide_eq_false_iff_not, not_lt, not_le] at hw
  have hzero : (if 0 < v.failCount ∧ a.authFailWindow < timeSub now v.firstFailure then 0
      else v.failCount) = 0 := by
    split
    · rfl
    · grind
  simp [count, h, hzero]

end Count

/-! ### What one call does to one pair -/

section Step

variable {a : AuthLockout} {fold : Bytes → Bytes} {now : Time} {m : FailStates} {key : Bytes}

variable {found : Option (Bytes × ℕ)}

theorem mem_of_betterVictim {victim : Bytes × ℕ} (h : betterVictim now m found key = some victim) :
    found = some victim ∨ ∃ v, m.lookup victim.1 = some v ∧ v.lockedAt now = false := by
  unfold betterVictim at h
  cases hv : m.lookup key with
  | none => exact .inl (by simpa only [hv] using h)
  | some v =>
    simp only [hv] at h
    split at h
    · exact .inl h
    · next hl =>
      have hfree : v.lockedAt now = false := by simpa using hl
      split at h
      · cases h
        exact .inr ⟨v, hv, hfree⟩
      · split at h
        · cases h
          exact .inr ⟨v, hv, hfree⟩
        · exact .inl h

variable {order : List Bytes}

/-- A locked entry is never evicted. -/
theorem unlocked_of_victim {victim : Bytes × ℕ}
    (h : order.foldl (betterVictim now m) found = some victim)
    (hfound : ∀ w, found = some w → ∃ v, m.lookup w.1 = some v ∧ v.lockedAt now = false) :
    ∃ v, m.lookup victim.1 = some v ∧ v.lockedAt now = false := by
  induction order generalizing found with
  | nil => exact hfound victim h
  | cons key order ih =>
    refine ih h fun w hw => ?_
    rcases mem_of_betterVictim hw with hw | hw
    · exact hfound w hw
    · exact hw

theorem evictOneLocked_eq_some {rest : FailStates} (h : evictOneLocked now order m = some rest) :
    ∃ victim v, m.lookup victim = some v ∧ v.lockedAt now = false ∧ rest = m.erase victim := by
  simp only [evictOneLocked, Option.map_eq_some_iff] at h
  obtain ⟨victim, hvictim, rfl⟩ := h
  obtain ⟨v, hv, hfree⟩ := unlocked_of_victim hvictim (by simp)
  exact ⟨victim.1, v, hv, hfree, rfl⟩

theorem lookup_sweep (key : Bytes) : (a.sweep now m).lookup key =
    (m.lookup key).filter (a.survives now) := by
  apply Option.ext
  intro v
  have hsweep : v ∈ (a.sweep now m).lookup key ↔ ⟨key, v⟩ ∈ (a.sweep now m).entries :=
    AList.mem_lookup_iff
  have hm : v ∈ m.lookup key ↔ ⟨key, v⟩ ∈ m.entries := AList.mem_lookup_iff
  rw [Option.filter_eq_some_iff, ← Option.mem_def, ← Option.mem_def, hsweep, hm]
  simp [sweep]

/-- What a call made at `now` does to the pair with one key: `m` before, `m'` after. -/
inductive Change (a : AuthLockout) (fold : Bytes → Bytes) (now : Time) (call : LockoutCall)
    (m m' : FailStates) (key : Bytes) : Prop
  /-- The entry stays. A failure that is not counted comes from a newcomer refused at the bound,
  or the tracker is off. -/
  | kept (h : m'.lookup key = m.lookup key) (hcall : call.resets fold key = false)
      (hfail : call.fails fold key = true →
        a.authFailMax ≤ 0 ∨ m.lookup key = none ∧ a.maxEntries ≤ m.entries.length)
      (hresult : call.fails fold key = true → a.result fold now m call = (none, false))
  /-- Another pair's failure or a sweep drops an entry that is not locked. -/
  | dropped {v : FailState} (hv : m.lookup key = some v) (hfree : v.lockedAt now = false)
      (hm' : m'.lookup key = none) (hcall : call.fails fold key = false)
      (hreset : call.resets fold key = false)
      (hwhy : a.maxEntries ≤ m.entries.length ∨ a.windowOpen now v = false)
  | reset (hcall : call.resets fold key = true) (hm' : m'.lookup key = none)
  /-- A failure is counted. -/
  | counted (hcall : call.fails fold key = true) (hmax : 0 < a.authFailMax)
      (hm' : m'.lookup key = some (a.count now ((m.lookup key).getD .new)).2)
      (hresult : a.result fold now m call = (a.count now ((m.lookup key).getD .new)).1)

/-- The pairs other than the one that failed: at most one of them is dropped, at the bound. -/
theorem lookup_track {key' : Bytes} {v : FailState} {rest : FailStates}
    (h : a.track now order key' m = some (v, rest)) (key : Bytes) :
    v = (m.lookup key').getD .new ∧
      (rest.lookup key = m.lookup key ∨
        a.maxEntries ≤ m.entries.length ∧ rest.lookup key = none ∧
          ∃ w, m.lookup key = some w ∧ w.lockedAt now = false) := by
  unfold track at h
  cases hv : m.lookup key' with
  | some w =>
    simp only [hv, Option.some.injEq, Prod.mk.injEq] at h
    obtain ⟨rfl, rfl⟩ := h
    exact ⟨rfl, .inl rfl⟩
  | none =>
    simp only [hv] at h
    split at h
    · next hfull =>
      simp only [Option.map_eq_some_iff, Prod.mk.injEq] at h
      obtain ⟨_, hevict, rfl, rfl⟩ := h
      obtain ⟨victim, w, hw, hfree, rfl⟩ := evictOneLocked_eq_some hevict
      refine ⟨rfl, ?_⟩
      by_cases hk : key = victim
      · subst hk
        exact .inr ⟨hfull, AList.lookup_erase _ _, w, hw, hfree⟩
      · exact .inl (AList.lookup_erase_ne hk)
    · simp only [Option.some.injEq, Prod.mk.injEq] at h
      obtain ⟨rfl, rfl⟩ := h
      exact ⟨rfl, .inl rfl⟩

theorem full_of_track_eq_none (h : a.track now order key m = none) :
    m.lookup key = none ∧ a.maxEntries ≤ m.entries.length := by
  unfold track at h
  cases hv : m.lookup key with
  | some w => simp [hv] at h
  | none =>
    simp only [hv] at h
    split at h
    · next hfull => exact ⟨rfl, hfull⟩
    · cases h

theorem change_recordFailure (identity ip : Bytes) (order : List Bytes) (key : Bytes) :
    Change a fold now (.recordFailure identity ip order) m
      (a.step fold now m (.recordFailure identity ip order)) key := by
  by_cases hmax : a.authFailMax ≤ 0
  · exact .kept (by simp [step, recordFailure, hmax]) rfl (fun _ => .inl hmax)
      (fun _ => by simp [result, recordFailure, hmax])
  cases htrack : a.track now order (lockoutKey fold identity ip) m with
  | none =>
    refine .kept (by simp [step, recordFailure, hmax, htrack]) rfl (fun h => .inr ?_)
      (fun _ => by simp [result, recordFailure, hmax, htrack])
    have hkey : lockoutKey fold identity ip = key := by simpa [LockoutCall.fails] using h
    exact hkey ▸ full_of_track_eq_none htrack
  | some tracked =>
    obtain ⟨v, rest⟩ := tracked
    have hstep : a.step fold now m (.recordFailure identity ip order) =
        rest.insert (lockoutKey fold identity ip) (a.count now v).2 := by
      simp [step, recordFailure, hmax, htrack]
    have hresult : a.result fold now m (.recordFailure identity ip order) = (a.count now v).1 := by
      simp [result, recordFailure, hmax, htrack]
    by_cases hkey : lockoutKey fold identity ip = key
    · subst hkey
      obtain ⟨rfl, -⟩ := lookup_track htrack (lockoutKey fold identity ip)
      refine .counted (by simp [LockoutCall.fails]) (by omega) ?_ hresult
      rw [hstep, AList.lookup_insert]
    · have hfails : LockoutCall.fails fold key (.recordFailure identity ip order) = false := by
        simp [LockoutCall.fails, hkey]
      have hlookup : (rest.insert (lockoutKey fold identity ip) (a.count now v).2).lookup key =
          rest.lookup key := AList.lookup_insert_ne (Ne.symm hkey)
      rcases (lookup_track htrack key).2 with hsame | ⟨hfull, hnone, w, hw, hfree⟩
      · refine .kept (by rw [hstep, hlookup, hsame]) rfl ?_ ?_ <;> simp [hfails]
      · exact .dropped hw hfree (by rw [hstep, hlookup, hnone]) hfails rfl (.inl hfull)

theorem change_step (call : LockoutCall) (key : Bytes) :
    Change a fold now call m (a.step fold now m call) key := by
  cases call with
  | recordFailure identity ip order => exact change_recordFailure identity ip order key
  | lockedUntil identity ip => exact .kept rfl rfl (by simp [LockoutCall.fails]) (fun _ => rfl)
  | reset identity ip =>
    by_cases hkey : lockoutKey fold identity ip = key
    · subst hkey
      exact .reset (by simp [LockoutCall.resets]) (AList.lookup_erase _ _)
    · exact .kept (AList.lookup_erase_ne (Ne.symm hkey)) (by simp [LockoutCall.resets, hkey])
        (by simp [LockoutCall.fails]) (fun _ => rfl)
  | sweep =>
    have hsweep : (a.step fold now m .sweep).lookup key = (m.lookup key).filter (a.survives now) :=
      lookup_sweep key
    rcases hv : m.lookup key with _ | v
    · exact .kept (by simp [hsweep, hv]) rfl (by simp [LockoutCall.fails]) (fun _ => rfl)
    · rw [hv] at hsweep
      cases hs : a.survives now v with
      | true =>
        exact .kept (by simp [hsweep, hv, hs]) rfl (by simp [LockoutCall.fails]) (fun _ => rfl)
      | false =>
        have hgone := hs
        simp only [survives, Bool.or_eq_false_iff] at hgone
        exact .dropped hv hgone.1 (by simp [hsweep, hs]) rfl rfl (.inr hgone.2)

theorem length_recordFailure_le (order : List Bytes) (h : m.entries.length ≤ a.maxEntries) :
    (a.recordFailure now order key m).2.entries.length ≤ a.maxEntries := by
  unfold recordFailure track
  split
  · exact h
  rcases hv : m.lookup key with _ | v
  · by_cases hfull : a.maxEntries ≤ m.entries.length
    · rcases hevict : evictOneLocked now order m with _ | rest
      · simpa [hfull, hevict] using h
      · obtain ⟨victim, w, hw, -, rfl⟩ := evictOneLocked_eq_some hevict
        have herase := length_erase_of_lookup hw
        have hinsert := length_insert_le (s := m.erase victim) (x := key)
          (y := (a.count now .new).2)
        simp only [hfull, if_true, Option.map_some]
        omega
    · have hinsert := length_insert_le (s := m) (x := key) (y := (a.count now .new).2)
      simp only [hfull, if_false]
      omega
  · simpa only [length_insert_of_lookup hv] using h

/-- No call takes the map over its bound. -/
theorem length_step_le (call : LockoutCall) (h : m.entries.length ≤ a.maxEntries) :
    (a.step fold now m call).entries.length ≤ a.maxEntries := by
  cases call with
  | recordFailure identity ip order => exact length_recordFailure_le order h
  | lockedUntil identity ip => exact h
  | reset identity ip => exact ((List.kerase_sublist _ _).length_le).trans h
  | sweep => exact (List.filter_sublist.length_le).trans h

end Step

end AuthLockout

end AuthServer
