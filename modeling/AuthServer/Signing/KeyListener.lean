import AuthServer.Interleave.Machine
import AuthServer.Signing.Rotation

/-!
# The listener for key changes

`KeyStoreListener` of `internal/adapters/postgres/hakeystore_listener.go`, with the caches it looks
after: the slot of `CachedKeyStore` and the key set of `JWKSService`. Other instances rotate the key
in the shared table; a trigger sends a notification for each row that a rotation touches, which
reaches this instance only while it is listening. On a notification the slot is emptied and the set
rebuilt. When the connection is lost the listener waits, twice as long each time, and connects
again; only when it is about to wait for the longest time does it empty the slot and rebuild the set
on its own.

Beside the listener, calls of `LoadCurrent` fill the slot and calls of `Reload` rebuild the set,
each in two steps: a read of the database and a write to the cache.

Some history is kept that no step reads: how many rotations have committed, how many had when the
listener last emptied the slot, and how many had when each of the calls under way read the database.
-/

namespace AuthServer

open Interleave

namespace Signing

namespace KeyListener

/-- Where the listener is. -/
inductive Pc
  /-- About to connect and `LISTEN`. -/
  | connecting
  /-- In `WaitForNotification`. -/
  | listening
  /-- In `fallbackPoll`, about to empty the slot. -/
  | polling
  /-- The slot is empty; `Reload` is about to read. After that it waits, or listens. -/
  | reloading (fallback : Bool)
  /-- `Reload` has read the keys. -/
  | storing (fallback : Bool) (keys : List SigningKey)
  /-- Waiting to connect again. -/
  | waiting

structure Instance where
  db : KeyDatabase
  /-- The slot of `CachedKeyStore`. -/
  slot : Option SigningKey
  /-- The cached set of `JWKSService`. -/
  cache : Option (List JSONWebKey)
  pc : Pc
  /-- While `LISTEN` is in effect: how many notifications are still to be handled. -/
  link : Option ℕ
  /-- In seconds. -/
  backoff : ℕ
  /-- Calls of `LoadCurrent` that found the slot empty. -/
  misses : ℕ
  /-- Calls of `LoadCurrent` that have read the current key, and how many rotations had
  committed. -/
  fetched : List (SigningKey × ℕ)
  /-- Calls of `Reload` that have read the keys, and how many rotations had committed. -/
  listed : List (List SigningKey × ℕ)
  /-- History: the rotations that have committed. -/
  commits : ℕ
  /-- History: how many had when the listener last emptied the slot. -/
  invalidatedAt : ℕ

/-- What happens next. -/
inductive Action
  /-- The listener connects, and `LISTEN` takes effect. -/
  | connect
  /-- It cannot. -/
  | refuse
  /-- The connection breaks; notifications that were not handled are lost. -/
  | drop
  /-- `WaitForNotification` fails on a broken connection. -/
  | notice
  /-- `WaitForNotification` returns, and the slot is emptied. -/
  | notify
  /-- `fallbackPoll` empties the slot. -/
  | poll
  /-- The `Reload` of the listener reads the keys. -/
  | list (planner : Planner)
  /-- … and stores the set. -/
  | store
  /-- The wait is over. -/
  | elapse
  /-- Another instance saves a key. -/
  | rotate (planner : Planner) (row : KeyRow)
  /-- A call of `LoadCurrent` finds the slot empty. -/
  | miss
  /-- … reads the current key. -/
  | fetch
  /-- … fills the slot, the `n`-th of those under way. -/
  | fill (n : ℕ)
  /-- Another call of `Reload` reads the keys. -/
  | read (planner : Planner)
  /-- … stores the set, the `n`-th of those under way. -/
  | publish (n : ℕ)

/-- `listenReconnectMax` and `listenFallbackPollTime`. -/
def reconnectMax : ℕ := 30

/-- After a connection was lost: `fallbackPoll`, when the wait is long. -/
def lost (s : Instance) : Instance :=
  { s with pc := if s.backoff < reconnectMax then .waiting else .polling }

/-- `InvalidateCache`, by the listener. -/
def invalidate (s : Instance) (fallback : Bool) : Instance :=
  { s with
    slot := none
    pc := .reloading fallback
    invalidatedAt := s.commits }

/-- The notifications of a rotation: one for the row that was current, one for the new one. -/
def notifications (t : KeyTable) : ℕ := t.current.toList.length + 1

def step (prims : Primitives) (s : Instance) : Action → Option Instance
  | .connect =>
    match s.pc with
    | .connecting => some { s with pc := .listening, link := some 0 }
    | _ => none
  | .refuse =>
    match s.pc with
    | .connecting => some (lost s)
    | _ => none
  | .drop => some { s with link := none }
  | .notice =>
    match s.pc, s.link with
    | .listening, none => some (lost s)
    | _, _ => none
  | .notify =>
    match s.pc, s.link with
    | .listening, some (n + 1) => some { invalidate s false with link := some n }
    | _, _ => none
  | .poll =>
    match s.pc with
    | .polling => some (invalidate s true)
    | _ => none
  | .list planner =>
    match s.pc, ((HAKeyStore.listActive prims planner).run [] s.db).1 with
    | .reloading fallback, .ok keys => some { s with pc := .storing fallback keys }
    | _, _ => none
  | .store =>
    match s.pc with
    | .storing fallback keys =>
      some { s with
        cache := some (keys.map portKeyToJWK)
        pc := if fallback then .waiting else .listening }
    | _ => none
  | .elapse =>
    match s.pc with
    | .waiting => some { s with pc := .connecting, backoff := min (2 * s.backoff) reconnectMax }
    | _ => none
  | .rotate planner row =>
    match s.db.table.save planner row with
    | some table =>
      some { s with
        db := { s.db with table := table }
        commits := s.commits + 1
        link := s.link.map (· + notifications s.db.table) }
    | none => none
  | .miss => if s.slot.isNone then some { s with misses := s.misses + 1 } else none
  | .fetch =>
    match s.misses, ((HAKeyStore.loadCurrent prims).run [] s.db).1 with
    | n + 1, .ok (some key) =>
      some { s with misses := n, fetched := s.fetched ++ [(key, s.commits)] }
    | n + 1, _ => some { s with misses := n }
    | 0, _ => none
  | .fill n =>
    match s.fetched[n]? with
    | some (key, _) => some { s with slot := some key, fetched := s.fetched.eraseIdx n }
    | none => none
  | .read planner =>
    match ((HAKeyStore.listActive prims planner).run [] s.db).1 with
    | .ok keys => some { s with listed := s.listed ++ [(keys, s.commits)] }
    | .error _ => none
  | .publish n =>
    match s.listed[n]? with
    | some (keys, _) =>
      some { s with cache := some (keys.map portKeyToJWK), listed := s.listed.eraseIdx n }
    | none => none

/-- The state a server boots in, on a table as the transactions leave it. -/
structure Boot (s : Instance) : Prop where
  settled : s.db.table.Settled
  slot : s.slot = none
  cache : s.cache = none
  pc : s.pc = .connecting
  link : s.link = none
  backoff : s.backoff = 1
  idle : s.misses = 0 ∧ s.fetched = [] ∧ s.listed = []
  history : s.commits = 0 ∧ s.invalidatedAt = 0

/-- The condition of a step: the listener connects when no rotation has committed since it last
emptied the slot, and a call writes to a cache when none has since it read the database. -/
def Meets (s : Instance) : Action → Prop
  | .connect => s.commits = s.invalidatedAt
  | .fill n => ∀ e ∈ s.fetched[n]?, e.2 = s.commits
  | .publish n => ∀ e ∈ s.listed[n]?, e.2 = s.commits
  | _ => True

/-! ### What every step keeps -/

section Steps

variable (prims : Primitives)

/-- The slot, if filled, holds the current key. -/
def SlotCurrent (s : Instance) : Prop :=
  ∀ key, s.slot = some key → (HAKeyStore.view prims s.db).current = some (some key)

/-- The set is that of the active keys, or about to be replaced by it. -/
def SetCurrent (s : Instance) : Prop :=
  match s.pc with
  | .reloading _ => True
  | .storing _ keys => (HAKeyStore.view prims s.db).list = some keys
  | _ => ∀ set, s.cache = some set →
      ∃ keys, (HAKeyStore.view prims s.db).list = some keys ∧ set = keys.map portKeyToJWK

/-- The invariant: the caches are current unless a rotation has committed since the slot was last
emptied, and then a notification is on its way or the listener is not listening. -/
structure Current (s : Instance) : Prop where
  settled : s.db.table.Settled
  past : s.invalidatedAt ≤ s.commits
  fetched : ∀ e ∈ s.fetched, e.2 ≤ s.commits ∧
    (e.2 = s.commits → (HAKeyStore.view prims s.db).current = some (some e.1))
  listed : ∀ e ∈ s.listed, e.2 ≤ s.commits ∧
    (e.2 = s.commits → (HAKeyStore.view prims s.db).list = some e.1)
  heard : s.link = some 0 → s.commits = s.invalidatedAt
  slot : s.commits = s.invalidatedAt → SlotCurrent prims s
  set : s.commits = s.invalidatedAt → SetCurrent prims s

variable {prims} {s s' : Instance}

theorem Current.cached (h : Current prims s) (heq : s.commits = s.invalidatedAt)
    (hpc : s.pc = .connecting ∨ s.pc = .listening ∨ s.pc = .waiting) :
    ∀ set, s.cache = some set →
      ∃ keys, (HAKeyStore.view prims s.db).list = some keys ∧ set = keys.map portKeyToJWK := by
  have hset := h.set heq
  unfold SetCurrent at hset
  rcases hpc with hpc | hpc | hpc <;>
  · rw [hpc] at hset
    exact hset

variable {keys : List SigningKey} {planner : Planner}

theorem list_of_run (hsettled : s.db.table.Settled)
    (h : ((HAKeyStore.listActive prims planner).run [] s.db).1 = .ok keys) :
    (HAKeyStore.view prims s.db).list = some keys := by
  obtain ⟨r, hrun, hread⟩ := HAKeyStore.run_listActive prims planner hsettled
  rw [hrun] at h
  obtain rfl : r = .ok keys := h
  exact hread.symm

variable {key : SigningKey}

theorem current_of_run (h : ((HAKeyStore.loadCurrent prims).run [] s.db).1 = .ok (some key)) :
    (HAKeyStore.view prims s.db).current = some (some key) := by
  obtain ⟨r, hrun, hread⟩ := HAKeyStore.run_loadRow prims "current" KeyTable.current s.db
  rw [HAKeyStore.loadCurrent, hrun] at h
  obtain rfl : r = .ok (some key) := h
  exact hread.symm

/-- Emptying the slot. -/
theorem Current.invalidate (h : Current prims s) (fallback : Bool) :
    Current prims (invalidate s fallback) :=
  ⟨h.settled, le_refl _, h.fetched, h.listed, fun _ => rfl, fun _ _ => nofun, fun _ => trivial⟩

theorem Current.lost (h : Current prims s) (hset : s.commits = s.invalidatedAt → ∀ set,
    s.cache = some set →
      ∃ keys, (HAKeyStore.view prims s.db).list = some keys ∧ set = keys.map portKeyToJWK) :
    Current prims (lost s) := by
  refine { h with set := fun heq => ?_ }
  unfold KeyListener.lost SetCurrent
  split
  · rename_i hpc
    split at hpc <;> cases hpc
  · rename_i hpc
    split at hpc <;> cases hpc
  · exact hset heq

theorem Current.rotate (h : Current prims s) {row : KeyRow} {table : KeyTable}
    (hsave : s.db.table.save planner row = some table) :
    Current prims { s with
      db := { s.db with table := table }
      commits := s.commits + 1
      link := s.link.map (· + notifications s.db.table) } := by
  have hpast := h.past
  have hne : s.commits + 1 ≠ s.invalidatedAt := by omega
  refine ⟨KeyTable.settled_save hsave, Nat.le_succ_of_le h.past, fun e he => ?_, fun e he => ?_,
    fun hlink => ?_, fun heq => absurd heq hne, fun heq => absurd heq hne⟩
  · have hle := (h.fetched e he).1
    exact ⟨Nat.le_succ_of_le hle, fun heq => by simp only at heq; omega⟩
  · have hle := (h.listed e he).1
    exact ⟨Nat.le_succ_of_le hle, fun heq => by simp only at heq; omega⟩
  · -- a notification is on its way
    cases hl : s.link with
    | none => simp [hl] at hlink
    | some n =>
      simp only [hl, Option.map_some, Option.some.injEq, notifications] at hlink
      omega

variable {at_ : ℕ}

theorem Current.fill (h : Current prims s) {n : ℕ}
    (hget : s.fetched[n]? = some (key, at_)) (hat : at_ = s.commits) :
    Current prims { s with slot := some key, fetched := s.fetched.eraseIdx n } := by
  have hmem := List.mem_of_getElem? hget
  refine ⟨h.settled, h.past, fun e he => h.fetched e (List.mem_of_mem_eraseIdx he),
    h.listed, h.heard, fun _ key' hkey => ?_, h.set⟩
  obtain rfl : key = key' := Option.some.inj hkey
  exact (h.fetched _ hmem).2 hat

theorem Current.publish (h : Current prims s) {n : ℕ}
    (hget : s.listed[n]? = some (keys, at_)) (hat : at_ = s.commits) :
    Current prims { s with
      cache := some (keys.map portKeyToJWK), listed := s.listed.eraseIdx n } := by
  have hmem := List.mem_of_getElem? hget
  refine ⟨h.settled, h.past, h.fetched, fun e he => h.listed e (List.mem_of_mem_eraseIdx he),
    h.heard, h.slot, fun heq => ?_⟩
  have hset := h.set heq
  unfold SetCurrent at hset ⊢
  simp only at hset ⊢
  split
  · trivial
  · rename_i hpc
    rw [hpc] at hset
    exact hset
  · intro set hcache
    obtain rfl := Option.some.inj hcache
    exact ⟨keys, (h.listed _ hmem).2 hat, rfl⟩

/-- **One step.** -/
theorem Current.step (h : Current prims s) {a : Action} (hmeets : Meets s a)
    (hstep : step prims s a = some s') : Current prims s' := by
  cases a <;> simp only [KeyListener.step] at hstep
  case connect =>
    split at hstep
    · rename_i hpc
      obtain rfl := Option.some.inj hstep
      exact { h with heard := fun _ => hmeets, set := fun heq => h.cached heq (.inl hpc) }
    · cases hstep
  case refuse =>
    split at hstep
    · rename_i hpc
      obtain rfl := Option.some.inj hstep
      exact h.lost fun heq => h.cached heq (.inl hpc)
    · cases hstep
  case drop =>
    obtain rfl := Option.some.inj hstep
    exact { h with heard := nofun }
  case notice =>
    split at hstep
    · rename_i hpc _
      obtain rfl := Option.some.inj hstep
      exact h.lost fun heq => h.cached heq (.inr (.inl hpc))
    · cases hstep
  case notify =>
    split at hstep
    · obtain rfl := Option.some.inj hstep
      exact { h.invalidate false with heard := fun _ => rfl }
    · cases hstep
  case poll =>
    split at hstep
    · obtain rfl := Option.some.inj hstep
      exact h.invalidate true
    · cases hstep
  case list planner =>
    split at hstep
    · rename_i hlist
      obtain rfl := Option.some.inj hstep
      exact { h with set := fun _ => list_of_run h.settled hlist }
    · cases hstep
  case store =>
    split at hstep
    · rename_i fallback keys hpc
      obtain rfl := Option.some.inj hstep
      refine { h with set := fun heq => ?_ }
      have hset := h.set heq
      unfold SetCurrent at hset ⊢
      rw [hpc] at hset
      cases fallback <;>
      · intro set hcache
        obtain rfl := Option.some.inj hcache
        exact ⟨keys, hset, rfl⟩
    · cases hstep
  case elapse =>
    split at hstep
    · rename_i hpc
      obtain rfl := Option.some.inj hstep
      exact { h with set := fun heq => h.cached heq (.inr (.inr hpc)) }
    · cases hstep
  case rotate planner row =>
    split at hstep
    · rename_i table hsave
      obtain rfl := Option.some.inj hstep
      exact h.rotate hsave
    · cases hstep
  case miss =>
    split at hstep
    · obtain rfl := Option.some.inj hstep
      exact { h with }
    · cases hstep
  case fetch =>
    split at hstep
    · rename_i n key _ hload
      obtain rfl := Option.some.inj hstep
      refine { h with fetched := fun e he => ?_ }
      rcases List.mem_append.mp he with he | he
      · exact h.fetched e he
      · obtain rfl := List.mem_singleton.mp he
        exact ⟨le_refl _, fun _ => current_of_run hload⟩
    · obtain rfl := Option.some.inj hstep
      exact { h with }
    · cases hstep
  case fill n =>
    split at hstep
    · rename_i key at_ hget
      obtain rfl := Option.some.inj hstep
      exact h.fill hget (hmeets _ hget)
    · cases hstep
  case read planner =>
    split at hstep
    · rename_i keys hlist
      obtain rfl := Option.some.inj hstep
      refine { h with listed := fun e he => ?_ }
      rcases List.mem_append.mp he with he | he
      · exact h.listed e he
      · obtain rfl := List.mem_singleton.mp he
        exact ⟨le_refl _, fun _ => list_of_run h.settled hlist⟩
    · cases hstep
  case publish n =>
    split at hstep
    · rename_i keys at_ hget
      obtain rfl := Option.some.inj hstep
      exact h.publish hget (hmeets _ hget)
    · cases hstep

theorem Boot.current (h : Boot s) : Current prims s := by
  obtain ⟨-, hfetched, hlisted⟩ := h.idle
  obtain ⟨hcommits, hinvalidated⟩ := h.history
  refine ⟨h.settled, by omega, fun e he => ?_, fun e he => ?_, fun _ => by omega,
    fun _ key hkey => ?_, fun _ => ?_⟩
  · rw [hfetched] at he
    cases he
  · rw [hlisted] at he
    cases he
  · rw [h.slot] at hkey
    cases hkey
  · unfold SetCurrent
    rw [h.pc, h.cache]
    exact nofun

end Steps

/-- **A key change is not missed**, in every run whose steps meet the condition: while the listener
is connected and has handled every notification, the cached key is the current key of the table, and
the cached set is that of the keys `ListActive` gives. -/
theorem key_change_seen (prims : Primitives) (s₀ s : Instance)
    (actions : List Action) (hboot : Boot s₀)
    (hmeets : Machine.Along (step prims) Meets s₀ actions)
    (hrun : Machine.run (step prims) s₀ actions = some s) (hlink : s.link = some 0)
      (hpc : s.pc = .listening) :
    (∀ key, s.slot = some key → (HAKeyStore.loadCurrent prims).run [] s.db =
      (.ok (some key), s.db)) ∧ ∀ set, s.cache = some set → ∃ keys, set = keys.map portKeyToJWK ∧
        ∀ planner, (HAKeyStore.listActive prims planner).run [] s.db = (.ok keys, s.db) := by
  have hcurrent : Current prims s :=
    Machine.invariant (I := Current prims) (fun _ _ _ h hm hs => h.step hm hs)
      hboot.current hmeets hrun
  have heq := hcurrent.heard hlink
  refine ⟨fun key hkey => ?_, fun set hset => ?_⟩
  · obtain ⟨r, hload, hread⟩ := HAKeyStore.run_loadRow prims "current" KeyTable.current s.db
    have hkey := hread.trans (hcurrent.slot heq key hkey)
    rw [HAKeyStore.loadCurrent, hload, eq_ok_of_toOption hkey]
  · obtain ⟨keys, hlist, rfl⟩ := hcurrent.cached heq (.inr (.inl hpc)) set hset
    refine ⟨keys, rfl, fun planner => ?_⟩
    obtain ⟨r, hrun, hread⟩ := HAKeyStore.run_listActive prims planner hcurrent.settled
    rw [hrun, eq_ok_of_toOption (hread.trans hlist)]

namespace Sample

open Signing.Sample

def oneKey : KeyTable :=
    (commitAll Planner.stable KeyTable.empty [saveTx 0 1000]).getD KeyTable.empty

def booted : Instance where
  db := ⟨oneKey, 0, 0⟩
  slot := none
  cache := none
  pc := .connecting
  link := none
  backoff := 1
  misses := 0
  fetched := []
  listed := []
  commits := 0
  invalidatedAt := 0

/-- The listener connects, the key is used, and another instance rotates it. -/
def heard : List Action :=
  [.connect, .miss, .fetch, .fill 0, .rotate Planner.stable (saveTx 1 2000).row, .notify,
    .list Planner.stable, .store, .notify, .list Planner.stable, .store]

/-- The connection breaks, the key is rotated, and the listener connects again. -/
def missed : List Action :=
  [.connect, .miss, .fetch, .fill 0, .read Planner.stable, .publish 0, .drop, .notice,
    .rotate Planner.stable (saveTx 1 2000).row, .elapse, .connect]

end Sample

/-- A rotation that the listener hears of. -/
theorem key_change_seen_heard :
    ∃ s, Machine.run (step Signing.Sample.primitives) Sample.booted Sample.heard = some s ∧
      s.cache.map (fun set => set.map JSONWebKey.keyID) = some ["k1", "k"] ∧
      ∀ set, s.cache = some set → ∃ keys, set = keys.map portKeyToJWK ∧
        ∀ planner, (HAKeyStore.listActive Signing.Sample.primitives planner).run [] s.db =
          (.ok keys, s.db) := by
  have hfill : ∀ {s : Instance} {key : SigningKey}, s.fetched[0]? = some (key, s.commits) →
      Meets s (.fill 0) := by
    intro s key hget e he
    obtain rfl := Option.some.inj (hget.symm.trans he)
    rfl
  exact ⟨_, rfl, by decide +kernel,
    (key_change_seen Signing.Sample.primitives Sample.booted _ Sample.heard
    ⟨Nat.le_of_ble_eq_true rfl, rfl, rfl, rfl, rfl, rfl, ⟨rfl, rfl, rfl⟩, rfl, rfl⟩
    (.cons rfl rfl <| .cons trivial rfl <| .cons trivial rfl <| .cons (hfill rfl) rfl <|
      .cons trivial rfl <| .cons trivial rfl <| .cons trivial rfl <| .cons trivial rfl <|
        .cons trivial rfl <|
      .cons trivial rfl <| .cons trivial rfl trivial) rfl rfl rfl).2⟩

/-- **A key change is missed.** The rotation commits while the listener waits to connect again, for
a second. It connects, there is nothing to handle, and the instance goes on to sign with the old key
and publish the old set. -/
theorem key_change_missed :
    ∃ s, Machine.run (step Signing.Sample.primitives) Sample.booted Sample.missed = some s ∧
      s.link = some 0 ∧ s.pc = .listening ∧ s.slot.map SigningKey.keyID = some "k" ∧
      s.cache.map (fun set => set.map JSONWebKey.keyID) = some ["k"] ∧
      s.db.table.current.map KeyRow.kid = some "k1" :=
  ⟨_, rfl, rfl, rfl, by decide +kernel, by decide +kernel, by decide +kernel⟩

end KeyListener

end Signing

end AuthServer
