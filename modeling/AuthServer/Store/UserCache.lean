import Mathlib.Data.List.MinMax
import AuthServer.Store.World

/-!
# The cache of users

The cache in front of the store of users (`internal/adapters/storage/user_cache.go`), over the
bounded cache with a lifetime (`internal/adapters/cache/bounded.go`). A read that finds nothing in
the cache asks the store and puts the answer in the cache, in two calls: what it puts there may be
older than an invalidation in between.

The store of users is any store. That the answer is not too old is a property of the calls that were
made, so the model keeps two records of them, which nothing reads: the inner reads with what they
returned, and what was put in the cache with its time. -/

namespace AuthServer

open Interleave

namespace UserCache

/-! ### The bounded cache -/

/-- `ttlEntry`, with its key. -/
structure Item (V : Type) where
  key : String
  val : V
  expiresAt : Time

/-- `memoryTTLBounded`. A map is walked in any order. -/
structure Bounded (V : Type) where
  ttl : Time
  maxSize : ℤ
  walk : List (Item V) → List (Item V)
  walk_perm : ∀ m, (walk m).Perm m

section

variable {V : Type} (c : Bounded V)

def invalidate (key : String) (m : List (Item V)) : List (Item V) := m.filter (·.key != key)

def load (now : Time) (key : String) (m : List (Item V)) : Option V × List (Item V) :=
  match m.find? (·.key == key) with
  | none => (none, m)
  | some e => if 0 < c.ttl ∧ e.expiresAt < now then (none, invalidate key m) else (some e.val, m)

/-- The loop keeps the first entry of the walk that no later one expires before. -/
def evictNearestExpiry (m : List (Item V)) : List (Item V) :=
  match (c.walk m).foldl (List.argAux fun e oldest => e.expiresAt < oldest.expiresAt) none with
  | none => m
  | some e => invalidate e.key m

def makeRoom (key : String) (m : List (Item V)) : List (Item V) :=
  if m.all (·.key != key) = true ∧ 0 < c.maxSize ∧ c.maxSize ≤ m.length then
    evictNearestExpiry c m else m

def store (now : Time) (key : String) (v : V) (m : List (Item V)) : List (Item V) :=
  invalidate key (makeRoom c key m) ++ [⟨key, v, now + c.ttl⟩]

end

/-! ### The store of users -/

/-- `output.UserStore`, as far as it is wrapped. A nil user is `none`. -/
structure Inner (σ U : Type) where
  idOf : U → String
  getByID : String → σ → Except Err (Option U)
  create : Option U → σ → Except Err Unit × σ
  update : Option U → σ → Except Err Unit × σ
  delete : String → σ → Except Err Unit × σ

structure Entry (U : Type) where
  snapshot : Option U
  notFound : Bool

structure State (σ U : Type) where
  users : σ
  cache : List (Item (Entry U))
  clock : Time
  /-- The inner reads: the call, the id, and what was read. -/
  reads : List (ReqID × String × Except Err (Option U))
  /-- What was put in the cache, under which key and when. -/
  stored : List (String × Entry U × Time)

/-- What `GetByID` says of a user, if it is no other error: the row, or that there is none; and
when. -/
structure Answer (U : Type) where
  row : Option U
  time : Time

section

variable {σ U : Type} (inner : Inner σ U) (c : Bounded (Entry U)) (i : ReqID)

/-- What is cached of an inner read: neither a nil user nor a transient error. -/
def cacheable : Except Err (Option U) → Option (Entry U)
  | .ok (some u) => some ⟨some u, false⟩
  | .ok none => none
  | .error e => if e.is .userNotFound then some ⟨none, true⟩ else none

def answerOf (e : Entry U) (now : Time) : Except Err (Answer U) :=
  if e.notFound then .ok ⟨none, now⟩
  else
    match e.snapshot with
    | none => .error (.sentinel .storeReturnedNoUser)
    | some u => .ok ⟨some u, now⟩

variable (id : String)

def loadStep (s : State σ U) : (Option (Entry U) × Time) × State σ U :=
  (((load c s.clock id s.cache).1, s.clock), { s with cache := (load c s.clock id s.cache).2 })

def readStep (s : State σ U) : Except Err (Except Err (Option U) × Time) × State σ U :=
  (.ok (inner.getByID id s.users, s.clock), { s with
    reads := (i, id, inner.getByID id s.users) :: s.reads })

def storeStep (e : Entry U) (s : State σ U) : Unit × State σ U :=
  ((), { s with cache := store c s.clock id e s.cache, stored := (id, e, s.clock) :: s.stored })

def invalidateStep (s : State σ U) : Unit × State σ U :=
  ((), { s with cache := invalidate id s.cache })

/-- What is left of `GetByID` when the store has answered. -/
def keepAnswer (r : Except Err (Option U) × Time) : Prog (State σ U) Err (Answer U) :=
  match cacheable r.1 with
  | some e => do
    Prog.step (storeStep c id e)
    Prog.ofExcept (answerOf e r.2)
  | none => Prog.ofExcept (r.1.bind fun _ => .error (.sentinel .storeReturnedNoUser))

def getByID : Prog (State σ U) Err (Answer U) := do
  let hit ← Prog.step (loadStep c id)
  match hit.1 with
  | some e => Prog.ofExcept (answerOf e hit.2)
  | none => Prog.exec storeFault (readStep inner i id) >>= keepAnswer c id

def write (f : σ → Except Err Unit × σ) : Prog (State σ U) Err Unit :=
  Prog.exec storeFault fun s => ((f s.users).1, { s with users := (f s.users).2 })

def update (u : Option U) : Prog (State σ U) Err Unit := do
  let r ← (write (inner.update u)).attempt
  match u with
  | none => Prog.ofExcept r
  | some u => do
    Prog.step (invalidateStep (inner.idOf u))
    Prog.ofExcept r

def delete : Prog (State σ U) Err Unit := do
  let r ← (write (inner.delete id)).attempt
  Prog.step (invalidateStep id)
  Prog.ofExcept r

inductive Call (U : Type)
  | getByID (id : String)
  | create (u : Option U)
  | update (u : Option U)
  | delete (id : String)
  /-- Time passes. -/
  | tick (elapsed : ℕ)

def program : Call U → Prog (State σ U) Err (Option (Answer U))
  | .getByID id => getByID inner c i id >>= fun a => pure (some a)
  | .create u => write (inner.create u) >>= fun _ => pure none
  | .update u => update inner u >>= fun _ => pure none
  | .delete id => delete inner id >>= fun _ => pure none
  | .tick elapsed => Prog.step fun s => (none, { s with clock := s.clock + elapsed })

def pool (calls : ReqID → Call U) (s : State σ U) : Pool ReqID (State σ U) Err fun _ =>
    Option (Answer U) :=
  ⟨s, fun i => program inner c i (calls i)⟩

end

/-! ### What the cache does -/

section

variable {V : Type} {c : Bounded V} {now : Time} {key : String} {v : V} {m : List (Item V)}

theorem load_sublist : (load c now key m).2.Sublist m := by
  unfold load
  split
  · exact List.Sublist.refl m
  · split
    · exact List.filter_sublist
    · exact List.Sublist.refl m

theorem mem_of_load (httl : 0 < c.ttl) (h : (load c now key m).1 = some v) :
    ∃ x ∈ m, x.key = key ∧ x.val = v ∧ now ≤ x.expiresAt := by
  unfold load at h
  split at h
  · cases h
  · rename_i x hx
    split at h
    · cases h
    · rename_i hlive
      refine ⟨x, List.mem_of_find?_eq_some hx, by simpa using List.find?_some hx,
        Option.some.inj h, ?_⟩
      exact not_lt.mp fun hlt => hlive ⟨httl, hlt⟩

theorem length_invalidate_lt {x : Item V} (hx : x ∈ m) : (invalidate x.key m).length < m.length :=
  List.length_filter_lt_length_iff_exists.mpr ⟨x, hx, by simp⟩

theorem makeRoom_sublist : (makeRoom c key m).Sublist m := by
  unfold makeRoom evictNearestExpiry
  split
  · split
    · exact List.Sublist.refl m
    · exact List.filter_sublist
  · exact List.Sublist.refl m

theorem mem_of_mem_store {x : Item V} (hx : x ∈ store c now key v m) : x ∈ m ∨
    x = ⟨key, v, now + c.ttl⟩ := by
  rcases List.mem_append.mp hx with hx | hx
  · exact .inl (makeRoom_sublist.subset (List.mem_of_mem_filter hx))
  · exact .inr (List.mem_singleton.mp hx)

/-- **The bound on the size** is kept: a key that was there is replaced, and room is made for one
that was not. -/
theorem length_store (hmax : 0 < c.maxSize) (hm : (m.length : ℤ) ≤ c.maxSize) :
    ((store c now key v m).length : ℤ) ≤ c.maxSize := by
  have hfilter : (invalidate key (makeRoom c key m)).length ≤ (makeRoom c key m).length :=
    List.length_filter_le ..
  have hroom : (makeRoom c key m).length ≤ m.length := makeRoom_sublist.length_le
  rw [store, List.length_append, List.length_singleton]
  by_cases hnew : m.all (·.key != key) = true
  · by_cases hfull : c.maxSize ≤ m.length
    · have hsome : (c.walk m).argmin Item.expiresAt ≠ none := by
        rw [ne_eq, List.argmin_eq_none, ← List.length_eq_zero_iff, (c.walk_perm m).length_eq]
        omega
      obtain ⟨e, he⟩ := Option.ne_none_iff_exists'.mp hsome
      have hevict : makeRoom c key m = invalidate e.key m := by
        rw [makeRoom, if_pos ⟨hnew, hmax, hfull⟩, evictNearestExpiry]
        rw [List.argmin] at he
        rw [he]
      have hlt := length_invalidate_lt ((c.walk_perm m).mem_iff.mp (List.argmin_mem he))
      rw [hevict] at hfilter ⊢
      omega
    · omega
  · have hsame : makeRoom c key m = m := if_neg fun h => hnew h.1
    obtain ⟨x, hx, rfl⟩ : ∃ x ∈ m, x.key = key := by simpa using hnew
    have hlt := length_invalidate_lt hx
    rw [hsame]
    omega

end

/-! ### Interleavings -/

section

variable {σ U : Type} {inner : Inner σ U} {c : Bounded (Entry U)} {i : ReqID}
    {s t : State σ U} {id : String}

/-- There was an inner read of the user with this result. -/
def WasRead (s : State σ U) (id : String) (e : Entry U) : Prop :=
  ∃ k r, (k, id, r) ∈ s.reads ∧ cacheable r = some e

/-- What holds of the cache between any two calls. -/
structure Inv (c : Bounded (Entry U)) (s : State σ U) : Prop where
  cached : ∀ x ∈ s.cache, ∃ time, (x.key, x.val, time) ∈ s.stored ∧ x.expiresAt = time + c.ttl
  stored : ∀ r ∈ s.stored, r.2.2 ≤ s.clock ∧ WasRead s r.1 r.2.1
  bound : 0 < c.maxSize → (s.cache.length : ℤ) ≤ c.maxSize

/-- The records grow. -/
structure Later (s t : State σ U) : Prop where
  reads : s.reads ⊆ t.reads
  stored : s.stored ⊆ t.stored

theorem Later.of_eq (hreads : t.reads = s.reads) (hstored : t.stored = s.stored) : Later s t :=
  ⟨hreads ▸ List.Subset.refl _, hstored ▸ List.Subset.refl _⟩

theorem WasRead.later {e : Entry U} (h : WasRead s id e) (hst : s.reads ⊆ t.reads) :
    WasRead t id e := by
  obtain ⟨k, r, hr, he⟩ := h
  exact ⟨k, r, hst hr, he⟩

def contract (c : Bounded (Entry U)) : Contract ReqID (State σ U) where
  inv := Inv c
  rely _ := Later
  guar _ := Later
  admits _ _ _ := True
  faulty := True
  rely_refl _ _ := .of_eq rfl rfl
  rely_trans h h' := ⟨List.Subset.trans h.reads h'.reads, List.Subset.trans h.stored h'.stored⟩
  rely_of_guar _ _ h := h

theorem Inv.shrink {m : List (Item (Entry U))} (h : Inv c s) (hm : m.Sublist s.cache) :
    Inv c { s with cache := m } where
  cached x hx := h.cached x (hm.subset hx)
  stored := h.stored
  bound hmax := (Int.ofNat_le.mpr hm.length_le).trans (h.bound hmax)

theorem Inv.storeStep {e : Entry U} (h : Inv c s) (he : WasRead s id e) :
    Inv c (storeStep c id e s).2 where
  cached x hx := by
    rcases mem_of_mem_store hx with hx | rfl
    · obtain ⟨time, hmem, hexpires⟩ := h.cached x hx
      exact ⟨time, List.mem_cons_of_mem _ hmem, hexpires⟩
    · exact ⟨s.clock, List.mem_cons_self, rfl⟩
  stored r hr := by
    rcases List.mem_cons.mp hr with rfl | hr
    · exact ⟨le_refl s.clock, he⟩
    · exact h.stored r hr
  bound hmax := length_store hmax (h.bound hmax)

theorem Inv.readStep (h : Inv c s) : Inv c (readStep inner i id s).2 where
  cached := h.cached
  stored r hr := ⟨(h.stored r hr).1, (h.stored r hr).2.later (List.subset_cons_self _ _)⟩
  bound := h.bound

/-- The answer comes from an entry that was read from the store and put in the cache no more than a
lifetime before, or the call has read it. -/
def Fresh (c : Bounded (Entry U)) (i : ReqID) (id : String) (a : Answer U) (s : State σ U) : Prop :=
  (∃ e time, (id, e, time) ∈ s.stored ∧ WasRead s id e ∧ answerOf e a.time = .ok a ∧ time ≤ a.time ∧
      a.time ≤ time + c.ttl) ∨
    ∃ r e, (i, id, r) ∈ s.reads ∧ cacheable r = some e ∧ answerOf e a.time = .ok a

theorem time_of_answerOf {e : Entry U} {now : Time} {a : Answer U} (h : answerOf e now = .ok a) :
    now = a.time := by
  unfold answerOf at h
  split at h
  · rw [← Except.ok.inj h]
  · split at h
    · cases h
    · rw [← Except.ok.inj h]

theorem ensures_keepAnswer {r : Except Err (Option U) × Time} (hs : Inv c s)
    (hr : (i, id, r.1) ∈ s.reads) :
    Ensures (contract c) i (Fresh c i id) (keepAnswer c id r) s := by
  unfold keepAnswer
  split
  · rename_i e he
    refine .bind (safe_step fun _ => ⟨hs.storeStep ⟨i, r.1, hr, he⟩, ?_, fun t hst _ => ?_⟩)
    · exact ⟨List.Subset.refl _, List.subset_cons_self _ _⟩
    · exact Ensures.ofExcept fun a ha => .inr ⟨r.1, e, hst.reads hr, he, time_of_answerOf ha ▸ ha⟩
  · refine .ofExcept fun a ha => ?_
    cases hres : r.1 <;> rw [hres] at ha <;> cases ha

theorem ensures_getByID (httl : 0 < c.ttl) (hs : Inv c s) :
    Ensures (contract c) i (Fresh c i id) (getByID inner c i id) s := by
  refine .bind (safe_step fun _ => ⟨hs.shrink load_sublist, .of_eq rfl rfl, fun t hst ht => ?_⟩)
  simp only [loadStep]
  cases hload : (load c s.clock id s.cache).1 with
  | some e =>
    obtain ⟨x, hx, rfl, rfl, hlive⟩ := mem_of_load httl hload
    obtain ⟨time, hstored, hexpires⟩ := hs.cached x hx
    obtain ⟨hpast, hread⟩ := hs.stored _ hstored
    refine Ensures.ofExcept fun a ha =>
      .inl ⟨x.val, time, hst.stored hstored, hread.later hst.reads, ?_⟩
    rw [← time_of_answerOf ha, ← hexpires]
    exact ⟨ha, hpast, hlive⟩
  | none =>
    refine .bind (Ensures.exec (fun _ =>
      ⟨ht.readStep, List.subset_cons_self _ _, List.Subset.refl _⟩) ?_)
    rintro r hr - u htu hu
    obtain rfl := Except.ok.inj hr
    exact ensures_keepAnswer hu (htu.reads List.mem_cons_self)

/-- The steps of the other calls. -/
def Keeps (c : Bounded (Entry U)) (s t : State σ U) : Prop := Inv c s → Inv c t ∧ Later s t

theorem each_write (f : σ → Except Err Unit × σ) : (write f).Each (Keeps (U := U) c) :=
  Prog.each_exec fun _ hs => ⟨⟨hs.cached, hs.stored, hs.bound⟩, .of_eq rfl rfl⟩

theorem each_invalidate :
    (Prog.step (invalidateStep id) : Prog (State σ U) Err Unit).Each (Keeps c) :=
  Prog.each_step fun _ hs => ⟨hs.shrink List.filter_sublist, .of_eq rfl rfl⟩

theorem each_program {call : Call U} (hcall : ∀ id, call ≠ .getByID id) :
    (program inner c i call).Each (Keeps c) := by
  cases call with
  | getByID id => exact absurd rfl (hcall id)
  | create u => exact (each_write _).bind fun _ => trivial
  | update u =>
    refine ((each_write _).attempt.bind fun r => ?_).bind fun _ => trivial
    cases u with
    | none => exact Prog.each_ofExcept r
    | some u => exact each_invalidate.bind fun _ => Prog.each_ofExcept r
  | delete id =>
    exact ((each_write _).attempt.bind fun r => each_invalidate.bind fun _ =>
      Prog.each_ofExcept r).bind fun _ => trivial
  | tick elapsed =>
    refine Prog.each_step fun s hs =>
      ⟨⟨hs.cached, fun r hr => ⟨?_, (hs.stored r hr).2⟩, hs.bound⟩, .of_eq rfl rfl⟩
    exact (hs.stored r hr).1.trans (Int.le_add_of_nonneg_right (Int.natCast_nonneg elapsed))

def Answers (c : Bounded (Entry U)) (calls : ReqID → Call U) (i : ReqID)
    (r : Option (Answer U)) (s : State σ U) :
    Prop :=
  ∀ id a, calls i = .getByID id → r = some a → Fresh c i id a s

theorem ready_pool (inner : Inner σ U) (httl : 0 < c.ttl) (calls : ReqID → Call U) (hs : Inv c s) :
    Pool.Ready (contract c) (Answers c calls) (fun _ _ _ => True) (pool inner c calls s) := by
  refine ⟨hs, fun i t _ ht => ?_⟩
  change Ensures (contract c) i (Answers c calls i) (program inner c i (calls i)) t
  by_cases hcall : ∃ id, calls i = .getByID id
  · obtain ⟨id, hid⟩ := hcall
    rw [hid]
    refine .seq (ensures_getByID httl ht) fun a u ha => ?_
    rintro id' a' hid' ⟨⟩
    obtain rfl := Call.getByID.inj (hid.symm.trans hid')
    exact ha
  · have hother : ∀ id, calls i ≠ .getByID id := fun id hid => hcall ⟨id, hid⟩
    exact (Safe.of_each_inv (each_program hother) (fun _ _ hu huv => huv hu) ht).mono
      (fun _ _ _ id _ hid => absurd hid (hother id)) fun _ _ _ => trivial

/-- **The cache is stale by at most its lifetime.** Any number of calls are made on any store of
users, from an empty cache, in any order of their single steps, with steps of the store failing and
time passing in between. Whatever a `GetByID` has answered is fresh, and the cache is no larger than
it may be. -/
theorem answers_fresh (inner : Inner σ U) (c : Bounded (Entry U)) (httl : 0 < c.ttl)
    (calls : ReqID → Call U)
    (users : σ) (now : Time) (sched : Schedule ReqID) :
    let p := (pool inner c calls ⟨users, [], now, [], []⟩).exec sched
    (∀ i id a, calls i = .getByID id → p.procs i = .ret (some a) → Fresh c i id a p.store) ∧
      (0 < c.maxSize → (p.store.cache.length : ℤ) ≤ c.maxSize) := by
  intro p
  have hstart : Inv c (⟨users, [], now, [], []⟩ : State σ U) := ⟨nofun, nofun, fun hmax => hmax.le⟩
  have hready := (ready_pool inner httl calls hstart).exec sched
    (Pool.admitted_of_all (fun _ _ _ => trivial) sched fun _ _ _ => trivial)
  exact ⟨fun i id a hcall hret => hready.post hret id a hcall rfl, hready.inv.bound⟩

end

namespace Sample

/-- A table of rows, with an identifier and a name. -/
def rows : Inner (List (String × String)) (String × String) where
  idOf := Prod.fst
  getByID := fun id t => (t.find? (·.1 == id)).elim (.error (.sentinel .userNotFound)) (.ok ∘ some)
  create := fun u t => (.ok (), t ++ u.toList)
  update := fun u t => (.ok (), u.toList ++ t)
  delete := fun id t => (.ok (), t.filter (·.1 != id))

def cache : Bounded (Entry (String × String)) := ⟨30, 1, id, fun _ => .refl _⟩

/-- Call `0` reads a user, call `1` renames the user, and call `2` reads again from the cache. -/
def calls : ReqID → Call (String × String)
  | 0 => .getByID "u"
  | 1 => .update (some ("u", "new"))
  | _ => .getByID "u"

end Sample

/-- The row is put in the cache after its invalidation, and answered from there. -/
theorem answers_fresh_outdated :
    Fresh Sample.cache 2 "u" ⟨some ("u", "old"), 0⟩ ((pool Sample.rows Sample.cache Sample.calls
      ⟨[("u", "old")], [], 0, [], []⟩).exec [(0, false), (0, false), (1, false), (1, false),
        (0, false), (2, false)]).store :=
  (answers_fresh Sample.rows Sample.cache (by decide) Sample.calls
    [("u", "old")] 0 _).1 2 "u" _ rfl rfl

end UserCache

end AuthServer
