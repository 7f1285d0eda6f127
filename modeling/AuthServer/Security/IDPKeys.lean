import AuthServer.Service.XAAIDP

/-!
# Keys of identity providers that have been deleted

`GetKeys`, `RefreshKeys`, `DeleteIDP` and `RegisterIDP` on one instance, interleaved step by step.
`GetKeys` looks a registration up, fetches its keys and stores them in three steps, and nothing ties
the third to the first: keys that are on their way while their registration is deleted are stored
after the deletion has removed what was there, under an issuer that may have been registered anew.

That is all that is wrong. If at the moment a deletion removes the keys no call is on its way with
keys of that registration, then no call that starts afterwards is given any; and every key set that
is returned is as fresh as the configuration says, in any case.
-/

namespace AuthServer

open Interleave IDPJWKSCache XAAIDPService

namespace IDPKeys

/-! ### The calls -/

/-- The calls on an instance. The clock goes on by itself. -/
inductive Call
  | getKeys (issuer : String)
  | refreshKeys (id : String)
  | deleteIDP (id : String)
  | registerIDP (req : RegisterIDPRequest)
  | tick (elapsed : ℕ)

/-- The configuration of an instance, and the world around it. -/
structure Instance where
  ttl : Time
  maxStale : Time
  env : Env
  net : Network

namespace Instance

variable (X : Instance)

def cfg : Config := .new X.ttl X.maxStale

/-- The program of a call, with the keys that its `GetKeys`, if it has one, returns. -/
def program (i : ReqID) : Call → Prog Registry Err (Option Served)
  | .getKeys issuer => do
    let r ← getKeys X.cfg X.env X.net i issuer
    pure (some r)
  | .refreshKeys id => do
    let r ← refreshKeys X.cfg X.env X.net i id
    pure (some r)
  | .deleteIDP id => do
    deleteIDP id
    pure none
  | .registerIDP req => do
    let _ ← registerIDP X.env X.net i req
    pure none
  | .tick elapsed => do
    Prog.step fun s => ((), { s with clock := s.clock + elapsed })
    pure none

def pool (role : ReqID → Option Call) (s : Registry) : Pool ReqID Registry Err fun _ =>
    Option Served where
  store := s
  procs i :=
    match role i with
    | some call => X.program i call
    | none => pure none

/-- A call that has come to a `GetKeys` and has not made its first step: a `GetKeys` of its own, or
the one of `RefreshKeys`. -/
def AtGetKeys (i : ReqID) (p : Prog Registry Err (Option Served)) : Prop :=
  ∃ issuer, p = (getKeys X.cfg X.env X.net i issuer >>= fun r => pure (some r)) ∨
    p = ((getKeys X.cfg X.env X.net i issuer).mapError
      (Err.wrap "refresh keys") >>= fun r => pure (some r))

end Instance

/-- A step that removes the keys of a deleted registration finds no call on its way with keys of it.
-/
def Unheld (s t : Registry) : Prop :=
  ∀ id ∈ t.dropped, id ∉ s.dropped → ∀ i idp, s.holding i = some idp → idp.id ≠ id

/-- A schedule all of whose steps are so. -/
def AllUnheld (c : Pool ReqID Registry Err fun _ => Option Served) : Schedule ReqID → Prop
  | [] => True
  | e :: rest => Unheld c.store (c.step e.1 e.2).store ∧ AllUnheld (c.step e.1 e.2) rest

/-- A registry that an instance starts on: nothing is cached, no call has begun, and the ids of its
registrations are distinct and not ones that will be drawn. -/
structure Start (env : Env) (s : Registry) : Prop where
  cache : ∀ issuer, s.cache issuer = none
  holding : ∀ i, s.holding i = none
  dropped : s.dropped = []
  ever : s.ever = s.idps
  unique : ∀ a ∈ s.idps, ∀ b ∈ s.idps, a.id = b.id → a = b
  undrawn : ∀ a ∈ s.idps, ∀ i, a.id ≠ env.random i 0

/-! ### The invariant -/

/-- Nothing is left of a registration. -/
structure Gone (id : String) (s : Registry) : Prop where
  known : ∃ a ∈ s.ever, a.id = id
  notRow : ∀ a ∈ s.idps, a.id ≠ id
  notCached : ∀ issuer e, s.cache issuer = some e → e.keys.idp.id ≠ id
  notHeld : ∀ i a, s.holding i = some a → a.id ≠ id

/-- Ids stand for registrations, what is cached under an issuer was fetched for a registration of it
and expires when it should, and of the registrations whose keys have been removed nothing is left.
-/
structure Sound (cfg : Config) (s : Registry) : Prop where
  unique : ∀ a ∈ s.ever, ∀ b ∈ s.ever, a.id = b.id → a = b
  rows : ∀ a ∈ s.idps, a ∈ s.ever
  cached : ∀ issuer e, s.cache issuer = some e →
    e.keys.idp ∈ s.ever ∧ e.keys.idp.issuer = issuer ∧ e.expiresAt = e.keys.fetchedAt + cfg.ttl
  held : ∀ i a, s.holding i = some a → a ∈ s.ever
  gone : ∀ id ∈ s.dropped, Gone id s

variable {cfg : Config} {s t : Registry} {i : ReqID}

theorem Start.sound {env : Env} (h : Start env s) : Sound cfg s where
  unique := by rw [h.ever]; exact h.unique
  rows := by rw [h.ever]; exact fun a ha => ha
  cached := fun issuer e he => by rw [h.cache] at he; cases he
  held := fun i a ha => by rw [h.holding] at ha; cases ha
  gone := by rw [h.dropped]; exact nofun

variable {issuer : String} {idp : TrustedIDP}

namespace Sound

theorem elsewhere (h : Sound cfg s) (clock : Time) (requests : ℕ) :
    Sound cfg { s with clock := clock, requests := requests } :=
  ⟨h.unique, h.rows, h.cached, h.held, fun id hid =>
    ⟨(h.gone id hid).known, (h.gone id hid).notRow, (h.gone id hid).notCached,
      (h.gone id hid).notHeld⟩⟩

variable {o : Option TrustedIDP}

theorem of_holding {P : TrustedIDP → Prop} (hs : ∀ j a, s.holding j = some a → P a)
    (ho : ∀ a ∈ o, P a) : ∀ j a, Function.update s.holding i o j = some a → P a := by
  intro j a ha
  by_cases hj : j = i
  · subst hj
    rw [Function.update_self] at ha
    exact ho a ha
  · rw [Function.update_of_ne hj] at ha
    exact hs j a ha

theorem of_cache {o : Option JWKSEntry} {P : String → JWKSEntry → Prop}
    (hs : ∀ issuer' e, s.cache issuer' = some e → P issuer' e) (ho : ∀ e ∈ o, P issuer e) :
    ∀ issuer' e, Function.update s.cache issuer o issuer' = some e → P issuer' e := by
  intro issuer' e he
  by_cases hi : issuer' = issuer
  · subst hi
    rw [Function.update_self] at he
    exact ho e he
  · rw [Function.update_of_ne hi] at he
    exact hs issuer' e he

/-- A call looks a row up, or is done with what it looked up. -/
theorem hold (h : Sound cfg s) (ho : ∀ a ∈ o, a ∈ s.idps) :
    Sound cfg { s with holding := Function.update s.holding i o } :=
  ⟨h.unique, h.rows, h.cached, of_holding h.held fun a ha => h.rows a (ho a ha), fun id hid =>
    ⟨(h.gone id hid).known, (h.gone id hid).notRow, (h.gone id hid).notCached,
      of_holding (h.gone id hid).notHeld fun a ha => (h.gone id hid).notRow a (ho a ha)⟩⟩

theorem keep (h : Sound cfg s) (hidp : s.holding i = some idp)
    (keys : List JSONWebKey) (now : Time) :
    Sound cfg { s with
      cache := Function.update s.cache idp.issuer (some ⟨⟨keys, idp, now⟩, now + cfg.ttl⟩) } := by
  refine ⟨h.unique, h.rows, ?_, h.held, fun id hid => ?_⟩
  · refine of_cache h.cached fun e he => ?_
    obtain rfl := Option.some.inj he
    exact ⟨h.held i idp hidp, rfl, rfl⟩
  · have hgone := h.gone id hid
    refine ⟨hgone.known, hgone.notRow, ?_, hgone.notHeld⟩
    refine of_cache (P := fun _ e => e.keys.idp.id ≠ id) hgone.notCached fun e he => ?_
    obtain rfl := Option.some.inj he
    exact hgone.notHeld i idp hidp

theorem invalidate (h : Sound cfg s) (issuer : String) :
    Sound cfg { s with cache := Function.update s.cache issuer none } :=
  ⟨h.unique, h.rows, of_cache h.cached nofun, h.held, fun id hid =>
    ⟨(h.gone id hid).known, (h.gone id hid).notRow,
      of_cache (P := fun _ e => e.keys.idp.id ≠ id) (h.gone id hid).notCached nofun,
        (h.gone id hid).notHeld⟩⟩

theorem remove (h : Sound cfg s) (id : String) : Sound cfg { s with
    idps := s.idps.filter (·.id != id) } :=
  ⟨h.unique, fun a ha => h.rows a (List.mem_of_mem_filter ha), h.cached, h.held, fun id' hid =>
    ⟨(h.gone id' hid).known, fun a ha => (h.gone id' hid).notRow a (List.mem_of_mem_filter ha),
      (h.gone id' hid).notCached, (h.gone id' hid).notHeld⟩⟩

/-- The keys of a registration that has been deleted are removed, and no call holds it. -/
theorem drop (h : Sound cfg s) (hidp : idp ∈ s.ever) (hrow : ∀ a ∈ s.idps, a.id ≠ idp.id)
    (hheld : ∀ i a, s.holding i = some a → a.id ≠ idp.id) :
    Sound cfg { s with
      cache := Function.update s.cache idp.issuer none, dropped := idp.id :: s.dropped } := by
  have hinv := h.invalidate idp.issuer
  refine ⟨hinv.unique, hinv.rows, hinv.cached, hinv.held, fun id hid => ?_⟩
  rcases List.mem_cons.mp hid with rfl | hid
  · refine ⟨⟨idp, hidp, rfl⟩, hrow, ?_, hheld⟩
    intro issuer e he hid
    -- An entry for that registration is under its issuer, and that one is gone.
    obtain ⟨hever, hissuer, -⟩ := hinv.cached issuer e he
    obtain rfl : e.keys.idp = idp := h.unique _ hever _ hidp hid
    subst hissuer
    simp at he
  · exact ⟨(hinv.gone id hid).known, (hinv.gone id hid).notRow, (hinv.gone id hid).notCached,
      (hinv.gone id hid).notHeld⟩

theorem register (h : Sound cfg s) (hnew : ∀ a ∈ s.ever, a.id ≠ idp.id) (p : TrustedIDP → Bool) :
    Sound cfg { s with idps := s.idps.filter p ++ [idp], ever := s.ever ++ [idp] } := by
  have hsub : ∀ a ∈ s.ever, a ∈ s.ever ++ [idp] := fun a ha => List.mem_append_left _ ha
  refine ⟨?_, ?_, fun issuer e he => ?_, fun i a ha => hsub a (h.held i a ha), fun id hid => ?_⟩
  · intro a ha b hb hab
    rcases List.mem_append.mp ha with ha | ha <;> rcases List.mem_append.mp hb with hb | hb
    · exact h.unique a ha b hb hab
    · rw [List.mem_singleton.mp hb] at hab
      exact absurd hab (hnew a ha)
    · rw [List.mem_singleton.mp ha] at hab
      exact absurd hab.symm (hnew b hb)
    · rw [List.mem_singleton.mp ha, List.mem_singleton.mp hb]
  · intro a ha
    rcases List.mem_append.mp ha with ha | ha
    · exact hsub a (h.rows a (List.mem_of_mem_filter ha))
    · exact List.mem_append_right _ ha
  · obtain ⟨hever, hrest⟩ := h.cached issuer e he
    exact ⟨hsub _ hever, hrest⟩
  · have hgone := h.gone id hid
    obtain ⟨old, hold, rfl⟩ := hgone.known
    refine ⟨⟨old, hsub old hold, rfl⟩, fun a ha => ?_, hgone.notCached, hgone.notHeld⟩
    rcases List.mem_append.mp ha with ha | ha
    · exact hgone.notRow a (List.mem_of_mem_filter ha)
    · obtain rfl := List.mem_singleton.mp ha
      exact (hnew old hold).symm

end Sound

/-! ### What the calls do to each other -/

/-- What any step does: history only grows, and a registration that has been deleted does not come
back. -/
structure Grows (s t : Registry) : Prop where
  dropped : s.dropped ⊆ t.dropped
  ever : s.ever ⊆ t.ever
  rows : ∀ a ∈ t.idps, a ∈ s.idps ∨ a ∉ s.ever

namespace Grows

theorem refl (s : Registry) : Grows s s :=
    ⟨List.Subset.refl _, List.Subset.refl _, fun _ ha => .inl ha⟩

theorem trans {u : Registry} (h : Grows s t) (h' : Grows t u) : Grows s u := by
  refine ⟨List.Subset.trans h.dropped h'.dropped, List.Subset.trans h.ever h'.ever, fun a ha => ?_⟩
  rcases h'.rows a ha with ha | ha
  · exact h.rows a ha
  · exact .inr fun hs => ha (h.ever hs)

end Grows

variable {c : Pool ReqID Registry Err fun _ => Option Served}

namespace Instance

variable (X : Instance)

/-- What the others do while a call is between two steps: they leave what it holds alone, and do not
draw its id. -/
structure Sees (i : ReqID) (s t : Registry) : Prop where
  grows : Grows s t
  own : t.holding i = s.holding i
  notMine : ∀ a ∈ t.ever, a ∈ s.ever ∨ a.id ≠ X.env.random i 0

/-- What a step of a call does. -/
structure Does (i : ReqID) (s t : Registry) : Prop where
  grows : Grows s t
  others : ∀ j, j ≠ i → t.holding j = s.holding j
  mine : ∀ a ∈ t.ever, a ∈ s.ever ∨ a.id = X.env.random i 0

def sharing : Contract ReqID Registry where
  inv := Sound X.cfg
  rely := X.Sees
  guar := X.Does
  admits := fun _ s t => Unheld s t
  faulty := True
  rely_refl := fun _ s => ⟨.refl s, rfl, fun _ ha => .inl ha⟩
  rely_trans := fun h h' => ⟨h.grows.trans h'.grows, h'.own.trans h.own, fun a ha =>
    (h'.notMine a ha).elim (h.notMine a) .inr⟩
  rely_of_guar := fun hij _ h => ⟨h.grows, h.others _ hij.symm, fun a ha => (h.mine a ha).imp_right
    fun hid hid' => hij (X.env.random_injective (hid.symm.trans hid')).1⟩

variable {X} {D : List String}

/-- A step that registers nothing. -/
theorem Does.of_ever (hever : t.ever = s.ever) (hdropped : s.dropped ⊆ t.dropped)
    (hrows : t.idps ⊆ s.idps)
    (hothers : ∀ j, j ≠ i → t.holding j = s.holding j) : X.Does i s t :=
  ⟨⟨hdropped, hever ▸ List.Subset.refl _, fun _ ha => .inl (hrows ha)⟩, hothers, fun _ ha =>
    .inl (hever ▸ ha)⟩

/-- A step that changes only the cache, what the call holds, the clock and the number of requests.
-/
theorem Does.of_rows (hever : t.ever = s.ever) (hdropped : t.dropped = s.dropped)
    (hrows : t.idps = s.idps)
    (hothers : ∀ j, j ≠ i → t.holding j = s.holding j) : X.Does i s t :=
  .of_ever hever (hdropped ▸ List.Subset.refl _) (hrows ▸ List.Subset.refl _) hothers

theorem does_refl (s : Registry) : X.Does i s s := .of_rows rfl rfl rfl fun _ _ => rfl

/-- What is known of the keys that a call returns, when the registrations of `D` were gone before it
began. -/
def Fine (D : List String) (r : Served) : Prop :=
  r.now - r.keys.fetchedAt ≤ X.cfg.ttl + X.cfg.maxStale ∧ r.keys.idp.id ∉ D

/-- The registrations of `D` are gone. -/
structure Since (X : Instance) (D : List String) (s : Registry) : Prop where
  sound : Sound X.cfg s
  gone : D ⊆ s.dropped

theorem Since.step (h : X.Since D s) (hrely : X.Sees i s t) (ht : Sound X.cfg t) : X.Since D t :=
  ⟨ht, List.Subset.trans h.gone hrely.grows.dropped⟩

/-- The row that `GetByIssuer` finds is held, and of a registration that is not gone. -/
theorem safe_resolve (h : X.Since D s) :
    Ensures X.sharing i (fun idp t => X.Since D t ∧ t.holding i = some idp ∧
      idp.issuer = issuer ∧ idp.id ∉ D)
      (resolve X.env i issuer) s := by
  unfold resolve
  refine .mapError (Ensures.exec ?_ ?_)
  · intro _
    cases hfind : s.idps.find? (·.issuer == issuer) with
    | none => exact ⟨h.sound, does_refl s⟩
    | some idp =>
      have hrow := List.mem_of_find?_eq_some hfind
      refine ⟨h.sound.hold fun a ha => ?_, .of_rows rfl rfl rfl fun j hj =>
        Function.update_of_ne hj _ _⟩
      obtain rfl := Option.some.inj ha
      exact hrow
  · intro idp hok _ t hrely ht
    cases hfind : s.idps.find? (·.issuer == issuer) with
    | none =>
      simp only [hfind] at hok
      cases hok
    | some found =>
      simp only [hfind] at hok hrely
      obtain rfl := Except.ok.inj hok
      have hissuer : found.issuer = issuer := by simpa using List.find?_some hfind
      refine ⟨⟨ht, List.Subset.trans h.gone hrely.grows.dropped⟩, ?_, hissuer, fun hmem => ?_⟩
      · exact hrely.own.trans (Function.update_self ..)
      · exact (h.sound.gone _ (h.gone hmem)).notRow found (List.mem_of_find?_eq_some hfind) rfl

variable {now : Time}

/-- A fetch that succeeds leaves the registration held. -/
theorem safe_fetchJWKS (h : X.Since D s) (hheld : s.holding i = some idp) :
    Ensures X.sharing i (fun r t => X.Since D t ∧ ∀ keys, r = .ok keys →
        keys.idp = idp ∧ keys.fetchedAt = now ∧ t.holding i = some idp)
      (fetchJWKS X.net i idp now) s := by
  unfold fetchJWKS
  refine safe_step fun _ => ?_
  cases hjwks : X.net.jwks idp.jwksURI s.requests with
  | ok keys =>
    refine ⟨h.sound.elsewhere _ _, .of_rows rfl rfl rfl fun _ _ => rfl, fun t hrely ht => ?_⟩
    refine ⟨⟨ht, List.Subset.trans h.gone hrely.grows.dropped⟩, fun keys' hk => ?_⟩
    obtain rfl := Except.ok.inj hk
    exact ⟨rfl, rfl, hrely.own.trans hheld⟩
  | error e =>
    refine ⟨(h.sound.elsewhere s.clock (s.requests + 1)).hold nofun,
      .of_rows rfl rfl rfl fun j hj => Function.update_of_ne hj _ _, fun t hrely ht => ?_⟩
    exact ⟨⟨ht, List.Subset.trans h.gone hrely.grows.dropped⟩, nofun⟩

theorem safe_storeEntry {keys : FetchedKeys} {Q : Unit → Registry → Prop} (h : X.Since D s)
    (hheld : s.holding i = some keys.idp) (hQ : ∀ t, Q () t) :
    Ensures X.sharing i Q (storeEntry i keys.idp.issuer ⟨keys, keys.fetchedAt + X.cfg.ttl⟩) s := by
  unfold storeEntry
  refine safe_step fun _ => ⟨?_, ?_, fun t _ _ => hQ t⟩
  · exact (h.sound.keep hheld keys.keys keys.fetchedAt).hold nofun
  · exact .of_rows rfl rfl rfl fun j hj => Function.update_of_ne hj _ _

theorem age_le {now fetchedAt expiresAt ttl maxStale : Int} (hexpires : expiresAt = fetchedAt + ttl)
    (h : now < expiresAt + maxStale) : now - fetchedAt ≤ ttl + maxStale := by
  omega

/-- An entry that `GetKeys` may serve. -/
def Usable (D : List String) (e : JWKSEntry) : Prop :=
  e.expiresAt = e.keys.fetchedAt + X.cfg.ttl ∧ e.keys.idp.id ∉ D

section

variable (httl : 0 ≤ X.cfg.ttl) (hstale : 0 ≤ X.cfg.maxStale)

include httl hstale

theorem safe_fetchKeys {entry : Option JWKSEntry} (h : X.Since D s)
    (hentry : ∀ e ∈ entry, X.Usable D e) :
    Ensures X.sharing i (fun r _ => X.Fine D r)
      (fetchKeys X.cfg X.env X.net i issuer entry now) s := by
  unfold fetchKeys
  refine .bind ((safe_resolve h).mono ?_)
  rintro idp t₁ ⟨h₁, hheld₁, rfl, hD⟩
  refine .bind ((safe_fetchJWKS h₁ hheld₁).mono ?_)
  rintro r t₂ ⟨h₂, hr⟩
  cases r with
  | ok keys =>
    obtain ⟨rfl, rfl, hheld₂⟩ := hr keys rfl
    refine .bind (safe_storeEntry h₂ hheld₂ fun _ => ⟨?_, hD⟩)
    rw [Int.sub_self]
    exact Int.add_nonneg httl hstale
  | error e =>
    cases entry with
    | none => exact trivial
    | some old =>
      obtain ⟨hexpires, hgone⟩ := hentry old rfl
      dsimp only
      split
      · rename_i hnow
        exact ⟨age_le hexpires hnow, hgone⟩
      · exact trivial

theorem safe_getKeys (h : X.Since D s) :
    Ensures X.sharing i (fun r _ => X.Fine D r) (getKeys X.cfg X.env X.net i issuer) s := by
  unfold getKeys
  refine .bind (safe_step fun _ => ⟨h.sound, does_refl s, fun t₁ hrely₁ hinv₁ => ?_⟩)
  have hentry : ∀ e ∈ s.cache issuer, X.Usable D e := fun e he =>
    ⟨(h.sound.cached issuer e he).2.2, fun hmem =>
      (h.sound.gone _ (h.gone hmem)).notCached issuer e he rfl⟩
  have h₁ : X.Since D t₁ := h.step hrely₁ hinv₁
  refine .bind (safe_step fun _ => ⟨hinv₁, does_refl t₁, fun t₂ hrely₂ hinv₂ => ?_⟩)
  have h₂ : X.Since D t₂ := h₁.step hrely₂ hinv₂
  dsimp only
  cases hcache : s.cache issuer with
  | none => exact safe_fetchKeys httl hstale h₂ nofun
  | some e =>
    rw [hcache] at hentry
    dsimp only
    split
    · rename_i hnow
      obtain ⟨hexpires, hgone⟩ := hentry e rfl
      exact ⟨age_le hexpires (Int.lt_of_lt_of_le hnow (Int.le_add_of_nonneg_right hstale)), hgone⟩
    · exact safe_fetchKeys httl hstale h₂ hentry

theorem safe_atGetKeys {p : Prog Registry Err (Option Served)} (hp : X.AtGetKeys i p)
    (h : X.Since D s) :
    Ensures X.sharing i (fun r _ => ∀ served ∈ r, X.Fine D served) p s := by
  obtain ⟨issuer, rfl | rfl⟩ := hp
  · refine .seq (safe_getKeys httl hstale h) fun r t hr served hserved => ?_
    obtain rfl := Option.some.inj hserved
    exact hr
  · refine .bind (Safe.mapError ((safe_getKeys httl hstale h).mono fun r t hr served hserved => ?_))
    obtain rfl := Option.some.inj hserved
    exact hr

end

variable {id : String}

theorem safe_getByID (h : Sound X.cfg s) :
    Ensures X.sharing i (fun idp t => Sound X.cfg t ∧ idp ∈ t.ever ∧ idp.id = id)
      (getByID id) s := by
  unfold getByID
  refine .query h (fun _ => does_refl s) fun idp hok t hrely ht => ?_
  obtain ⟨hmem, hid⟩ := Table.mem_of_lookup hok
  exact ⟨ht, hrely.grows.ever (h.rows _ hmem), by simpa using hid⟩

/-- A deletion that has returned has removed the keys. -/
theorem safe_deleteIDP (h : Sound X.cfg s) : Ensures X.sharing i (fun _ t => id ∈ t.dropped)
    (deleteIDP id) s := by
  unfold deleteIDP
  refine .bind ((safe_getByID h).mono ?_)
  rintro idp t₁ ⟨h₁, hever, rfl⟩
  refine .bind (Ensures.exec (fun _ => ?_) fun _ hok _ t₂ hrely h₂ => ?_)
  · split
    · exact ⟨h₁.remove idp.id, .of_ever rfl (List.Subset.refl _)
        (List.filter_subset_self _) fun _ _ => rfl⟩
    · exact ⟨h₁, does_refl t₁⟩
  · split at hok
    · rename_i hany
      simp only [hany, if_true] at hrely
      have hever₂ : idp ∈ t₂.ever := hrely.grows.ever hever
      have hrow : ∀ a ∈ t₂.idps, a.id ≠ idp.id := by
        intro a ha hid
        rcases hrely.grows.rows a ha with hold | hnew
        · simpa [hid] using List.of_mem_filter hold
        · -- A row of that id would be that registration, which there was before.
          obtain rfl := h₂.unique a (h₂.rows a ha) idp hever₂ hid
          exact hnew hever
      refine safe_step fun hunheld => ⟨?_, ?_, fun t₃ hrely₃ _ =>
        hrely₃.grows.dropped List.mem_cons_self⟩
      · refine h₂.drop hever₂ hrow fun j a ha => ?_
        by_cases hdropped : idp.id ∈ t₂.dropped
        · exact (h₂.gone _ hdropped).notHeld j a ha
        · exact hunheld idp.id List.mem_cons_self hdropped j a ha
      · exact .of_ever rfl (List.subset_cons_self _ _) (List.Subset.refl _) fun _ _ => rfl
    · cases hok

/-- The id of a registration that has yet to be made is not in use. -/
def Undrawn (i : ReqID) (s : Registry) : Prop :=
  ∀ a ∈ s.ever, a.id ≠ X.env.random i 0

theorem safe_saveIDP (h : Sound X.cfg s) (hundrawn : X.Undrawn i s)
    (hid : idp.id = X.env.random i 0) : Ensures X.sharing i (fun _ _ => True)
      (saveIDP X.env idp) s := by
  unfold saveIDP
  refine .exec (fun _ => ?_) fun _ _ _ _ _ _ => trivial
  dsimp only
  split
  · exact ⟨h, does_refl s⟩
  · have hnew : ∀ a ∈ s.ever, a.id ≠ idp.id := fun a ha => hid ▸ hundrawn a ha
    refine ⟨h.register hnew _, ⟨List.Subset.refl _, List.subset_append_left _ _, ?_⟩,
      fun _ _ => rfl, ?_⟩
    · intro a ha
      rcases List.mem_append.mp ha with ha | ha
      · exact .inl (List.mem_of_mem_filter ha)
      · obtain rfl := List.mem_singleton.mp ha
        exact .inr fun hever => hnew _ hever rfl
    · intro a ha
      rcases List.mem_append.mp ha with ha | ha
      · exact .inl ha
      · obtain rfl := List.mem_singleton.mp ha
        exact .inr hid

variable {req : RegisterIDPRequest}

theorem safe_discoverJWKSUri (h : Sound X.cfg s) (hundrawn : X.Undrawn i s) :
    Ensures X.sharing i (fun _ t => Sound X.cfg t ∧ X.Undrawn i t)
      (discoverJWKSUri X.env X.net req) s := by
  unfold discoverJWKSUri
  split
  · refine .bind (safe_step fun _ => ⟨h.elsewhere _ _, .of_rows rfl rfl rfl fun _ _ => rfl, ?_⟩)
    intro t hrely ht
    exact Ensures.ofExcept fun _ _ => ⟨ht, fun a ha => (hrely.notMine a ha).elim (hundrawn a) id⟩
  · exact ⟨h, hundrawn⟩

theorem safe_registerIDP (h : Sound X.cfg s) (hundrawn : X.Undrawn i s) :
    Ensures X.sharing i (fun _ _ => True) (registerIDP X.env X.net i req) s := by
  unfold registerIDP
  refine .bind ((safe_discoverJWKSUri h hundrawn).mono ?_)
  rintro uri t ⟨ht, hundrawn⟩
  refine Ensures.bindOfExcept fun _ _ => ?_
  exact .seq (safe_saveIDP ht hundrawn rfl) fun _ _ _ => trivial

theorem safe_refreshKeys (httl : 0 ≤ X.cfg.ttl) (hstale : 0 ≤ X.cfg.maxStale) (h : Sound X.cfg s) :
    Ensures X.sharing i (fun r _ => X.Fine [] r) (refreshKeys X.cfg X.env X.net i id) s := by
  unfold refreshKeys invalidateCache
  refine .bind ((safe_getByID h).mono ?_)
  rintro idp t₁ ⟨h₁, -, -⟩
  refine .bind (safe_step fun _ =>
    ⟨h₁.invalidate _, .of_rows rfl rfl rfl fun _ _ => rfl, fun t₂ _ h₂ => ?_⟩)
  exact .mapError (safe_getKeys httl hstale ⟨h₂, List.nil_subset _⟩)

/-! ### All calls together -/

theorem ttl_nonneg (h : 0 ≤ X.ttl) : 0 ≤ X.cfg.ttl := by
  simp only [cfg, Config.new]
  split
  · decide
  · exact h

theorem maxStale_nonneg (h : 0 ≤ X.maxStale) : 0 ≤ X.cfg.maxStale := by
  simp only [cfg, Config.new]
  split
  · decide
  · exact h

variable {role : ReqID → Option Call}

/-- What is known of a call that has returned. -/
def Post (role : ReqID → Option Call) (i : ReqID) (r : Option Served) (s : Registry) : Prop :=
  (∀ served ∈ r, X.Fine [] served) ∧ ∀ id, role i = some (.deleteIDP id) → id ∈ s.dropped

theorem safe_procs (httl : 0 ≤ X.cfg.ttl) (hstale : 0 ≤ X.cfg.maxStale) (h : Sound X.cfg t)
    (hundrawn : X.Undrawn i t) :
    Ensures X.sharing i (X.Post role i) ((X.pool role s).procs i) t := by
  simp only [pool]
  cases hrole : role i with
  | none => exact ⟨nofun, fun id hid => by rw [hrole] at hid; cases hid⟩
  | some call =>
    -- Only a deletion has to say that the keys are gone.
    have hother : (∀ id, call ≠ .deleteIDP id) → ∀ {r : Option Served} {u : Registry},
        (∀ served ∈ r, X.Fine [] served) → X.Post role i r u := fun hcall r u hr =>
      ⟨hr, fun id hid => absurd (Option.some.inj (hrole.symm.trans hid)) (hcall id)⟩
    cases call with
    | getKeys issuer =>
      exact (safe_atGetKeys httl hstale ⟨issuer, .inl rfl⟩ ⟨h, List.nil_subset _⟩).mono
        fun r u hr => hother nofun hr
    | refreshKeys id =>
      refine .seq (safe_refreshKeys httl hstale h) fun r u hr =>
        hother nofun fun served hserved => ?_
      obtain rfl := Option.some.inj hserved
      exact hr
    | deleteIDP id =>
      refine .seq (safe_deleteIDP h) fun _ u hid => ⟨nofun, fun id' hid' => ?_⟩
      rw [hrole] at hid'
      cases hid'
      exact hid
    | registerIDP req => exact .seq (safe_registerIDP h hundrawn) fun _ _ _ => hother nofun nofun
    | tick elapsed =>
      refine .bind (safe_step fun _ => ⟨h.elsewhere _ _, .of_rows rfl rfl rfl fun _ _ => rfl, ?_⟩)
      exact fun _ _ _ => hother nofun nofun

theorem ready_pool (httl : 0 ≤ X.cfg.ttl) (hstale : 0 ≤ X.cfg.maxStale) (hs : Start X.env s) :
    (X.pool role s).Ready X.sharing (X.Post role) fun _ _ _ => True := by
  refine ⟨hs.sound, fun i t hrely ht => safe_procs httl hstale ht fun a ha => ?_⟩
  refine (hrely.notMine a ha).elim (fun hever => ?_) id
  change a ∈ s.ever at hever
  rw [hs.ever] at hever
  exact hs.undrawn a hever i

theorem admitted_of_allUnheld {sched : Schedule ReqID} (h : AllUnheld c sched) :
    c.Admitted X.sharing sched := by
  induction sched generalizing c with
  | nil => trivial
  | cons e rest ih => exact ⟨h.1, fun _ => trivial, ih h.2⟩

end Instance

theorem AllUnheld.append {pre post : Schedule ReqID} (h : AllUnheld c (pre ++ post)) :
    AllUnheld c pre ∧ AllUnheld (c.exec pre) post := by
  induction pre generalizing c with
  | nil => exact ⟨trivial, h⟩
  | cons e rest ih => exact ⟨⟨h.1, (ih h.2).1⟩, (ih h.2).2⟩

/-- **Keys are fresh and of a registration there is**, in every schedule in which a deletion that
removes keys finds no call on its way with keys of that registration: the keys that a `GetKeys`
returns were fetched by a call whose clock reading is at most the two durations before its own, and
a `GetKeys` that begins when a deletion has returned does not return keys that were fetched for the
deleted registration. -/
theorem served_keys_current (X : Instance) (httl : 0 ≤ X.ttl) (hstale : 0 ≤ X.maxStale)
    (role : ReqID → Option Call) (s : Registry) (hs : Start X.env s) (sched : Schedule ReqID)
    (hunheld : AllUnheld (X.pool role s) sched) :
    (∀ i served, ((X.pool role s).exec sched).procs i = .ret (some served) →
      served.now - served.keys.fetchedAt ≤ X.cfg.ttl + X.cfg.maxStale) ∧
    ∀ before after, sched = before ++ after →
      ∀ d id, role d = some (.deleteIDP id) → ((X.pool role s).exec before).procs d = .ret none →
      ∀ i, X.AtGetKeys i (((X.pool role s).exec before).procs i) →
      ∀ served, ((X.pool role s).exec sched).procs i = .ret (some served) →
        served.keys.idp.id ≠ id := by
  have httl := Instance.ttl_nonneg httl
  have hstale := Instance.maxStale_nonneg hstale
  have hready : (X.pool role s).Ready X.sharing (X.Post role) fun _ _ _ => True :=
    Instance.ready_pool httl hstale hs
  refine ⟨fun i served hret => ?_, ?_⟩
  · have hpost := (hready.exec sched (Instance.admitted_of_allUnheld hunheld)).post hret
    exact (hpost.1 served rfl).1
  · rintro before after rfl d id hdelete hreturned i hstart served hret
    obtain ⟨hbefore, hafter⟩ := hunheld.append
    have hmid := hready.exec before (Instance.admitted_of_allUnheld hbefore)
    have hdropped := (hmid.post hreturned).2 id hdelete
    -- From here on, what is to be shown of the call `i` is that it avoids the registration.
    have hmid' : ((X.pool role s).exec before).Ready X.sharing
        (fun j r _ => j = i → ∀ served ∈ r, X.Fine [id] served) fun _ _ _ => True := by
      refine ⟨hmid.inv, fun j t hrely ht => ?_⟩
      by_cases hj : j = i
      · subst hj
        have hsince : X.Since [id] t := ⟨ht, by simpa using hrely.grows.dropped hdropped⟩
        exact (Instance.safe_atGetKeys httl hstale hstart hsince).mono fun r u hr _ => hr
      · exact (hmid.safe j t hrely ht).mono (fun _ _ _ hji => absurd hji hj) fun _ _ _ => trivial
    rw [Pool.exec_append] at hret
    have hpost := (hmid'.exec after (Instance.admitted_of_allUnheld hafter)).post hret
    simpa using (hpost rfl served rfl).2

/-! ### A provider that is registered anew -/

theorem Unheld.of_idle (h : ∀ i, s.holding i = none) : Unheld s t := fun _ _ _ i idp hidp => by
  rw [h i] at hidp
  cases hidp

theorem Unheld.of_dropped (h : t.dropped = s.dropped) : Unheld s t := fun _ hid hnot =>
  absurd (h ▸ hid) hnot

namespace Sample

/-- An instance with the defaults, whose providers answer with a key that is named after the
`jwks_uri`. -/
def deployment : Instance where
  ttl := 0
  maxStale := 0
  env := .plain
  net := ⟨fun uri _ => .ok [⟨"", uri⟩], fun _ _ => .error (.fault "unreachable")⟩

/-- The provider `https://idp`, with the keys of before. -/
def provider : TrustedIDP := ⟨"old", "IdP", "https://idp", "https://idp/old", "https://as", true⟩

def registry : Registry where
  idps := [provider]
  cache := fun _ => none
  clock := 0
  requests := 0
  ever := [provider]
  holding := fun _ => none
  dropped := []

/-- The provider is deleted by call `0` and registered anew, with other keys, by call `1`, and calls
`2` and `3` ask for its keys. -/
def role : ReqID → Option Call
  | 0 => some (.deleteIDP "old")
  | 1 => some (.registerIDP ⟨"IdP", "https://idp", "https://idp/new", ""⟩)
  | 2 => some (.getKeys "https://idp")
  | 3 => some (.getKeys "https://idp")
  | _ => none

/-- The provider after that. -/
def reregistered : TrustedIDP :=
    ⟨tally 1 0, "IdP", "https://idp", "https://idp/new", "https://as", true⟩

theorem start : Start deployment.env registry where
  cache := fun _ => rfl
  holding := fun _ => rfl
  dropped := rfl
  ever := rfl
  unique := by simp [registry]
  undrawn := by
    intro a ha i
    obtain rfl := List.mem_singleton.mp ha
    intro h
    have hlist := congrArg String.toList h
    simp [deployment, Env.plain, provider, tally] at hlist
    cases i <;> simp [List.replicate_succ] at hlist

/-- One call after another. -/
def inTurn : Schedule ReqID :=
  [(0, false), (0, false), (0, false), (1, false), (2, false), (2, false), (2, false),
    (2, false), (2, false)]

/-- Call `2` has fetched the keys of before when the provider is deleted, and stores them when it is
registered anew. -/
def overtaken : Schedule ReqID :=
  [(2, false), (2, false), (2, false), (2, false), (0, false), (0, false), (0, false),
    (1, false), (2, false)]

end Sample

theorem served_keys_current_in_turn :
    ((Sample.deployment.pool Sample.role Sample.registry).exec Sample.inTurn).procs 2 =
        .ret (some ⟨⟨[⟨"", "https://idp/new"⟩], Sample.reregistered, 0⟩, 0⟩) ∧
      Sample.reregistered.id ≠ "old" := by
  have hret : ((Sample.deployment.pool Sample.role Sample.registry).exec Sample.inTurn).procs 2 =
      .ret (some ⟨⟨[⟨"", "https://idp/new"⟩], Sample.reregistered, 0⟩, 0⟩) := rfl
  have hunheld : AllUnheld (Sample.deployment.pool Sample.role Sample.registry) Sample.inTurn :=
    ⟨.of_idle fun _ => rfl, .of_idle fun _ => rfl, .of_idle fun _ => rfl, .of_dropped rfl,
      .of_dropped rfl, .of_dropped rfl, .of_dropped rfl, .of_dropped rfl, .of_dropped rfl, trivial⟩
  have h := served_keys_current Sample.deployment (le_refl 0) (le_refl 0) Sample.role
    Sample.registry Sample.start
    Sample.inTurn hunheld
  exact ⟨hret, h.2 (Sample.inTurn.take 3) (Sample.inTurn.drop 3) rfl 0 "old" rfl rfl 2
    ⟨"https://idp", .inl rfl⟩
    _ hret⟩

/-- **Keys of a deleted registration are served**: call `3` begins after the deletion has returned
and the provider has been registered anew, and is given the keys of before. -/
theorem deleted_keys_served :
    Start Sample.deployment.env Sample.registry ∧
    ((Sample.deployment.pool Sample.role Sample.registry).exec
      Sample.overtaken).procs 0 = .ret none ∧
    ((Sample.deployment.pool Sample.role Sample.registry).exec
      Sample.overtaken).procs 1 = .ret none ∧
    Sample.deployment.AtGetKeys 3
      (((Sample.deployment.pool Sample.role Sample.registry).exec Sample.overtaken).procs 3) ∧
    ((Sample.deployment.pool Sample.role Sample.registry).exec
        (Sample.overtaken ++ [(3, false), (3, false)])).procs 3 =
      .ret (some ⟨⟨[⟨"", "https://idp/old"⟩], Sample.provider, 0⟩, 0⟩) ∧
    Sample.provider.id = "old" :=
  ⟨Sample.start, rfl, rfl, ⟨"https://idp", .inl rfl⟩, rfl, rfl⟩

end IDPKeys

end AuthServer
