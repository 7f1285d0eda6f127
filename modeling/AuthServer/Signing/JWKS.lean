import AuthServer.Signing.Key

/-!
# The JWKS service

`JWKSService` of `internal/services/jwks.go`, over any key store. The service keeps the key set it
last built in a memory cache: `Reload` fills it, `BuildJWKS` returns it while it is there, and a key
that is generated and saved is followed by a `Reload` whose failure is only logged.

`Keeps` says what the service relies on: a store that keeps the key it was last given as the current
one and the key before it as the previous one. It is stated through a `View`, what can be read of a
store, so that it also covers stores whose contents cannot be read. -/

namespace AuthServer

open Interleave

namespace Signing

/-- A process that serves keys: its key store, its cached key set, and how many random values it has
drawn. -/
structure Host (σ : Type) where
  store : σ
  cache : Option (List JSONWebKey)
  drawn : ℕ

def Host.start {σ : Type} (store : σ) (drawn : ℕ) : Host σ := ⟨store, none, drawn⟩

structure JWKSService (σ : Type) where
  prims : Primitives
  keyStore : KeyStore σ
  algorithm : String

/-- A method of the key store, called by the service. -/
def onStore {σ α : Type} (p : Prog σ Err α) : Prog (Host σ) Err α :=
  p.zoom Host.store fun s h => { h with store := s }

namespace JWKSService

variable {σ : Type} (svc : JWKSService σ) (ctx : CallID)

def reload : Prog (Host σ) Err Unit := do
  let active ← (onStore (svc.keyStore.listActive ctx)).mapError (Err.wrap "list active keys")
  Prog.step fun h => ((), { h with cache := some (active.map portKeyToJWK) })

/-- `JWKSService.generateAndSave`: the key is saved and then the cached set is rebuilt, if that
goes. -/
def generateAndSave : Prog (Host σ) Err SigningKey := do
  let n ← Prog.step fun h => (h.drawn, { h with drawn := h.drawn + 1 })
  let sk ← Prog.ofExcept
    (generateKeyPair svc.prims svc.algorithm (svc.prims.randomString n) n)
  (onStore (svc.keyStore.save ctx sk)).mapError (Err.wrap "save key")
  let _ ← (svc.reload ctx).attempt
  pure sk

/-- `JWKSService.GetSigningKey`: the current key, or a new one when there is none. -/
def getSigningKey : Prog (Host σ) Err SigningKey := do
  let key ← (onStore (svc.keyStore.loadCurrent ctx)).mapError (Err.wrap "load current key")
  match key with
  | some k => pure k
  | none => svc.generateAndSave ctx

def rotateKey : Prog (Host σ) Err SigningKey :=
  svc.generateAndSave ctx

/-- `JWKSService.BuildJWKS`: the cached set, or the two keys of the store. -/
def buildJWKS : Prog (Host σ) Err (List JSONWebKey) := do
  let cached ← Prog.step fun h => (h.cache, h)
  match cached with
  | some set => pure set
  | none => do
    let current ← (svc.getSigningKey ctx).mapError (Err.wrap "get signing key")
    let previous ← (onStore (svc.keyStore.loadPrevious ctx)).mapError (Err.wrap "load previous key")
    pure (portKeyToJWK current :: previous.toList.map portKeyToJWK)

end JWKSService

/-! ### What a store lets be read -/

/-- What reading a store gives: for each of the two keys, the key, that there is none, or an error.
-/
structure View where
  current : Option (Option SigningKey)
  previous : Option (Option SigningKey)

/-- The keys that are listed, when both can be read. -/
def View.list (v : View) : Option (List SigningKey) := do
  let current ← v.current
  let previous ← v.previous
  pure (current.toList ++ previous.toList)

/-- The second view is that of a store with the first view to which the key was saved. -/
structure View.Saved (v : View) (sk : SigningKey) (v' : View) : Prop where
  current : v'.current = some (some sk)
  previous : ∀ k, v.current = some (some k) → v'.previous = some (some k)
  kept : v.current = some none → v'.previous = v.previous

/-- What the service relies on. The invariant is one of the store; `fit` is what the store asks for
before a key is saved to it. -/
structure Keeps (prims : Primitives) {σ : Type} (ks : KeyStore σ) (inv fit : σ → Prop)
    (view : σ → View) : Prop where
  loadCurrent : ∀ ctx s, inv s → ∃ r s', (ks.loadCurrent ctx).run [] s = (r, s') ∧
    r.toOption = (view s).current ∧ inv s' ∧ view s' = view s ∧ (fit s → fit s')
  loadPrevious : ∀ ctx s, inv s → ∃ r s', (ks.loadPrevious ctx).run [] s = (r, s') ∧
    r.toOption = (view s).previous ∧ inv s' ∧ view s' = view s
  listActive : ∀ ctx s, inv s → ∃ r s', (ks.listActive ctx).run [] s = (r, s') ∧
    r.toOption = (view s).list ∧ inv s' ∧ view s' = view s
  save : ∀ ctx s sk s', inv s → fit s → Generated prims sk →
    (ks.save ctx sk).run [] s = (.ok (), s') → inv s' ∧ (view s).Saved sk (view s')
  saveFails : ∀ ctx s sk e s', inv s → Generated prims sk →
    (ks.save ctx sk).run [] s = (.error e, s') → inv s' ∧ view s' = view s

theorem View.list_of_saved {v v' : View} {sk : SigningKey} (h : v.Saved sk v')
    {keys : List SigningKey}
    (hlist : v.list = some keys) : ∃ keys', v'.list = some keys' := by
  obtain ⟨current, hcurrent, hrest⟩ := Option.bind_eq_some_iff.mp hlist
  obtain ⟨previous, hprevious, -⟩ := Option.bind_eq_some_iff.mp hrest
  cases current with
  | some k => exact ⟨[sk, k], by simp [View.list, h.current, h.previous k hcurrent]⟩
  | none =>
    refine ⟨sk :: previous.toList, ?_⟩
    simp [View.list, h.current, h.kept hcurrent, hprevious]

/-- The key set after a reload of a store with the view: the keys it lists, or the set that was
there when they cannot be read. -/
def View.refresh (v : View) (cache : Option (List JSONWebKey)) : Option (List JSONWebKey) :=
  match v.list with
  | some keys => some (keys.map portKeyToJWK)
  | none => cache

/-! ### One call at a time -/

/-- The calls of the service. -/
inductive Op
  | getSigningKey
  | rotateKey
  | reload
  | buildJWKS
  deriving DecidableEq, Repr

/-- What a call returns. -/
inductive Answer
  | key (sk : SigningKey)
  | set (keys : List JSONWebKey)
  | reloaded
  deriving DecidableEq, Repr

def JWKSService.call {σ : Type} (svc : JWKSService σ) (op : Op) (ctx : CallID) :
    Prog (Host σ) Err Answer :=
  match op with
  | .getSigningKey => do
    let sk ← svc.getSigningKey ctx
    pure (.key sk)
  | .rotateKey => do
    let sk ← svc.rotateKey ctx
    pure (.key sk)
  | .reload => do
    svc.reload ctx
    pure .reloaded
  | .buildJWKS => do
    let set ← svc.buildJWKS ctx
    pure (.set set)

/-- Whether the call saves a key to a store with the view. -/
def Op.Saves (op : Op) (cache : Option (List JSONWebKey)) (v : View) : Prop :=
  match op with
  | .getSigningKey => v.current = some none
  | .rotateKey => True
  | .reload => False
  | .buildJWKS => cache = none ∧ v.current = some none

/-- What a call does to the process. -/
inductive Moves {σ : Type} (view : σ → View) (op : Op) (h h' : Host σ) : Prop
  /-- Nothing. -/
  | kept (hview : view h'.store = view h.store) (hcache : h'.cache = h.cache)
  /-- The cached set is rebuilt. -/
  | reloaded (hview : view h'.store = view h.store)
      (hcache : h'.cache = (view h'.store).refresh h.cache)
  /-- A key is saved and the cached set rebuilt, if that goes. -/
  | saved (sk : SigningKey) (hsaves : op = .rotateKey ∨ (view h.store).current = some none)
      (hsaved : (view h.store).Saved sk (view h'.store))
      (hcache : h'.cache = (view h'.store).refresh h.cache)

/-- What a call returns, in terms of the process it leaves. -/
def Answer.Fits {σ : Type} (view : σ → View) (h h' : Host σ) : Answer → Prop
  | .key sk => (view h'.store).current = some (some sk)
  | .set keys => h.cache = some keys ∨
      ∃ active, (view h'.store).list = some active ∧ keys = active.map portKeyToJWK
  | .reloaded => True

section Calls

variable {σ : Type} {svc : JWKSService σ} {inv fit : σ → Prop} {view : σ → View} {ctx : CallID}
  {α : Type}

theorem run_onStore (p : Prog σ Err α) (h : Host σ) :
    (onStore p).run [] h = ((p.run [] h.store).1, { h with store := (p.run [] h.store).2 }) := by
  rw [onStore, Prog.run_zoom] <;> intros <;> rfl

theorem run_onStore_mapError {p : Prog σ Err α} {h : Host σ} {r : Except Err α} {s' : σ}
    (hrun : p.run [] h.store = (r, s')) (f : Err → Err) :
    ((onStore p).mapError f).run [] h = (r.mapError f, { h with store := s' }) := by
  rw [Prog.run_mapError, run_onStore, hrun]

/-- A result under another error text is the same result. -/
theorem eq_ok_of_mapError {r : Except Err α} {f : Err → Err} {a : α}
    (h : r.mapError f = .ok a) : r = .ok a := by
  cases r with
  | error e => cases h
  | ok b => exact h

/-- A reload leaves the store as it is, and the set is rebuilt when the keys can be read. -/
theorem run_reload (ctx : CallID) (hkeeps : Keeps svc.prims svc.keyStore inv fit view) {h : Host σ}
    (hinv : inv h.store) :
    ∃ r s', (svc.reload ctx).run [] h = (r, ⟨s', (view s').refresh h.cache, h.drawn⟩) ∧ inv s' ∧
      view s' = view h.store := by
  obtain ⟨r, s', hrun, hread, hinv', hview⟩ := hkeeps.listActive ctx h.store hinv
  unfold JWKSService.reload
  rw [Prog.run_bind, run_onStore_mapError hrun]
  cases r with
  | ok keys => exact ⟨.ok (), s', by rw [hview, View.refresh, ← hread]; rfl, hinv', hview⟩
  | error e =>
    exact ⟨.error (e.wrap "list active keys"), s', by rw [hview, View.refresh, ← hread]; rfl,
      hinv', hview⟩

variable {h h' : Host σ} {r : Except Err SigningKey}

/-- **A new key.** It is saved, and the cached set is rebuilt if that goes; or nothing happens. -/
theorem run_generateAndSave (hkeeps : Keeps svc.prims svc.keyStore inv fit view)
    (hinv : inv h.store) (hfit : fit h.store)
    (hrun : (svc.generateAndSave ctx).run [] h = (r, h')) :
    inv h'.store ∧
      ((∃ sk, r = .ok sk ∧ (view h.store).Saved sk (view h'.store) ∧
          h'.cache = (view h'.store).refresh h.cache) ∨
        (∃ e, r = .error e) ∧ view h'.store = view h.store ∧ h'.cache = h.cache) := by
  unfold JWKSService.generateAndSave at hrun
  rcases Prog.cases_of_run_bind hrun with ⟨e, hdraw, -⟩ | ⟨n, h₁, hdraw, hrun⟩
  · cases (Prod.mk.inj hdraw).1
  obtain rfl : ⟨h.store, h.cache, h.drawn + 1⟩ = h₁ := (Prod.mk.inj hdraw).2
  rcases Prog.cases_of_run_bind hrun with ⟨e, hmake, rfl⟩ | ⟨sk, h₂, hmake, hrun⟩
  · rw [Prog.run_ofExcept] at hmake
    obtain rfl := (Prod.mk.inj hmake).2
    exact ⟨hinv, .inr ⟨⟨e, rfl⟩, rfl, rfl⟩⟩
  rw [Prog.run_ofExcept] at hmake
  obtain ⟨hpair, rfl⟩ := Prod.mk.inj hmake
  have hgen := generated_of_generateKeyPair (svc.prims.randomString_word n) hpair
  cases hstore : (svc.keyStore.save ctx sk).run [] h.store with
  | mk rs s₁ =>
    have hsave := run_onStore_mapError (h := ⟨h.store, h.cache, h.drawn + 1⟩) hstore
      (Err.wrap "save key")
    cases rs with
    | error e =>
      obtain ⟨hinv₁, hview⟩ := hkeeps.saveFails ctx h.store sk e s₁ hinv hgen hstore
      rcases Prog.cases_of_run_bind hrun with ⟨e', hfail, rfl⟩ | ⟨_, h₃, hok, -⟩
      · obtain rfl := (Prod.mk.inj (hfail.symm.trans hsave)).2
        exact ⟨hinv₁, .inr ⟨⟨e', rfl⟩, hview, rfl⟩⟩
      · cases (Prod.mk.inj (hok.symm.trans hsave)).1
    | ok u =>
      obtain ⟨hinv₁, hsaved⟩ := hkeeps.save ctx h.store sk s₁ hinv hfit hgen hstore
      rcases Prog.cases_of_run_bind hrun with ⟨e', hfail, -⟩ | ⟨_, h₃, hok, hrun⟩
      · cases (Prod.mk.inj (hfail.symm.trans hsave)).1
      obtain rfl := (Prod.mk.inj (hok.symm.trans hsave)).2
      obtain ⟨rr, s', hreload, hinv', hview⟩ := run_reload ctx hkeeps
        (h := ⟨s₁, h.cache, h.drawn + 1⟩) hinv₁
      rw [Prog.run_bind, Prog.run_attempt, hreload] at hrun
      obtain ⟨rfl, rfl⟩ := Prod.mk.inj hrun
      exact ⟨hinv', .inl ⟨sk, rfl, by rw [hview]; exact hsaved, rfl⟩⟩

/-- **The signing key** is the current one, before or after. -/
theorem moves_of_getSigningKey (hkeeps : Keeps svc.prims svc.keyStore inv fit view)
    (hinv : inv h.store) (hfit : (view h.store).current = some none → fit h.store)
    (hrun : (svc.getSigningKey ctx).run [] h = (r, h')) (op : Op) :
    inv h'.store ∧ Moves view op h h' ∧ ∀ sk, r = .ok sk →
      (view h'.store).current = some (some sk) := by
  unfold JWKSService.getSigningKey at hrun
  obtain ⟨rl, s₁, hstore, hread, hinv₁, hview, hfit₁⟩ := hkeeps.loadCurrent ctx h.store hinv
  have hload := run_onStore_mapError hstore (Err.wrap "load current key")
  rcases Prog.cases_of_run_bind hrun with ⟨e, hfail, rfl⟩ | ⟨key, h₁, hok, hrun⟩
  · obtain rfl := (Prod.mk.inj (hfail.symm.trans hload)).2
    exact ⟨hinv₁, .kept hview rfl, fun _ hr => by cases hr⟩
  obtain ⟨hr, rfl⟩ := Prod.mk.inj (hload.symm.trans hok)
  obtain rfl := eq_ok_of_mapError hr
  cases key with
  | some k =>
    obtain ⟨rfl, rfl⟩ := Prod.mk.inj hrun
    refine ⟨hinv₁, .kept hview rfl, fun sk hsk => ?_⟩
    obtain rfl := Except.ok.inj hsk
    rw [hview]
    exact hread.symm
  | none =>
    have hnone : (view h.store).current = some none := hread.symm
    obtain ⟨hinv', hcase⟩ := run_generateAndSave hkeeps hinv₁ (hfit₁ (hfit hnone)) hrun
    rcases hcase with ⟨sk, rfl, hsaved, hcache⟩ | ⟨⟨e, rfl⟩, hkept, hcache⟩
    · rw [hview] at hsaved
      refine ⟨hinv', .saved sk (.inr hnone) hsaved hcache, fun sk' hsk => ?_⟩
      obtain rfl := Except.ok.inj hsk
      exact hsaved.current
    · exact ⟨hinv', .kept (hkept.trans hview) hcache, fun _ hr => by cases hr⟩

theorem Moves.read {op : Op} {h h₁ : Host σ} (hmoves : Moves view op h h₁) {s' : σ}
    (hview : view s' = view h₁.store) : Moves view op h ⟨s', h₁.cache, h₁.drawn⟩ := by
  cases hmoves with
  | kept hview' hcache => exact .kept (hview.trans hview') hcache
  | reloaded hview' hcache => exact .reloaded (hview.trans hview') (by rw [hview]; exact hcache)
  | saved sk hsaves hsaved hcache =>
    exact .saved sk hsaves (by rw [hview]; exact hsaved) (by rw [hview]; exact hcache)

/-- **The published set** is the cached one, or what the store lists. -/
theorem moves_of_buildJWKS (hkeeps : Keeps svc.prims svc.keyStore inv fit view)
    {r : Except Err (List JSONWebKey)} (hinv : inv h.store)
    (hfit : Op.buildJWKS.Saves h.cache (view h.store) → fit h.store)
      (hrun : (svc.buildJWKS ctx).run [] h = (r, h')) :
    inv h'.store ∧ Moves view .buildJWKS h h' ∧
      ∀ set, r = .ok set → Answer.Fits view h h' (.set set) := by
  unfold JWKSService.buildJWKS at hrun
  rcases Prog.cases_of_run_bind hrun with ⟨e, hstep, -⟩ | ⟨cached, h₁, hstep, hrun⟩
  · cases (Prod.mk.inj hstep).1
  obtain ⟨hcached, rfl⟩ := Prod.mk.inj hstep
  obtain rfl : h.cache = cached := Except.ok.inj hcached
  cases hcache : h.cache with
  | some keys =>
    rw [hcache] at hrun
    obtain ⟨rfl, rfl⟩ := Prod.mk.inj hrun
    refine ⟨hinv, .kept rfl rfl, fun set hset => ?_⟩
    obtain rfl := Except.ok.inj hset
    exact .inl hcache
  | none =>
    rw [hcache] at hrun
    cases hgot : (svc.getSigningKey ctx).run [] h with
    | mk rg h₂ =>
      obtain ⟨hinv₂, hmoves, hcurrent⟩ := moves_of_getSigningKey hkeeps hinv
        (fun hnone => hfit ⟨hcache, hnone⟩) hgot .buildJWKS
      have hget : ((svc.getSigningKey ctx).mapError (Err.wrap "get signing key")).run [] h =
          (rg.mapError (Err.wrap "get signing key"), h₂) := by
        rw [Prog.run_mapError, hgot]
      rcases Prog.cases_of_run_bind hrun with ⟨e, hfail, rfl⟩ | ⟨current, h₃, hok, hrun⟩
      · obtain rfl := (Prod.mk.inj (hfail.symm.trans hget)).2
        exact ⟨hinv₂, hmoves, fun _ hr => by cases hr⟩
      obtain ⟨hr, rfl⟩ := Prod.mk.inj (hget.symm.trans hok)
      obtain rfl := eq_ok_of_mapError hr
      obtain ⟨rp, s₄, hstore, hread, hinv₄, hview⟩ := hkeeps.loadPrevious ctx h₂.store hinv₂
      have hload := run_onStore_mapError hstore (Err.wrap "load previous key")
      rcases Prog.cases_of_run_bind hrun with ⟨e, hfail, rfl⟩ | ⟨previous, h₄, hok, hrun⟩
      · obtain rfl := (Prod.mk.inj (hfail.symm.trans hload)).2
        exact ⟨hinv₄, hmoves.read hview, fun _ hr => by cases hr⟩
      obtain ⟨hr, rfl⟩ := Prod.mk.inj (hload.symm.trans hok)
      obtain rfl := eq_ok_of_mapError hr
      obtain ⟨rfl, rfl⟩ := Prod.mk.inj hrun
      refine ⟨hinv₄, hmoves.read hview, fun set hset => .inr ⟨current :: previous.toList, ?_, ?_⟩⟩
      · rw [View.list, hview, hcurrent current rfl, ← hread]
        rfl
      · obtain rfl := Except.ok.inj hset
        simp

theorem ok_of_run_wrap {p : Prog (Host σ) Err α} {wrap : α → Answer}
    {r : Except Err Answer} (hrun : (p >>= fun a => pure (wrap a)).run [] h = (r, h')) :
    ∃ r', p.run [] h = (r', h') ∧ ∀ a, r = .ok a → ∃ b, r' = .ok b ∧ a = wrap b := by
  rcases Prog.cases_of_run_bind hrun with ⟨e, hfail, rfl⟩ | ⟨b, h₁, hok, hret⟩
  · exact ⟨.error e, hfail, fun _ hr => by cases hr⟩
  · obtain ⟨rfl, rfl⟩ := Prod.mk.inj hret
    exact ⟨.ok b, hok, fun a ha => ⟨b, rfl, (Except.ok.inj ha).symm⟩⟩

/-- **One call**, whatever it returns. -/
theorem moves_of_call (hkeeps : Keeps svc.prims svc.keyStore inv fit view) {op : Op}
    {r : Except Err Answer} (hinv : inv h.store)
      (hfit : op.Saves h.cache (view h.store) → fit h.store)
    (hrun : (svc.call op ctx).run [] h = (r, h')) :
    inv h'.store ∧ Moves view op h h' ∧ ∀ a, r = .ok a → a.Fits view h h' := by
  cases op with
  | getSigningKey =>
    obtain ⟨r', hget, hwrap⟩ := ok_of_run_wrap hrun
    obtain ⟨hinv', hmoves, hcurrent⟩ := moves_of_getSigningKey hkeeps hinv hfit hget .getSigningKey
    refine ⟨hinv', hmoves, fun a ha => ?_⟩
    obtain ⟨sk, hsk, rfl⟩ := hwrap a ha
    exact hcurrent sk hsk
  | rotateKey =>
    obtain ⟨r', hrotate, hwrap⟩ := ok_of_run_wrap hrun
    obtain ⟨hinv', hcase⟩ := run_generateAndSave hkeeps hinv (hfit trivial) hrotate
    rcases hcase with ⟨sk, rfl, hsaved, hcache⟩ | ⟨⟨e, rfl⟩, hview, hcache⟩
    · refine ⟨hinv', .saved sk (.inl rfl) hsaved hcache, fun a ha => ?_⟩
      obtain ⟨sk', hsk, rfl⟩ := hwrap a ha
      obtain rfl := Except.ok.inj hsk
      exact hsaved.current
    · refine ⟨hinv', .kept hview hcache, fun a ha => ?_⟩
      obtain ⟨sk', hsk, -⟩ := hwrap a ha
      cases hsk
  | reload =>
    obtain ⟨r', hreload, hwrap⟩ := ok_of_run_wrap hrun
    obtain ⟨rr, s', hstate, hinv', hview⟩ := run_reload ctx hkeeps hinv
    obtain rfl := (Prod.mk.inj (hstate.symm.trans hreload)).2
    refine ⟨hinv', .reloaded hview rfl, fun a ha => ?_⟩
    obtain ⟨_, -, rfl⟩ := hwrap a ha
    trivial
  | buildJWKS =>
    obtain ⟨r', hbuild, hwrap⟩ := ok_of_run_wrap hrun
    obtain ⟨hinv', hmoves, hset⟩ := moves_of_buildJWKS hkeeps hinv hfit hbuild
    refine ⟨hinv', hmoves, fun a ha => ?_⟩
    obtain ⟨set, hr, rfl⟩ := hwrap a ha
    exact hset set hr

end Calls

end Signing

end AuthServer
