import AuthServer.Signing.JWKS

/-!
# The caching decorator

`CachedKeyStore` of `internal/adapters/signing/cached_keystore.go`: a single slot for the current
key in front of a key store. A read fills it, a save replaces it, and the key listener empties it.
-/

namespace AuthServer

open Interleave

namespace Signing

structure Cached (τ : Type) where
  inner : τ
  slot : Option SigningKey

namespace CachedKeyStore

variable {τ : Type}

/-- A method of the store behind. -/
def onInner {α : Type} (p : Prog τ Err α) : Prog (Cached τ) Err α :=
  p.zoom Cached.inner fun s c => { c with inner := s }

/-- `cache.Store`. -/
def storeSlot (key : SigningKey) : Prog (Cached τ) Err Unit :=
  Prog.step fun c => ((), { c with slot := some key })

def loadCurrent (inner : KeyStore τ) (ctx : CallID) : Prog (Cached τ) Err (Option SigningKey) := do
  let cached ← Prog.step fun c => (c.slot, c)
  match cached with
  | some key => pure (some key)
  | none => do
    let key ← onInner (inner.loadCurrent ctx)
    match key with
    | some key => do
      storeSlot key
      pure (some key)
    | none => pure none

def save (inner : KeyStore τ) (ctx : CallID) (key : SigningKey) : Prog (Cached τ) Err Unit := do
  onInner (inner.save ctx key)
  storeSlot key

def invalidateCache : Prog (Cached τ) Err Unit :=
  Prog.step fun c => ((), { c with slot := none })

def wrapKeyStore (inner : KeyStore τ) : KeyStore (Cached τ) where
  loadCurrent := loadCurrent inner
  loadPrevious ctx := onInner (inner.loadPrevious ctx)
  save := save inner
  listActive ctx := onInner (inner.listActive ctx)

theorem run_onInner {α : Type} (p : Prog τ Err α) (c : Cached τ) :
    (onInner p).run [] c = ((p.run [] c.inner).1, { c with inner := (p.run [] c.inner).2 }) := by
  rw [onInner, Prog.run_zoom] <;> intros <;> rfl

/-- With the slot empty the key is read from the store behind, and fills the slot if there is one.
-/
theorem run_loadCurrent_empty {inner : KeyStore τ} {ctx : CallID} {s s' : τ}
    {r : Except Err (Option SigningKey)} (h : (inner.loadCurrent ctx).run [] s = (r, s')) :
    (loadCurrent inner ctx).run [] ⟨s, none⟩ = (r, ⟨s', r.toOption.join⟩) := by
  refine (Prog.run_bind (onInner (inner.loadCurrent ctx)) _ _).trans ?_
  rw [run_onInner]
  simp only [Prog.outcome_false, List.headD_nil, h]
  match r with
  | .ok (some key) => rfl
  | .ok none => rfl
  | .error e => rfl

/-- The slot, if filled, holds the current key. -/
def Agrees (view : τ → View) (c : Cached τ) : Prop :=
  ∀ key, c.slot = some key → (view c.inner).current = some (some key)

/-- **Behind the slot, a store keeps what it keeps without it.** -/
theorem keeps {prims : Primitives} {inner : KeyStore τ} {inv fit : τ → Prop} {view : τ → View}
    (h : Keeps prims inner inv fit view) :
    Keeps prims (wrapKeyStore inner) (fun c => inv c.inner ∧ Agrees view c) (fun c => fit c.inner)
      (fun c => view c.inner) where
  loadCurrent := by
    rintro ctx ⟨s, slot⟩ ⟨hinv, hagrees⟩
    cases slot with
    | some key => exact ⟨.ok (some key), _, rfl, (hagrees key rfl).symm, ⟨hinv, hagrees⟩, rfl, id⟩
    | none =>
      obtain ⟨r, s', hrun, hread, hinv', hview, hfit⟩ := h.loadCurrent ctx s hinv
      refine ⟨r, _, run_loadCurrent_empty hrun, hread, ⟨hinv', fun key hkey => ?_⟩, hview, hfit⟩
      exact (congrArg View.current hview).trans (hread.symm.trans (Option.join_eq_some_iff.mp hkey))
  loadPrevious := by
    rintro ctx ⟨s, slot⟩ ⟨hinv, hagrees⟩
    obtain ⟨r, s', hrun, hread, hinv', hview⟩ := h.loadPrevious ctx s hinv
    refine ⟨r, ⟨s', slot⟩, ?_, hread, ⟨hinv', fun key hkey => ?_⟩, hview⟩
    · exact (run_onInner _ _).trans (by rw [hrun])
    · exact (congrArg View.current hview).trans (hagrees key hkey)
  listActive := by
    rintro ctx ⟨s, slot⟩ ⟨hinv, hagrees⟩
    obtain ⟨r, s', hrun, hread, hinv', hview⟩ := h.listActive ctx s hinv
    refine ⟨r, ⟨s', slot⟩, ?_, hread, ⟨hinv', fun key hkey => ?_⟩, hview⟩
    · exact (run_onInner _ _).trans (by rw [hrun])
    · exact (congrArg View.current hview).trans (hagrees key hkey)
  save := by
    rintro ctx ⟨s, slot⟩ sk c' ⟨hinv, -⟩ hfit hgen hrun
    rcases Prog.cases_of_run_bind hrun with ⟨e, -, hr⟩ | ⟨_, c₁, hinner, hstore⟩
    · cases hr
    rw [run_onInner] at hinner
    obtain ⟨hok, rfl⟩ := Prod.mk.inj hinner
    obtain rfl := (Prod.mk.inj hstore).2
    obtain ⟨hinv', hsaved⟩ := h.save ctx s sk _ hinv hfit hgen (Prod.ext hok rfl)
    refine ⟨⟨hinv', fun key hkey => ?_⟩, hsaved⟩
    obtain rfl : sk = key := Option.some.inj hkey
    exact hsaved.current
  saveFails := by
    rintro ctx ⟨s, slot⟩ sk e c' ⟨hinv, hagrees⟩ hgen hrun
    rcases Prog.cases_of_run_bind hrun with ⟨e', hinner, -⟩ | ⟨_, c₁, -, hstore⟩
    · rw [run_onInner] at hinner
      obtain ⟨herr, rfl⟩ := Prod.mk.inj hinner
      obtain ⟨hinv', hview⟩ := h.saveFails ctx s sk e' _ hinv hgen (Prod.ext herr rfl)
      exact ⟨⟨hinv', fun key hkey => (congrArg View.current hview).trans (hagrees key hkey)⟩, hview⟩
    · cases (Prod.mk.inj hstore).1

end CachedKeyStore

end Signing

end AuthServer
