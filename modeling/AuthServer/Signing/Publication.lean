import Mathlib.Algebra.GroupWithZero.Nat
import AuthServer.Signing.CachedKeyStore
import AuthServer.Signing.HAKeyStore
import AuthServer.Signing.Keyfile
import AuthServer.Signing.Vault

/-!
# Whatever signs is published

One process, its key store, and calls of the JWKS service one after another. A key that signs has to
be in the published set for as long as it may be met: until the rotation after the one that replaced
it.

The argument is about any store that keeps the last two keys. While it does, the cached set is
exactly what the store lists (`Fresh`), and a key that was current is, one rotation later, the
previous one (`Within`). The three stores are then three instances. The transit store is one only
for calls that save nothing: it keeps its own keys and drops the one it is given, which the service
goes on to sign with.
-/

namespace AuthServer

open Interleave

namespace Signing

/-- A call, with the circumstances it is made in: what the clock shows, and which of the steps of
the store fail. -/
structure Request where
  op : Op
  ctx : CallID
  clock : Int
  plan : List Bool

/-- Whether a call is a rotation, as a number. -/
def Op.rotations (op : Op) : ℕ := if op = .rotateKey then 1 else 0

/-- The rotations among several calls. -/
def rotations (reqs : List Request) : ℕ := (reqs.map fun req => req.op.rotations).sum

/-- A process: the service, and how its store sees the clock. -/
structure Site (σ : Type) where
  svc : JWKSService σ
  tick : Int → σ → σ

namespace Site

variable {σ : Type}

/-- A call is made. -/
def serve (site : Site σ) (h : Host σ) (req : Request) : Except Err Answer × Host σ :=
  (site.svc.call req.op req.ctx).run req.plan { h with store := site.tick req.clock h.store }

/-- The process after several calls, if all of them succeed. -/
def serveAll (site : Site σ) (h : Host σ) : List Request → Option (Host σ)
  | [] => some h
  | req :: rest =>
    match site.serve h req with
    | (.ok _, h') => site.serveAll h' rest
    | (.error _, _) => none

/-- A key that was returned is in every set returned before the second rotation after it. -/
def Publishes (site : Site σ) (h : Host σ) (reqs : List Request) : Prop :=
  ∀ before signing between publishing after h₁ h₂ h₃ h₄ sk set,
    reqs = before ++ signing :: (between ++ publishing :: after) →
    site.serveAll h before = some h₁ → site.serve h₁ signing = (.ok (.key sk), h₂) →
    site.serveAll h₂ between = some h₃ → site.serve h₃ publishing = (.ok (.set set), h₄) →
    rotations between ≤ 1 →
      ∃ jwk ∈ set, jwk.keyID = sk.keyID ∧ jwk.key = sk.publicKey

/-- The condition of a call: no step of the store fails, and a key is saved only when the store is
fit for it. -/
def Meets (fit : σ → Prop) (view : σ → View) (h : Host σ) (req : Request) : Prop :=
  (∀ bad ∈ req.plan, bad = false) ∧ (req.op.Saves h.cache (view h.store) → fit h.store)

/-- Every call of a run meets its condition. -/
def AllMeet (site : Site σ) (fit : σ → Prop) (view : σ → View)
    (h : Host σ) (reqs : List Request) : Prop :=
  ∀ before req after h', reqs = before ++ req :: after → site.serveAll h before = some h' →
    Meets fit view h' req

end Site

/-! ### Stores that keep the last two keys -/

/-- The set in memory, if there is one, is that of the keys in the store. -/
def Fresh {σ : Type} (view : σ → View) (h : Host σ) : Prop :=
  ∀ set, h.cache = some set → ∃ keys, (view h.store).list = some keys ∧ set = keys.map portKeyToJWK

variable {op : Op}

theorem Fresh.moves {σ : Type} {view : σ → View} {h h' : Host σ} (hfresh : Fresh view h)
    (hmoves : Moves view op h h') : Fresh view h' := by
  intro set hset
  -- a set that is there was rebuilt, unless the keys cannot be read; then there was one, which can
  have hrefresh : ∀ v : View, v.refresh h.cache = some set →
    (h.cache = some set → ∃ keys, v.list = some keys) →
      ∃ keys, v.list = some keys ∧ set = keys.map portKeyToJWK := by
    intro v hv hkeys
    cases hlist : v.list with
    | some keys =>
      simp only [View.refresh, hlist, Option.some.injEq] at hv
      exact ⟨keys, rfl, hv.symm⟩
    | none =>
      simp only [View.refresh, hlist] at hv
      obtain ⟨keys, hsome⟩ := hkeys hv
      rw [hlist] at hsome
      cases hsome
  cases hmoves with
  | kept hview hcache =>
    rw [hview]
    exact hfresh set (hcache.symm.trans hset)
  | reloaded hview hcache =>
    refine hrefresh _ (hcache.symm.trans hset) fun hold => ?_
    obtain ⟨keys, hlist, -⟩ := hfresh set hold
    exact ⟨keys, by rw [hview]; exact hlist⟩
  | saved sk hsaves hsaved hcache =>
    refine hrefresh _ (hcache.symm.trans hset) fun hold => ?_
    obtain ⟨keys, hlist, -⟩ := hfresh set hold
    exact View.list_of_saved hsaved hlist

/-- Where a key that was current may be found after so many rotations. -/
def Within (sk : SigningKey) (v : View) : ℕ → Prop
  | 0 => v.current = some (some sk)
  | 1 => v.current = some (some sk) ∨
      (∃ c, v.current = some (some c)) ∧ v.previous = some (some sk)
  | _ => True

variable {n : ℕ} {sk : SigningKey}

theorem Within.mem_list {v : View} (h : Within sk v n) (hn : n ≤ 1)
    {keys : List SigningKey} (hkeys : v.list = some keys) : sk ∈ keys := by
  obtain ⟨current, hcurrent, hrest⟩ := Option.bind_eq_some_iff.mp hkeys
  obtain ⟨previous, hprevious, hlist⟩ := Option.bind_eq_some_iff.mp hrest
  obtain rfl : current.toList ++ previous.toList = keys := Option.some.inj hlist
  have hcase : v.current = some (some sk) ∨ v.previous = some (some sk) := by
    match n, h with
    | 0, h => exact .inl h
    | 1, h => exact h.imp id And.right
  rcases hcase with h | h
  · obtain rfl : current = some sk := Option.some.inj (hcurrent.symm.trans h)
    simp
  · obtain rfl : previous = some sk := Option.some.inj (hprevious.symm.trans h)
    simp

theorem Moves.view_eq {σ : Type} {view : σ → View} {h h' : Host σ} (hmoves : Moves view op h h')
    (hop : op ≠ .rotateKey) {c : SigningKey} (hcurrent : (view h.store).current = some (some c)) :
    view h'.store = view h.store := by
  cases hmoves with
  | kept hview => exact hview
  | reloaded hview => exact hview
  | saved sk hsaves _ =>
    rcases hsaves with hrotate | hnone
    · exact absurd hrotate hop
    · rw [hcurrent] at hnone
      cases hnone

theorem Within.moves {σ : Type} {view : σ → View} {h h' : Host σ}
    (hwithin : Within sk (view h.store) n) (hmoves : Moves view op h h') :
    Within sk (view h'.store) (n + op.rotations) := by
  by_cases hop : op = .rotateKey
  · subst hop
    match n, hwithin with
    | 0, hwithin =>
      cases hmoves with
      | kept hview => rw [hview]; exact .inl hwithin
      | reloaded hview => rw [hview]; exact .inl hwithin
      | saved new _ hsaved => exact .inr ⟨⟨new, hsaved.current⟩, hsaved.previous sk hwithin⟩
    | _ + 1, _ => trivial
  · have hsame : ∀ c, (view h.store).current = some (some c) →
        Within sk (view h'.store) (n + op.rotations) := fun c hc => by
      rw [hmoves.view_eq hop hc, Op.rotations, if_neg hop]
      exact hwithin
    match n, hwithin with
    | 0, hwithin => exact hsame sk hwithin
    | 1, hwithin =>
      rcases hwithin with hcurrent | ⟨⟨c, hcurrent⟩, -⟩
      · exact hsame sk hcurrent
      · exact hsame c hcurrent
    | n + 2, _ =>
      rw [Op.rotations, if_neg hop]
      trivial

namespace Site

variable {σ : Type} {site : Site σ} {inv fit : σ → Prop} {view : σ → View}

/-- What the argument needs: the store keeps the last two keys, whatever the clock shows. -/
structure Sound (site : Site σ) (inv fit : σ → Prop) (view : σ → View) : Prop where
  keeps : Keeps site.svc.prims site.svc.keyStore inv fit view
  tick : ∀ clock s, inv s → inv (site.tick clock s) ∧ view (site.tick clock s) = view s ∧
    (fit s → fit (site.tick clock s))

variable {req : Request} {h h' : Host σ} {a : Answer}

/-- **One call.** -/
theorem Sound.serve (hsound : Sound site inv fit view)
    (hinv : inv h.store) (hmeets : Meets fit view h req) (hserve : site.serve h req = (.ok a, h')) :
    inv h'.store ∧ Moves view req.op h h' ∧ a.Fits view h h' := by
  obtain ⟨hinv₁, hview₁, hfit₁⟩ := hsound.tick req.clock h.store hinv
  unfold Site.serve at hserve
  rw [Prog.run_of_forall_false _ hmeets.1] at hserve
  obtain ⟨hinv', hmoves, hfits⟩ := moves_of_call hsound.keeps hinv₁
    (fun hsaves => hfit₁ (hmeets.2 (by rw [← hview₁]; exact hsaves))) hserve
  refine ⟨hinv', ?_, ?_⟩
  · cases hmoves with
    | kept hview hcache => exact .kept (hview.trans hview₁) hcache
    | reloaded hview hcache => exact .reloaded (hview.trans hview₁) hcache
    | saved sk hsaves hsaved hcache =>
      exact .saved sk (by rw [← hview₁]; exact hsaves) (by rw [← hview₁]; exact hsaved) hcache
  · cases a with
    | key sk => exact hfits _ rfl
    | set keys => exact hfits _ rfl
    | reloaded => trivial

variable {rest : List Request}

theorem exists_serve_of_serveAll (hall : site.serveAll h (req :: rest) = some h') :
    ∃ a h₁, site.serve h req = (.ok a, h₁) ∧ site.serveAll h₁ rest = some h' := by
  unfold serveAll at hall
  split at hall
  · rename_i a h₁ hserve
    exact ⟨a, h₁, hserve, hall⟩
  · cases hall

/-- The condition of the calls that are left. -/
theorem AllMeet.tail {h h₁ : Host σ} (hall : site.AllMeet fit view h (req :: rest))
    (hserve : site.serve h req = (.ok a, h₁)) : site.AllMeet fit view h₁ rest := by
  intro before req' after h' hrest hbefore
  refine hall (req :: before) req' after h' (by rw [hrest]; rfl) ?_
  simp only [serveAll, hserve]
  exact hbefore

theorem AllMeet.head (hall : site.AllMeet fit view h (req :: rest)) : Meets fit view h req :=
  hall [] req rest h rfl rfl

variable {reqs : List Request}

/-- **Several calls.** What one call keeps, all of them keep. -/
theorem Sound.serveAll (hsound : Sound site inv fit view) {P : ℕ → Host σ → Prop}
    (hstep : ∀ n h h' op, P n h → Moves view op h h' → P (n + op.rotations) h')
    (hinv : inv h.store)
    (hall : site.AllMeet fit view h (reqs ++ rest)) (hP : P n h)
      (hrun : site.serveAll h reqs = some h') :
    inv h'.store ∧ site.AllMeet fit view h' rest ∧ P (n + rotations reqs) h' := by
  induction reqs generalizing h n with
  | nil =>
    obtain rfl := Option.some.inj hrun
    exact ⟨hinv, hall, hP⟩
  | cons req reqs ih =>
    obtain ⟨a, h₁, hserve, hrun⟩ := exists_serve_of_serveAll hrun
    obtain ⟨hinv₁, hmoves, -⟩ := hsound.serve hinv hall.head hserve
    obtain ⟨hinv', hall', hP'⟩ := ih hinv₁ (hall.tail hserve) (hstep n h h₁ req.op hP hmoves) hrun
    refine ⟨hinv', hall', ?_⟩
    rwa [rotations, List.map_cons, List.sum_cons, ← Nat.add_assoc]

theorem op_of_set {set : List JSONWebKey}
    (hserve : site.serve h req = (.ok (.set set), h')) : req.op = .buildJWKS := by
  unfold Site.serve at hserve
  cases hop : req.op with
  | buildJWKS => rfl
  | getSigningKey =>
    rw [hop] at hserve
    obtain ⟨sk, _, _, -, hret⟩ := Prog.ok_of_run_bind hserve
    cases (Prod.mk.inj hret).1
  | rotateKey =>
    rw [hop] at hserve
    obtain ⟨sk, _, _, -, hret⟩ := Prog.ok_of_run_bind hserve
    cases (Prod.mk.inj hret).1
  | reload =>
    rw [hop] at hserve
    obtain ⟨_, _, _, -, hret⟩ := Prog.ok_of_run_bind hserve
    cases (Prod.mk.inj hret).1

/-- **Published.** -/
theorem Sound.publishes (hsound : Sound site inv fit view)
    (hinv : inv h.store) (hfresh : Fresh view h) (hall : site.AllMeet fit view h reqs) :
      site.Publishes h reqs := by
  intro before signing between publishing after h₁ h₂ h₃ h₄ sk set hreqs
    hbefore hsign hbetween hpublish hcount
  rw [hreqs] at hall
  obtain ⟨hinv₁, hall₁, hfresh₁⟩ := hsound.serveAll (P := fun _ h => Fresh view h) (n := 0)
    (fun _ _ _ _ hfresh hmoves => hfresh.moves hmoves) hinv hall hfresh hbefore
  obtain ⟨hinv₂, hmoves₂, hcurrent⟩ := hsound.serve hinv₁ hall₁.head hsign
  -- between the two calls the cached set stays fresh, and the key is as far back as there are
  -- rotations
  obtain ⟨hinv₃, hall₃, hfresh₃, hwithin₃⟩ := hsound.serveAll
    (P := fun n h => Fresh view h ∧ Within sk (view h.store) n) (n := 0)
    (fun _ _ _ _ hP hmoves => ⟨hP.1.moves hmoves, hP.2.moves hmoves⟩)
    hinv₂ (hall₁.tail hsign) ⟨hfresh₁.moves hmoves₂, hcurrent⟩ hbetween
  obtain ⟨-, hmoves₄, hset⟩ := hsound.serve hinv₃ hall₃.head hpublish
  have hmem : ∀ v n, Within sk v n → n ≤ 1 → ∀ keys, v.list = some keys →
    set = keys.map portKeyToJWK →
      ∃ jwk ∈ set, jwk.keyID = sk.keyID ∧ jwk.key = sk.publicKey := by
    rintro v n hwithin hn keys hlist rfl
    exact ⟨portKeyToJWK sk, List.mem_map_of_mem (hwithin.mem_list hn hlist), rfl, rfl⟩
  rw [Nat.zero_add] at hwithin₃
  rcases hset with hcached | ⟨keys, hlist, hkeys⟩
  · obtain ⟨keys, hlist, hkeys⟩ := hfresh₃ set hcached
    exact hmem _ _ hwithin₃ hcount keys hlist hkeys
  · have hwithin₄ := hwithin₃.moves hmoves₄
    rw [op_of_set hpublish] at hwithin₄
    exact hmem _ _ hwithin₄ hcount keys hlist hkeys

end Site

/-! ### The three stores -/

/-- The key stores the server can be configured with. -/
inductive Driver
  | keyfile
  | postgresKey
  | vaultTransit
  deriving DecidableEq, Repr

/-- What a server is configured with beside the choice of the store. -/
structure KeyConfig where
  prims : Primitives
  algorithm : String
  planner : CallID → Planner
  vault : Vault.Config

namespace Driver

def State : Driver → Type
  | keyfile => KeyDir
  | postgresKey => Cached KeyDatabase
  | vaultTransit => Transit

variable (cfg : KeyConfig)

/-- `signing.Open`. -/
def keyStore : (d : Driver) → KeyStore d.State
  | keyfile => Keyfile.store cfg.prims
  | postgresKey => CachedKeyStore.wrapKeyStore (HAKeyStore.store cfg.prims cfg.planner)
  | vaultTransit => Vault.store cfg.prims cfg.vault

def view : (d : Driver) → d.State → View
  | keyfile => Keyfile.view cfg.prims
  | postgresKey => fun c => HAKeyStore.view cfg.prims c.inner
  | vaultTransit => Vault.view cfg.prims cfg.vault

/-- The clock as the store sees it; only rows of the database are stamped. -/
def tick : (d : Driver) → Int → d.State → d.State
  | keyfile, _ => id
  | postgresKey, clock => fun c => { c with inner := { c.inner with clock := clock } }
  | vaultTransit, _ => id

/-- A store a process may start on: any key directory or transit key, and a table as the
transactions leave it, empty or not, behind an empty slot. -/
def Starts : (d : Driver) → d.State → Prop
  | keyfile => fun _ => True
  | postgresKey => fun c => c.inner.table.Settled ∧ c.slot = none
  | vaultTransit => fun _ => True

/-- A store that will keep the key that is saved to it and the one before it: any key directory; a
table whose current row has the latest stamp; no transit key. -/
def Fit : (d : Driver) → d.State → Prop
  | keyfile => fun _ => True
  | postgresKey => fun c => c.inner.table.CurrentNewest
  | vaultTransit => fun _ => False

/-- The process. -/
def site (d : Driver) : Site d.State where
  svc := ⟨cfg.prims, d.keyStore cfg, cfg.algorithm⟩
  tick := d.tick

def Inv : (d : Driver) → d.State → Prop
  | keyfile => fun _ => True
  | postgresKey =>
    fun c => c.inner.table.Settled ∧ CachedKeyStore.Agrees (HAKeyStore.view cfg.prims) c
  | vaultTransit => fun _ => True

theorem inv_of_starts (d : Driver) {s : d.State} (h : d.Starts s) : d.Inv cfg s := by
  cases d with
  | keyfile => trivial
  | postgresKey =>
    refine ⟨h.1, fun key hkey => ?_⟩
    rw [h.2] at hkey
    cases hkey
  | vaultTransit => trivial

theorem sound (d : Driver) : (d.site cfg).Sound (d.Inv cfg) d.Fit (d.view cfg) := by
  cases d with
  | keyfile => exact ⟨Keyfile.keeps cfg.prims, fun _ _ h => ⟨h, rfl, id⟩⟩
  | postgresKey =>
    exact ⟨CachedKeyStore.keeps (HAKeyStore.keeps cfg.prims cfg.planner), fun _ _ h => ⟨h, rfl, id⟩⟩
  | vaultTransit => exact ⟨Vault.keeps cfg.prims cfg.vault, fun _ _ h => ⟨h, rfl, id⟩⟩

end Driver

/-- **Whatever signs is published**, on each of the three stores, in every run of calls in which no
step of the store fails and a key is saved only to a store that is fit for it. -/
theorem signing_key_published (cfg : KeyConfig) (d : Driver) (s : d.State) (drawn : ℕ)
    (reqs : List Request)
    (hstart : d.Starts s)
    (hmeets : (d.site cfg).AllMeet d.Fit (d.view cfg) (Host.start s drawn) reqs) :
    (d.site cfg).Publishes (Host.start s drawn) reqs :=
  (d.sound cfg).publishes (d.inv_of_starts cfg hstart) (fun _ h => by cases h) hmeets

namespace Sample

def keyConfig : KeyConfig where
  prims := primitives
  algorithm := "ES256"
  planner := fun _ => Planner.stable
  vault := ⟨"signing", "ES256"⟩

def request (op : Op) : Request := ⟨op, 0, 0, []⟩

def emptyDir : KeyDir := ⟨fun _ _ => none, fun _ => none⟩

end Sample

/-- On an empty key directory: a first key, a rotation, and the set. -/
theorem signing_key_published_keyfile :
    (Driver.keyfile.site Sample.keyConfig).Publishes (Host.start Sample.emptyDir 0)
      [Sample.request .getSigningKey, Sample.request .rotateKey, Sample.request .buildJWKS] := by
  refine signing_key_published Sample.keyConfig .keyfile Sample.emptyDir 0 _ trivial ?_
  intro before req after h hreqs _
  have hmem : req ∈
    [Sample.request .getSigningKey, Sample.request .rotateKey, Sample.request .buildJWKS] := by
    rw [hreqs]
    simp
  have hplan : req.plan = [] := by
    simp only [List.mem_cons, List.not_mem_nil, or_false] at hmem
    rcases hmem with rfl | rfl | rfl <;> rfl
  refine ⟨fun bad hbad => ?_, fun _ => trivial⟩
  rw [hplan] at hbad
  cases hbad

/-- **A key that is not published.** On a transit store without a key, `GetSigningKey` returns a key
that it generated, and the set that follows has the key of the engine in its place. -/
theorem transit_key_not_published :
    ∃ sk h₁ set h₂, (Driver.vaultTransit.site Sample.keyConfig).serve (Host.start ⟨none, 0⟩ 0)
        (Sample.request .getSigningKey) = (.ok (.key sk), h₁) ∧
      (Driver.vaultTransit.site Sample.keyConfig).serve h₁ (Sample.request .buildJWKS) =
        (.ok (.set set), h₂) ∧
      sk.keyID = "k" ∧ set.map JSONWebKey.keyID = ["signing-v1"] :=
  ⟨_, _, _, _, rfl, rfl, by decide +kernel, by decide +kernel⟩

end Signing

end AuthServer
