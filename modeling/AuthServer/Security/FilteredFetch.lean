import AuthServer.Metadata.Fetcher

/-!
# A filtered fetch is not given what a private address served

Any number of calls of `Fetch`, with any URLs and any mix of policies, interleaved step by step,
over every behaviour of the network and the resolver. Three things let one call receive what another
fetched: the cache, a shared flight and an idle connection. The first two are under a key that has
the URL and the address policy in it; the connections of the two policies are in different
transports. What the key does not have in it is whether HTTPS is required: that is asked of the URL,
which the key has, before anything else.

The one condition that carries all of it is `Confined`: a document is over the scheme of the URL it
is for and, if the policy filters, over a connection to an address that is not private. -/

namespace AuthServer

open Interleave Net

namespace CIMD

section Insert

variable {V : Type} {bound : ℕ} {expiresAt : V → Time} {now : Time}
    {walk : List String → List String} {key : String}
  {v : V} {m : List (String × V)} {e : String × V}

/-- What is stored in a map was there or is the new entry. -/
theorem mem_insert (h : e ∈ insert bound expiresAt now walk key v m) : e = (key, v) ∨ e ∈ m := by
  rcases List.mem_cons.mp h with h | h
  · exact .inl h
  · exact .inr (List.mem_of_mem_filter h)

theorem mem_of_lookup {k : String} (h : m.lookup k = some v) : (k, v) ∈ m := by
  obtain ⟨before, after, hsplit, -⟩ := List.lookup_eq_some_iff.mp h
  rw [hsplit]
  simp

end Insert

/-- A document that may be given to a call for the URL with the policy. -/
def Confined (env : Env) (docURL : String) (allowPrivate : Bool) (doc : Fetched) : Prop :=
  (∃ u, env.urlParse docURL = some u ∧ doc.conn.scheme = u.scheme) ∧
    (allowPrivate = false → SSRF.isPrivateIP doc.conn.remote = false)

/-- A document that may be given to the call. -/
abbrev ConfinedTo (env : Env) (job : Job) (doc : Fetched) : Prop :=
  Confined env job.docURL job.cfg.allowPrivateAddresses doc

variable {docURL : String} {allow : Bool}

/-- The two policies have no key in common, and a key of either has one URL. -/
theorem fetchKey_injective {docURL' : String} {allow' : Bool}
    (h : fetchKey docURL allow = fetchKey docURL' allow') : docURL = docURL' ∧ allow = allow' := by
  have hlist := congrArg String.toList h
  cases allow <;> cases allow' <;> simp [fetchKey] at hlist
  · exact ⟨String.toList_inj.mp hlist, rfl⟩
  · exact ⟨String.toList_inj.mp hlist, rfl⟩

/-! ### The invariant -/

/-- A document that is under a key may be given to whoever asks for the key. -/
def ConfinedAt (env : Env) (key : String) (doc : Fetched) : Prop :=
  ∀ docURL allow, key = fetchKey docURL allow → Confined env docURL allow doc

/-- What is shared is where it may be. -/
structure Sound (env : Env) (s : Fetcher) : Prop where
  cache : ∀ e ∈ s.cache, ConfinedAt env e.1 e.2.doc
  group : ∀ key i, s.group key = some i → ∃ job, s.jobs i = some job ∧ job.key = key
  results : ∀ i doc, s.results i = some (.ok doc) → ∃ job, s.jobs i = some job ∧
    ConfinedAt env job.key doc
  idle : ∀ c ∈ s.idle false, SSRF.isPrivateIP c.remote = false

theorem sound_new (env : Env) : Sound env .new := ⟨nofun, nofun, nofun, nofun⟩

variable {job : Job} {doc : Fetched}

theorem Confined.at {env : Env} (h : ConfinedTo env job doc) :
    ConfinedAt env job.key doc := by
  intro docURL allow hkey
  obtain ⟨hurl, hallow⟩ := fetchKey_injective hkey
  rw [← hurl, ← hallow]
  exact h

theorem ConfinedAt.confined {env : Env} (h : ConfinedAt env job.key doc) :
    ConfinedTo env job doc :=
  h _ _ rfl

/-- What the others do: a flight that has been started stays what it is, and only a call starts its
own. -/
structure Sees (p : Party) (s t : Fetcher) : Prop where
  jobs : ∀ i job, s.jobs i = some job → t.jobs i = some job
  own : ∀ i, p = .call i → t.jobs i = s.jobs i

/-- What a step does. -/
structure Does (p : Party) (s t : Fetcher) : Prop where
  jobs : ∀ i job, s.jobs i = some job → t.jobs i = some job
  others : ∀ i, p ≠ .call i → t.jobs i = s.jobs i

theorem Does.of_eq {p : Party} {s t : Fetcher} (h : t.jobs = s.jobs) : Does p s t :=
  ⟨fun i job hjob => by rw [h]; exact hjob, fun i _ => by rw [h]⟩

/-- The contract of the calls and the flights. -/
def sharing (env : Env) : Contract Party Fetcher where
  inv := Sound env
  rely := Sees
  guar := Does
  admits := fun _ _ _ => True
  faulty := True
  rely_refl := fun _ _ => ⟨fun _ _ h => h, fun _ _ => rfl⟩
  rely_trans := fun h h' => ⟨fun i job hjob => h'.jobs i job (h.jobs i job hjob),
    fun i hi => (h'.own i hi).trans (h.own i hi)⟩
  rely_of_guar := fun hpq _ h => ⟨h.jobs, fun i hi => h.others i fun hp => hpq (hp.trans hi.symm)⟩

section

variable {env : Env} {o : Outside} {p : Party} {s : Fetcher} {ε : Type} (h : Sound env s)
include h

variable {α : Type} {Q : α → Fetcher → Prop} {f : Fetcher → α × Fetcher}

theorem safe_aside
    (hjobs : (f s).2.jobs = s.jobs) (hgroup : (f s).2.group = s.group) (hresults :
      (f s).2.results = s.results)
    (hcache : ∀ e ∈ (f s).2.cache, ConfinedAt env e.1 e.2.doc)
    (hidle : ∀ c ∈ (f s).2.idle false, SSRF.isPrivateIP c.remote = false)
    (hQ : ∀ t, Sees p s t → Sound env t → Q (f s).1 t) :
    Safe (sharing env) p Q (fun _ _ => True) (Prog.step f : Step ε α) s := by
  refine safe_step fun _ => ⟨⟨hcache, ?_, ?_, hidle⟩, .of_eq hjobs, fun t hrely ht => hQ t ?_ ht⟩
  · rw [hgroup, hjobs]
    exact h.group
  · rw [hresults, hjobs]
    exact h.results
  · exact ⟨fun i job hjob => hrely.jobs i job (by rw [hjobs]; exact hjob),
      fun i hi => (hrely.own i hi).trans (by rw [hjobs])⟩

/-- A step that changes nothing but the count of questions, the failures and the slots. -/
theorem safe_harmless
    (hf : (f s).2.jobs = s.jobs ∧ (f s).2.group = s.group ∧ (f s).2.results = s.results ∧
      (f s).2.cache = s.cache ∧
        (f s).2.idle = s.idle) (hQ : ∀ t, Sees p s t → Sound env t → Q (f s).1 t) :
    Safe (sharing env) p Q (fun _ _ => True) (Prog.step f : Step ε α) s := by
  obtain ⟨hjobs, hgroup, hresults, hcache, hidle⟩ := hf
  exact safe_aside h hjobs hgroup hresults (by rw [hcache]; exact h.cache)
    (by rw [hidle]; exact h.idle) hQ

theorem safe_ask {answer : ℕ → α}
    (hQ : ∀ a t, Sees p s t → Sound env t → Q a t) :
      Ensures (sharing env) p Q (ask answer : Step ε α) s :=
  safe_harmless h ⟨rfl, rfl, rfl, rfl, rfl⟩ fun t hrely ht => hQ _ t hrely ht

variable {key : String}

theorem safe_getCached :
    Ensures (sharing env) p (fun doc t => Sees p s t ∧ Sound env t ∧ ∀ d ∈ doc,
      ConfinedAt env key d)
      (getCached o key : Step ε _) s := by
  unfold getCached
  refine safe_harmless h ⟨rfl, rfl, rfl, rfl, rfl⟩ fun t hrely ht => ⟨hrely, ht, fun d hd => ?_⟩
  obtain ⟨e, he, rfl⟩ := Option.mem_map.mp hd
  obtain ⟨hlookup, -⟩ := Option.mem_filter_iff.mp he
  exact h.cache (key, e) (mem_of_lookup hlookup)

theorem safe_getCachedFailure :
    Ensures (sharing env) p (fun _ t => Sees p s t ∧ Sound env t)
      (getCachedFailure o key : Step ε _) s :=
  safe_harmless h ⟨rfl, rfl, rfl, rfl, rfl⟩ fun _ hrely ht => ⟨hrely, ht⟩

theorem safe_putCache {ttl : Time} (hdoc : ConfinedTo env job doc) :
    Ensures (sharing env) p (fun _ t => Sound env t) (putCache o job.key doc ttl : Step ε _) s := by
  unfold putCache
  refine safe_aside h rfl rfl rfl (fun e he => ?_) h.idle fun t _ ht => ht
  rcases mem_insert he with rfl | he
  · exact hdoc.at
  · exact h.cache e he

theorem safe_putFailure {err : FetchError} :
    Ensures (sharing env) p (fun _ t => Sound env t) (putFailure o key err : Step ε _) s :=
  safe_harmless h ⟨rfl, rfl, rfl, rfl, rfl⟩ fun _ _ ht => ht

/-! ### Connections -/

/-- The transport of a policy may use the connection. -/
def Usable (allowPrivate : Bool) (c : Conn) : Prop :=
    allowPrivate = false → SSRF.isPrivateIP c.remote = false

theorem safe_takeIdle {scheme addr : String} :
    Ensures (sharing env) p
      (fun conn t => Sound env t ∧ ∀ c ∈ conn, c.scheme = scheme ∧ Usable allow c)
      (takeIdle o allow scheme addr : Step ε _) s := by
  unfold takeIdle
  -- What is left idle was idle, and what is taken was idle and fits.
  have hrest : ∀ c' : Conn, ∀ c ∈ Function.update s.idle allow ((s.idle allow).erase c') false,
      SSRF.isPrivateIP c.remote = false := by
    intro c' c hc
    by_cases hallow : allow = false
    · subst hallow
      rw [Function.update_self] at hc
      exact h.idle c (List.mem_of_mem_erase hc)
    · rw [Function.update_of_ne (Ne.symm hallow)] at hc
      exact h.idle c hc
  cases hpick :
    ((s.idle allow).filter fun c => c.scheme == scheme && c.addr == addr)[o.pick s.asked]? with
  | none =>
    refine safe_aside h ?_ ?_ ?_ ?_ ?_ fun t _ ht => ⟨ht, ?_⟩ <;> simp only [hpick]
    · exact h.cache
    · exact h.idle
    · exact nofun
  | some conn =>
    refine safe_aside h ?_ ?_ ?_ ?_ ?_ fun t _ ht => ⟨ht, ?_⟩ <;> simp only [hpick]
    · exact h.cache
    · exact hrest conn
    · intro c hc
      obtain rfl := Option.some.inj hc
      obtain ⟨hmem, hfits⟩ := List.mem_filter.mp (List.mem_of_getElem? hpick)
      simp only [Bool.and_eq_true, beq_iff_eq] at hfits
      exact ⟨hfits.1, fun hallow => h.idle conn (hallow ▸ hmem)⟩

theorem safe_putIdle {conn : Conn} (hconn : Usable allow conn) :
    Ensures (sharing env) p (fun _ t => Sound env t) (putIdle allow conn : Step ε _) s := by
  unfold putIdle
  refine safe_aside h rfl rfl rfl h.cache (fun c hc => ?_) fun t _ ht => ht
  by_cases hallow : allow = false
  · subst hallow
    simp only [Function.update_self] at hc
    rcases List.mem_cons.mp hc with rfl | hc
    · exact hconn rfl
    · exact h.idle c hc
  · simp only [Function.update_of_ne (Ne.symm hallow)] at hc
    exact h.idle c hc

omit h in
/-- What the filtering transport dials is not private: all addresses were looked at, and the short
form of the first is private if the first is. -/
theorem isPrivateIP_of_dialable {host : String} {ips : List IP} {ip : IP}
    (h : dialable env o host ips = .ok ip) :
    SSRF.isPrivateIP ip = false := by
  cases ips with
  | nil => cases h
  | cons first rest =>
    simp only [dialable] at h
    cases hfind : (first :: rest).find? SSRF.isPrivateIP with
    | some blocked =>
      rw [hfind] at h
      cases h
    | none =>
      rw [hfind] at h
      obtain rfl := Except.ok.inj h
      have hfirst := List.find?_eq_none.mp hfind first List.mem_cons_self
      rw [SSRF.isPrivateIP_of_equal (IP.canonical_canonical first)]
      simpa using hfirst

theorem safe_dialContext {addr : String} :
    Ensures (sharing env) p (fun ip t => Sound env t ∧
      (allow = false → SSRF.isPrivateIP ip = false))
      (dialContext env o allow addr) s := by
  unfold dialContext
  split
  · rename_i hallow
    refine .bind (safe_ask h fun r t _ ht => ?_)
    exact Ensures.ofExcept fun ip _ => ⟨ht, fun hfalse => by rw [hfalse] at hallow; cases hallow⟩
  · split
    · trivial
    · refine .bind (safe_ask h fun r t _ ht => ?_)
      refine Ensures.bindOfExcept fun ips _ => ?_
      refine Ensures.bindOfExcept fun ip hip => ?_
      refine .bind (safe_ask ht fun r t' _ ht' => ?_)
      exact Ensures.bindOfExcept fun _ _ => ⟨ht', fun _ => isPrivateIP_of_dialable hip⟩

variable {u : ParsedURL}

theorem safe_getConn :
    Ensures (sharing env) p (fun c t => Sound env t ∧ c.scheme = u.scheme ∧ Usable allow c)
      (getConn env o allow u) s := by
  unfold getConn
  refine .bind ((safe_takeIdle h).mono ?_)
  rintro (_ | conn) t₁ ⟨h₁, hconn⟩
  · refine .bind ((safe_dialContext h₁).mono ?_)
    rintro remote t₂ ⟨h₂, hremote⟩
    refine .bind ((safe_takeIdle h₂).mono ?_)
    rintro (_ | conn) t₃ ⟨h₃, hconn⟩
    · exact ⟨h₃, rfl, hremote⟩
    · have hfresh : Usable allow ⟨u.scheme, o.canonicalAddr u, remote⟩ := hremote
      exact Ensures.seq (safe_putIdle h₃ hfresh) fun _ t₄ h₄ => ⟨h₄, hconn conn rfl⟩
  · exact ⟨h₁, hconn conn rfl⟩

theorem safe_roundTrip :
    Ensures (sharing env) p (fun answer t => Sound env t ∧ answer.2.scheme = u.scheme ∧
      Usable allow answer.2)
      (roundTrip env o allow u docURL) s := by
  unfold roundTrip
  refine .bind ((safe_getConn h).mono ?_)
  rintro conn t₁ ⟨h₁, hconn⟩
  refine .bind (safe_ask h₁ fun r t₂ _ h₂ => ?_)
  refine Ensures.bindOfExcept fun resp _ => ?_
  refine Safe.bind (safe_ask h₂ fun again t₃ _ h₃ => ?_)
  cases again with
  | true => exact Ensures.seq (safe_putIdle h₃ hconn.2) fun _ _ h₄ => ⟨h₄, hconn⟩
  | false => exact ⟨h₃, hconn⟩

/-! ### Flights and calls -/

omit h in
theorem safe_exchange (hu : env.urlParse job.docURL = some u) (h : Sound env s) :
    Ensures (sharing env) p (fun doc _ => ConfinedTo env job doc)
      (exchange env o job u) s := by
  unfold exchange
  refine .bind (Safe.mapError ((safe_roundTrip h).mono ?_))
  rintro answer t₁ ⟨h₁, hscheme, husable⟩
  refine Ensures.bindOfExcept fun doc _ => ?_
  refine Safe.bind (safe_ask h₁ fun now t₂ _ h₂ => ?_)
  have hconfined : ConfinedTo env job ⟨doc, answer.2⟩ :=
    ⟨⟨u, hu, hscheme⟩, husable⟩
  dsimp only
  split
  · exact hconfined
  · exact Ensures.seq (safe_putCache h₂ hconfined) fun _ _ _ => hconfined

/-- What is done whether or not there is a document, before the document is returned. -/
theorem safe_finally {prog : Step FetchError Fetched}
    {f : Except FetchError Fetched → Fetcher → Unit × Fetcher}
    (hprog : Ensures (sharing env) p (fun doc _ => ConfinedTo env job doc) prog s)
    (hf : ∀ r t, (f r t).2.jobs = t.jobs ∧ (f r t).2.group = t.group ∧
      (f r t).2.results = t.results ∧ (f r t).2.cache = t.cache ∧ (f r t).2.idle = t.idle) :
    Ensures (sharing env) p (fun doc _ => ConfinedTo env job doc)
      (prog.attempt >>= fun r => Prog.step (f r) >>= fun _ => Prog.ofExcept r) s := by
  have hlast : ∀ r t, Sound env t →
      (∀ doc, r = .ok doc → ConfinedTo env job doc) →
      Ensures (sharing env) p (fun doc _ => ConfinedTo env job doc)
        (Prog.step (f r) >>= fun _ => Prog.ofExcept r) t := fun r t ht hr =>
    Safe.bind (safe_harmless ht (hf r t) fun _ _ _ => Ensures.ofExcept hr)
  refine .bind (Safe.attempt ((hprog.and_inv h).mono ?_ ?_))
  · rintro doc t ⟨hdoc, ht⟩
    refine hlast _ _ ht fun doc' hdoc' => ?_
    obtain rfl := Except.ok.inj hdoc'
    exact hdoc
  · rintro e t ⟨-, ht⟩
    exact hlast _ _ ht nofun

theorem safe_request :
    Ensures (sharing env) p (fun doc _ => ConfinedTo env job doc)
      (request env o job) s := by
  unfold request
  split
  · trivial
  · rename_i u hu
    refine .bind (safe_harmless h ⟨rfl, rfl, rfl, rfl, rfl⟩ fun t _ ht => ?_)
    exact safe_finally ht (safe_exchange hu ht) fun _ _ => ⟨rfl, rfl, rfl, rfl, rfl⟩

theorem safe_doFetch :
    Ensures (sharing env) p (fun doc _ => ConfinedTo env job doc)
        (doFetch env o job) s := by
  unfold doFetch acquire
  refine .bind (Ensures.exec (fun _ => ?_) fun _ _ _ t _ ht => ?_)
  · split
    · exact ⟨⟨h.cache, h.group, h.results, h.idle⟩, .of_eq rfl⟩
    · exact ⟨h, .of_eq rfl⟩
  · exact safe_finally ht (safe_request ht) fun _ _ => ⟨rfl, rfl, rfl, rfl, rfl⟩

/-- **A flight** comes to a document that may be given to whoever asks for its key. -/
theorem safe_fly :
    Ensures (sharing env) p (fun doc _ => ConfinedAt env job.key doc) (fly env o job) s := by
  unfold fly
  refine .bind ((safe_getCached h).mono ?_)
  rintro (_ | cached) t₁ ⟨-, h₁, hcached⟩
  · refine .bind ((safe_getCachedFailure h₁).mono ?_)
    rintro (_ | e) t₂ ⟨-, h₂⟩
    · refine .bind (Safe.attempt (((safe_doFetch h₂).and_inv h₂).mono ?_ ?_))
      · exact fun doc t₃ hdoc => hdoc.1.at
      · rintro e t₃ ⟨-, h₃⟩
        dsimp only
        split
        · exact Ensures.seq (safe_putFailure h₃) fun _ _ _ => trivial
        · trivial
    · trivial
  · exact hcached cached rfl

variable {i : FetchID}

theorem safe_deliver {r : Except FetchError Fetched} (hjob : s.jobs i = some job)
    (hr : ∀ doc, r = .ok doc → ConfinedAt env job.key doc) :
    Ensures (sharing env) p (fun _ _ => True) (deliver i job r) s := by
  unfold deliver
  refine safe_step fun _ =>
    ⟨⟨h.cache, fun key j hj => ?_, fun j doc hj => ?_, h.idle⟩, .of_eq rfl, ?_⟩
  · -- What is left of the group was in it.
    refine h.group key j ?_
    dsimp only at hj
    split at hj
    · by_cases hkey : key = job.key
      · rw [hkey, Function.update_self] at hj
        cases hj
      · rwa [Function.update_of_ne hkey] at hj
    · exact hj
  · dsimp only at hj
    by_cases hij : j = i
    · subst hij
      rw [Function.update_self] at hj
      exact ⟨job, hjob, hr doc (Option.some.inj hj)⟩
    · rw [Function.update_of_ne hij] at hj
      exact h.results j doc hj
  · exact fun _ _ _ => trivial

theorem safe_flight : Ensures (sharing env) p (fun _ _ => True) (flight env o i) s := by
  unfold flight
  refine .bind (safe_step fun _ => ⟨h, .of_eq rfl, fun t hrely ht => ?_⟩)
  dsimp only
  cases hjob : s.jobs i with
  | none => trivial
  | some job =>
    have hfly : Ensures (sharing env) p (fun doc _ => ConfinedAt env job.key doc)
      (fly env o job) t := safe_fly ht
    have hkept := (hfly.and_inv ht).and_kept (P := fun u => u.jobs i = some job)
      (fun _ _ hdoes _ => hdoes.jobs i job) (fun _ _ hsees _ => hsees.jobs i job)
        (hrely.jobs i job hjob)
    refine .bind (Safe.attempt (hkept.mono ?_ ?_))
    · rintro doc u ⟨⟨hdoc, hu⟩, hjobu⟩
      refine safe_deliver hu hjobu fun doc' hdoc' => ?_
      obtain rfl := Except.ok.inj hdoc'
      exact hdoc
    · rintro e u ⟨⟨-, hu⟩, hjobu⟩
      exact safe_deliver hu hjobu nofun

theorem safe_doChan (hnew : s.jobs i = none) :
    Ensures (sharing env) (.call i) (fun j t => Sound env t ∧ ∃ job', t.jobs j = some job' ∧
      job'.key = job.key)
      (doChan i job) s := by
  unfold doChan
  refine safe_step fun _ => ?_
  cases hgroup : s.group job.key with
  | some j =>
    refine ⟨h, .of_eq rfl, fun t hrely ht => ⟨ht, ?_⟩⟩
    obtain ⟨job', hjob', hkey⟩ := h.group job.key j hgroup
    exact ⟨job', hrely.jobs j job' hjob', hkey⟩
  | none =>
    -- The flights that there are stay what they are, since the call has had none.
    have hkept : ∀ j job', s.jobs j = some job' →
      Function.update s.jobs i (some job) j = some job' := by
      intro j job' hjob'
      by_cases hij : j = i
      · rw [hij, hnew] at hjob'
        cases hjob'
      · rw [Function.update_of_ne hij]
        exact hjob'
    refine ⟨⟨h.cache, fun key j hj => ?_, fun j doc hj => ?_, h.idle⟩, ⟨hkept, fun j hj => ?_⟩, ?_⟩
    · dsimp only at hj ⊢
      by_cases hkey : key = job.key
      · rw [hkey, Function.update_self] at hj
        obtain rfl := Option.some.inj hj
        exact ⟨job, Function.update_self .., hkey.symm⟩
      · rw [Function.update_of_ne hkey] at hj
        obtain ⟨job', hjob', hkey'⟩ := h.group key j hj
        exact ⟨job', hkept j job' hjob', hkey'⟩
    · obtain ⟨job', hjob', hdoc⟩ := h.results j doc hj
      exact ⟨job', hkept j job' hjob', hdoc⟩
    · exact Function.update_of_ne (fun hji => hj (by rw [hji])) _ _
    · exact fun t hrely ht => ⟨ht, job, hrely.jobs i job (Function.update_self ..), rfl⟩

theorem safe_wait {j : FetchID} {job' : Job} (hjob : s.jobs j = some job')
    (hkey : job'.key = job.key) :
      Ensures (sharing env) p (fun doc _ => ConfinedAt env job.key doc) (wait j) s := by
  unfold wait
  refine .exec (fun _ => ?_) fun doc hok _ t _ _ => ?_
  · split
    · exact ⟨h, .of_eq rfl⟩
    · exact ⟨h, .of_eq rfl⟩
  · cases hresult : s.results j with
    | none =>
      rw [hresult] at hok
      cases hok
    | some r =>
      rw [hresult] at hok
      obtain ⟨job'', hjob'', hdoc⟩ := h.results j doc (by rw [hresult, ← hok])
      obtain rfl : job' = job'' := Option.some.inj (hjob.symm.trans hjob'')
      rw [← hkey]
      exact hdoc

/-- **A call** that has made no step is given what may be given to it. -/
theorem safe_fetch (hnew : s.jobs i = none) :
    Ensures (sharing env) (.call i)
      (fun doc _ => gate env o job.docURL job.cfg = .ok () ∧ ConfinedTo env job doc)
      (fetch env o i job) s := by
  unfold fetch
  refine .bindOfExcept fun _ hgate => ?_
  refine .bind ((safe_getCached h).mono ?_)
  rintro (_ | cached) t₁ ⟨hrely₁, h₁, hcached⟩
  · refine .bind ((safe_getCachedFailure h₁).mono ?_)
    rintro (_ | e) t₂ ⟨hrely₂, h₂⟩
    · have hnew₂ : t₂.jobs i = none := (hrely₂.own i rfl).trans ((hrely₁.own i rfl).trans hnew)
      refine .bind ((safe_doChan h₂ hnew₂).mono ?_)
      rintro j t₃ ⟨h₃, job', hjob', hkey⟩
      exact (safe_wait h₃ hjob' hkey).mono fun doc _ hdoc => ⟨hgate, hdoc.confined⟩
    · trivial
  · exact ⟨hgate, (hcached cached rfl).confined⟩

omit h in
theorem scheme_of_gate {cfg : CIMDFetchConfig} (hgate : gate env o docURL cfg = .ok ())
    (hrequire : cfg.requireHTTPS = true) (hu : env.urlParse docURL = some u) :
      u.scheme = "https" := by
  simp only [gate, hu, hrequire, Bool.true_and] at hgate
  split at hgate
  · cases hgate
  · rename_i hscheme
    simpa using hscheme

end

/-! ### All calls together -/

/-- What is known of what a party has returned. -/
def Post (env : Env) (o : Outside) (calls : FetchID → Job) : (p : Party) → p.Result → Fetcher → Prop
  | .call i => fun doc _ => gate env o (calls i).docURL (calls i).cfg = .ok () ∧
      Confined env (calls i).docURL (calls i).cfg.allowPrivateAddresses doc
  | .flight _ => fun _ _ => True

theorem ready_pool (env : Env) (o : Outside) (calls : FetchID → Job) :
    (pool env o calls).Ready (sharing env) (Post env o calls) fun _ _ _ => True := by
  refine ⟨sound_new env, fun p t hrely ht => ?_⟩
  cases p with
  | call i => exact safe_fetch ht (hrely.own i rfl)
  | flight i => exact safe_flight ht

/-- **A filtered fetch never returns what a private address served**, and one that requires HTTPS
never what was fetched over another scheme: for every schedule of any calls, whatever the network
answers and whenever, a document that a call returns was obtained over a connection to an address
that is not private in either form, unless the call allows it, and over HTTPS, if the call requires
it. -/
theorem filtered_fetch (env : Env) (o : Outside) (calls : FetchID → Job)
    (sched : Schedule Party)
    (i : FetchID) (doc : Fetched)
      (hret : ((pool env o calls).exec sched).procs (.call i) = .ret doc) :
    ((calls i).cfg.allowPrivateAddresses = false →
      ∀ ip, ip.Equal doc.conn.remote → SSRF.isPrivateIP ip = false) ∧
    ((calls i).cfg.requireHTTPS = true → doc.conn.scheme = "https") := by
  have hadmitted : (pool env o calls).Admitted (sharing env) sched :=
    Pool.admitted_of_all (fun _ _ _ => trivial) sched fun _ _ _ => trivial
  obtain ⟨hgate, ⟨u, hu, hscheme⟩, hremote⟩ :=
    ((ready_pool env o calls).exec sched hadmitted).post hret
  refine ⟨fun hallow ip hip => ?_, fun hrequire => ?_⟩
  · rw [SSRF.isPrivateIP_of_equal hip]
    exact hremote hallow
  · rw [hscheme]
    exact scheme_of_gate hgate hrequire hu

namespace Sample

/-- A deployment in which every URL is one of `client.example`. -/
def env : Env :=
  { Env.plain with
    urlParse := fun _ =>
      some ⟨"https", "client.example", "client.example", "/client.json", "", "", ""⟩ }

def document : CIMDDocument :=
  ⟨"https://client.example/client.json", ["https://client.example/callback"], "Client",
    ["authorization_code"], ["code"], "none"⟩

/-- A world in which the name has a private address for who does not filter and a public one for who
does. -/
def outside : Outside where
  now := fun _ => 0
  lookupIPAddr := fun _ _ => .ok [.v6 0xffff08080808]
  dialAddress := fun _ _ _ => .ok ()
  dialName := fun _ _ => .ok (.v4 0x7f000001)
  respond := fun _ _ _ => .ok ⟨200, "application/json", [], "", .ok ⟨200, some document⟩⟩
  pick := fun _ => 0
  keepAlive := fun _ => true
  walk := fun _ keys => keys
  parseIP := fun _ => none
  ipString := fun _ => ""
  canonicalAddr := fun u => u.host ++ ":443"
  splitHostPort := fun _ => some ("client.example", "443")
  atoi := fun _ => none
  parseTime := fun _ => none

/-- The first call does not filter; the others do. -/
def calls : FetchID → Job
  | 0 => ⟨"https://client.example/client.json", false, true, 300000000000⟩
  | _ => ⟨"https://client.example/client.json", true, false, 300000000000⟩

def whole (i : FetchID) : Schedule Party :=
  List.replicate 3 (.call i, false) ++ List.replicate 20 (.flight i, false) ++ [(.call i, false)]

end Sample

theorem filtered_fetch_after_unfiltered :
    ((pool Sample.env Sample.outside Sample.calls).exec
      (Sample.whole 0 ++ Sample.whole 1)).procs (.call 0) =
        .ret ⟨Sample.document, ⟨"https", "client.example:443", .v4 0x7f000001⟩⟩ ∧
      ((pool Sample.env Sample.outside Sample.calls).exec
        (Sample.whole 0 ++ Sample.whole 1)).procs (.call 1) =
        .ret ⟨Sample.document, ⟨"https", "client.example:443", .v4 0x08080808⟩⟩ ∧
      SSRF.isPrivateIP (.v6 0xffff08080808) = false := by
  have hret : ((pool Sample.env Sample.outside Sample.calls).exec
    (Sample.whole 0 ++ Sample.whole 1)).procs (.call 1) =
      .ret ⟨Sample.document, ⟨"https", "client.example:443", .v4 0x08080808⟩⟩ := rfl
  exact ⟨rfl, hret, (filtered_fetch Sample.env Sample.outside Sample.calls _ 1 _ hret).1 rfl _ rfl⟩

end CIMD

end AuthServer
