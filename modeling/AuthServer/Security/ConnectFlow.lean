import Mathlib.Data.List.Perm.Subperm
import AuthServer.Service.Connect
import AuthServer.Service.Rules

/-!
# A connection completes once, for the user who began it

Connections that are started and completed, by any users and with any tokens, interleaved store call
by store call. A pending state goes through three hands: it is stored, it is consumed, and the call
that consumed it takes it to the provider's callback. Only the second step is atomic with the
removal of the row, and the third is made by the same call and at most once; so the invariant counts
what was consumed against what was stored, and what was called back against what was consumed
(`Inv.balance`, `Inv.called`).

The provider and the resource of a connection are looked up when it is started, the user is compared
when it is completed. Neither table is written by these calls, so both lookups are those of the
first state of the run. -/

namespace AuthServer

open Interleave Table

namespace ConnectFlow

open ConnectService

/-! ### The calls -/

inductive Action
  | start (userID providerSlug resourceSlug returnURL : String)
  | complete (userID stateToken code : String)
  | tick (elapsed : ℕ)

/-- What a call returns. -/
inductive Answer
  | upstreamURL (url : String)
  | completed (result : CompleteConnectResult)
  | ticked

def program (env : Env) (conf : Connector) (i : ReqID) : Action → Prog Connections Err Answer
  | .start userID providerSlug resourceSlug returnURL => do
    let url ← startConnect env conf i userID providerSlug resourceSlug returnURL
    pure (.upstreamURL url)
  | .complete userID stateToken code => do
    let result ← completeConnect env conf i userID stateToken code
    pure (.completed result)
  | .tick elapsed => do
    onWorld (Prog.step fun w => ((), { w with clock := w.clock + elapsed }))
    pure .ticked

/-- The calls, on a database. -/
def pool (env : Env) (conf : Connector) (actions : ReqID → Action) (s : Connections) :
    Pool ReqID Connections Err fun _ => Answer where
  store := s
  procs i := program env conf i (actions i)

/-! ### Return URLs -/

/-- An entry with a wildcard admits the URL: the scheme and the loopback host of the entry, a port,
and then nothing or a path. -/
def Admits (entry url : String) : Prop :=
  ∃ scheme ∈ ["http://", "https://"], ∃ host ∈ ["localhost", "127.0.0.1"],
    entry = scheme ++ host ++ ":*" ∧ ∃ port path : List Char,
      port ≠ [] ∧ (∀ c ∈ port, c.isDigit = true) ∧ (path = [] ∨ path.head? = some '/') ∧
        url.toList = (scheme ++ host ++ ":").toList ++ port ++ path

/-- The list of the resource and that of the configuration. -/
def allowlist (conf : Connector) (target : Resource) : List String :=
  target.policy.connectAllowedReturnURLs ++ conf.allowedReturnURLs

/-- This server's own page, a string of a list, or a loopback URL that an entry with a wildcard
admits. -/
def Permitted (env : Env) (conf : Connector) (target : Resource) (url : String) : Prop :=
  (∃ base ∈ [redirectBase conf, env.issuer], base ≠ "" ∧ url = base ++ "/connections") ∨
    url ∈ allowlist conf target ∨ ∃ entry ∈ allowlist conf target, Admits entry url

theorem entry_of_wildcard {entry start : String} (h : loopbackWildcardPrefix entry = some start) :
    ∃ scheme ∈ ["http://", "https://"], ∃ host ∈ ["localhost", "127.0.0.1"],
      entry = scheme ++ host ++ ":*" ∧ start = scheme ++ host ++ ":" := by
  unfold loopbackWildcardPrefix at h
  repeat' split at h
  all_goals first
    | cases h
      done
    | obtain rfl := Option.some.inj h
      rename_i hentry
      rw [beq_iff_eq] at hentry
      subst hentry
      decide

theorem ports_of_matchPort {rest : List Char} (h : matchPort rest = true) :
    ∃ port path : List Char, port ≠ [] ∧ (∀ c ∈ port, c.isDigit = true) ∧
      (path = [] ∨ path.head? = some '/') ∧ rest = port ++ path := by
  unfold matchPort at h
  simp only [Bool.and_eq_true, Bool.or_eq_true, Bool.not_eq_true', List.isEmpty_eq_false_iff,
    List.isEmpty_iff, beq_iff_eq] at h
  refine ⟨_, _, h.1, fun c hc => ?_, h.2, List.takeWhile_append_dropWhile.symm⟩
  simpa [Char.isDigit, Char.le_def] using List.all_eq_true.mp List.all_takeWhile c hc

/-- **The matcher.** A URL that matches an entry is the entry, or the entry admits it by its
wildcard. -/
theorem of_matchReturnURL {entry url : String} (h : matchReturnURL entry url = true) :
    entry = url ∨ Admits entry url := by
  unfold matchReturnURL at h
  rcases Bool.or_eq_true_iff.mp h with heq | hwild
  · exact .inl (beq_iff_eq.mp heq)
  · split at hwild
    · cases hwild
    · rename_i start hstart
      obtain ⟨hstarts, hport⟩ := Bool.and_eq_true_iff.mp hwild
      obtain ⟨scheme, hscheme, host, hhost, hentry, rfl⟩ := entry_of_wildcard hstart
      obtain ⟨port, path, hne, hdigits, hpath, hrest⟩ := ports_of_matchPort hport
      obtain ⟨rest, hurl⟩ := List.isPrefixOf_iff_prefix.mp hstarts
      rw [← hurl, List.drop_left] at hrest
      refine .inr ⟨scheme, hscheme, host, hhost, hentry, port, path, hne, hdigits, hpath, ?_⟩
      rw [← hurl, hrest, List.append_assoc]

theorem permitted_of_allowed {env : Env} {conf : Connector} {url : String} {target : Resource}
    (h : isReturnURLAllowed env conf url target = true) : Permitted env conf target url := by
  have hentry : ∀ {entry}, entry ∈ allowlist conf target → matchReturnURL entry url = true →
      Permitted env conf target url := by
    intro entry hmem hmatch
    rcases of_matchReturnURL hmatch with rfl | hadmits
    · exact .inr (.inl hmem)
    · exact .inr (.inr ⟨entry, hmem, hadmits⟩)
  unfold isReturnURLAllowed at h
  simp only [Bool.and_eq_true, Bool.or_eq_true, List.any_eq_true] at h
  obtain ⟨-, (hself | ⟨entry, hmem, hmatch⟩) | ⟨entry, hmem, hmatch⟩⟩ := h
  · unfold matchesASelf at hself
    obtain ⟨base, hbase, heq⟩ := List.any_eq_true.mp hself
    obtain ⟨hne, hurl⟩ := Bool.and_eq_true_iff.mp heq
    exact .inl ⟨base, hbase, bne_iff_ne.mp hne, beq_iff_eq.mp hurl⟩
  · exact hentry (List.mem_append_left _ hmem) hmatch
  · exact hentry (List.mem_append_right _ hmem) hmatch

/-! ### What is stored, and what for -/

section Flow

variable (env : Env) (conf : Connector) (actions : ReqID → Action) (s : Connections)

def Starts (userID providerSlug resourceSlug returnURL : String)
    (st : ConnectPendingState) : Prop :=
  st.userID = userID ∧ st.returnURL = returnURL ∧ ∃ provider target,
    BrokerProviderStore.getBySlug providerSlug s.world = .ok provider ∧
    targetResource env resourceSlug provider s.world = .ok target ∧
    st.providerID = provider.id ∧ st.resourceID = target.id ∧ Permitted env conf target returnURL

def Began (i : ReqID) (st : ConnectPendingState) : Prop :=
  ∃ userID providerSlug resourceSlug returnURL,
    actions i = .start userID providerSlug resourceSlug returnURL ∧
    Starts env conf s userID providerSlug resourceSlug returnURL st

/-- The credential of the grant is the one that the callback answered for the pending state, and it
is the user's and the provider's of that state. -/
def Obtained (st : ConnectPendingState) (g : BrokerGrant) : Prop :=
  g.userID = st.userID ∧ g.brokerProviderID = st.providerID ∧ ∃ provider res code now answer,
    BrokerProviderStore.getByID st.providerID s.world = .ok provider ∧
    conf.handleCallback provider res code (callbackURL env conf provider.slug) st now = .ok answer ∧
    env.encrypt answer.1 (BrokerIssuer.brokerOwnerContext st.userID st.providerID) =
      some g.credentialData ∧
    g.scopesGranted = answer.2

/-- What holds in every state of a run. -/
structure Inv (t : Connections) : Prop where
  providers : t.world.brokerProviders = s.world.brokerProviders
  resources : t.world.resources = s.world.resources
  began : ∀ e ∈ t.started, Began env conf actions s e.1 e.2
  /-- What is pending and what was consumed has been stored, or was there. -/
  balance : ∀ st, t.pending.count st + (t.consumed.map Prod.snd).count st ≤
    (t.started.map Prod.snd).count st + s.pending.count st
  /-- What was called back has been consumed, by the same call. -/
  called : t.calledBack.Subperm t.consumed
  owner : ∀ e ∈ t.calledBack, ∃ code, actions e.1 = .complete e.2.userID e.2.id code
  credentials : ∀ g ∈ t.world.brokerGrants, g ∈ s.world.brokerGrants ∨ ∃ e ∈ t.calledBack,
    Obtained env conf s e.2 g

end Flow

def own (i : ReqID) (t : Connections) : List (ReqID × ConnectPendingState) × List
    (ReqID × ConnectPendingState) :=
  (t.consumed.filter (·.1 == i), t.calledBack.filter (·.1 == i))

/-- A call consumes and calls back in its own name only. -/
def contract (env : Env) (conf : Connector) (actions : ReqID → Action) (s : Connections) :
    Contract ReqID Connections where
  inv := Inv env conf actions s
  rely := fun i u v => own i v = own i u
  guar := fun i u v => ∀ j, j ≠ i → own j v = own j u
  admits := fun _ _ _ => True
  faulty := True
  rely_refl := fun _ _ => rfl
  rely_trans := fun h h' => h'.trans h
  rely_of_guar := fun hij _ h => h _ hij.symm

/-- On the tables: the directory stays, and every new grant satisfies the predicate. -/
def storing (w₀ : World) (P : BrokerGrant → Prop) : Contract ReqID World where
  inv := fun w => w.brokerProviders = w₀.brokerProviders ∧ w.resources = w₀.resources
  rely := fun _ _ _ => True
  guar := fun _ w w' => ∀ g ∈ w'.brokerGrants, g ∈ w.brokerGrants ∨ P g
  admits := fun _ _ _ => True
  faulty := True
  rely_refl := fun _ _ => trivial
  rely_trans := fun _ _ => trivial
  rely_of_guar := fun _ _ _ => trivial

/-! ### On the tables -/

section Tables

variable {env : Env} {conf : Connector} {i : ReqID} {s : Connections}
    {P : BrokerGrant → Prop} {w : World}

/-- Only random strings were drawn. -/
def Draws (w w' : World) : Prop := ∃ drawn, w' = { w with drawn := drawn }

theorem Draws.storing {u v : World} (hu : (storing s.world P).inv u) (h : Draws u v) :
    (ConnectFlow.storing s.world P).inv v ∧ (ConnectFlow.storing s.world P).guar i u v ∧
      (ConnectFlow.storing s.world P).rely i u v := by
  obtain ⟨drawn, rfl⟩ := h
  exact ⟨hu, fun g hg => .inl hg, trivial⟩

theorem draws_timeNow : timeNow.Each Draws := Prog.each_step fun w => ⟨w.drawn, rfl⟩

theorem draws_generateRandomString : (generateRandomString env i).Each Draws :=
    Prog.each_step fun _ => ⟨_, rfl⟩

variable (hw : (storing s.world P).inv w)
include hw

/-- A read of a table that stays. -/
theorem ensures_fetch {α : Type} {f : World → Except Err α} :
    Ensures (storing s.world P) i (fun a t => f w = .ok a ∧
      (storing s.world P).inv t) (fetch f) w :=
  Ensures.query hw (fun _ _ hg => .inl hg) fun _ ha _ _ ht => ⟨ha, ht⟩

variable {slug : String}

theorem getBySlug_of_inv :
    BrokerProviderStore.getBySlug slug w = BrokerProviderStore.getBySlug slug s.world := by
  unfold BrokerProviderStore.getBySlug
  rw [hw.1]

theorem getByID_of_inv {id : String} :
    BrokerProviderStore.getByID id w = BrokerProviderStore.getByID id s.world := by
  unfold BrokerProviderStore.getByID
  rw [hw.1]

variable {provider : BrokerProvider}

theorem targetResource_of_inv :
    targetResource env slug provider w = targetResource env slug provider s.world := by
  unfold targetResource ResourceRegistry.resolve ResourceStore.resolve
    singleBrokerResourceForProvider ResourceStore.list
  rw [hw.2]

/-- **Preparing a connection.** -/
theorem ensures_prepareConnect {userID providerSlug resourceSlug returnURL : String} :
    Ensures (storing s.world P) i
      (fun prepared _ => Starts env conf s userID providerSlug resourceSlug returnURL prepared.2)
      (prepareConnect env conf i userID providerSlug resourceSlug returnURL) w := by
  refine .bind (Safe.mapError (Ensures.mono (ensures_fetch hw) fun provider w₁ h₁ => ?_))
  obtain ⟨hprovider, hw₁⟩ := h₁
  refine Ensures.seq (ensures_fetch hw₁) fun target w₂ h₂ => ?_
  obtain ⟨htarget, hw₂⟩ := h₂
  refine Ensures.bindFailIf fun hallowed => Ensures.bindFailIf fun _ => ?_
  have htoken : (wrapErr "generate state token"
      (generateStateToken env conf i userID providerSlug returnURL)).Each Draws :=
    each_wrapErr (.failIf <| draws_generateRandomString.bind fun _ => Prog.each_pure _)
  refine .pass htoken (fun _ _ => Draws.storing) hw₂ fun token w₃ _ hw₃ => ?_
  refine .pass draws_generateRandomString (fun _ _ => Draws.storing) hw₃ fun verifier w₄ _ hw₄ => ?_
  refine .pass draws_generateRandomString (fun _ _ => Draws.storing) hw₄ fun id w₅ _ hw₅ => ?_
  refine .pass draws_timeNow (fun _ _ => Draws.storing) hw₅ fun now w₆ _ hw₆ => ?_
  refine .bindOfExcept fun built _ => ?_
  cases built.2 with
  | none => trivial
  | some st =>
    refine .pass draws_timeNow (fun _ _ => Draws.storing) hw₆ fun now' w₇ _ _ => ?_
    refine ⟨rfl, rfl, provider, target, ?_, ?_, rfl, rfl,
      permitted_of_allowed (by simpa using hallowed)⟩
    · rw [← getBySlug_of_inv hw]
      exact hprovider
    · rw [← targetResource_of_inv hw₁]
      exact htarget

/-- **Verifying a connection.** -/
theorem ensures_verifyConnect {userID stateToken : String} {pending : ConnectPendingState} :
    Ensures (storing s.world P) i
      (fun verified _ => BrokerProviderStore.getByID pending.providerID s.world = .ok verified.1)
      (verifyConnect env conf userID stateToken pending) w := by
  have hresource : (originatingResource env pending.resourceID).Each Draws := by
    have hread : ∀ {α : Type} {f : World → Except Err α}, (fetch f).Each Draws :=
      Prog.each_query fun w => ⟨w.drawn, rfl⟩
    unfold originatingResource
    split
    · trivial
    · refine (each_wrapErr (hread.bind fun r => ?_)).bind fun _ => Prog.each_pure _
      split
      · exact (each_wrapErr hread).bind fun _ => Prog.each_pure _
      · trivial
  refine .seq (ensures_wrapErr (ensures_fetch hw)) fun provider w₁ h₁ => ?_
  obtain ⟨hprovider, hw₁⟩ := h₁
  refine Ensures.bindOfExcept fun ok _ => Ensures.bindFailIf fun _ => ?_
  refine Ensures.bindFailIf fun _ => ?_
  refine .pass hresource (fun _ _ => Draws.storing) hw₁ fun res w₂ _ _ => ?_
  rw [← getByID_of_inv hw]
  exact hprovider

omit hw in
theorem mem_upsert {g x : BrokerGrant} (hx : x ∈ (BrokerGrantStore.upsert g w).2.brokerGrants) :
    x ∈ w.brokerGrants ∨ x.userID = g.userID ∧ x.brokerProviderID = g.brokerProviderID ∧
      x.credentialData = g.credentialData ∧ x.scopesGranted = g.scopesGranted := by
  unfold BrokerGrantStore.upsert at hx
  dsimp only at hx
  split at hx
  · obtain ⟨row, hrow, rfl⟩ := mem_updateWhere.mp hx
    split
    · rename_i hsame
      obtain ⟨huser, hprovider⟩ := Bool.and_eq_true_iff.mp hsame
      exact .inr ⟨beq_iff_eq.mp huser, beq_iff_eq.mp hprovider, rfl, rfl⟩
    · exact .inl hrow
  · split at hx
    · exact .inl hx
    · rcases List.mem_append.mp hx with hold | hnew
      · exact .inl hold
      · obtain rfl := List.mem_singleton.mp hnew
        exact .inr ⟨rfl, rfl, rfl, rfl⟩

theorem directory_upsert {g : BrokerGrant} :
    (storing s.world P).inv (BrokerGrantStore.upsert g w).2 := by
  unfold BrokerGrantStore.upsert
  dsimp only
  split
  · exact hw
  · split
    · exact hw
    · exact hw

/-- **Storing a credential.** -/
theorem ensures_storeCredential {userID : String} {answer : String × List String}
    (hP : ∀ g : BrokerGrant, g.userID = userID → g.brokerProviderID = provider.id →
      env.encrypt answer.1 (BrokerIssuer.brokerOwnerContext userID provider.id) =
        some g.credentialData →
      g.scopesGranted = answer.2 → P g) :
    Ensures (storing s.world P) i (fun _ _ => True)
      (storeCredential env i userID provider answer) w := by
  refine .bindOfExcept fun credential hcredential => ?_
  refine .pass draws_generateRandomString (fun _ _ => Draws.storing) hw fun id w₁ _ hw₁ => ?_
  refine ensures_wrapErr
    (Ensures.exec (fun _ => ⟨directory_upsert hw₁, fun g hg => ?_⟩) fun _ _ _ _ _ _ => trivial)
  rcases mem_upsert hg with hold | ⟨huser, hprovider, hdata, hscopes⟩
  · exact .inl hold
  · refine .inr (hP g huser hprovider ?_ hscopes)
    cases hencrypt : env.encrypt answer.1 (BrokerIssuer.brokerOwnerContext userID provider.id) with
    | none =>
      rw [hencrypt] at hcredential
      cases hcredential
    | some encrypted =>
      rw [hencrypt] at hcredential
      rw [hdata]
      exact congrArg some (Except.ok.inj hcredential)

end Tables

/-! ### The steps of a call -/

section Steps

variable {env : Env} {conf : Connector} {actions : ReqID → Action} {i : ReqID} {s t : Connections}

/-- A step that touches neither the pending states nor the history keeps the contract if every new
grant was obtained. -/
theorem Inv.withWorld (ht : Inv env conf actions s t) {w : World}
    (hinv : (storing s.world fun _ => False).inv w)
    (hgrants : ∀ g ∈ w.brokerGrants, g ∈ t.world.brokerGrants ∨ ∃ e ∈ t.calledBack,
      Obtained env conf s e.2 g) :
    Inv env conf actions s { t with world := w } where
  providers := hinv.1
  resources := hinv.2
  began := ht.began
  balance := ht.balance
  called := ht.called
  owner := ht.owner
  credentials := fun g hg => (hgrants g hg).elim (ht.credentials g) .inr

variable {α : Type} {Q : α → Prop} {p : Svc α}

/-- **A method on the tables**, made by a call with this history. -/
theorem safe_onWorld {P : BrokerGrant → Prop} {K : Connections → Prop}
    (hp : Ensures (storing s.world P) i (fun a _ => Q a) p t.world)
      (ht : Inv env conf actions s t) (hK : K t)
    (hkeep : ∀ u v, own i v = own i u → K u → K v)
    (hP : ∀ u, K u → ∀ g, P g → ∃ e ∈ u.calledBack, Obtained env conf s e.2 g) :
    Ensures (contract env conf actions s) i (fun a u => Q a ∧ Inv env conf actions s u ∧ K u)
      (onWorld p) t := by
  have hdirectory : ∀ u, Inv env conf actions s u → (storing s.world P).inv u.world := fun u hu =>
    ⟨hu.providers, hu.resources⟩
  refine .zoom_within (fun _ _ => rfl) hdirectory (fun _ _ _ => trivial) hkeep
    (fun u w hu hKu hinv hguar => ?_)
    (fun _ _ => trivial) (fun _ => trivial) hp ht hK
  refine ⟨hu.withWorld hinv fun g hg => ?_, fun _ _ => rfl, hkeep u _ rfl hKu⟩
  exact (hguar g hg).imp_right (hP u hKu g)

theorem safe_reading {X}
    (hp : Ensures (storing s.world fun _ => False) i (fun a _ => Q a) p t.world)
      (ht : Inv env conf actions s t)
    (hX : own i t = X) :
    Ensures (contract env conf actions s) i (fun a u => Q a ∧ Inv env conf actions s u ∧
      own i u = X) (onWorld p) t :=
  safe_onWorld hp ht hX (fun _ _ hown h => hown.trans h) fun _ _ _ h => h.elim

variable {st : ConnectPendingState}

/-- **Storing a pending state.** -/
theorem safe_insert (ht : Inv env conf actions s t) (hst : Began env conf actions s i st) :
    Ensures (contract env conf actions s) i (fun _ _ => True) (insert i st) t := by
  refine .exec (fun _ => ?_) fun _ _ _ _ _ _ => trivial
  split
  · exact ⟨ht, fun _ _ => rfl⟩
  · refine ⟨{ ht with began := fun e he => ?_, balance := fun st' => ?_ }, fun _ _ => rfl⟩
    · rcases List.mem_cons.mp he with rfl | he
      · exact hst
      · exact ht.began e he
    · have hbalance := ht.balance st'
      simp only [List.count_append, List.map_cons, List.count_cons, List.count_nil]
      omega

/-- **Consuming a pending state.** The row goes, and the call has the state. -/
theorem safe_consume {token : String} (ht : Inv env conf actions s t) (hown : own i t = ([], [])) :
    Ensures (contract env conf actions s) i
      (fun st u => st.id = token ∧ Inv env conf actions s u ∧ own i u = ([(i, st)], []))
        (consume i token) t := by
  have hnone : t.calledBack.filter (·.1 == i) = [] := (Prod.mk.inj hown).2
  have hfirst : t.consumed.filter (·.1 == i) = [] := (Prod.mk.inj hown).1
  have hothers : ∀ st : ConnectPendingState, ∀ j, j ≠ i →
      ((i, st) :: t.consumed).filter (·.1 == j) = t.consumed.filter (·.1 == j) := fun st j hj => by
    rw [List.filter_cons_of_neg (by simpa using Ne.symm hj)]
  unfold consume
  cases hfound : t.pending.find? fun st => st.id == token && t.world.clock < st.expiresAt with
  | none =>
    refine .exec (fun _ => ?_) fun a ha => ?_
    · rw [hfound]
      exact ⟨ht, fun _ _ => rfl⟩
    · rw [hfound] at ha
      cases ha
  | some st =>
    have hmem : st ∈ t.pending := List.mem_of_find?_eq_some hfound
    have hid : st.id = token := by
      have hmatch := List.find?_some hfound
      exact beq_iff_eq.mp (Bool.and_eq_true_iff.mp hmatch).1
    have hinv : Inv env conf actions s
        { t with
          pending := t.pending.filter (·.id != token), consumed := (i, st) :: t.consumed } := by
      refine { ht with
        balance := fun st' => ?_, called := ht.called.trans (List.sublist_cons_self _ _).subperm }
      have hbalance := ht.balance st'
      simp only [List.map_cons, List.count_cons]
      by_cases heq : st = st'
      · subst heq
        have hgone : (t.pending.filter (·.id != token)).count st = 0 :=
          List.count_eq_zero.mpr fun hin => by simpa [hid] using (List.mem_filter.mp hin).2
        have hpos : 0 < t.pending.count st := List.count_pos_iff.mpr hmem
        simp only [beq_self_eq_true, if_true]
        omega
      · have hle : (t.pending.filter (·.id != token)).count st' ≤ t.pending.count st' :=
          (List.filter_sublist).count_le _
        simp only [beq_iff_eq, heq, if_false]
        omega
    refine .exec (fun _ => ?_) fun a ha _ u hu hiu => ?_
    · rw [hfound]
      exact ⟨hinv, fun j hj => Prod.ext (hothers st j hj) rfl⟩
    · rw [hfound] at ha hu
      obtain rfl := Except.ok.inj ha
      refine ⟨hid, hiu, hu.trans (Prod.ext ?_ hnone)⟩
      show ((i, st) :: t.consumed).filter (·.1 == i) = [(i, st)]
      rw [List.filter_cons_of_pos (by simp), hfirst]

/-- **The callback.** The call has consumed the state and has not taken it there before. -/
theorem safe_callBack {code : String} {verified : BrokerProvider × Option Resource}
    (ht : Inv env conf actions s t) (hown : own i t = ([(i, st)], []))
    (hcall : actions i = .complete st.userID st.id code) :
    Ensures (contract env conf actions s) i
      (fun answer u => (∃ now, conf.handleCallback verified.1 verified.2 code
          (callbackURL env conf verified.1.slug) st now = .ok answer) ∧
        Inv env conf actions s u ∧ own i u = ([(i, st)], [(i, st)]))
      (callBack env conf i code st verified) t := by
  have hnone : t.calledBack.filter (·.1 == i) = [] := (Prod.mk.inj hown).2
  have hheld : t.consumed.filter (·.1 == i) = [(i, st)] := (Prod.mk.inj hown).1
  have hfresh : (i, st) ∉ t.calledBack := fun hin =>
    List.not_mem_nil (hnone ▸ List.mem_filter.mpr ⟨hin, beq_self_eq_true i⟩)
  have hconsumed : (i, st) ∈ t.consumed := by
    have hin : (i, st) ∈ t.consumed.filter (·.1 == i) := by
      rw [hheld]
      exact List.mem_singleton_self _
    exact (List.mem_filter.mp hin).1
  have hcalled : ((i, st) :: t.calledBack).Subperm t.consumed := by
    refine List.subperm_ext_iff.mpr fun e _ => ?_
    rw [List.count_cons]
    by_cases he : (i, st) = e
    · subst he
      have hpos : 0 < t.consumed.count (i, st) := List.count_pos_iff.mpr hconsumed
      rw [List.count_eq_zero.mpr hfresh]
      simpa using hpos
    · simpa [he] using ht.called.count_le e
  refine .bind (safe_step fun _ => ⟨?_, fun j hj => Prod.ext rfl ?_, fun u hu hiu => ?_⟩)
  · refine { ht with called := hcalled, owner := fun e he => ?_, credentials := fun g hg => ?_ }
    · rcases List.mem_cons.mp he with rfl | he
      · exact ⟨code, hcall⟩
      · exact ht.owner e he
    · exact (ht.credentials g hg).imp_right fun ⟨e, he, hg⟩ => ⟨e, List.mem_cons_of_mem _ he, hg⟩
  · show ((i, st) :: t.calledBack).filter (·.1 == j) = t.calledBack.filter (·.1 == j)
    rw [List.filter_cons_of_neg (by simpa using Ne.symm hj)]
  · refine Ensures.ofExcept fun answer hanswer =>
      ⟨⟨t.world.clock, ?_⟩, hiu, hu.trans (Prod.ext hheld ?_)⟩
    · exact mapError_eq_ok.mp hanswer
    · show ((i, st) :: t.calledBack).filter (·.1 == i) = [(i, st)]
      rw [List.filter_cons_of_pos (by simp), hnone]

def Done (i : ReqID) (answer : Answer) (t : Connections) : Prop :=
  ∀ result, answer = .completed result → ∃ st, (i, st) ∈ t.calledBack ∧
    result.returnURL = st.returnURL

/-- **Completing a connection.** -/
theorem safe_completeConnect {userID token code : String}
    (hcall : actions i = .complete userID token code)
    (ht : Inv env conf actions s t) (hown : own i t = ([], [])) :
    Ensures (contract env conf actions s) i
      (fun result u => ∃ st, (i, st) ∈ u.calledBack ∧ result.returnURL = st.returnURL)
      (completeConnect env conf i userID token code) t := by
  refine .bind (Safe.mapError (Ensures.mono (safe_consume ht hown) fun st t₁ h₁ => ?_))
  obtain ⟨rfl, ht₁, hown₁⟩ := h₁
  refine Ensures.bindFailIf fun huser => ?_
  obtain rfl : st.userID = userID := by simpa using huser
  refine .seq (safe_reading (ensures_verifyConnect ⟨ht₁.providers, ht₁.resources⟩) ht₁ hown₁)
    fun verified t₂ h₂ => ?_
  obtain ⟨hprovider, ht₂, hown₂⟩ := h₂
  refine .seq (safe_callBack ht₂ hown₂ hcall) fun answer t₃ h₃ => ?_
  obtain ⟨⟨now, hanswer⟩, ht₃, hown₃⟩ := h₃
  have hback : ∀ u, own i u = ([(i, st)], [(i, st)]) → (i, st) ∈ u.calledBack := fun u hu => by
    have hin : (i, st) ∈ u.calledBack.filter (·.1 == i) := by
      rw [(Prod.mk.inj hu).2]
      exact List.mem_singleton_self _
    exact (List.mem_filter.mp hin).1
  have hid : verified.1.id = st.providerID := BrokerProviderStore.id_of_getByID hprovider
  refine .seq (safe_onWorld (P := Obtained env conf s st) (Q := fun _ => True)
    (ensures_storeCredential
      ⟨ht₃.providers, ht₃.resources⟩ fun g hu hp hdata hscopes => ?_) ht₃ hown₃
    (fun _ _ h hu => h.trans hu) fun u hu g hg => ⟨(i, st), hback u hu, hg⟩) fun grant t₄ h₄ => ?_
  · rw [hid] at hp hdata
    exact ⟨hu, hp, verified.1, verified.2, code, now, answer, hprovider, hanswer, hdata, hscopes⟩
  · exact ⟨st, hback t₄ h₄.2.2, rfl⟩

/-- **Every call keeps the contract.** -/
theorem safe_program (ht : Inv env conf actions s t) (hown : own i t = ([], [])) :
    Ensures (contract env conf actions s) i (Done i) (program env conf i (actions i)) t := by
  cases hcall : actions i with
  | start userID providerSlug resourceSlug returnURL =>
    refine .bind (Ensures.seq (safe_reading
      (ensures_prepareConnect ⟨ht.providers, ht.resources⟩) ht hown) fun prepared t₁ h₁ => ?_)
    obtain ⟨hstarts, ht₁, -⟩ := h₁
    refine .bind (Safe.mapError
      (Ensures.mono (safe_insert ht₁ ⟨_, _, _, _, hcall, hstarts⟩) fun _ _ _ => ?_))
    exact fun result hresult => by cases hresult
  | complete userID token code =>
    refine .seq (safe_completeConnect hcall ht hown) fun result t₁ h₁ => ?_
    intro result' hresult
    obtain rfl := Answer.completed.inj hresult
    exact h₁
  | tick elapsed =>
    refine .bind (safe_step fun _ => ⟨ht.withWorld ⟨ht.providers, ht.resources⟩ fun g hg => .inl hg,
      fun _ _ => rfl, fun _ _ _ => ?_⟩)
    exact fun result hresult => by cases hresult

end Steps

/-! ### Every schedule -/

/-- **A connection completes once, for the user who began it.** In every state that any schedule of
connections being started and completed reaches:

* a pending state was taken to the provider's callback at most as often as it was stored, by the
  user whose state it is, with its token, and after it was stored by a call that started a
  connection;
* such a call stored its user, its return URL and its provider, and the return URL was permitted for
  the resource;
* a grant that was not there before has the credential that the callback answered for such a state,
  under the user and the provider of that state;
* a completed connection returns to the return URL of such a state.

States that were pending before the run count as stored. -/
theorem completes_once (env : Env) (conf : Connector) (actions : ReqID → Action) (s : Connections)
    (hconsumed : s.consumed = []) (hstarted : s.started = []) (hcalled : s.calledBack = [])
    (sched : Schedule ReqID) :
    (∀ st, (((pool env conf actions s).exec sched).store.calledBack.map Prod.snd).count st ≤
      (((pool env conf actions s).exec sched).store.started.map Prod.snd).count st +
        s.pending.count st) ∧
    (∀ e ∈ ((pool env conf actions s).exec sched).store.calledBack,
      (∃ code, actions e.1 = .complete e.2.userID e.2.id code) ∧
      (e.2 ∈ s.pending ∨ ∃ i, (i, e.2) ∈ ((pool env conf actions s).exec sched).store.started)) ∧
    (∀ e ∈ ((pool env conf actions s).exec sched).store.started, Began env conf actions s e.1 e.2) ∧
    (∀ g ∈ ((pool env conf actions s).exec sched).store.world.brokerGrants, g ∈
      s.world.brokerGrants ∨
      ∃ e ∈ ((pool env conf actions s).exec sched).store.calledBack, Obtained env conf s e.2 g) ∧
    ∀ i result, ((pool env conf actions s).exec sched).procs i = .ret (.completed result) →
      ∃ st, (i, st) ∈ ((pool env conf actions s).exec sched).store.calledBack ∧
        result.returnURL = st.returnURL := by
  have hinv : Inv env conf actions s s :=
    { providers := rfl
      resources := rfl
      began := fun e he => by simp [hstarted] at he
      balance := fun st => by simp [hconsumed]
      called := by simp [hcalled]
      owner := fun e he => by simp [hcalled] at he
      credentials := fun g hg => .inl hg }
  have hown : ∀ i, own i s = ([], []) := fun i => by simp [own, hconsumed, hcalled]
  have hready : Pool.Ready (contract env conf actions s) (fun i => Done i) (fun _ _ _ => True)
      (pool env conf actions s) :=
    ⟨hinv, fun i t hst ht => safe_program ht (hst.trans (hown i))⟩
  have hend := hready.exec sched
    (Pool.admitted_of_all (fun _ _ _ => trivial) sched fun _ _ _ => trivial)
  have hcount : ∀ st,
    (((pool env conf actions s).exec sched).store.calledBack.map Prod.snd).count st ≤
      (((pool env conf actions s).exec sched).store.started.map Prod.snd).count st + s.pending.count
        st := fun st => by
    obtain ⟨l, hperm, hsub⟩ := hend.inv.called
    have hle : (((pool env conf actions s).exec sched).store.calledBack.map Prod.snd).count st ≤
        (((pool env conf actions s).exec sched).store.consumed.map Prod.snd).count st := by
      rw [← (hperm.map Prod.snd).count_eq st]
      exact (hsub.map Prod.snd).count_le st
    have hbalance := hend.inv.balance st
    omega
  refine ⟨hcount, fun e he => ⟨hend.inv.owner e he, ?_⟩, hend.inv.began, hend.inv.credentials,
    fun i result hret =>
    hend.post hret result rfl⟩
  have hpos : 0 <
    (((pool env conf actions s).exec sched).store.calledBack.map Prod.snd).count e.2 :=
    List.count_pos_iff.mpr (List.mem_map_of_mem he)
  have hsum := hpos.trans_le (hcount e.2)
  by_cases hpending : e.2 ∈ s.pending
  · exact .inl hpending
  · rw [List.count_eq_zero.mpr hpending] at hsum
    obtain ⟨e', he', heq⟩ := List.mem_map.mp (List.count_pos_iff.mp hsum)
    exact .inr ⟨e'.1, heq ▸ he'⟩

/-! ### A run -/

namespace Sample

def env : Env := { Env.plain with adapterRegistered := fun _ => true }

/-- An upstream that answers every callback, and a server that admits loopback URLs. -/
def conf : Connector where
  redirectBaseURL := ""
  allowedReturnURLs := ["http://localhost:*"]
  stateKey := "key"
  hmacSHA256 := fun _ message => message
  encodeBase64 := id
  decodeBase64 := some
  buildConnectURL := fun _ _ userID returnURL _ scopes verifier id now =>
    .ok ("https://up", some ⟨id, userID, "", "", verifier, returnURL, scopes, now + 1⟩)
  handleCallback := fun _ _ _ _ _ _ => .ok ("credential", ["read"])

def connections : Connections where
  world := { World.empty 0 with
    brokerProviders := [⟨"p", "slug", "oauth"⟩]
    resources := [⟨"r", "notes", "https://notes", .broker, "p",
      [⟨"notes:read", "read"⟩], ⟨[], [], []⟩⟩] }
  pending := []
  started := []
  consumed := []
  calledBack := []

/-- Call `0` starts a connection, calls `1` and `2` are made with its token. -/
def actions : ReqID → Action
  | 0 => .start "u" "slug" "notes" "http://localhost:3000/done"
  | 1 => .complete "u" "-.-:u:slug:http://localhost:3000/done" "code"
  | 2 => .complete "u" "-.-:u:slug:http://localhost:3000/done" "code"
  | _ => .tick 0

/-- The state is stored, then both calls try to complete the connection. -/
def sched : Schedule ReqID :=
  List.replicate 8 (0, false) ++ [(1, false), (2, false)] ++ List.replicate 6 (1, false)

def ran : Pool ReqID Connections Err fun _ => Answer :=
    (pool env conf actions connections).exec sched

def completed : Prog Connections Err Answer → Option CompleteConnectResult
  | .ret (.completed result) => some result
  | _ => none

theorem ret_of_completed {p : Prog Connections Err Answer} {result : CompleteConnectResult}
    (h : completed p = some result) : p = .ret (.completed result) := by
  unfold completed at h
  split at h
  · rw [Option.some.inj h]
  · cases h

end Sample

/-- The first of the two calls completes the connection, and returns to the URL of the call that
began it. -/
theorem completes_once_for_user :
    (∃ st, (1, st) ∈ Sample.ran.store.calledBack ∧ "http://localhost:3000/done" = st.returnURL) ∧
      Sample.ran.store.calledBack.length = 1 ∧
      Sample.ran.store.world.brokerGrants.map
        (fun g => (g.userID, g.brokerProviderID)) = [("u", "p")] :=
  ⟨(completes_once Sample.env Sample.conf Sample.actions Sample.connections rfl rfl rfl
    Sample.sched).2.2.2.2 1
    ⟨"slug", ["read"], "http://localhost:3000/done"⟩ (Sample.ret_of_completed (by decide +kernel)),
    by decide +kernel, by decide +kernel⟩

end ConnectFlow

end AuthServer
