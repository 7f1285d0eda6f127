import Mathlib.Data.List.Induction
import AuthServer.Service.Connect
import AuthServer.Service.Rules

/-!
# A stale vend does not overwrite a connection

Broker vends, connections, disconnections and administrators' revocations, interleaved store call by
store call. A vend reads the grant, asks the upstream for a token and, if the upstream has rotated
the credential, writes it back under the version that it read. A connection moves the version, a
revocation does not.

What a program can do to the row of a user at a provider is said once for each kind of call
(`Rotates`, `Connects`, `Revokes`). For a vend it depends on the grant that it read, so it is said
of the program that is left when the grant has been read. -/

namespace AuthServer

open Interleave Table

namespace StaleVend

open ConnectService

/-! ### The calls -/

inductive Call
  | vend (req : BrokerIssueRequest)
  | connect (userID stateToken code : String)
  | disconnect (userID providerSlug : String)
  | revokeBroker (id : String)
  | tick (elapsed : ℕ)

def Call.isVend : Call → Bool
  | .vend _ => true
  | _ => false

def Call.isConnect : Call → Bool
  | .connect _ _ _ => true
  | _ => false

def program (env : Env) (conf : Connector) (i : ReqID) : Call → Prog Connections Err Unit
  | .vend req => do
    let _ ← onWorld (BrokerIssuer.issue env i req)
    pure ()
  | .connect userID stateToken code => do
    let _ ← completeConnect env conf i userID stateToken code
    pure ()
  | .disconnect userID providerSlug => onWorld (disconnect userID providerSlug)
  | .revokeBroker id => onWorld (revokeBroker id)
  | .tick elapsed => onWorld (Prog.step fun w => ((), { w with clock := w.clock + elapsed }))

/-- The calls under way. -/
abbrev Calls := Pool ReqID Connections Err fun _ => Unit

def pool (env : Env) (conf : Connector) (role : ReqID → Call) (s : Connections) :
    Calls where
  store := s
  procs i := program env conf i (role i)

def row (u p : String) (w : World) : Option BrokerGrant :=
  w.brokerGrants.find? fun g => g.userID == u && g.brokerProviderID == p

/-- The keys of the table. -/
structure Keyed (w : World) : Prop where
  id : UniqueKey (fun g : BrokerGrant => some g.id) w.brokerGrants
  pair : UniqueKey (fun g : BrokerGrant => some (g.userID, g.brokerProviderID)) w.brokerGrants

/-! ### What a call does to the row -/

variable (g : BrokerGrant) (r r' : Option BrokerGrant)

/-- A vend that has read the grant. -/
def Rotates : Prop :=
  r' = r ∨ ∃ x cred, r = some x ∧ x.id = g.id ∧ x.version = g.version ∧
    r' = some { x with
      credentialData := cred, scopesGranted := g.scopesGranted, version := x.version + 1 }

def Revokes : Prop :=
  r' = r ∨ ∃ x now, r = some x ∧ r' = some { x with revokedAt := some now }

def Connects : Prop :=
  r' = r ∨ (r = none ∧ ∃ x, r' = some x) ∨
    ∃ x cred scopes, r = some x ∧ r' = some { x with
      credentialData := cred
      scopesGranted := scopes
      version := x.version + 1
      revokedAt := none }

theorem Rotates.refl : Rotates g r r := .inl rfl

theorem Revokes.refl : Revokes r r := .inl rfl

theorem Connects.refl : Connects r r := .inl rfl

/-- What any call does to a row: it stays the row of the user at the provider, and its version does
not decrease. -/
structure Later (x x' : BrokerGrant) : Prop where
  id : x'.id = x.id
  userID : x'.userID = x.userID
  provider : x'.brokerProviderID = x.brokerProviderID
  version : x.version ≤ x'.version

theorem Later.refl (x : BrokerGrant) : Later x x := ⟨rfl, rfl, rfl, le_refl _⟩

theorem Later.trans {x y z : BrokerGrant} (h : Later x y) (h' : Later y z) : Later x z :=
  ⟨h'.id.trans h.id, h'.userID.trans h.userID, h'.provider.trans h.provider,
    h.version.trans h'.version⟩

/-- A step that changes rows along `R`. A row that appears has an id that there was not. -/
structure Step (R : Option BrokerGrant → Option BrokerGrant → Prop) (w w' : World) : Prop where
  change : ∀ u p, R (row u p w) (row u p w')
  grows : Grows Later w.brokerGrants w'.brokerGrants
  keyed : Keyed w → Keyed w'
  fresh : ∀ u p x, row u p w = none → row u p w' = some x → ∀ y ∈ w.brokerGrants, y.id ≠ x.id
  providers : w'.brokerProviders = w.brokerProviders

section

variable {R R' : Option BrokerGrant → Option BrokerGrant → Prop}
    {w w' : World} {u p : String} {x : BrokerGrant}

theorem mem_of_row (h : row u p w = some x) : x ∈ w.brokerGrants ∧ x.userID = u ∧
    x.brokerProviderID = p := by
  have hkey := List.find?_some h
  simp only [Bool.and_eq_true, beq_iff_eq] at hkey
  exact ⟨List.mem_of_find?_eq_some h, hkey⟩

theorem row_eq_of_mem (hw : Keyed w) (hx : x ∈ w.brokerGrants) :
    row x.userID x.brokerProviderID w = some x := by
  cases hrow : row x.userID x.brokerProviderID w with
  | none =>
    have hnone := List.find?_eq_none.mp hrow x hx
    simp at hnone
  | some y =>
    obtain ⟨hy, hu, hp⟩ := mem_of_row hrow
    rw [hw.pair y hy x hx (x.userID, x.brokerProviderID) (by simp only [hu, hp]) rfl]

theorem Step.mono (h : Step R w w') (hR : ∀ r r', R r r' → R' r r') : Step R' w w' :=
  ⟨fun u p => hR _ _ (h.change u p), h.grows, h.keyed, h.fresh, h.providers⟩

theorem Step.of_eq (hR : ∀ r, R r r) (hrows : w'.brokerGrants = w.brokerGrants)
    (hproviders : w'.brokerProviders = w.brokerProviders) : Step R w w' := by
  have hrow : ∀ u p, row u p w' = row u p w := fun u p => by rw [row, row, hrows]
  refine ⟨fun u p => ?_, ?_, fun hw => ?_, fun u p x hnone hsome => ?_, hproviders⟩
  · rw [hrow]
    exact hR _
  · rw [hrows]
    exact Grows.refl Later.refl _
  · exact ⟨by rw [hrows]; exact hw.id, by rw [hrows]; exact hw.pair⟩
  · rw [hrow, hnone] at hsome
    cases hsome

/-- A step that rewrites the rows that satisfy a condition. -/
theorem Step.of_updateWhere {q : BrokerGrant → Bool} {f : BrokerGrant → BrokerGrant}
    (hrows : w'.brokerGrants = updateWhere q f w.brokerGrants) (hf : ∀ x, Later x (f x))
    (hsame : ∀ r, R r r) (hR : ∀ x, q x = true → R (some x) (some (f x)))
    (hproviders : w'.brokerProviders = w.brokerProviders) : Step R w w' := by
  have hrow : ∀ u p, row u p w' = (row u p w).map fun x => if q x then f x else x := by
    intro u p
    rw [row, hrows, find?_updateWhere fun x => by rw [(hf x).userID, (hf x).provider]]
    rfl
  refine ⟨fun u p => ?_, fun x hx => ?_, fun hw => ⟨?_, ?_⟩,
    fun u p x hnone hsome => ?_, hproviders⟩
  · rw [hrow]
    cases row u p w with
    | none => exact hsame none
    | some x =>
      by_cases hq : q x = true
      · simpa only [Option.map_some, hq, if_true] using hR x hq
      · simpa [hq] using hsame (some x)
  · refine ⟨if q x then f x else x, ?_, ?_⟩
    · rw [hrows]
      exact mem_updateWhere.mpr ⟨x, hx, rfl⟩
    · split
      · exact hf x
      · exact Later.refl x
  · rw [hrows]
    exact hw.id.updateWhere fun x => by rw [(hf x).id]
  · rw [hrows]
    exact hw.pair.updateWhere fun x => by rw [(hf x).userID, (hf x).provider]
  · rw [hrow, hnone] at hsome
    cases hsome

theorem step_updateWithVersion (cred : String) (w : World) :
    Step (Rotates g) w (BrokerGrantStore.updateWithVersion { g with
      credentialData := cred } w).2 := by
  unfold BrokerGrantStore.updateWithVersion
  split
  · refine .of_updateWhere rfl (fun x => ⟨rfl, rfl, rfl, ?_⟩) (Rotates.refl g) (fun x hx => ?_) rfl
    · exact Int.le_add_one (le_refl _)
    · simp only [Bool.and_eq_true, beq_iff_eq] at hx
      exact .inr ⟨x, cred, rfl, hx.1, hx.2, rfl⟩
  · exact .of_eq (Rotates.refl g) rfl rfl

theorem step_revoke (id : String) (w : World) : Step Revokes w (BrokerGrantStore.revoke id w).2 :=
  .of_updateWhere rfl (fun _ => ⟨rfl, rfl, rfl, le_refl _⟩) Revokes.refl
    (fun x _ => .inr ⟨x, w.clock, rfl, rfl⟩) rfl

theorem step_upsert (w : World) : Step Connects w (BrokerGrantStore.upsert g w).2 := by
  unfold BrokerGrantStore.upsert
  dsimp only
  split
  · refine .of_updateWhere rfl (fun x => ⟨rfl, rfl, rfl, ?_⟩) Connects.refl (fun x _ => ?_) rfl
    · exact Int.le_add_one (le_refl _)
    · exact .inr (.inr ⟨x, g.credentialData, g.scopesGranted, rfl, rfl⟩)
  · rename_i hnone
    split
    · exact .of_eq Connects.refl rfl rfl
    · rename_i hids
      have hfresh : ∀ y ∈ w.brokerGrants, y.id ≠ g.id := by simpa using hids
      have hpair : ∀ y ∈ w.brokerGrants,
        ¬(y.userID = g.userID ∧ y.brokerProviderID = g.brokerProviderID) := by
        simpa using hnone
      have hrow : ∀ u p, row u p { w with
        brokerGrants := w.brokerGrants ++ [{ g with version := 1, revokedAt := none }] } =
          (row u p w).or (if g.userID = u ∧ g.brokerProviderID = p then some { g with
            version := 1, revokedAt := none }
            else none) := by
        intro u p
        simp only [row, List.find?_append, List.find?_singleton, Bool.and_eq_true, beq_iff_eq]
      refine ⟨fun u p => ?_, grows_append Later.refl _ _, fun hw => ⟨?_, ?_⟩,
        fun u p x hx hx' => ?_, rfl⟩
      · rw [hrow]
        cases row u p w with
        | some x => exact .inl rfl
        | none =>
          rw [Option.none_or]
          split
          · exact .inr (.inl ⟨rfl, _, rfl⟩)
          · exact .inl rfl
      · exact hw.id.append_singleton fun k hk y hy hy' =>
          hfresh y hy (Option.some.inj (hy'.trans hk.symm))
      · refine hw.pair.append_singleton fun k hk y hy hy' => ?_
        have heq := Prod.mk.inj (Option.some.inj (hy'.trans hk.symm))
        exact hpair y hy heq
      · rw [hrow, hx, Option.none_or] at hx'
        split at hx'
        · obtain rfl := Option.some.inj hx'
          exact hfresh
        · cases hx'

end

/-! ### The programs -/

def StepOn (R : Option BrokerGrant → Option BrokerGrant → Prop) (s t : Connections) : Prop :=
  Step R s.world t.world

section

variable {env : Env} {conf : Connector} {i : ReqID}
    {R : Option BrokerGrant → Option BrokerGrant → Prop} {α : Type}

theorem each_onWorld {p : Svc α} (hp : p.Each (Step R)) : (onWorld p).Each (StepOn R) :=
  hp.zoom fun _ _ => rfl

theorem each_read {f : World → Except Err α} (hR : ∀ r, R r r) : (fetch f).Each (Step R) :=
  Prog.each_query fun _ => .of_eq hR rfl rfl

theorem each_persistRotation (owner : String) (g : BrokerGrant) (cred : Option String) :
    (BrokerIssuer.persistRotation env owner g cred).Each (Step (Rotates g)) := by
  cases cred with
  | none => trivial
  | some cred =>
    simp only [BrokerIssuer.persistRotation]
    cases env.encrypt cred owner with
    | none => trivial
    | some encrypted =>
      refine (Prog.each_exec fun w => step_updateWithVersion g encrypted w).attempt.bind fun r => ?_
      cases r with
      | ok _ => trivial
      | error e =>
        dsimp only
        split <;> trivial

/-- **A vend** is nothing, or it starts with looking the grant up; and what it then does is decided
by the grant that it has read. -/
theorem program_vend (env : Env) (conf : Connector) (i : ReqID) (req : BrokerIssueRequest) :
    (∃ e, program env conf i (.vend req) = .fail e) ∨
      ∃ k : Except Err (Option BrokerGrant) → Prog Connections Err Unit,
        program env conf i (.vend req) = .call
          (fun s => (BrokerGrantStore.get req.subjectUserID req.provider.id s.world, s))
          (some (.error storeFault)) k ∧
        (∀ g, (k (.ok (some g))).Each (StepOn (Rotates g))) ∧
        (∃ e, k (.ok none) = .fail e) ∧ ∀ e, ∃ e', k (.error e) = .fail e' := by
  cases hbroker : req.resource.isBroker with
  | false =>
    left
    simp only [program, BrokerIssuer.issue, BrokerIssuer.clear, hbroker]
    exact ⟨_, rfl⟩
  | true =>
    right
    simp only [program, BrokerIssuer.issue, BrokerIssuer.clear, Prog.bind_assoc,
      Prog.pure_bind, hbroker]
    refine ⟨_, rfl, fun g => ?_, ⟨_, rfl⟩, fun _ => ⟨_, rfl⟩⟩
    refine (each_onWorld ?_).bind fun _ => Prog.each_pure _
    refine .ofExcept_eq fun grant hgrant => ?_
    obtain rfl : g = grant := Except.ok.inj hgrant
    refine .ofExcept fun upstream => .failIf <| ?_
    refine .ofExcept fun plaintext => .failIf <| ?_
    refine (Prog.each_step fun _ => .of_eq (Rotates.refl g) rfl rfl).bind fun now₀ => ?_
    refine .ofExcept fun vended => (each_persistRotation _ g _).bind fun _ => ?_
    refine (Prog.each_step fun _ => .of_eq (Rotates.refl g) rfl rfl).bind fun now => ?_
    refine (Prog.each_step fun _ => .of_eq (Rotates.refl g) rfl rfl).bind fun id => ?_
    refine (each_wrapErr (Prog.each_exec fun w => ?_)).bind fun _ => Prog.each_pure _
    unfold IssuanceStore.insert
    split <;> exact .of_eq (Rotates.refl g) rfl rfl

variable {pending : ConnectPendingState}

theorem each_verifyConnect {userID stateToken : String} :
    (verifyConnect env conf userID stateToken pending).Each (Step Connects) := by
  have hresource : (originatingResource env pending.resourceID).Each (Step Connects) := by
    unfold originatingResource
    split
    · trivial
    · refine (each_wrapErr ((each_read Connects.refl).bind fun r => ?_)).bind fun _ =>
        Prog.each_pure _
      split
      · exact (each_wrapErr (each_read Connects.refl)).bind fun _ => Prog.each_pure _
      · trivial
  refine (each_wrapErr (each_read Connects.refl)).bind fun provider => .ofExcept fun _ => ?_
  refine .failIf <| .failIf <| ?_
  exact hresource.bind fun res => Prog.each_pure _

theorem each_callBack {code : String} {verified : BrokerProvider × Option Resource} :
    (callBack env conf i code pending verified).Each (StepOn Connects) := by
  exact Prog.Each.bind (Prog.each_step fun s => Step.of_eq Connects.refl rfl rfl) fun _ =>
    Prog.each_ofExcept _

theorem each_storeCredential {userID : String} {provider : BrokerProvider}
    {answer : String × List String} :
    (storeCredential env i userID provider answer).Each (Step Connects) := by
  refine .ofExcept fun credential => ?_
  refine (Prog.each_step fun _ => .of_eq Connects.refl rfl rfl).bind fun id => ?_
  exact each_wrapErr (Prog.each_exec fun w => step_upsert _ w)

theorem each_completeConnect {userID stateToken code : String} :
    (completeConnect env conf i userID stateToken code).Each (StepOn Connects) := by
  refine (Prog.each_exec fun s => ?_).mapError.bind fun pending => ?_
  · split <;> exact Step.of_eq Connects.refl rfl rfl
  · refine .failIf <| (each_onWorld each_verifyConnect).bind fun verified => ?_
    exact each_callBack.bind fun answer =>
      (each_onWorld each_storeCredential).bind fun _ => Prog.each_pure _

theorem each_disconnect {userID providerSlug : String} :
    (disconnect userID providerSlug).Each (Step Revokes) := by
  refine (each_read Revokes.refl).mapError.bind fun provider =>
    (each_read Revokes.refl).bind fun found => ?_
  cases found with
  | none => trivial
  | some grant => exact each_wrapErr (Prog.each_exec fun w => step_revoke _ w)

theorem each_revokeBroker {id : String} : (revokeBroker id).Each (Step Revokes) := by
  refine .failIf <| (each_wrapErr (each_read Revokes.refl)).bind fun _ => ?_
  exact each_wrapErr (Prog.each_exec fun w => step_revoke _ w)

/-- What the steps of a call do to a row. -/
def Call.Does : Call → Option BrokerGrant → Option BrokerGrant → Prop
  | .vend _ => fun r r' => ∃ g, Rotates g r r'
  | .connect _ _ _ => Connects
  | .disconnect _ _ => Revokes
  | .revokeBroker _ => Revokes
  | .tick _ => fun r r' => r' = r

theorem Call.Does.refl (call : Call) (r : Option BrokerGrant) : call.Does r r := by
  cases call with
  | vend req => exact ⟨⟨"", "", "", "", [], 0, none⟩, .refl _ r⟩
  | connect _ _ _ => exact Connects.refl r
  | disconnect _ _ | revokeBroker _ => exact Revokes.refl r
  | tick elapsed => rfl

theorem each_program (call : Call) : (program env conf i call).Each (StepOn call.Does) := by
  cases call with
  | vend req =>
    rcases program_vend env conf i req with ⟨e, hp⟩ | ⟨k, hp, hfound, hnone, hfault⟩
    · rw [hp]
      trivial
    · rw [hp]
      refine ⟨fun s => Step.of_eq (Call.Does.refl _) rfl rfl, fun r => ?_⟩
      match r with
      | .ok (some g) =>
        exact (hfound g).mono fun _ _ h => h.mono fun _ _ hr => ⟨g, hr⟩
      | .ok none =>
        obtain ⟨e, he⟩ := hnone
        rw [he]
        trivial
      | .error e =>
        obtain ⟨e', he'⟩ := hfault e
        rw [he']
        trivial
  | connect userID stateToken code => exact each_completeConnect.bind fun _ => Prog.each_pure _
  | disconnect userID providerSlug => exact each_onWorld each_disconnect
  | revokeBroker id => exact each_onWorld each_revokeBroker
  | tick elapsed => exact each_onWorld (Prog.each_step fun _ => .of_eq (fun _ => rfl) rfl rfl)

end

/-! ### Runs -/

/-- The calls, somewhere on the way. -/
structure Running (role : ReqID → Call) (c : Calls) : Prop where
  keyed : Keyed c.store.world
  each : ∀ j, (c.procs j).Each (StepOn (role j).Does)

def Reconnects (role : ReqID → Call) (c : Calls) (e : ReqID × Bool) (u p : String) : Prop :=
  (role e.1).isConnect = true ∧ row u p (c.step e.1 e.2).store.world ≠ row u p c.store.world

/-- No step of the schedule is so. -/
def NoReconnection (role : ReqID → Call) (c : Calls)
    (sched : Schedule ReqID) (u p : String) : Prop :=
  ∀ a e b, sched = a ++ e :: b → ¬Reconnects role (c.exec a) e u p

section

variable {env : Env} {conf : Connector} {role : ReqID → Call}
    {c : Calls}
  {u p : String} {j : ReqID} {sched : Schedule ReqID}

theorem running_pool {s : Connections} (hs : Keyed s.world) : Running role (pool env conf role s) :=
  ⟨hs, fun j => each_program (role j)⟩

theorem step_store_of_each {R : Option BrokerGrant → Option BrokerGrant → Prop} (hR : ∀ r, R r r)
    (h : (c.procs j).Each (StepOn R)) (bad : Bool) : StepOn R c.store (c.step j bad).store := by
  unfold Pool.step
  split
  · rename_i f o k hp
    rw [hp] at h
    cases bad <;> cases o
    · exact h.1 _
    · exact h.1 _
    · exact h.1 _
    · exact Step.of_eq hR rfl rfl
  · exact Step.of_eq hR rfl rfl
  · exact Step.of_eq hR rfl rfl

namespace Running

theorem step_store (h : Running role c) (e : ReqID × Bool) :
    StepOn (role e.1).Does c.store (c.step e.1 e.2).store :=
  step_store_of_each (Call.Does.refl _) (h.each e.1) e.2

theorem step (h : Running role c) (e : ReqID × Bool) : Running role (c.step e.1 e.2) :=
  ⟨(h.step_store e).keyed h.keyed, (Pool.step_of_each h.each e.1 e.2).2⟩

theorem exec (h : Running role c) (sched : Schedule ReqID) : Running role (c.exec sched) := by
  induction sched generalizing c with
  | nil => exact h
  | cons e rest ih => exact ih (h.step e)

theorem grows (h : Running role c) (sched : Schedule ReqID) :
    Grows Later c.store.world.brokerGrants (c.exec sched).store.world.brokerGrants := by
  induction sched generalizing c with
  | nil => exact Grows.refl Later.refl _
  | cons e rest ih => exact (h.step_store e).grows.trans Later.trans (ih (h.step e))

theorem providers (h : Running role c) (sched : Schedule ReqID) :
    (c.exec sched).store.world.brokerProviders = c.store.world.brokerProviders := by
  induction sched generalizing c with
  | nil => rfl
  | cons e rest ih => exact (ih (h.step e)).trans (h.step_store e).providers

theorem getBySlug (h : Running role c) (sched : Schedule ReqID) (slug : String) :
    BrokerProviderStore.getBySlug slug (c.exec sched).store.world =
      BrokerProviderStore.getBySlug slug c.store.world := by
  rw [BrokerProviderStore.getBySlug, h.providers sched, BrokerProviderStore.getBySlug]

theorem row_step (h : Running role c) (e : ReqID × Bool) {x : BrokerGrant}
    (hx : row u p c.store.world = some x) :
    ∃ x', row u p (c.step e.1 e.2).store.world = some x' ∧ Later x x' := by
  obtain ⟨hmem, rfl, rfl⟩ := mem_of_row hx
  obtain ⟨x', hx', hlater⟩ := (h.step_store e).grows x hmem
  have hrow := row_eq_of_mem (h.step e).keyed hx'
  rw [hlater.userID, hlater.provider] at hrow
  exact ⟨x', hrow, hlater⟩

end Running

/-! ### Stale vends -/

/-- A vend has read a grant that there was, at a version that there was, or it has nothing left to
write. -/
def Holding (c : Calls) (j : ReqID) : Prop :=
  (∃ g, (c.procs j).Each (StepOn (Rotates g)) ∧
      ∃ x ∈ c.store.world.brokerGrants, x.id = g.id ∧ g.version ≤ x.version) ∨
    (c.procs j).Each (StepOn fun r r' => r' = r)

theorem Holding.exec (h : Holding c j) (hc : Running role c) (sched : Schedule ReqID) :
    Holding (c.exec sched) j := by
  rcases h with ⟨g, heach, x, hx, hid, hversion⟩ | heach
  · obtain ⟨x', hx', hlater⟩ := hc.grows sched x hx
    exact .inl ⟨g, Pool.each_procs_exec heach sched, x', hx', hlater.id.trans hid,
      hversion.trans hlater.version⟩
  · exact .inr (Pool.each_procs_exec heach sched)

variable {req : BrokerIssueRequest}

theorem step_vend (hp : c.procs j = program env conf j (.vend req)) (bad : Bool) :
    (c.step j bad).store = c.store ∧ ((∃ e, (c.step j bad).procs j = .fail e) ∨
      ∃ g, BrokerGrantStore.get req.subjectUserID req.provider.id c.store.world = .ok (some g) ∧
        ((c.step j bad).procs j).Each (StepOn (Rotates g))) := by
  rcases program_vend env conf j req with ⟨e, he⟩ | ⟨k, hk, hfound, ⟨e₀, hnone⟩, hfault⟩
  · have hstep : c.step j bad = c := by simp only [Pool.step, hp, he]
    rw [hstep]
    exact ⟨rfl, .inl ⟨e, hp.trans he⟩⟩
  · obtain ⟨hstore, hprocs | hprocs⟩ := Pool.step_of_read bad (hp.trans hk)
    · obtain ⟨e, he⟩ := hfault storeFault
      exact ⟨hstore, .inl ⟨e, hprocs.trans he⟩⟩
    · refine ⟨hstore, ?_⟩
      simp only [BrokerGrantStore.get] at hprocs ⊢
      cases hget : c.store.world.brokerGrants.find? fun g => g.userID == req.subjectUserID &&
          g.brokerProviderID == req.provider.id && g.revokedAt.isNone with
      | none =>
        rw [hget] at hprocs
        exact .inl ⟨e₀, hprocs.trans hnone⟩
      | some g =>
        rw [hget] at hprocs
        exact .inr ⟨g, rfl, hprocs ▸ hfound g⟩

theorem holding_step (hp : c.procs j = program env conf j (.vend req)) (bad : Bool) :
    Holding (c.step j bad) j := by
  obtain ⟨hstore, ⟨e, he⟩ | ⟨g, hget, hg⟩⟩ := step_vend hp bad
  · exact .inr (by rw [he]; trivial)
  · refine .inl ⟨g, hg, g, ?_, rfl, le_refl _⟩
    rw [hstore]
    exact List.mem_of_find?_eq_some (Except.ok.inj hget)

theorem untouched_or_holding (hp : c.procs j = program env conf j (.vend req))
    (hc : Running role c) (sched : Schedule ReqID) :
      (∀ e ∈ sched, e.1 ≠ j) ∨ Holding (c.exec sched) j := by
  induction sched generalizing c with
  | nil => exact .inl nofun
  | cons e rest ih =>
    by_cases hej : e.1 = j
    · subst hej
      exact .inr ((holding_step hp e.2).exec (hc.step e) rest)
    · refine (ih ((Pool.procs_step_of_ne e.2 hej).trans hp) (hc.step e)).imp_left
        fun hrest e' he' => ?_
      rcases List.mem_cons.mp he' with rfl | he'
      · exact hej
      · exact hrest e' he'

theorem outdated {w w' : World} (hw : Keyed w) (h : Step Connects w w')
    (hne : row u p w' ≠ row u p w) :
    ∃ g₀, row u p w' = some g₀ ∧ ∀ x ∈ w.brokerGrants, x.id = g₀.id → x.version < g₀.version := by
  rcases h.change u p with hsame | ⟨hnone, g₀, hg₀⟩ | ⟨y, cred, scopes, hy, hg₀⟩
  · exact absurd hsame hne
  · exact ⟨g₀, hg₀, fun x hx hid => absurd hid (h.fresh u p g₀ hnone hg₀ x hx)⟩
  · refine ⟨_, hg₀, fun x hx hid => ?_⟩
    obtain rfl : x = y := hw.id x hx y (mem_of_row hy).1 y.id (congrArg some hid) rfl
    exact Int.lt_add_one_of_le (le_refl _)

/-- The credential of the row is the one of the connection, or was written since by a vend that made
its first step, which is to read the grant, after the connection. -/
def Descends (role : ReqID → Call) (before : Schedule ReqID) (c : Calls)
    (after : Schedule ReqID) (u p : String) (g₀ x : BrokerGrant) : Prop :=
  x.credentialData = g₀.credentialData ∨ ∃ a e b y, after = a ++ e :: b ∧ (role e.1).isVend = true ∧
    (∀ e' ∈ before, e'.1 ≠ e.1) ∧ row u p (c.exec a).store.world ≠ some y ∧
    row u p ((c.exec a).step e.1 e.2).store.world = some y ∧ y.credentialData = x.credentialData

variable {before after : Schedule ReqID} {e : ReqID × Bool}

theorem Descends.snoc {g₀ x x' : BrokerGrant}
    (h : Descends role before c after u p g₀ x) (hx : x'.credentialData = x.credentialData) :
    Descends role before c (after ++ [e]) u p g₀ x' := by
  rcases h with h | ⟨a, e', b, y, rfl, hvend, hfresh, hne, hy, hcred⟩
  · exact .inl (hx.trans h)
  · exact .inr ⟨a, e', b ++ [e], y, by simp, hvend, hfresh, hne, hy, hcred.trans hx.symm⟩

theorem exec_snoc (sched : Schedule ReqID) (e : ReqID × Bool) :
    c.exec (sched ++ [e]) = (c.exec sched).step e.1 e.2 := by
  rw [Pool.exec_append]
  rfl

/-- A vend has yet to make its first step, has nothing left to write, or has read an older version.
-/
def Outrun (role : ReqID → Call) (before : Schedule ReqID) (g₀ : BrokerGrant) (c : Calls) : Prop :=
  ∀ j, (role j).isVend = true → (∀ e' ∈ before, e'.1 ≠ j) ∨
    (c.procs j).Each (StepOn fun r r' => r' = r) ∨
    ∃ g, (c.procs j).Each (StepOn (Rotates g)) ∧ (g.id = g₀.id → g.version < g₀.version)

variable {g₀ : BrokerGrant}

/-- What is left to do of a vend that has read stays so. -/
theorem Outrun.exec (h : Outrun role before g₀ c)
    (sched : Schedule ReqID) : Outrun role before g₀ (c.exec sched) := by
  intro j hj
  rcases h j hj with h | h | ⟨g, h, hbelow⟩
  · exact .inl h
  · exact .inr (.inl (Pool.each_procs_exec h sched))
  · exact .inr (.inr ⟨g, Pool.each_procs_exec h sched, hbelow⟩)

/-- What a step that is no re-connection does to the row that a connection has written: a vend that
has read before cannot write, and the others leave the credential alone. -/
theorem row_of_step {g₀ x : BrokerGrant} (hc : Running role c)
    (hstale : Outrun role before g₀ c)
    (hno : ¬Reconnects role c e u p) (hx : row u p c.store.world = some x) (hid : x.id = g₀.id)
    (hversion : g₀.version ≤ x.version) :
    (∃ x', row u p (c.step e.1 e.2).store.world = some x' ∧ x'.credentialData = x.credentialData) ∨
      (role e.1).isVend = true ∧ (∀ e' ∈ before, e'.1 ≠ e.1) ∧
        row u p (c.step e.1 e.2).store.world ≠ row u p c.store.world := by
  have hchange := (hc.step_store e).change u p
  by_cases hsame : row u p (c.step e.1 e.2).store.world = row u p c.store.world
  · exact .inl ⟨x, hsame.trans hx, rfl⟩
  cases hrole : role e.1 with
  | vend req =>
    rcases hstale e.1 (by rw [hrole]; rfl) with hfresh | heach | ⟨g, heach, hbelow⟩
    · exact .inr ⟨rfl, hfresh, hsame⟩
    · exact absurd
        ((step_store_of_each (R := fun r r' => r' = r) (fun _ => rfl) heach e.2).change u p) hsame
    · rcases (step_store_of_each (fun _ => .inl rfl) heach e.2).change u p with h | ⟨y, cred, hy,
        hyid, hyversion, -⟩
      · exact absurd h hsame
      · -- The vend has read an older version of the row.
        obtain rfl : x = y := Option.some.inj (hx.symm.trans hy)
        have hlt := hbelow (hyid.symm.trans hid)
        omega
  | connect userID stateToken code => exact absurd ⟨by rw [hrole]; rfl, hsame⟩ hno
  | disconnect _ _ | revokeBroker _ =>
    rw [hrole] at hchange
    rcases hchange with h | ⟨y, now, hy, hy'⟩
    · exact absurd h hsame
    · obtain rfl : x = y := Option.some.inj (hx.symm.trans hy)
      exact .inl ⟨_, hy', rfl⟩
  | tick elapsed =>
    rw [hrole] at hchange
    exact absurd hchange hsame

/-- **The credential after a connection**, over a run without another one. -/
theorem descends (hc : Running role c)
    (hstale : Outrun role before g₀ c)
    (hrow : row u p c.store.world = some g₀) (hno : NoReconnection role c after u p) :
    ∃ x, row u p (c.exec after).store.world = some x ∧ Later g₀ x ∧
      Descends role before c after u p g₀ x := by
  induction after using List.reverseRecOn with
  | nil => exact ⟨g₀, hrow, Later.refl g₀, .inl rfl⟩
  | append_singleton after e ih =>
    obtain ⟨x, hx, hlater, hdescends⟩ := ih fun a e' b hsplit =>
      hno a e' (b ++ [e]) (by rw [hsplit]; simp)
    have hmid : Running role (c.exec after) := hc.exec after
    obtain ⟨x', hx', hlater'⟩ := hmid.row_step e hx
    rw [exec_snoc]
    refine ⟨x', hx', hlater.trans hlater', ?_⟩
    rcases row_of_step hmid (hstale.exec after) (hno after e [] rfl) hx hlater.id
      hlater.version with
      ⟨y, hy, hcred⟩ | ⟨hvend, hfresh, hne⟩
    · obtain rfl : y = x' := Option.some.inj (hy.symm.trans hx')
      exact hdescends.snoc hcred
    · exact .inr ⟨after, e, [], x', rfl, hvend, hfresh, fun h => hne (hx'.trans h.symm), hx', rfl⟩

/-! ### Disconnections -/

/-- `Disconnect` with the provider that it has found. -/
def disconnectFrom (userID providerID : String) : Svc Unit := do
  let found ← fetch (BrokerGrantStore.get userID providerID)
  match found with
  | none => Prog.fail (.sentinel .connectionNotFound)
  | some grant => wrapErr "revoke broker grant" (store (BrokerGrantStore.revoke grant.id))

variable {provider : BrokerProvider} {userID slug : String}

theorem step_disconnect
    (hp : c.procs j = program env conf j (.disconnect userID slug)) (bad : Bool)
    (hprovider : BrokerProviderStore.getBySlug slug c.store.world = .ok provider) :
    (∃ e, (c.step j bad).procs j = .fail e) ∨
      (c.step j bad).procs j = onWorld (disconnectFrom userID provider.id) := by
  obtain ⟨-, hprocs | hprocs⟩ := Pool.step_of_read bad hp
  · exact .inl ⟨_, hprocs⟩
  · dsimp only at hprocs
    rw [hprovider] at hprocs
    exact .inr hprocs

theorem step_disconnectFrom {userID providerID : String}
    (hp : c.procs j = onWorld (disconnectFrom userID providerID)) (bad : Bool) :
    (c.step j bad).store = c.store ∧ ((∃ e, (c.step j bad).procs j = .fail e) ∨
      ∃ g ∈ c.store.world.brokerGrants, g.userID = userID ∧ g.brokerProviderID = providerID ∧
        (c.step j bad).procs j =
          onWorld (wrapErr "revoke broker grant" (store (BrokerGrantStore.revoke g.id)))) := by
  obtain ⟨hstore, hprocs | hprocs⟩ := Pool.step_of_read bad hp
  · exact ⟨hstore, .inl ⟨_, hprocs⟩⟩
  · refine ⟨hstore, ?_⟩
    simp only [BrokerGrantStore.get] at hprocs
    cases hget : c.store.world.brokerGrants.find? fun g => g.userID == userID &&
        g.brokerProviderID == providerID && g.revokedAt.isNone with
    | none =>
      rw [hget] at hprocs
      exact .inl ⟨_, hprocs⟩
    | some g =>
      rw [hget] at hprocs
      have hkey := List.find?_some hget
      simp only [Bool.and_eq_true, beq_iff_eq] at hkey
      exact .inr ⟨g, List.mem_of_find?_eq_some hget, hkey.1.1, hkey.1.2, hprocs⟩

theorem step_marking {id : String}
    (hp : c.procs j =
      onWorld (wrapErr "revoke broker grant" (store (BrokerGrantStore.revoke id)))) (bad : Bool) :
    (∃ e, (c.step j bad).procs j = .fail e) ∨ (c.step j bad).procs j = .ret () ∧
      (c.step j bad).store.world = (BrokerGrantStore.revoke id c.store.world).2 := by
  have hcall : c.procs j = .call (fun s => ((BrokerGrantStore.revoke id s.world).1,
      { s with world := (BrokerGrantStore.revoke id s.world).2 }))
        (some (.error storeFault)) _ := hp
  simp only [Pool.step, hcall, Function.update_self]
  cases bad with
  | false => exact .inr ⟨rfl, rfl⟩
  | true => exact .inl ⟨_, rfl⟩

def Revoked (u p : String) (w : World) : Prop := ∃ x, row u p w = some x ∧ x.revokedAt ≠ none

variable {w : World}

theorem revoked_of_revoke {x : BrokerGrant} (hw : Keyed w) (hx : x ∈ w.brokerGrants) :
    Revoked x.userID x.brokerProviderID (BrokerGrantStore.revoke x.id w).2 := by
  refine ⟨{ x with revokedAt := some w.clock }, ?_, nofun⟩
  have hrow := row_eq_of_mem hw hx
  simp only [row, BrokerGrantStore.revoke] at hrow ⊢
  rw [find?_updateWhere, hrow]
  · simp
  · exact fun _ => rfl

/-- How far a disconnection has come. -/
inductive Progress (env : Env) (conf : Connector) (userID slug providerID : String) (j : ReqID)
    (c : Calls) (sched : Schedule ReqID) : Prop
  | start (h : (c.exec sched).procs j = program env conf j (.disconnect userID slug))
  | found (h : (c.exec sched).procs j = onWorld (disconnectFrom userID providerID))
  | marking (g x : BrokerGrant) (hx : x ∈ (c.exec sched).store.world.brokerGrants)
    (hid : x.id = g.id)
      (hu : x.userID = userID) (hp : x.brokerProviderID = providerID)
      (h : (c.exec sched).procs j =
        onWorld (wrapErr "revoke broker grant" (store (BrokerGrantStore.revoke g.id))))
  | failed (e : Err) (h : (c.exec sched).procs j = .fail e)
  | returned (h : (c.exec sched).procs j = .ret ())

theorem progress (hc : Running role c)
    (hp : c.procs j = program env conf j (.disconnect userID slug))
    (hprovider : BrokerProviderStore.getBySlug slug c.store.world = .ok provider)
      (sched : Schedule ReqID) :
    Progress env conf userID slug provider.id j c sched := by
  induction sched using List.reverseRecOn with
  | nil => exact .start hp
  | append_singleton sched e ih =>
    have hmid : Running role (c.exec sched) := hc.exec sched
    by_cases hej : e.1 = j
    · obtain ⟨i, bad⟩ := e
      obtain rfl : i = j := hej
      cases ih with
      | start h =>
        rcases step_disconnect h bad
          ((hc.getBySlug sched slug).trans hprovider) with ⟨e, he⟩ | hnext
        · exact .failed e (by rw [exec_snoc]; exact he)
        · exact .found (by rw [exec_snoc]; exact hnext)
      | found h =>
        obtain ⟨hstore, ⟨e, he⟩ | ⟨g, hg, hu, hp, hnext⟩⟩ := step_disconnectFrom h bad
        · exact .failed e (by rw [exec_snoc]; exact he)
        · exact .marking g g (by rw [exec_snoc, hstore]; exact hg) rfl hu hp
            (by rw [exec_snoc]; exact hnext)
      | marking g x hx hid hu hp h =>
        rcases step_marking h bad with ⟨e, he⟩ | ⟨hret, -⟩
        · exact .failed e (by rw [exec_snoc]; exact he)
        · exact .returned (by rw [exec_snoc]; exact hret)
      | failed e h =>
        refine .failed e ?_
        rw [exec_snoc]
        simp only [Pool.step, h]
      | returned h =>
        refine .returned ?_
        rw [exec_snoc]
        simp only [Pool.step, h]
    · have hprocs : (c.exec (sched ++ [e])).procs j = (c.exec sched).procs j := by
        rw [exec_snoc]
        exact Pool.procs_step_of_ne e.2 hej
      cases ih with
      | start h => exact .start (hprocs.trans h)
      | found h => exact .found (hprocs.trans h)
      | marking g x hx hid hu hp h =>
        obtain ⟨x', hx', hlater⟩ := (hmid.step_store e).grows x hx
        exact .marking g x' (by rw [exec_snoc]; exact hx') (hlater.id.trans hid)
          (hlater.userID.trans hu)
          (hlater.provider.trans hp) (hprocs.trans h)
      | failed e' h => exact .failed e' (hprocs.trans h)
      | returned h => exact .returned (hprocs.trans h)

/-- **The step in which a disconnection returns** leaves the row revoked. -/
theorem revoked_of_return (hc : Running role c)
    (hp : c.procs j = program env conf j (.disconnect userID slug))
    (hprovider : BrokerProviderStore.getBySlug slug c.store.world = .ok provider) {bad : Bool}
    (hopen : (c.exec sched).procs j ≠ .ret ())
      (hret : (c.exec (sched ++ [(j, bad)])).procs j = .ret ()) :
    Revoked userID provider.id (c.exec (sched ++ [(j, bad)])).store.world := by
  rw [exec_snoc] at hret ⊢
  cases progress hc hp hprovider sched with
  | start h =>
    rcases step_disconnect h bad ((hc.getBySlug sched slug).trans hprovider) with ⟨e, he⟩ | hnext
    · exact absurd (he.symm.trans hret) nofun
    · exact absurd (hnext.symm.trans hret) nofun
  | found h =>
    obtain ⟨-, ⟨e, he⟩ | ⟨g, -, -, -, hnext⟩⟩ := step_disconnectFrom h bad
    · exact absurd (he.symm.trans hret) nofun
    · exact absurd (hnext.symm.trans hret) nofun
  | marking g x hx hid hu hp h =>
    rcases step_marking h bad with ⟨e, he⟩ | ⟨-, hmarked⟩
    · exact absurd (he.symm.trans hret) nofun
    · rw [hmarked, ← hid, ← hu, ← hp]
      exact revoked_of_revoke (hc.exec sched).keyed hx
  | failed e h =>
    simp only [Pool.step, h] at hret
    exact absurd hret nofun
  | returned h => exact absurd h hopen

/-- Only a re-connection makes the row live again. -/
theorem Revoked.exec (h : Revoked u p c.store.world) (hc : Running role c)
    (hno : NoReconnection role c sched u p) : Revoked u p (c.exec sched).store.world := by
  induction sched generalizing c with
  | nil => exact h
  | cons e rest ih =>
    refine ih ?_ (hc.step e) fun a e' b hsplit => hno (e :: a) e' b (by rw [hsplit]; rfl)
    obtain ⟨x, hx, hrevoked⟩ := h
    have hnot := hno [] e rest rfl
    have hchange := (hc.step_store e).change u p
    by_cases hsame : row u p (c.step e.1 e.2).store.world = row u p c.store.world
    · exact ⟨x, hsame.trans hx, hrevoked⟩
    cases hrole : role e.1 with
    | vend req =>
      rw [hrole] at hchange
      obtain ⟨g, h | ⟨y, cred, hy, -, -, hy'⟩⟩ := hchange
      · exact absurd h hsame
      · obtain rfl : x = y := Option.some.inj (hx.symm.trans hy)
        exact ⟨_, hy', hrevoked⟩
    | connect userID stateToken code => exact absurd ⟨by rw [hrole]; rfl, hsame⟩ hnot
    | disconnect _ _ | revokeBroker _ =>
      rw [hrole] at hchange
      rcases hchange with h | ⟨y, now, hy, hy'⟩
      · exact absurd h hsame
      · exact ⟨_, hy', nofun⟩
    | tick elapsed =>
      rw [hrole] at hchange
      exact absurd hchange hsame

theorem get_of_revoked (hw : Keyed w) (h : Revoked u p w) :
    BrokerGrantStore.get u p w = .ok none := by
  obtain ⟨x, hx, hrevoked⟩ := h
  rw [BrokerGrantStore.get]
  congr 1
  refine List.find?_eq_none.mpr fun g hg hlive => ?_
  simp only [Bool.and_eq_true, beq_iff_eq, Option.isNone_iff_eq_none] at hlive
  obtain ⟨⟨rfl, rfl⟩, hnone⟩ := hlive
  obtain rfl : g = x := Option.some.inj ((row_eq_of_mem hw hg).symm.trans hx)
  exact hrevoked hnone

end

/-- **A stale vend never overwrites a newer connection.** In every schedule, for every user and
provider: after a connection and without another one since, the stored credential is the one that
the connection wrote or was written by a vend that read after it; a vend leaves the revocation of
the row as it is; the version of a row never decreases; and from the step in which a disconnection
returns, until there is another connection, every vend that comes to read the grant fails there,
before it asks the upstream. -/
theorem connection_not_overwritten (env : Env) (conf : Connector)
    (role : ReqID → Call) (s : Connections)
    (hs : Keyed s.world) (sched : Schedule ReqID) (u p : String) :
    let c := pool env conf role s
    (∀ before e after, sched = before ++ e :: after → Reconnects role (c.exec before) e u p →
        NoReconnection role (c.exec (before ++ [e])) after u p →
        ∃ g₀ x, row u p (c.exec (before ++ [e])).store.world = some g₀ ∧
          row u p (c.exec sched).store.world = some x ∧
          Descends role before (c.exec (before ++ [e])) after u p g₀ x) ∧
      (∀ before e after, sched = before ++ e :: after → (role e.1).isVend = true →
        (row u p (c.exec (before ++ [e])).store.world).map (·.revokedAt) =
          (row u p (c.exec before).store.world).map (·.revokedAt)) ∧
      (∀ before e after, sched = before ++ e :: after → ∀ x,
        row u p (c.exec before).store.world = some x →
        ∃ x', row u p (c.exec (before ++ [e])).store.world = some x' ∧ x'.id = x.id ∧
          x.version ≤ x'.version) ∧
      ∀ before d bad a j bad' b slug provider req, sched = before ++
        (d, bad) :: a ++ (j, bad') :: b →
        role d = .disconnect u slug →
          BrokerProviderStore.getBySlug slug s.world = .ok provider → provider.id = p →
        (c.exec before).procs d ≠ .ret () → (c.exec (before ++ [(d, bad)])).procs d = .ret () →
        NoReconnection role (c.exec (before ++ [(d, bad)])) a u p →
        role j = .vend req → req.subjectUserID = u → req.provider.id = p →
        (∀ e ∈ before ++ (d, bad) :: a, e.1 ≠ j) →
        ∃ e, (c.exec (before ++ (d, bad) :: a ++ [(j, bad')])).procs j = .fail e := by
  intro c
  have hrunning : Running role c := running_pool hs
  refine ⟨?_, ?_, ?_, ?_⟩
  · rintro before e after rfl hconnects hno
    have hbefore := hrunning.exec before
    have hstep := hbefore.step_store e
    rw [exec_snoc] at hno ⊢
    -- What was read before the connection is older than what the connection has written.
    obtain ⟨g₀, hg₀, hbelow⟩ : ∃ g₀, row u p ((c.exec before).step e.1 e.2).store.world = some g₀ ∧
        ∀ x ∈ (c.exec before).store.world.brokerGrants, x.id = g₀.id → x.version < g₀.version := by
      cases hrole : role e.1 with
      | connect userID stateToken code =>
        rw [hrole] at hstep
        exact outdated hbefore.keyed hstep hconnects.2
      | _ => exact absurd hconnects.1 (by rw [hrole]; exact nofun)
    have hstale : Outrun role before g₀ ((c.exec before).step e.1 e.2) := by
      intro j hj
      cases hrole : role j with
      | vend req =>
        have hp : c.procs j = program env conf j (.vend req) := by
          change program env conf j (role j) = _
          rw [hrole]
        refine (untouched_or_holding hp hrunning before).imp_right ?_
        rintro (⟨g, heach, x, hx, hid, hversion⟩ | heach)
        · refine .inr ⟨g, Pool.each_procs_exec heach [e], fun hg => ?_⟩
          exact lt_of_le_of_lt hversion (hbelow x hx (hid.trans hg))
        · exact .inl (Pool.each_procs_exec heach [e])
      | _ => exact absurd hj (by rw [hrole]; exact nofun)
    obtain ⟨x, hx, -, hdescends⟩ := descends (hbefore.step e) hstale hg₀ hno
    refine ⟨g₀, x, hg₀, ?_, hdescends⟩
    rw [Pool.exec_append]
    exact hx
  · rintro before e after rfl hvend
    have hchange := ((hrunning.exec before).step_store e).change u p
    rw [exec_snoc]
    cases hrole : role e.1 with
    | vend req =>
      rw [hrole] at hchange
      obtain ⟨g, h | ⟨y, cred, hy, -, -, hy'⟩⟩ := hchange
      · rw [h]
      · rw [hy, hy']
        rfl
    | _ => exact absurd hvend (by rw [hrole]; exact nofun)
  · rintro before e after rfl x hx
    obtain ⟨x', hx', hlater⟩ := (hrunning.exec before).row_step e hx
    rw [exec_snoc]
    exact ⟨x', hx', hlater.id, hlater.version⟩
  · rintro before d bad a j bad' b slug provider req - hrole hprovider rfl hopen
      hret hno hvend rfl hreq huntouched
    have hd : c.procs d = program env conf d (.disconnect req.subjectUserID slug) := by
      change program env conf d (role d) = _
      rw [hrole]
    have hj : (c.exec (before ++ (d, bad) :: a)).procs j = program env conf j (.vend req) := by
      rw [Pool.procs_exec_of_not_mem _ huntouched]
      change program env conf j (role j) = _
      rw [hvend]
    have hmid := hrunning.exec (before ++ [(d, bad)])
    have hrevoked := (revoked_of_return hrunning hd hprovider hopen hret).exec hmid hno
    have hnone := get_of_revoked (hmid.exec a).keyed hrevoked
    have hsplit : c.exec (before ++ (d, bad) :: a) = (c.exec (before ++ [(d, bad)])).exec a := by
      rw [← Pool.exec_append]
      simp
    rw [← hsplit] at hnone
    rw [exec_snoc]
    obtain ⟨-, hfail | ⟨g, hget, -⟩⟩ := step_vend hj bad'
    · exact hfail
    · rw [hreq, hnone] at hget
      cases hget

namespace Sample

def env : Env :=
  { Env.plain with
    encrypt := fun credential _ => some credential
    decrypt := fun credential _ => some credential
    adapterRegistered := fun _ => true
    vend := fun _ _ _ _ _ => .ok ⟨"token", 60, some "rotated"⟩ }

def conf : Connector where
  redirectBaseURL := ""
  allowedReturnURLs := []
  stateKey := "key"
  hmacSHA256 := fun _ message => message
  encodeBase64 := id
  decodeBase64 := some
  buildConnectURL := fun _ _ _ _ _ _ _ _ _ => .error (.sentinel .noConnectStep)
  handleCallback := fun _ _ _ _ _ _ => .ok ("connected", [])

def provider : BrokerProvider := ⟨"p", "slug", "oauth2"⟩

def request : BrokerIssueRequest where
  resource := ⟨"r", "r", "https://r", .broker, "p", [], ⟨[], [], []⟩⟩
  provider := provider
  subjectUserID := "u"
  actorClientID := "c"
  scopes := []
  agentIdentity := none
  dpopJKT := ""

/-- A connected user, who is about to connect again. -/
def connections : Connections where
  world := { World.empty 0 with
    brokerProviders := [provider]
    brokerGrants := [⟨"g", "u", "p", "first", [], 1, none⟩] }
  pending := [⟨"s.s:u:slug:", "u", "p", "", "", "", [], 1⟩]
  started := []
  consumed := []
  calledBack := []

/-- Calls `0` and `3` vend, call `1` connects, call `2` disconnects. -/
def role : ReqID → Call
  | 0 => .vend request
  | 1 => .connect "u" "s.s:u:slug:" "code"
  | 2 => .disconnect "u" "slug"
  | 3 => .vend request
  | _ => .tick 0

/-- Call `0` reads, call `1` starts. -/
def before : Schedule ReqID := [(0, false), (1, false), (1, false), (1, false), (1, false)]

/-- When call `1` has connected, call `0` is made to the end, then call `2`, then call `3`. -/
def after : Schedule ReqID :=
  [(0, false), (0, false), (0, false), (0, false), (0, false), (2, false), (2, false),
    (2, false), (3, false)]

theorem keyed : Keyed connections.world :=
  ⟨.of_nodup (by decide), .of_nodup (by decide)⟩

theorem noReconnection {c : Calls} {sched : Schedule ReqID}
    {u p : String} (h : ∀ e ∈ sched, e.1 ≠ 1) : NoReconnection role c sched u p := by
  rintro a ⟨i, bad⟩ b rfl ⟨hconnect, -⟩
  have hi : i ≠ 1 := h (i, bad) (by simp)
  match i, hi, hconnect with
  | 0, _, hconnect => cases hconnect
  | 2, _, hconnect => cases hconnect
  | 3, _, hconnect => cases hconnect
  | _ + 4, _, hconnect => cases hconnect

def returned : Prog Connections Err Unit → Bool
  | .ret _ => true
  | _ => false

theorem returned_iff {p : Prog Connections Err Unit} : returned p = true ↔ p = .ret () := by
  cases p <;> simp [returned]

def calls : Calls :=
  pool env conf role connections

theorem reconnects : Reconnects role (calls.exec before) (1, false) "u" "p" :=
  ⟨rfl, by decide +kernel⟩

theorem unreturned :
    (calls.exec (before ++ (1, false) :: after.take 7)).procs 2 ≠ .ret () := by
  rw [ne_eq, ← returned_iff]
  decide +kernel

theorem disconnected :
    (calls.exec (before ++ (1, false) :: after.take 7 ++ [(2, false)])).procs 2 = .ret () := by
  rw [← returned_iff]
  decide +kernel

end Sample

theorem connection_not_overwritten_by_earlier_read :
    (∃ g₀ x, row "u" "p" (Sample.calls.exec (Sample.before ++ [(1, false)])).store.world = some g₀ ∧
      row "u" "p" (Sample.calls.exec
        (Sample.before ++ (1, false) :: Sample.after)).store.world = some x ∧
      Descends Sample.role Sample.before
        (Sample.calls.exec (Sample.before ++ [(1, false)])) Sample.after
        "u" "p" g₀ x) ∧
    ∃ e, (Sample.calls.exec (Sample.before ++ (1, false) :: Sample.after)).procs 3 = .fail e := by
  have hsplit : Sample.before ++ (1, false) :: Sample.after =
      Sample.before ++ (1, false) :: Sample.after.take 7 ++ (2, false) :: [] ++
        (3, false) :: [] := by decide
  obtain ⟨hconnected, -, -, hdisconnected⟩ :=
    connection_not_overwritten Sample.env Sample.conf Sample.role
    Sample.connections Sample.keyed (Sample.before ++ (1, false) :: Sample.after) "u" "p"
  refine ⟨hconnected Sample.before (1, false) Sample.after rfl Sample.reconnects
    (Sample.noReconnection (by decide)), ?_⟩
  rw [hsplit]
  exact hdisconnected _ 2 false [] 3 false [] "slug" Sample.provider Sample.request hsplit rfl
    (by decide +kernel) rfl
    Sample.unreturned Sample.disconnected (Sample.noReconnection (by decide)) rfl rfl
      rfl (by decide)

end StaleVend

end AuthServer
