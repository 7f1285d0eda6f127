import AuthServer.Service.OIDC
import AuthServer.Service.Rules

/-!
# One upstream identity, one account

Sign-ins with upstream identities and administrators' edits of accounts, interleaved store call by
store call. A sign-in looks its account up, may lose the race to create it and look it up again, and
writes it once or twice. What makes each of these calls harmless is the same fact: a row that still
has the version that was read is the row that was read (`Later`), so a write changes what its author
meant to change and nothing that someone else has written meanwhile.

What a step may do is said once, for the call that takes it (`Moves`); the results are read off it.
-/

namespace AuthServer

open Interleave Table

namespace OneAccount

/-! ### The calls -/

inductive Action
  | signIn (exchanged : Except Err OIDCTokenResult)
  | createUser (email name passwordHash : String) (role : Role)
  | updateUser (id : String) (email name : Option String)
  | disableUser (id : String)
  | enableUser (id : String)

def program (env : Env) (i : ReqID) : Action → Prog Accounts Err (Option Account)
  | .signIn exchanged => do
    let u ← OIDCFacade.authenticateOIDC env i exchanged
    pure (some u)
  | .createUser email name passwordHash role => do
    let _ ← AdminService.createUser env i email name passwordHash role
    pure none
  | .updateUser id email name => do
    let _ ← AdminService.updateUser id email name
    pure none
  | .disableUser id => do
    AdminService.disableUser id
    pure none
  | .enableUser id => do
    AdminService.enableUser id
    pure none

/-- The calls, on a table of users. -/
def pool (env : Env) (actions : ReqID → Action) (s : Accounts) : Pool ReqID Accounts Err fun _ =>
    Option Account where
  store := s
  procs i := program env i (actions i)

/-! ### What a step may do -/

/-- The account of an upstream identity. -/
def Of (sub : String) (a : Account) : Prop := a.provider = .providerOIDC ∧ a.providerSub = sub

/-- The unique indexes. -/
structure Keyed (s : Accounts) : Prop where
  ids : UniqueKey (fun a => some a.id) s.users
  identities : UniqueKey Account.identity s.users

/-- What becomes of a row: it stays, or it has another version. -/
structure Later (a b : Account) : Prop where
  id : b.id = a.id
  provider : b.provider = a.provider
  providerSub : b.providerSub = a.providerSub
  version : b = a ∨ a.version < b.version

/-- Only the account of this identity changes, and of it only what the upstream asserts. -/
structure Confined (sub : String) (s t : Accounts) : Prop where
  others : ∀ a ∈ s.users, ¬Of sub a → a ∈ t.users
  new : ∀ b ∈ t.users, b ∈ s.users ∨ Of sub b
  own : ∀ a ∈ s.users, ∀ b ∈ t.users, b.id = a.id →
    b.isActive = a.isActive ∧ b.role = a.role ∧ b.passwordHash = a.passwordHash

/-- What a step of a call may do. -/
structure Moves (action : Action) (s t : Accounts) : Prop where
  grows : Grows Later s.users t.users
  disabled : ∀ a ∈ s.users, action ≠ .enableUser a.id → a.isActive = false →
    ∀ b ∈ t.users, b.id = a.id → b.isActive = false
  confined : ∀ exchanged, action = .signIn exchanged → ∀ sub,
    (∀ result, exchanged = .ok result → result.subject = sub) → Confined sub s t

theorem Later.refl (a : Account) : Later a a := ⟨rfl, rfl, rfl, .inl rfl⟩

variable {a b : Account}

theorem Later.trans {c : Account} (h : Later a b) (h' : Later b c) : Later a c where
  id := h'.id.trans h.id
  provider := h'.provider.trans h.provider
  providerSub := h'.providerSub.trans h.providerSub
  version := by
    rcases h.version with rfl | hlt
    · exact h'.version
    · rcases h'.version with rfl | hlt'
      · exact .inr hlt
      · exact .inr (hlt.trans hlt')

variable {sub : String}

theorem Of.later (ha : Of sub a) (h : Later a b) : Of sub b :=
  ⟨h.provider.trans ha.1, h.providerSub.trans ha.2⟩

theorem Of.identity (h : Of sub a) (hsub : sub ≠ "") : a.identity = some (.providerOIDC, sub) := by
  rw [Account.identity, h.1, h.2, if_pos (by simpa using hsub)]

theorem Keyed.eq_of {s : Accounts} (hs : Keyed s) (hsub : sub ≠ "") (ha : a ∈ s.users)
    (hb : b ∈ s.users) (hoa : Of sub a) (hob : Of sub b) : a = b :=
  hs.identities a ha b hb _ (hoa.identity hsub) (hob.identity hsub)

theorem Keyed.eq_of_id {s : Accounts} (hs : Keyed s) (ha : a ∈ s.users) (hb : b ∈ s.users)
    (h : a.id = b.id) : a = b :=
  hs.ids a ha b hb b.id (congrArg some h) rfl

variable {action : Action}

theorem Moves.of_users_eq {s t : Accounts} (hs : Keyed s) (h : t.users = s.users) :
    Moves action s t where
  grows := by
    rw [h]
    exact .refl Later.refl _
  disabled := by
    rw [h]
    intro a ha _ hoff b hb hid
    rw [hs.eq_of_id hb ha hid]
    exact hoff
  confined := by
    intro _ _ sub _
    refine ⟨?_, ?_, ?_⟩ <;> rw [h]
    · exact fun a ha _ => ha
    · exact fun b hb => .inl hb
    · intro a ha b hb hid
      rw [hs.eq_of_id hb ha hid]
      exact ⟨rfl, rfl, rfl⟩

/-- The unique indexes hold, and each call does what its action may do. -/
def contract (actions : ReqID → Action) : Contract ReqID Accounts where
  inv := Keyed
  rely := fun _ s t => Grows Later s.users t.users
  guar := fun i s t => Moves (actions i) s t
  admits := fun _ _ _ => True
  faulty := True
  rely_refl := fun _ _ => .refl Later.refl _
  rely_trans := fun h h' => .trans Later.trans h h'
  rely_of_guar := fun _ _ h => h.grows

/-- The row that was read, or a later version of it, is in the table. -/
def Held (a : Account) (s : Accounts) : Prop := ∃ b ∈ s.users, Later a b

theorem Held.mono {s t : Accounts} (h : Held a s)
    (hst : Grows Later s.users t.users) : Held a t := by
  obtain ⟨b, hb, hab⟩ := h
  obtain ⟨c, hc, hbc⟩ := hst b hb
  exact ⟨c, hc, hab.trans hbc⟩

/-- **The row that still has the version that was read** is the row that was read. -/
theorem Held.eq_of_version {row : Account} {s : Accounts} (h : Held a s) (hs : Keyed s)
    (hrow : row ∈ s.users) (hid : row.id = a.id)
      (hversion : row.version = a.version) : row = a := by
  obtain ⟨b, hb, hab⟩ := h
  obtain rfl := hs.eq_of_id hrow hb (hid.trans hab.id.symm)
  rcases hab.version with heq | hlt
  · exact heq
  · omega

variable {u : Account}

section Calls

variable {env : Env} {actions : ReqID → Action} {i : ReqID} {s : Accounts}

/-! ### Reading -/

/-- A lookup by identity, whose failure is handled. -/
theorem ensures_getByProviderSub (hs : Keyed s) :
    Ensures (contract actions) i (fun r t => Keyed t ∧ ∀ a, r = .ok a → Of sub a ∧ Held a t)
      (AccountStore.getByProviderSub .providerOIDC sub).attempt s := by
  refine .attempt_query hs (fun _ => .of_users_eq hs rfl) fun r hr t hst ht => ⟨ht, fun a ha => ?_⟩
  subst ha
  rcases hr with hr | ⟨hr, -⟩
  · obtain ⟨hmem, hfound⟩ := mem_of_lookup hr.symm
    simp only [Bool.and_eq_true, beq_iff_eq] at hfound
    exact ⟨hfound, Held.mono ⟨a, hmem, .refl a⟩ hst⟩
  · cases hr

variable {id : String}

theorem ensures_getByID (hs : Keyed s) :
    Ensures (contract actions) i (fun a t => Keyed t ∧ a.id = id ∧ Held a t)
      (AccountStore.getByID id) s := by
  refine .query hs (fun _ => .of_users_eq hs rfl) fun a ha t hst ht => ?_
  obtain ⟨hmem, hfound⟩ := mem_of_lookup ha
  exact ⟨ht, beq_iff_eq.mp hfound, Held.mono ⟨a, hmem, .refl a⟩ hst⟩

theorem ensures_generateAccountID (hs : Keyed s) :
    Ensures (contract actions) i (fun _ t => Keyed t) (generateAccountID env i) s :=
  safe_step fun _ => ⟨⟨hs.ids, hs.identities⟩, .of_users_eq hs rfl, fun _ _ ht => ht⟩

/-! ### Creating -/

/-- What the indexes leave free. -/
def Free (a : Account) (s : Accounts) : Prop :=
  ∀ b ∈ s.users, b.id ≠ a.id ∧ ∀ k, a.identity = some k → b.identity ≠ some k

/-- A sign-in is one with the identity of the account. -/
def MaySignIn (action : Action) (a : Account) : Prop :=
  ∀ exchanged, action = .signIn exchanged → ∃ result, exchanged = .ok result ∧ Of result.subject a

theorem free_of_any_eq_false
    (h : ¬(s.users.any fun b => b.id == a.id || a.clashes b) = true) : Free a s := by
  intro b hb
  have hno := fun hc => h (List.any_eq_true.mpr ⟨b, hb, hc⟩)
  refine ⟨fun hid => hno (by simp [hid]), fun k ha hbk => hno ?_⟩
  simp [Account.clashes, ha, hbk]

theorem Keyed.append (hs : Keyed s) (h : Free a s) : Keyed { s with users := s.users ++ [a] } where
  ids := hs.ids.append_singleton fun _ hk b hb heq =>
    (h b hb).1 (Option.some.inj (heq.trans hk.symm))
  identities := hs.identities.append_singleton fun k hk b hb => (h b hb).2 k hk

theorem Moves.append (hs : Keyed s) (h : Free a s) (haction : MaySignIn action a) :
    Moves action s { s with users := s.users ++ [a] } := by
  have hold : ∀ b ∈ s.users, ∀ c ∈ s.users ++ [a], c.id = b.id → c = b := by
    intro b hb c hc hid
    rcases List.mem_append.mp hc with hc | hc
    · exact hs.eq_of_id hc hb hid
    · rw [List.mem_singleton.mp hc] at hid
      exact absurd hid.symm (h b hb).1
  refine ⟨grows_append Later.refl _ _, fun b hb _ hoff c hc hid => ?_,
    fun exchanged hexchanged sub hsub =>
    ⟨fun b hb _ => List.mem_append_left _ hb, fun b hb => ?_, fun b hb c hc hid => ?_⟩⟩
  · rw [hold b hb c hc hid]
    exact hoff
  · rcases List.mem_append.mp hb with hb | hb
    · exact .inl hb
    · obtain ⟨result, hresult, hof⟩ := haction exchanged hexchanged
      rw [List.mem_singleton.mp hb, ← hsub result hresult]
      exact .inr hof
  · rw [hold b hb c hc hid]
    exact ⟨rfl, rfl, rfl⟩

/-- **A new row**: that of this identity, if a sign-in creates it. -/
theorem safe_create (hs : Keyed s) (haction : MaySignIn (actions i) a) :
    Safe (contract actions) i
      (fun _ t => ∃ b ∈ t.users, b.id = a.id ∧
        b.provider = a.provider ∧ b.providerSub = a.providerSub)
      (fun _ t => Keyed t) (AccountStore.create a) s := by
  unfold AccountStore.create
  by_cases hclash : (s.users.any fun b => b.id == a.id || a.clashes b) = true
  · refine safe_exec (fun _ => ?_) (fun _ hok => ?_) (fun _ _ _ t _ ht => ht) fun _ t _ ht => ht
    · rw [if_pos hclash]
      exact ⟨hs, .of_users_eq hs rfl⟩
    · rw [if_pos hclash] at hok
      cases hok
  · have hnew : Free { a with version := if a.version == 0 then 1 else a.version } s :=
      free_of_any_eq_false hclash
    refine safe_exec (fun _ => ?_) (fun _ _ _ t hst ht => ?_) (fun _ _ _ t _ ht => ht)
      fun _ t _ ht => ht
    · rw [if_neg hclash]
      exact ⟨hs.append hnew, .append hs hnew haction⟩
    · rw [if_neg hclash] at hst
      obtain ⟨b, hb, hlater⟩ := hst _ (List.mem_append_right _ (List.mem_singleton_self _))
      exact ⟨b, hb, hlater.id, hlater.provider, hlater.providerSub⟩

/-! ### Writing -/

/-- What is written of a row that was read: not its identifiers, its role or its password. -/
structure Edits (a u : Account) : Prop where
  id : u.id = a.id
  version : u.version = a.version
  provider : u.provider = a.provider
  providerSub : u.providerSub = a.providerSub
  role : u.role = a.role
  passwordHash : u.passwordHash = a.passwordHash

def written (u : Account) (s : Accounts) : Accounts :=
  { s with
    users := updateWhere (AccountStore.isRead u) (fun row => { u with
      version := row.version + 1 }) s.users }

theorem isRead_self (hedits : Edits a u) : AccountStore.isRead u a = true := by
  simp [AccountStore.isRead, hedits.id, hedits.version]

section Written

variable (hs : Keyed s) (hheld : Held a s) (hedits : Edits a u)
include hs hheld hedits

theorem eq_of_isRead {row : Account} (hrow : row ∈ s.users) (h : AccountStore.isRead u row = true) :
    row = a := by
  simp only [AccountStore.isRead, Bool.and_eq_true, beq_iff_eq] at h
  exact hheld.eq_of_version hs hrow (h.1.trans hedits.id) (h.2.trans hedits.version)

theorem mem_written (hb : b ∈ (written u s).users) :
    b ∈ s.users ∧ b ≠ a ∨ a ∈ s.users ∧ b = { u with version := a.version + 1 } := by
  obtain ⟨row, hrow, rfl⟩ := mem_updateWhere.mp hb
  by_cases hread : AccountStore.isRead u row = true
  · obtain rfl := eq_of_isRead hs hheld hedits hrow hread
    exact .inr ⟨hrow, if_pos hread⟩
  · rw [if_neg hread]
    refine .inl ⟨hrow, ?_⟩
    rintro rfl
    exact hread (isRead_self hedits)

theorem uniqueKey_written {κ : Type} {key : Account → Option κ} (h : UniqueKey key s.users)
    (hkey : key { u with version := a.version + 1 } = key a) :
    UniqueKey key (written u s).users := by
  intro b hb c hc k hbk hck
  rcases mem_written hs hheld hedits hb with ⟨hb, hba⟩ | ⟨ha, rfl⟩ <;>
    rcases mem_written hs hheld hedits hc with ⟨hc, hca⟩ | ⟨ha', rfl⟩
  · exact h b hb c hc k hbk hck
  · exact absurd (h b hb a ha' k hbk (hkey.symm.trans hck)) hba
  · exact absurd (h c hc a ha k hck (hkey.symm.trans hbk)) hca
  · rfl

theorem Keyed.written : Keyed (written u s) where
  ids := uniqueKey_written hs hheld hedits hs.ids (congrArg some hedits.id)
  identities := by
    refine uniqueKey_written hs hheld hedits hs.identities ?_
    simp only [Account.identity, hedits.provider, hedits.providerSub]

theorem grows_written : Grows Later s.users (written u s).users := by
  intro row hrow
  refine ⟨_, mem_updateWhere.mpr ⟨row, hrow, rfl⟩, ?_⟩
  split
  · rename_i hread
    obtain rfl := eq_of_isRead hs hheld hedits hrow hread
    exact ⟨hedits.id, hedits.provider, hedits.providerSub, .inr (Nat.lt_succ_self _)⟩
  · exact .refl row

/-- The row with the identifier of another, after a write. -/
theorem Keyed.written_of_id {c : Account} (hb : b ∈ s.users)
    (hc : c ∈ (OneAccount.written u s).users) (hid : c.id = b.id) : c = b ∨ b = a ∧ c = { u with
      version := a.version + 1 } := by
  rcases mem_written hs hheld hedits hc with ⟨hc, -⟩ | ⟨ha, rfl⟩
  · exact .inl (hs.eq_of_id hc hb hid)
  · exact .inr ⟨hs.eq_of_id hb ha (hid.symm.trans hedits.id), rfl⟩

theorem Moves.written (hoff : action ≠ .enableUser a.id → a.isActive = false → u.isActive = false)
    (hstate : ∀ exchanged, action = .signIn exchanged → u.isActive = a.isActive)
    (haction : MaySignIn action a) : Moves action s (written u s) := by
  refine ⟨grows_written hs hheld hedits, fun b hb hne hboff c hc hid => ?_,
    fun exchanged hexchanged sub hsub =>
    ⟨fun b hb hother => ?_, fun b hb => ?_, fun b hb c hc hid => ?_⟩⟩
  · rcases hs.written_of_id hheld hedits hb hc hid with rfl | ⟨rfl, rfl⟩
    · exact hboff
    · exact hoff hne hboff
  · obtain ⟨result, hresult, hof⟩ := haction exchanged hexchanged
    refine mem_updateWhere_of_eq_false hb (Bool.eq_false_iff.mpr fun hread => ?_)
    obtain rfl := eq_of_isRead hs hheld hedits hb hread
    exact hother (hsub result hresult ▸ hof)
  · obtain ⟨result, hresult, hof⟩ := haction exchanged hexchanged
    rcases mem_written hs hheld hedits hb with ⟨hb, -⟩ | ⟨-, rfl⟩
    · exact .inl hb
    · rw [← hsub result hresult]
      exact .inr ⟨hedits.provider.trans hof.1, hedits.providerSub.trans hof.2⟩
  · rcases hs.written_of_id hheld hedits hb hc hid with rfl | ⟨rfl, rfl⟩
    · exact ⟨rfl, rfl, rfl⟩
    · exact ⟨hstate exchanged hexchanged, hedits.role, hedits.passwordHash⟩

omit hs hheld hedits in
theorem update_eq_exec (u : Account) :
    ∃ f, AccountStore.update u = Prog.exec storeFault f ∧ ∀ s, (f s).2 = s ∨
      (f s).2 = written u s := by
  refine ⟨_, rfl, fun s => ?_⟩
  split
  · split
    · exact .inl rfl
    · exact .inr rfl
  · exact .inl rfl

/-- **A write** of a row that was read. -/
theorem safe_update (hoff : actions i ≠ .enableUser a.id → a.isActive = false → u.isActive = false)
    (hstate : ∀ exchanged, actions i = .signIn exchanged → u.isActive = a.isActive)
    (haction : MaySignIn (actions i) a) :
    Safe (contract actions) i (fun _ t => Held a t) (fun _ t => Keyed t ∧ Held a t)
      (AccountStore.update u) s := by
  obtain ⟨f, hf, hcases⟩ := update_eq_exec u
  have hstep : Keyed (f s).2 ∧ Moves (actions i) s (f s).2 := by
    rcases hcases s with h | h <;> rw [h]
    · exact ⟨hs, .of_users_eq hs rfl⟩
    · exact ⟨hs.written hheld hedits, .written hs hheld hedits hoff hstate haction⟩
  have hheld' := hheld.mono hstep.2.grows
  rw [hf]
  exact safe_exec (fun _ => hstep) (fun _ _ _ t hst _ => hheld'.mono hst)
    (fun _ _ _ t hst ht => ⟨ht, hheld'.mono hst⟩)
    fun _ t hst ht => ⟨ht, hheld.mono hst⟩

end Written

/-! ### Signing in -/

/-- The account of the identity, as a sign-in returns it. -/
def Own (sub : String) (u : Account) (t : Accounts) : Prop :=
    Of sub u ∧ ∃ b ∈ t.users, b.id = u.id ∧ Of sub b

theorem Held.own (h : Held a s) (ha : Of sub a) (hedits : Edits a u) : Own sub u s := by
  obtain ⟨b, hb, hab⟩ := h
  exact ⟨⟨hedits.provider.trans ha.1, hedits.providerSub.trans ha.2⟩, b, hb,
    hab.id.trans hedits.id.symm, ha.later hab⟩

variable {result : OIDCTokenResult}

theorem ensures_signInExisting (hi : actions i = .signIn (.ok result)) (hs : Keyed s)
    (hheld : Held a s) (ha : Of result.subject a) :
    Ensures (contract actions) i (Own result.subject) (OIDCFacade.signInExisting result a) s := by
  have haction : MaySignIn (actions i) a := by
    intro exchanged hexchanged
    exact ⟨result, (Action.signIn.inj (hi.symm.trans hexchanged)).symm, ha⟩
  have hrefreshed : Edits a (OIDCFacade.refreshed result a) := ⟨rfl, rfl, rfl, rfl, rfl, rfl⟩
  have hkept : Edits a { OIDCFacade.refreshed result a with email := a.email } :=
    ⟨rfl, rfl, rfl, rfl, rfl, rfl⟩
  unfold OIDCFacade.signInExisting
  refine .bindFailIf fun _ => ?_
  refine .bind (Safe.attempt
    ((safe_update hs hheld hrefreshed (fun _ h => h) (fun _ _ => rfl) haction).mono ?_ ?_))
  · exact fun _ t hheld' => hheld'.own ha hrefreshed
  · rintro e t ⟨ht, hheld'⟩
    dsimp only
    split
    · refine .bind
        (Safe.mapError
          ((safe_update ht hheld' hkept (fun _ h => h) (fun _ _ => rfl) haction).mono ?_ ?_))
      · exact fun _ t hheld'' => hheld''.own ha hkept
      · exact fun _ _ _ => trivial
    · exact trivial

theorem ensures_provision (hi : actions i = .signIn (.ok result)) (hs : Keyed s) :
    Ensures (contract actions) i (Own result.subject) (OIDCFacade.provision env i result) s := by
  unfold OIDCFacade.provision
  refine .seq (ensures_generateAccountID hs) fun id t ht => ?_
  refine .bind (Safe.attempt ((safe_create ht ?_).mono ?_ ?_))
  · intro exchanged hexchanged
    exact ⟨result, (Action.signIn.inj (hi.symm.trans hexchanged)).symm, rfl, rfl⟩
  · rintro - t ⟨b, hb, hid, hprovider, hsub⟩
    exact ⟨⟨rfl, rfl⟩, b, hb, hid, hprovider, hsub⟩
  · intro e t ht
    dsimp only
    split
    · refine Ensures.seq (ensures_getByProviderSub ht) fun r t hr => ?_
      cases r with
      | ok raced =>
        obtain ⟨hraced, hheld⟩ := hr.2 raced rfl
        exact ensures_signInExisting hi hr.1 hheld hraced
      | error e => exact trivial
    · exact trivial

theorem ensures_authenticateOIDC (hi : actions i = .signIn (.ok result)) (hs : Keyed s) :
    Ensures (contract actions) i (Own result.subject)
      (OIDCFacade.authenticateOIDC env i (.ok result)) s := by
  unfold OIDCFacade.authenticateOIDC
  refine .seq (ensures_getByProviderSub hs) fun r t hr => ?_
  cases r with
  | ok a =>
    obtain ⟨ha, hheld⟩ := hr.2 a rfl
    exact ensures_signInExisting hi hr.1 hheld ha
  | error e =>
    dsimp only
    split
    · exact ensures_provision hi hr.1
    · exact trivial

/-! ### Editing -/

section Editing

variable (hsignIn : ∀ exchanged, actions i ≠ .signIn exchanged) (hs : Keyed s)
include hsignIn hs

/-- An administrator writes the row that was read, with changes of their own. -/
theorem ensures_write {detail : String} (hheld : Held a s) (hedits : Edits a u)
    (hoff : actions i ≠ .enableUser a.id → a.isActive = false → u.isActive = false) :
    Ensures (contract actions) i (fun _ _ => True)
      ((AccountStore.update u).mapError (Err.wrap detail)) s := by
  refine .mapError ((safe_update hs hheld hedits hoff ?_ ?_).mono ?_ ?_)
  · exact fun exchanged h => absurd h (hsignIn exchanged)
  · exact fun exchanged h => absurd h (hsignIn exchanged)
  · exact fun _ _ _ => trivial
  · exact fun _ _ _ => trivial

theorem ensures_updateUser {email name : Option String} :
    Ensures (contract actions) i (fun _ _ => True) (AdminService.updateUser id email name) s := by
  unfold AdminService.updateUser
  refine .seq (ensures_getByID hs) fun a t ha => ?_
  obtain ⟨ht, -, hheld⟩ := ha
  exact .bind (ensures_write hsignIn ht hheld ⟨rfl, rfl, rfl, rfl, rfl, rfl⟩ fun _ h => h)

theorem ensures_disableUser :
    Ensures (contract actions) i (fun _ _ => True) (AdminService.disableUser id) s := by
  unfold AdminService.disableUser
  refine .bind (Safe.mapError ((ensures_getByID hs).mono fun a t ha => ?_))
  obtain ⟨ht, -, hheld⟩ := ha
  refine Ensures.bindOfExcept fun u hu => ?_
  rw [mapError_eq_ok, Account.disable] at hu
  split at hu
  · obtain rfl := Except.ok.inj hu
    exact ensures_write hsignIn ht hheld ⟨rfl, rfl, rfl, rfl, rfl, rfl⟩ fun _ _ => rfl
  · cases hu

theorem ensures_createUser {email name passwordHash : String} {role : Role} :
    Ensures (contract actions) i (fun _ _ => True)
      (AdminService.createUser env i email name passwordHash role) s := by
  unfold AdminService.createUser
  refine .seq (ensures_generateAccountID hs) fun id t ht => ?_
  refine .bind (Safe.mapError ((safe_create ht fun exchanged h => ?_).mono ?_ ?_))
  · exact absurd h (hsignIn exchanged)
  · exact fun _ _ _ => trivial
  · exact fun _ _ _ => trivial

end Editing

theorem ensures_enableUser (hi : actions i = .enableUser id) (hs : Keyed s) :
    Ensures (contract actions) i (fun _ _ => True) (AdminService.enableUser id) s := by
  unfold AdminService.enableUser
  refine .bind (Safe.mapError ((ensures_getByID hs).mono fun a t ha => ?_))
  obtain ⟨ht, rfl, hheld⟩ := ha
  refine Ensures.bindOfExcept fun u hu => ?_
  rw [mapError_eq_ok, Account.enable] at hu
  split at hu
  · cases hu
  · obtain rfl := Except.ok.inj hu
    exact ensures_write (by simp [hi]) ht hheld
      ⟨rfl, rfl, rfl, rfl, rfl, rfl⟩ fun hne => absurd hi hne

/-! ### Whole runs -/

/-- What a call that returns has found. -/
def Returned (action : Action) (r : Option Account) (t : Accounts) : Prop :=
  ∀ exchanged, action = .signIn exchanged → ∃ result u, exchanged = .ok result ∧ r = some u ∧
    Own result.subject u t

theorem ensures_program (hi : actions i = action) (hs : Keyed s) :
    Ensures (contract actions) i (Returned action) (program env i action) s := by
  have hedit : ∀ {α : Type} {p : Prog Accounts Err α}, (∀ exchanged, action ≠ .signIn exchanged) →
      Ensures (contract actions) i (fun _ _ => True) p s →
      Ensures (contract actions) i (Returned action) (p >>= fun _ => pure none) s := fun hne hp =>
    .seq hp fun _ t _ exchanged h => absurd h (hne exchanged)
  cases action with
  | signIn exchanged =>
    cases exchanged with
    | error e => exact trivial
    | ok result =>
      refine .seq (ensures_authenticateOIDC hi hs) fun u t hu exchanged h => ?_
      exact ⟨result, u, (Action.signIn.inj h).symm, rfl, hu⟩
  | createUser email name passwordHash role =>
    exact hedit (by simp) (ensures_createUser (by simp [hi]) hs)
  | updateUser id email name => exact hedit (by simp) (ensures_updateUser (by simp [hi]) hs)
  | disableUser id => exact hedit (by simp) (ensures_disableUser (by simp [hi]) hs)
  | enableUser id => exact hedit (by simp) (ensures_enableUser hi hs)

/-- The calls are under way, and each that has returned has found what it should. -/
abbrev Underway (actions : ReqID → Action) :
    Pool ReqID Accounts Err (fun _ => Option Account) → Prop :=
  Pool.Ready (contract actions) (fun i => Returned (actions i)) fun _ _ _ => True

theorem ready_exec (env : Env) (actions : ReqID → Action) (hs : Keyed s)
    (sched : Schedule ReqID) :
    Underway actions ((pool env actions s).exec sched) := by
  have hready : Underway actions (pool env actions s) :=
    ⟨hs, fun _ _ _ ht => ensures_program rfl ht⟩
  exact hready.exec sched (Pool.admitted_of_all (fun _ _ _ => trivial) sched fun _ _ _ => trivial)

variable {c : Pool ReqID Accounts Err fun _ => Option Account}

theorem moves_step (h : Underway actions c) (j : ReqID) (bad : Bool) :
    Moves (actions j) c.store (c.step j bad).store :=
  h.guar_step j bad trivial fun _ hs => .of_users_eq hs rfl

/-! ### Disabled accounts -/

/-- The account of the identity is disabled. -/
def Blocked (sub id : String) (s : Accounts) : Prop :=
  Keyed s ∧ ∃ a ∈ s.users, a.id = id ∧ Of sub a ∧ a.isActive = false

theorem Blocked.find (hs : Blocked sub id s) (hsub : sub ≠ "") :
    ∃ a, s.users.find? (fun a => a.provider == .providerOIDC && a.providerSub == sub) = some a ∧
      a.isActive = false := by
  obtain ⟨hkeyed, a, ha, -, hof, hoff⟩ := hs
  cases hfind : s.users.find? fun a => a.provider == .providerOIDC && a.providerSub == sub with
  | none =>
    have hnone := List.find?_eq_none.mp hfind a ha
    simp [hof.1, hof.2] at hnone
  | some b =>
    have hfound := List.find?_some hfind
    simp only [Bool.and_eq_true, beq_iff_eq] at hfound
    obtain rfl := hkeyed.eq_of hsub (List.mem_of_find?_eq_some hfind) ha hfound hof
    exact ⟨b, rfl, hoff⟩

/-- Only an administrator enables it. -/
theorem Blocked.exec (sched : Schedule ReqID) (hc : Underway actions c)
    (hs : Blocked sub id c.store) (hsched : ∀ e ∈ sched, actions e.1 ≠ .enableUser id) :
    Blocked sub id (c.exec sched).store := by
  induction sched generalizing c with
  | nil => exact hs
  | cons e rest ih =>
    have hnext := hc.step e.1 e.2 trivial fun _ => trivial
    refine ih hnext ?_ fun e' he' => hsched e' (List.mem_cons_of_mem e he')
    obtain ⟨-, a, ha, rfl, hof, hoff⟩ := hs
    have hmoves := moves_step hc e.1 e.2
    obtain ⟨b, hb, hab⟩ := hmoves.grows a ha
    have hstill := hmoves.disabled a ha (hsched e List.mem_cons_self) hoff b hb hab.id
    exact ⟨hnext.inv, b, hb, hab.id, hof.later hab, hstill⟩

/-- **A sign-in finds the account disabled** and ends there. -/
theorem fail_of_blocked (hi : c.procs i = program env i (.signIn (.ok result)))
    (hs : Blocked result.subject id c.store) (bad : Bool) :
    ∃ e, (c.step i bad).procs i = .fail e := by
  obtain ⟨a, hfind, hoff⟩ := hs.find result.subject_ne_empty
  have hcall : program env i (.signIn (.ok result)) = .call _ _ _ := rfl
  rw [Pool.step, hi, hcall]
  cases bad with
  | true => exact ⟨_, Function.update_self ..⟩
  | false =>
    have hrefused : OIDCFacade.signInExisting result a = .fail (.sentinel .oidcAuthFailed) := by
      rw [OIDCFacade.signInExisting, hoff]
      rfl
    refine ⟨.sentinel .oidcAuthFailed, (Function.update_self ..).trans ?_⟩
    simp only [Prog.outcome, lookup, hfind, Prog.ofExcept, Prog.attempt, Prog.bind, hrefused]

theorem not_returned_of_blocked (hs : Keyed s) (hi : actions i = .signIn (.ok result))
    (before after : Schedule ReqID) (hbefore : ∀ e ∈ before, e.1 ≠ i)
    (hblocked : Blocked result.subject id ((pool env actions s).exec before).store)
    (hafter : ∀ e ∈ after.takeWhile (fun e => e.1 != i), actions e.1 ≠ .enableUser id)
    (r : Option Account) : ((pool env actions s).exec (before ++ after)).procs i ≠ .ret r := by
  have hwait : ∀ e ∈ before ++ after.takeWhile (fun e => e.1 != i), e.1 ≠ i := by
    intro e he
    rcases List.mem_append.mp he with h | h
    · exact hbefore e h
    · simpa using List.all_eq_true.mp List.all_takeWhile e h
  have hfirst :
    ((pool env actions s).exec (before ++ after.takeWhile (fun e => e.1 != i))).procs i =
      program env i (.signIn (.ok result)) :=
    (Pool.procs_exec_of_not_mem _ hwait).trans (congrArg (program env i) hi)
  have hstill := hblocked.exec _ (ready_exec env actions hs before) hafter
  rw [← Pool.exec_append] at hstill
  rw [← List.takeWhile_append_dropWhile (p := fun e : ReqID × Bool => e.1 != i) (l := after),
    ← List.append_assoc, Pool.exec_append]
  cases hrest : after.dropWhile fun e => e.1 != i with
  | nil =>
    rw [Pool.exec_nil, hfirst]
    intro hret
    cases hret
  | cons e rest =>
    obtain ⟨j, bad⟩ := e
    obtain rfl : j = i := by
      have hhead := List.head?_dropWhile_not (fun e : ReqID × Bool => e.1 != i) after
      simpa [hrest] using hhead
    obtain ⟨e, hfail⟩ := fail_of_blocked hfirst hstill bad
    intro hret
    rw [Pool.exec, Pool.procs_exec_of_fail hfail rest] at hret
    cases hret

end Calls

/-- **One upstream identity, one account.** However the calls are interleaved and whichever of them
fail: a subject has one account; a sign-in returns the account of its subject; each of its steps
changes that account only, and neither its state, its role nor its password; and it does not succeed
if the account was disabled before it began, unless an administrator enables it before the first
step of the sign-in. -/
theorem one_account (env : Env) (actions : ReqID → Action) (s : Accounts) (hs : Keyed s)
    (sched : Schedule ReqID) :
    (∀ sub, sub ≠ "" → ∀ a ∈ ((pool env actions s).exec sched).store.users,
      ∀ b ∈ ((pool env actions s).exec sched).store.users, Of sub a → Of sub b → a = b) ∧
    (∀ i exchanged r, actions i = .signIn exchanged →
      ((pool env actions s).exec sched).procs i = .ret r →
      ∃ result u, exchanged = .ok result ∧ r = some u ∧
        Own result.subject u ((pool env actions s).exec sched).store) ∧
    (∀ before i bad after exchanged, sched = before ++ (i, bad) :: after → actions i =
      .signIn exchanged → ∀ sub, (∀ result, exchanged = .ok result → result.subject = sub) →
        Confined sub ((pool env actions s).exec before).store
          (((pool env actions s).exec before).step i bad).store) ∧
    (∀ before after i result, sched = before ++ after → actions i = .signIn (.ok result) →
      (∀ e ∈ before, e.1 ≠ i) →
      ∀ a ∈ ((pool env actions s).exec before).store.users, Of result.subject a →
        a.isActive = false →
        (∀ e ∈ after.takeWhile (fun e => e.1 != i), actions e.1 ≠ .enableUser a.id) →
          ∀ r, ((pool env actions s).exec sched).procs i ≠ .ret r) := by
  have hready := ready_exec env actions hs
  refine ⟨fun sub hsub a ha b hb hoa hob => ?_, fun i exchanged r hi hret => ?_, ?_, ?_⟩
  · exact (hready sched).inv.eq_of hsub ha hb hoa hob
  · exact (hready sched).post hret exchanged hi
  · intro before i bad after exchanged _ hi sub hsub
    exact (moves_step (hready before) i bad).confined exchanged hi sub hsub
  · intro before after i result hsched hi hbefore a ha hof hoff hafter
    rw [hsched]
    exact not_returned_of_blocked hs hi before after hbefore
      ⟨(hready before).inv, a, ha, rfl, hof, hoff⟩ hafter

namespace Sample

/-- A local account, and a disabled one of another identity. -/
def start : Accounts where
  users :=
    [{ id := "0", isActive := true, email := "ops@corp", name := "", passwordHash := "hash"
       role := .roleAdmin, provider := .providerLocal, providerSub := "", version := 1 },
     { id := "1", isActive := false, email := "", name := "", passwordHash := "", role := .roleUser
       provider := .providerOIDC, providerSub := "bob", version := 4 }]
  drawn := fun _ => 0

def alice : OIDCTokenResult := ⟨"alice", "alice@corp", "Alice", by decide⟩

def bob : OIDCTokenResult := ⟨"bob", "bob@corp", "Bob", by decide⟩

/-- Two first sign-ins of one identity, and one of the disabled account, which is then enabled. -/
def actions : ReqID → Action
  | 1 | 2 => .signIn (.ok alice)
  | 3 => .signIn (.ok bob)
  | 4 => .enableUser "1"
  | _ => .updateUser "0" none none

/-- Both look the account up before either has created it. -/
def sched : Schedule ReqID :=
  [(1, false), (2, false), (3, false), (4, false), (4, false), (2, false), (1, false), (1, false),
    (2, false), (2, false), (2, false)]

def ran : Pool ReqID Accounts Err fun _ => Option Account :=
    (pool Env.plain actions start).exec sched

def returned : Prog Accounts Err (Option Account) → Option Account
  | .ret r => r
  | _ => none

theorem ret_of_returned {p : Prog Accounts Err (Option Account)} (h : returned p = some u) :
    p = .ret (some u) := by
  unfold returned at h
  split at h
  · rw [h]
  · cases h

/-- The account, as both calls return it. -/
def account : Account where
  id := "a-"
  isActive := true
  email := "alice@corp"
  name := "Alice"
  passwordHash := ""
  role := .roleUser
  provider := .providerOIDC
  providerSub := "alice"
  version := 1

theorem keyed : Keyed start where
  ids := .of_nodup (by decide)
  identities := .of_nodup (by decide)

end Sample

/-- The call that lost the race to create the account returns the account of the other, and the
disabled one is refused. -/
theorem one_account_raced :
    Own "alice" Sample.account Sample.ran.store ∧ Sample.returned (Sample.ran.procs 1) =
      some Sample.account ∧ ∀ r, Sample.ran.procs 3 ≠ .ret r := by
  have hall := one_account Env.plain Sample.actions Sample.start Sample.keyed Sample.sched
  refine ⟨?_, by decide +kernel, ?_⟩
  · obtain ⟨result, u, hresult, hu, hown⟩ := hall.2.1 2 (.ok Sample.alice) (some Sample.account) rfl
      (Sample.ret_of_returned (by decide +kernel))
    obtain rfl := Except.ok.inj hresult
    obtain rfl := Option.some.inj hu
    exact hown
  · refine hall.2.2.2 [] Sample.sched 3 Sample.bob rfl rfl (by decide) _
      (List.mem_cons_of_mem _ List.mem_cons_self) ⟨rfl, rfl⟩ rfl ?_
    have hwaits : Sample.sched.takeWhile (fun e => e.1 != 3) = [(1, false), (2, false)] := rfl
    rw [hwaits]
    simp [Sample.actions]

end OneAccount

end AuthServer
