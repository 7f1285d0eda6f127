import AuthServer.Security.AssertedScope
import AuthServer.Security.DocumentChecks
import AuthServer.Security.GrantedScope

/-!
# What a client can give itself

A client that registers itself chooses its grants, and the server its scope ceiling: none if any of
the grants has no user in the loop. A client with a document may change its grants whenever it
likes, and two verifications may work on the row at the same time.

The row that is written is right by itself. A verification clears the ceiling of the row it has read
unless the grants of the document keep a user in the loop, and a registration assigns one only then;
so whatever was read, and however old it is, no write pairs a ceiling with a machine grant. What has
been read matters for one thing only, that a row stays one of a client that registered itself: a
verification writes back the source it has read, and since identifiers are unique that is the source
of the row it replaces. -/

namespace AuthServer

open Interleave Table

def Client.SelfRegistered (c : Client) : Prop :=
  c.registrationSource = .dcr ∨ c.registrationSource = .cimd

namespace SelfRegistration

/-! ### The calls -/

/-- The calls of the registration services, and the requests that the server answers besides. -/
inductive Action
  | register (req : DCRService.RegisterClientRequest)
  | verify (clientID : String)
  | serve (req : Request)

inductive Answer
  | registered (r : DCRService.RegisterClientResponse)
  | verified (c : Client)
  | served (r : Response)

def program {env : Env} (reg : Registrar env) (ctx : ReqID) : Action → Svc Answer
  | .register req => do
    let r ← DCRService.registerClient reg ctx req
    pure (.registered r)
  | .verify clientID => do
    let c ← CIMDService.verifyCIMD reg ctx clientID
    pure (.verified c)
  | .serve req => do
    let r ← AuthServer.serve env ctx req
    pure (.served r)

/-- The server before any of the calls has been answered. -/
def start {env : Env} (reg : Registrar env) (actions : ReqID → Action) (w : World) :
    Pool ReqID World Err fun _ => Answer where
  store := w
  procs := fun i => program reg i (actions i)

def Action.isEdit : Action → Bool
  | .serve (.maintain (.editDirectory ..)) => true
  | _ => false

/-! ### Rows -/

/-- A ceiling and a machine grant do not go together. -/
def Bounded (c : Client) : Prop :=
  c.SelfRegistered → c.scope ≠ "" → ∀ g ∈ machineGrants, g ∉ c.grantTypes

/-- No client that registered itself has both. -/
def NoAuthority (w : World) : Prop := ∀ c ∈ w.clients, Bounded c

/-- The two rows are of the same client, and from the same source. -/
def SameOrigin (c c' : Client) : Prop := c'.id = c.id ∧ c'.registrationSource = c.registrationSource

/-- The identifier, which is unique. -/
def key (c : Client) : Option String := some c.id

variable {grantTypes : List String}

theorem grants_of_isDelegatedOnly (h : isDelegatedOnly grantTypes = true) : ∀ g ∈ machineGrants,
    g ∉ grantTypes := by
  intro g hg hin
  have hnone : machineGrants.any (hasGrantType grantTypes) = false := by
    simpa [isDelegatedOnly] using h
  have hsome : hasGrantType grantTypes g = true := by simpa [hasGrantType] using hin
  exact absurd (List.any_eq_true.mpr ⟨g, hg, hsome⟩) (by rw [hnone]; decide)

/-- A ceiling is assigned to a client only when a user is in the loop of all its grants. -/
theorem grants_of_ceiling {env : Env} {reg : Registrar env} {ctx : ReqID} {scope : String}
    (h : reg.ceiling ctx grantTypes = .ok scope) (hne : scope ≠ "") : ∀ g ∈ machineGrants,
      g ∉ grantTypes := by
  unfold Registrar.ceiling at h
  split at h
  · rename_i hdelegated
    exact grants_of_isDelegatedOnly hdelegated
  · exact absurd (Except.ok.inj h).symm hne

theorem bounded_refreshed (c : Client) (doc : CIMDDocument) :
    Bounded (CIMDService.refreshed c doc) := by
  intro _ hscope
  have hdelegated : isDelegatedOnly doc.grantTypes = true := by
    by_contra hnot
    exact hscope (if_neg hnot)
  exact grants_of_isDelegatedOnly hdelegated

/-! ### The contract -/

/-- Every row of the first store is in the second, from the same source. -/
def Kept (s t : World) : Prop := Grows SameOrigin s.clients t.clients

theorem Kept.of_eq {s t : World} (h : t.clients = s.clients) : Kept s t := by
  intro c hc
  exact ⟨c, h ▸ hc, rfl, rfl⟩

def keeping : Contract ReqID World where
  inv := fun w => NoAuthority w ∧ UniqueKey key w.clients
  rely := fun _ => Kept
  guar := fun _ => Kept
  admits := fun _ _ _ => True
  faulty := True
  rely_refl := fun _ _ => Kept.of_eq rfl
  rely_trans := Grows.trans fun h h' => ⟨h'.1.trans h.1, h'.2.trans h.2⟩
  rely_of_guar := fun _ _ h => h

/-- A step that leaves the clients alone. -/
def SameClients (s t : World) : Prop := t.clients = s.clients

theorem tolerates {i : ReqID} (s t : World) (hs : keeping.inv s) (h : SameClients s t) :
    keeping.inv t ∧ keeping.guar i s t ∧ keeping.rely i s t := by
  refine ⟨?_, Kept.of_eq h, Kept.of_eq h⟩
  show (∀ c ∈ t.clients, Bounded c) ∧ UniqueKey key t.clients
  rw [h]
  exact hs

theorem tolerant (i : ReqID) : Tolerant keeping i := by
  intro s t hs hquiet
  obtain ⟨_, _, _, -, rfl⟩ := hquiet
  exact tolerates s _ hs rfl

/-! ### Registrations and verifications -/

variable {c : Client}

section Registering

variable {env : Env} {reg : Registrar env} {i : ReqID} {s : World}

theorem keeps_create (hs : keeping.inv s) (hc : Bounded c) :
    keeping.inv (ClientStore.create c s).2 ∧ keeping.guar i s (ClientStore.create c s).2 := by
  rcases ClientStore.create_cases c s with ⟨e, heq⟩ | ⟨hnew, v, heq⟩
  · rw [heq]
    exact ⟨hs, Kept.of_eq rfl⟩
  · rw [heq]
    refine ⟨⟨fun row hrow => ?_, ?_⟩, grows_append (fun _ => ⟨rfl, rfl⟩) _ _⟩
    · rcases List.mem_append.mp hrow with hold | hnew
      · exact hs.1 row hold
      · rw [List.mem_singleton.mp hnew]
        exact hc
    · refine hs.2.append_singleton fun k hk row hrow hrow' => ?_
      exact hnew row hrow (Option.some.inj (hrow'.trans hk.symm))

/-- Rewriting a row that was read earlier. -/
theorem keeps_update {doc : CIMDDocument} {u : World} (hs : keeping.inv s) (hread : c ∈ u.clients)
    (hus : Kept u s) :
    keeping.inv (ClientStore.update (CIMDService.refreshed c doc) s).2 ∧
      keeping.guar i s (ClientStore.update (CIMDService.refreshed c doc) s).2 := by
  rcases ClientStore.update_cases (CIMDService.refreshed c doc) s with ⟨e, heq⟩ | ⟨_, -, -, heq⟩
  · rw [heq]
    exact ⟨hs, Kept.of_eq rfl⟩
  rw [heq]
  -- a row that is replaced has the identifier of the one that was read, and so its source
  have horigin : ∀ row ∈ s.clients, ClientStore.isRead (CIMDService.refreshed c doc) row = true →
      row.id = c.id ∧ row.registrationSource = c.registrationSource := by
    intro row hrow hmatch
    have hid : row.id = c.id := by
      simp only [ClientStore.isRead, Bool.and_eq_true, beq_iff_eq] at hmatch
      exact hmatch.1
    exact hus.of_key hs.2 (fun h => congrArg some h.1) hread hrow rfl (congrArg some hid)
  refine ⟨⟨fun row hrow => ?_, ?_⟩, fun row hrow => ?_⟩
  · obtain ⟨old, hold, rfl⟩ := mem_updateWhere.mp hrow
    split
    · exact bounded_refreshed c doc
    · exact hs.1 old hold
  · intro a ha b hb k hka hkb
    obtain ⟨a', ha', rfl⟩ := mem_updateWhere.mp ha
    obtain ⟨b', hb', rfl⟩ := mem_updateWhere.mp hb
    have hkey : ∀ row ∈ s.clients,
      key (if ClientStore.isRead (CIMDService.refreshed c doc) row = true then
        { CIMDService.refreshed c doc with version := row.version + 1 } else row) = key row := by
      intro row hrow
      split
      · rename_i hmatch
        exact congrArg some (horigin row hrow hmatch).1.symm
      · rfl
    rw [hkey a' ha'] at hka
    rw [hkey b' hb'] at hkb
    rw [hs.2 a' ha' b' hb' k hka hkb]
  · refine ⟨_, mem_updateWhere.mpr ⟨row, hrow, rfl⟩, ?_⟩
    split
    · rename_i hmatch
      obtain ⟨hid, hsource⟩ := horigin row hrow hmatch
      exact ⟨hid.symm, hsource.symm⟩
    · exact ⟨rfl, rfl⟩

theorem safe_persist {params : CreateParams} {applicationType scope : String}
    (hparams : scope ≠ "" → ∀ g ∈ machineGrants, g ∉ params.grantTypes) (hs : keeping.inv s) :
    Ensures keeping i (fun _ _ => True)
      (DCRService.persist reg i params applicationType scope) s := by
  have hC := tolerant i
  unfold DCRService.persist
  refine hC.pass each_timeNow hs fun now t₁ _ h₁ => ?_
  refine hC.pass (each_generateRandomString env i) h₁ fun id t₂ _ h₂ => ?_
  have hsecret :
    (DCRService.generateSecret reg i params.tokenEndpointAuthMethod).Each World.Quiet :=
    each_ite ((each_generateRandomString env i).bind fun _ => .ofExcept fun _ => trivial) trivial
  refine hC.pass hsecret h₂ fun secret t₃ _ h₃ => ?_
  have hbounded :
    Bounded (DCRService.newClient params applicationType id secret.2 scope) := fun _ => hparams
  exact .bind (ensures_wrapErr
    (Ensures.exec (fun _ => keeps_create h₃ hbounded) fun _ _ _ _ _ _ => trivial))

theorem safe_registerClient {req : DCRService.RegisterClientRequest} (hs : keeping.inv s) :
    Ensures keeping i (fun _ _ => True) (DCRService.registerClient reg i req) s := by
  unfold DCRService.registerClient
  refine .bindOfExcept fun policy _ => ?_
  refine .bindOfExcept fun _ _ => ?_
  refine .bindOfExcept fun _ _ => ?_
  refine .bindOfExcept fun enabled _ => ?_
  refine .bindOfExcept fun _ _ => ?_
  refine .bindOfExcept fun scope hscope => ?_
  exact safe_persist (grants_of_ceiling hscope) hs

theorem safe_verifyCIMD {clientID : String} (hs : keeping.inv s) :
    Ensures keeping i (fun _ _ => True) (CIMDService.verifyCIMD reg i clientID) s := by
  refine .bindOfExcept fun doc _ => ?_
  refine (tolerant i).readWrapped hs fun existing t _ ht hread => ?_
  obtain ⟨u, hu, -, hut, hfound⟩ := hread
  cases existing with
  | some c =>
    have hc : c ∈ u.clients := List.mem_of_find?_eq_some (Except.ok.inj hfound)
    exact .bind (ensures_wrapErr
      (Ensures.exec (fun _ => keeps_update ht hc hut) fun _ _ _ _ _ _ => trivial))
  | none =>
    refine .bindOfExcept fun scope hscope => ?_
    exact .bind (ensures_wrapErr
      (Ensures.exec (fun _ => keeps_create ht fun _ => grants_of_ceiling hscope)
      fun _ _ _ _ _ _ => trivial))

end Registering

/-! ### Tokens -/

section Granting

variable {env : Env} {reg : Registrar env} {i : ReqID} {s : World}

theorem sameClients_of_uses {α : Type} {p : Svc α} {kinds : Write → Prop}
    (h : p.Each (Uses env i kinds))
    (hkinds : ∀ x, kinds x → Part.directory ∉ x.touches) : p.Each SameClients := by
  refine h.mono fun s t h => ?_
  rcases h with hquiet | ⟨x, hx, rfl⟩
  · obtain ⟨_, _, _, -, rfl⟩ := hquiet
    rfl
  · exact ((Write.frame env i x s).same .directory (hkinds x hx)).1

theorem sameClients_serve {req : Request} (hedit : (Action.serve req).isEdit = false) :
    (AuthServer.serve env i req).Each SameClients := by
  refine sameClients_of_uses (uses_serve env i req) fun x hx => ?_
  cases req with
  | maintain m =>
    obtain rfl : x = .maintain m := hx
    cases m <;> simp_all [Write.touches, Maintenance.touches, Action.isEdit]
  | _ => cases x <;> first | exact hx.elim | simp [Write.touches]

theorem sameClients_of_machineGrant {α : Type} {p : Svc α}
    (h : p.Each (Uses env i Write.ofMachineGrant)) :
    p.Each SameClients := by
  refine sameClients_of_uses h fun x hx => ?_
  cases x <;> first | exact hx.elim | simp [Write.touches]

def Granted (resp : MachineTokenResponse) (t : World) : Prop :=
  resp.accessToken.scope ≠ "" → ∀ c ∈ t.clients,
    c.id = resp.accessToken.clientID → ¬c.SelfRegistered

theorem granted_of_read {p : Svc MachineTokenResponse} {u : World} (heach : p.Each SameClients)
    (hyields : p.Yields fun resp => resp.accessToken.clientID = c.id ∧
      (resp.accessToken.scope ≠ "" → c.scope ≠ ""))
    (hgrant : ∃ g ∈ machineGrants, g ∈ c.grantTypes) (hc : c ∈ u.clients) (hu : keeping.inv u)
    (hus : Kept u s) (hs : keeping.inv s) : Ensures keeping i Granted p s := by
  have hsafe : Ensures keeping i (fun _ t => Kept u t ∧ keeping.inv t) p s :=
    Safe.of_each heach tolerates hs (fun _ t hst ht => ⟨keeping.rely_trans (i := i) hus hst, ht⟩)
      fun _ _ _ _ => trivial
  refine .mono (Safe.and_yields hsafe hyields) fun resp t h => ?_
  obtain ⟨⟨hut, ht⟩, hclient, hscope⟩ := h
  intro hne c' hc' hid hself
  -- the row is still from the source it was from when it was read
  have horigin : SameOrigin c c' :=
    hut.of_key ht.2 (fun h => congrArg some h.1) hc hc' rfl (congrArg some (hid.trans hclient))
  obtain ⟨g, hg, hin⟩ := hgrant
  have hself : c.SelfRegistered := by
    unfold Client.SelfRegistered at hself ⊢
    rwa [← horigin.2]
  exact hu.1 c hc hself (hscope hne) g hg hin

theorem within_of_clientCredentialsScope {requested : String} {catalog : Option ScopeSet}
    {scopes : ScopeSet}
    (h : ClientCredentialsService.clientCredentialsScope c requested catalog = .ok scopes) :
    ∀ sc ∈ scopes.names, sc ∈ Text.fields c.scope := by
  obtain ⟨-, rfl, hceiling, -⟩ | ⟨-, -, rfl⟩ | ⟨-, cat, -, rfl, -⟩ :=
    ClientCredentialsService.cases_of_clientCredentialsScope h
  · exact fun sc hsc => hceiling sc (ScopeSet.mem_parse.mp hsc)
  · exact fun sc hsc => ScopeSet.mem_parse.mp hsc
  · exact fun sc hsc => ScopeSet.mem_parse.mp (ScopeSet.mem_intersect.mp hsc).1

theorem scope_ne_of_within {scopes : ScopeSet} (h : ∀ sc ∈ scopes.names, sc ∈ Text.fields c.scope)
    (hne : scopes.toString ≠ "") : c.scope ≠ "" := by
  intro hnone
  have hempty : scopes.names = [] := by
    refine List.eq_nil_iff_forall_not_mem.mpr fun sc hsc => ?_
    have hin := h sc hsc
    rw [hnone] at hin
    cases hin
  refine hne ?_
  rw [ScopeSet.toString, ScopeSet.slice, sortStrings_eq_nil.mpr hempty]
  rfl

/-- A grant to a machine starts with the client it is for. -/
theorem ensures_grant {clientID clientSecret grantType : String} {refusal : Err}
    {g : Client → Svc MachineTokenResponse} (hmachine : grantType ∈ machineGrants)
    (huses : ∀ c, (g c).Each (Uses env i Write.ofMachineGrant))
    (hyields : ∀ c, (g c).Yields fun resp => resp.accessToken.clientID = clientID ∧
      (resp.accessToken.scope ≠ "" → c.scope ≠ "")) (hs : keeping.inv s) :
    Ensures keeping i Granted (do
      let c ← authenticateMachine env clientID clientSecret
      failIf (!hasGrantType c.grantTypes grantType) refusal
      g c) s := by
  simp only [authenticateMachine, Prog.bind_assoc, Prog.pure_bind]
  refine .bindFailIf fun _ => ?_
  refine (tolerant i).readOr hs fun c t _ ht hread => ?_
  obtain ⟨u, hu, -, hut, hfound⟩ := hread
  obtain ⟨hc, rfl⟩ := ClientStore.mem_of_getByID hfound
  refine .bindFailIf fun _ => .bindFailIf fun _ =>
    Ensures.bindFailIf fun _ => .bindFailIf fun hgrant => ?_
  have hgrant : ∃ g ∈ machineGrants, g ∈ c.grantTypes :=
    ⟨grantType, hmachine, by simpa [hasGrantType] using hgrant⟩
  exact granted_of_read (sameClients_of_machineGrant (huses c)) (hyields c) hgrant hc hu hut ht

theorem safe_clientCredentials {req : ClientCredentialsRequest} (hs : keeping.inv s) :
    Ensures keeping i Granted (ClientCredentialsService.exchange env i req) s := by
  refine ensures_grant (by decide) (fun c => ?_) (fun c => ?_) hs
  · exact uses_after (ClientCredentialsService.each_resolveCatalog _) fun _ =>
      .ofExcept fun _ => uses_after (each_dpopThumbprint _ _) fun _ =>
      uses_after each_timeNow fun _ => uses_after (each_generateRandomString _ _) fun _ =>
      MachineIssue.uses_issue
  · refine .skip fun catalog => Prog.Yields.bind (Prog.yields_ofExcept fun scopes hscopes => ?_)
    refine .skip fun jkt => .skip fun now => .skip fun jti => ?_
    refine Prog.Yields.mono JWTBearerService.yields_issue fun resp h => ⟨h.1, fun hne => ?_⟩
    rw [h.2.1] at hne
    exact scope_ne_of_within (within_of_clientCredentialsScope hscopes) hne

/-- A client that gets as far as the policies has a ceiling. -/
theorem scope_ne_of_requestedScopes {asserted requested : String} {given : ScopeSet}
    (h : JWTBearerService.requestedScopes c asserted requested = .ok given) : c.scope ≠ "" := by
  intro hnone
  obtain ⟨composed, hceiling, -⟩ := ok_of_bind h
  obtain ⟨hne, hwithin⟩ := JWTBearerService.ceiling_spec hceiling
  have hempty : composed.names = [] := by
    refine List.eq_nil_iff_forall_not_mem.mpr fun sc hsc => ?_
    have hin := (hwithin sc hsc).1
    rw [hnone] at hin
    cases hin
  rw [ScopeSet.isEmpty_iff.mpr hempty] at hne
  cases hne

theorem safe_jwtBearer {req : JWTBearerRequest} (hs : keeping.inv s) :
    Ensures keeping i Granted (JWTBearerService.grantJWTBearer env i req) s := by
  refine ensures_grant (by decide) (fun c => ?_) (fun c => ?_) hs
  · exact .ofExcept fun _ => .ofExcept fun _ =>
      uses_after (JWTBearerService.each_lookupIDP _) fun _ =>
      uses_after (JWTBearerService.each_validateAssertion _ _) fun _ =>
      .failIf <| .ofExcept fun _ => JWTBearerService.uses_grantAsserted
  · refine .skip fun a => .skip fun issuer => .skip fun idp => ?_
    refine .skip fun assertion => .skip fun _ => .skip fun resource => ?_
    refine .skip fun _ => Prog.Yields.bind (Prog.yields_ofExcept fun given hgiven => ?_)
    refine .skip fun _ => .skip fun scopes => .skip fun jkt => ?_
    refine .skip fun now => .skip fun jti => .skip fun sub => ?_
    exact Prog.Yields.mono JWTBearerService.yields_issue fun resp h =>
      ⟨h.1, fun _ => scope_ne_of_requestedScopes hgiven⟩

/-! ### Every interleaving -/

/-- What an answer must satisfy. -/
def Post : Answer → World → Prop
  | .served (.machine resp), t => Granted resp t
  | _, _ => True

/-- The two grants are the only requests that are answered so. -/
theorem safe_serve {req : Request} (hedit : (Action.serve req).isEdit = false)
    (hs : keeping.inv s) :
    Ensures keeping i (fun r t => Post (.served r) t) (AuthServer.serve env i req) s := by
  have hsafe : Ensures keeping i (fun _ _ => True) (AuthServer.serve env i req) s :=
    Safe.of_each (sameClients_serve hedit) tolerates hs
      (fun _ _ _ _ => trivial) fun _ _ _ _ => trivial
  cases req with
  | clientCredentials req => exact .seq (safe_clientCredentials hs) fun _ _ h => h
  | jwtBearer req => exact .seq (safe_jwtBearer hs) fun _ _ h => h
  | _ =>
    refine .mono (Safe.and_yields
      (R := fun r => ∀ t, Post (.served r) t) hsafe ?_) fun r t h => h.2 t
    exact .skip fun _ => Prog.yields_pure fun _ => trivial

theorem safe_program {action : Action} (hedit : action.isEdit = false) (hs : keeping.inv s) :
    Ensures keeping i Post (program reg i action) s := by
  cases action with
  | register req => exact .seq (safe_registerClient hs) fun _ _ _ => trivial
  | verify clientID => exact .seq (safe_verifyCIMD hs) fun _ _ _ => trivial
  | serve req => exact .bind (safe_serve hedit hs)

end Granting

/-- **No machine authority.** Take any store with unique client identifiers in which no client that
registered itself has both a ceiling and a machine grant, any providers and documents, any calls of
the registration services and any requests but edits of the directory, and any interleaving of their
store calls, some of which the store fails. At every moment no client that registered itself has
both, and a token that was returned by `client_credentials` or `jwt-bearer` with a scope is not that
of a client that registered itself. -/
theorem no_machine_authority (env : Env) (reg : Registrar env)
    (actions : ReqID → Action) (w : World)
    (hids : (w.clients.map Client.id).Nodup) (hstart : NoAuthority w)
      (hedit : ∀ i, (actions i).isEdit = false)
    (sched : Schedule ReqID) :
    NoAuthority ((start reg actions w).exec sched).store ∧
      ∀ i resp, ((start reg actions w).exec sched).procs i = .ret (.served (.machine resp)) →
        resp.accessToken.scope ≠ "" →
          ∀ c ∈ ((start reg actions w).exec sched).store.clients, c.id = resp.accessToken.clientID →
            ¬c.SelfRegistered := by
  have hkeys : UniqueKey key w.clients := by
    refine UniqueKey.of_nodup ?_
    rwa [show (key : Client → Option String) = fun c => some c.id from rfl, List.filterMap_eq_map']
  have hready : Pool.Ready keeping (fun _ => Post) (fun _ _ _ => True) (start reg actions w) :=
    ⟨⟨hstart, hkeys⟩, fun i t _ ht => safe_program (hedit i) ht⟩
  have hexec :=
    hready.exec sched (Pool.admitted_of_all (fun _ _ _ => trivial) sched fun _ _ _ => trivial)
  exact ⟨hexec.inv.1, fun i resp hret => hexec.post hret⟩

end SelfRegistration

/-! ### A run -/

namespace Sample

/-- A deployment in which anyone may register with any grant, and is assigned a scope. -/
def openDoor : Registrar Env.plain :=
  { publishing (document "App" []) with enabledGrants := fun _ => .ok none }

/-- A machine client that an administrator registered. -/
def job : Client :=
  ⟨"job", "secret", [], ["client_credentials"], .active, "", "notes:read", false, .admin, "Job", [],
    "client_secret_post", "", "", 1⟩

/-- The first request registers a client for `client_credentials`; the second is that client's,
asking for a token without naming a scope, and the third that of the administrator's client. -/
def selfService : ReqID → SelfRegistration.Action
  | 0 => .register ⟨[], "Robot", ["client_credentials"], [], "client_secret_post", "", false, ""⟩
  | 1 => .serve (.clientCredentials ⟨tally 0 0, tally 0 1, "", "", ⟨"", "", ""⟩⟩)
  | 2 => .serve (.clientCredentials ⟨"job", "secret", "", "", ⟨"", "", ""⟩⟩)
  | _ => .verify clientURL

def oneJob : World := { World.empty 1000000000000 with clients := [job] }

/-- The requests one after the other, and a verification. -/
def selfServed : Pool ReqID World Err fun _ => SelfRegistration.Answer :=
  (SelfRegistration.start openDoor selfService oneJob).exec
    (List.replicate 4 (0, false) ++ List.replicate 6 (1, false) ++ List.replicate 6 (2, false) ++
      List.replicate 2 (3, false))

/-- The client and the scope of a token that a machine grant returned. -/
def machineToken (c : Pool ReqID World Err fun _ => SelfRegistration.Answer) (i : ReqID) :
    Option (String × String) :=
  match c.procs i with
  | .ret (.served (.machine resp)) => some (resp.accessToken.clientID, resp.accessToken.scope)
  | _ => none

theorem ret_of_machineToken {c : Pool ReqID World Err fun _ => SelfRegistration.Answer} {i : ReqID}
    {clientID scope : String} (h : machineToken c i = some (clientID, scope)) :
    ∃ resp, c.procs i = .ret (.served (.machine resp)) ∧ resp.accessToken.clientID = clientID ∧
      resp.accessToken.scope = scope := by
  unfold machineToken at h
  split at h
  · rename_i resp hret
    obtain ⟨hclient, hscope⟩ := Prod.mk.inj (Option.some.inj h)
    exact ⟨resp, hret, hclient, hscope⟩
  · cases h

end Sample

open Sample in
/-- The client that registered itself gets a token without a scope; another such client, which keeps
a user in the loop, has the ceiling; and the token with a scope is that of the administrator's
client. -/
theorem SelfRegistration.no_authority_for_robot :
    machineToken selfServed 1 = some (tally 0 0, "") ∧
      machineToken selfServed 2 = some ("job", "notes:read") ∧
      selfServed.store.clients.map (fun c => (c.grantTypes, c.scope)) =
        [(["client_credentials"], "notes:read"), (["client_credentials"], ""),
          (["authorization_code", "refresh_token"], "notes:read")] ∧
      SelfRegistration.NoAuthority selfServed.store ∧
      ∀ c ∈ selfServed.store.clients, c.id = "job" → ¬c.SelfRegistered := by
  have hjob : machineToken selfServed 2 = some ("job", "notes:read") := by decide +kernel
  have hedit : ∀ i, (selfService i).isEdit = false := by
    intro i
    rcases i with _ | _ | _ | i <;> rfl
  have hstart : SelfRegistration.NoAuthority oneJob := by
    intro c hc hself
    obtain rfl := List.mem_singleton.mp hc
    rcases hself with hsource | hsource <;> cases hsource
  obtain ⟨hnone, htokens⟩ :=
    SelfRegistration.no_machine_authority Env.plain openDoor selfService oneJob
    (by decide) hstart hedit (List.replicate 4 (0, false) ++ List.replicate 6 (1, false) ++
      List.replicate 6 (2, false) ++ List.replicate 2 (3, false))
  obtain ⟨resp, hret, hclient, hscope⟩ := ret_of_machineToken hjob
  refine ⟨by decide +kernel, hjob, by decide +kernel, hnone, ?_⟩
  rw [← hclient]
  exact htokens 2 resp hret (by rw [hscope]; decide)

end AuthServer
