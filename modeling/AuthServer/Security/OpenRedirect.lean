import AuthServer.Api.Authorize
import AuthServer.Security.DocumentChecks
import AuthServer.Security.RedirectMatch

/-!
# The authorize endpoint is no open redirector

The authorize endpoint redirects to a URI that comes with the request, and does so for errors too:
whatever `handleAuthorizeError` does not know is sent to the redirect URI. That is safe because the
errors it does know are all that can be raised before the redirect URI has been compared with the
client's. The lookup of the client turns every error of the stores and of the metadata fetch into
one of them.

What is sent to the client is its redirect URI with a few parameters set. Setting them means reading
the query and writing it again, and reading leaves out the pairs that do not decode; so of a query
that is not well formed something is lost. Everything else is the same, name by name.

The moment at which the client accepted the redirect URI is a moment at which the request made a
store call. It is found by running the contract over one schedule: a step is admitted if it is one
of that schedule's (`admits`), so that each step of a request knows the store of its own moment. -/

namespace AuthServer

open Interleave

variable {target : Target}

namespace OpenRedirect

/-! ### The query -/

/-- The parameters that the server sets. -/
def ownParams : List String := ["code", "state", "iss", "error", "error_description"]

/-- The target is the redirect URI, but for parameters that the server sets and for pairs of its
query that do not decode. -/
def Follows (env : Env) (redirectURI : String) (target : Target) : Prop :=
  ∃ u, env.urlParse redirectURI = some u ∧ target.url = u ∧
    ∀ name, name ∉ ownParams.map bytesOf →
      Query.values name (Query.parse target.query) =
        Query.values name (Query.parse (bytesOf u.rawQuery))

variable {params : List (String × String)}

theorem values_foldl_set {name : Bytes} (h : ∀ p ∈ params, bytesOf p.1 ≠ name)
    (q : List (Bytes × Bytes)) :
    Query.values name (params.foldl (fun q p => Query.set (bytesOf p.1) (bytesOf p.2) q) q) =
      Query.values name q := by
  induction params generalizing q with
  | nil => rfl
  | cons p rest ih =>
    rw [List.foldl_cons, ih fun p' hp' => h p' (List.mem_cons_of_mem p hp')]
    exact Query.values_set_of_ne (h p List.mem_cons_self).symm

variable {redirectURI : String}

theorem follows_of_redirectWith {env : Env} (hparams : ∀ p ∈ params, p.1 ∈ ownParams)
    (h : redirectWith env redirectURI params = .redirect target) :
      Follows env redirectURI target := by
  unfold redirectWith at h
  split at h
  · cases h
  · rename_i u hu
    obtain rfl := Answer.redirect.inj h
    refine ⟨u, hu, rfl, fun name hname => ?_⟩
    rw [Query.values_parse_encode]
    exact values_foldl_set (fun p hp heq => hname (List.mem_map.mpr ⟨p.1, hparams p hp, heq⟩)) _

variable {state iss : String}

theorem own_stateAndIssuer : ∀ p ∈ stateAndIssuer state iss, p.1 ∈ ownParams := by
  intro p hp
  rcases List.mem_append.mp hp with hstate | hiss
  · split at hstate
    · rw [List.mem_singleton.mp hstate]
      simp [ownParams]
    · cases hstate
  · rw [List.mem_singleton.mp hiss]
    simp [ownParams]

theorem follows_redirectWithCode {env : Env} {code : String}
    (h : redirectWithCode env redirectURI code state iss = .redirect target) :
      Follows env redirectURI target := by
  refine follows_of_redirectWith ?_ h
  simpa [ownParams] using own_stateAndIssuer

theorem follows_redirectWithError {env : Env} {errCode description : String}
    (h : redirectWithError env redirectURI state errCode description iss = .redirect target) :
    Follows env redirectURI target := by
  refine follows_of_redirectWith ?_ h
  simpa [ownParams] using own_stateAndIssuer

/-! ### The pool -/

/-- The two endpoints, and whatever else happens to the store. -/
inductive Action
  | authorize (req : AuthorizeRequest)
  | consent (form : ConsentForm)
  | register (req : DCRService.RegisterClientRequest)
  | other (req : Request)

/-- What is answered; of other requests it does not matter. -/
def program {env : Env} (web : Web env) (reg : Registrar env) (ctx : ReqID) :
    Action → Svc (Option Answer)
  | .authorize req => do
    let a ← OAuthHandler.handleAuthorize web ctx req
    pure (some a)
  | .consent form => do
    let a ← ConsentHandler.handlePostConsent web ctx form
    pure (some a)
  | .register req => do
    let _ ← DCRService.registerClient reg ctx req
    pure none
  | .other req => do
    let _ ← serve env ctx req
    pure none

def start {env : Env} (web : Web env) (reg : Registrar env) (actions : ReqID → Action) (w : World) :
    Pool ReqID World Err fun _ => Option Answer where
  store := w
  procs := fun i => program web reg i (actions i)

/-- Authorization requests come through the endpoint. -/
def Action.isDirect : Action → Bool
  | .other (.authorize _) => true
  | _ => false

def Accepts (env : Env) (req : AuthorizeRequest) (u : World) : Prop :=
  ∃ c ∈ u.clients, (c.id = req.clientID ∨ c.cimdURL = req.clientID) ∧ c.isActive = true ∧
    c.hasRedirectURI env req.redirectURI = true

/-- The wiring of the endpoints, the requests, the store they start from, and a schedule. -/
structure Run (env : Env) where
  web : Web env
  reg : Registrar env
  actions : ReqID → Action
  world : World
  sched : Schedule ReqID

section Run

variable {env : Env} (R : Run env)

def Run.start : Pool ReqID World Err fun _ => Option Answer :=
  OpenRedirect.start R.web R.reg R.actions R.world

/-- The store `u` is one just before or just after a step of the request. -/
def Handling (i : ReqID) (u : World) : Prop :=
  ∃ earlier bad later, R.sched = earlier ++ (i, bad) :: later ∧
    (u = (R.start.exec earlier).store ∨
      u = (R.start.exec (earlier ++ [(i, bad)])).store)

/-- While the request was being handled, its client accepted its redirect URI. -/
def Accepted (i : ReqID) (req : AuthorizeRequest) : Prop :=
  ∃ u, Handling R i u ∧ Accepts env req u

/-- The session was there from the start, or a request created it whose redirect URI was
accepted. -/
def Vouched (s : AuthSession) : Prop :=
  (∃ s₀ ∈ R.world.sessions, s₀.id = s.id) ∨
    ∃ j req, R.actions j = .authorize req ∧ (∃ n, s.id = env.random j n) ∧
      Accepted R j req ∧ s.redirectURI = req.redirectURI

/-- The row was in the store before, as far as redirects go. -/
def Stays (s : World) (row : AuthSession) : Prop :=
  ∃ old ∈ s.sessions, old.id = row.id ∧ old.redirectURI = row.redirectURI

/-- The rows of the second store are rows of the first. -/
def FromOld (s t : World) : Prop := ∀ row ∈ t.sessions, Stays s row

theorem FromOld.of_eq {s t : World} (h : t.sessions = s.sessions) : FromOld s t :=
  fun row hrow => ⟨row, h ▸ hrow, rfl, rfl⟩

/-- The contract of one schedule. New rows have identifiers from the supply of the request that
creates them. -/
def vouching : Contract ReqID World where
  inv := fun u => ∀ s ∈ u.sessions, Vouched R s
  rely := fun i s t => ∀ row ∈ t.sessions, (∃ n, row.id = env.random i n) → Stays s row
  guar := fun i s t => ∀ row ∈ t.sessions, (∃ n, row.id = env.random i n) ∨ Stays s row
  admits := fun i s t => Handling R i s ∧ Handling R i t
  faulty := True
  rely_refl := fun _ s row hrow _ => ⟨row, hrow, rfl, rfl⟩
  rely_trans := by
    intro i s t u hst htu row hrow hown
    obtain ⟨mid, hmid, hid, huri⟩ := htu row hrow hown
    obtain ⟨old, hold, hid', huri'⟩ := hst mid hmid (hid ▸ hown)
    exact ⟨old, hold, hid'.trans hid, huri'.trans huri⟩
  rely_of_guar := by
    intro i j s t hij _ h row hrow hown
    rcases h row hrow with ⟨n, hn⟩ | hstays
    · obtain ⟨m, hm⟩ := hown
      exact absurd (env.random_injective (hn.symm.trans hm)).1 hij
    · exact hstays

variable {R} {i : ReqID} {s : World}

theorem tolerates (u v : World) (hu : (vouching R).inv u) (h : FromOld u v) :
    (vouching R).inv v ∧ (vouching R).guar i u v ∧
      (vouching R).rely i u v := by
  refine ⟨fun row hrow => ?_, fun row hrow => .inr (h row hrow), fun row hrow _ => h row hrow⟩
  obtain ⟨old, hold, hid, huri⟩ := h row hrow
  rcases hu old hold with ⟨s₀, hs₀, hid₀⟩ | ⟨j, req, hj, ⟨n, hn⟩, hacc, hreq⟩
  · exact .inl ⟨s₀, hs₀, hid₀.trans hid⟩
  · exact .inr ⟨j, req, hj, ⟨n, hid.symm.trans hn⟩, hacc, huri.symm.trans hreq⟩

theorem tolerant : Tolerant (vouching R) i := by
  intro u v hu hquiet
  obtain ⟨_, _, _, -, rfl⟩ := hquiet
  exact tolerates u _ hu (FromOld.of_eq rfl)

/-! ### Other requests -/

variable {p : AuthSession → Bool} {u v : World}

theorem fromOld_updateWhere {f : AuthSession → AuthSession}
    (h : v.sessions = Table.updateWhere p f u.sessions)
    (hf : ∀ row, (f row).id = row.id ∧ (f row).redirectURI = row.redirectURI) : FromOld u v := by
  intro row hrow
  rw [h] at hrow
  obtain ⟨old, hold, rfl⟩ := Table.mem_updateWhere.mp hrow
  refine ⟨old, hold, ?_⟩
  split
  · exact ⟨(hf old).1.symm, (hf old).2.symm⟩
  · exact ⟨rfl, rfl⟩

theorem fromOld_filter (h : v.sessions = u.sessions.filter p) :
    FromOld u v := by
  intro row hrow
  rw [h] at hrow
  exact ⟨row, List.mem_of_mem_filter hrow, rfl, rfl⟩

theorem fromOld_updateCode (sessionID codeHash scope : String) (u : World) :
    FromOld u (SessionStore.updateCodeHashAndScope sessionID codeHash scope u).2 := by
  rcases SessionStore.updateCodeHashAndScope_cases sessionID codeHash scope
    u with ⟨e, heq⟩ | ⟨-, -, heq⟩
  · rw [heq]
    exact FromOld.of_eq rfl
  · rw [heq]
    exact fromOld_updateWhere rfl fun _ => ⟨rfl, rfl⟩

theorem fromOld_approve (ctx : ReqID) (req : GrantConsentRequest) (clientID : String)
    (resolved : Option Resource)
    (codeHash scope : String) (u : World) :
    FromOld u (Write.run env ctx (.approve req clientID resolved codeHash scope) u) := by
  rcases run_approve_cases env ctx req clientID resolved codeHash scope
    u with heq | ⟨w₁, w₂, h₁, h₂, heq⟩
  · rw [heq]
    exact FromOld.of_eq rfl
  · rw [heq]
    obtain ⟨drawn, grants, -, rfl⟩ := ConsentService.persistGrant_frame h₁
    have hstep := fromOld_updateCode req.sessionID codeHash scope
      { u with drawn := drawn, consentGrants := grants }
    rw [h₂] at hstep
    exact hstep

theorem fromOld_run (ctx : ReqID) (x : Write) (hx : ∀ s r, x ≠ .createSession s r) (u : World) :
    FromOld u (x.run env ctx u) := by
  by_cases htouch : Part.sessions ∈ x.touches
  · cases x with
    | createSession s r => exact absurd rfl (hx s r)
    | deleteSession id => exact fromOld_filter rfl
    | consumeCode hash =>
      rcases SessionStore.consumeByCodeHash_cases ctx hash u with ⟨-, heq⟩ | ⟨_, -, -, -, -, heq⟩
      · exact FromOld.of_eq (congrArg World.sessions heq)
      · rw [Write.run, heq]
        exact fromOld_updateWhere rfl fun _ => ⟨rfl, rfl⟩
    | updateCode id hash scope => exact fromOld_updateCode id hash scope u
    | approve req c r hash scope => exact fromOld_approve ctx req c r hash scope u
    | maintain m =>
      cases m with
      | purgeSessions => exact fromOld_filter rfl
      | _ => simp [Write.touches, Maintenance.touches] at htouch
    | _ => simp [Write.touches] at htouch
  · exact FromOld.of_eq ((Write.frame env ctx x u).same .sessions htouch)

variable {α : Type}

theorem fromOld_of_quiet {p : Svc α} (h : p.Each World.Quiet) : p.Each FromOld := by
  refine h.mono fun u v hquiet => ?_
  obtain ⟨_, _, _, -, rfl⟩ := hquiet
  exact FromOld.of_eq rfl

theorem fromOld_completeAuthorization {sessionID : String} :
    (AuthorizeService.completeAuthorization env i sessionID).Each FromOld :=
  (fromOld_of_quiet (each_wrapErr each_fetch)).bind fun _ =>
    (fromOld_of_quiet each_timeNow).bind fun _ =>
    .failIf <| (fromOld_of_quiet (each_generateRandomString env i)).bind fun _ =>
    (each_wrapErr (Prog.each_exec (fromOld_updateCode _ _ _))).bind fun _ => Prog.each_pure _

theorem fromOld_serve {req : Request} (hdirect : (Action.other req).isDirect = false) :
    (serve env i req).Each FromOld := by
  by_cases hcomplete : ∃ id, req = .completeAuthorization id
  · obtain ⟨id, rfl⟩ := hcomplete
    exact fromOld_completeAuthorization.bind fun _ => Prog.each_pure _
  refine (uses_serve env i req).mono fun u v h => ?_
  rcases h with hquiet | ⟨x, hx, rfl⟩
  · obtain ⟨_, _, _, -, rfl⟩ := hquiet
    exact FromOld.of_eq rfl
  · refine fromOld_run i x (fun s r heq => ?_) u
    subst heq
    cases req with
    | authorize req => cases hdirect
    | completeAuthorization id => exact hcomplete ⟨id, rfl⟩
    | maintain m => cases hx
    | _ => exact hx

theorem fromOld_createClient (c : Client) (u : World) : FromOld u (ClientStore.create c u).2 := by
  rcases ClientStore.create_cases c u with ⟨e, heq⟩ | ⟨-, v, heq⟩ <;> rw [heq] <;>
    exact FromOld.of_eq rfl

theorem fromOld_updateClient (c : Client) (u : World) : FromOld u (ClientStore.update c u).2 := by
  rcases ClientStore.update_cases c u with ⟨e, heq⟩ | ⟨_, -, -, heq⟩ <;> rw [heq] <;>
    exact FromOld.of_eq rfl

theorem fromOld_registerClient {reg : Registrar env} {req : DCRService.RegisterClientRequest} :
    (DCRService.registerClient reg i req).Each FromOld := by
  have hsecret : ∀ method,
    (DCRService.generateSecret reg i method).Each World.Quiet := fun method =>
    each_ite ((each_generateRandomString env i).bind fun _ => .ofExcept fun _ => trivial) trivial
  refine .ofExcept fun _ => .ofExcept fun _ => .ofExcept fun _ => .ofExcept fun _ =>
    .ofExcept fun _ =>
    .ofExcept fun _ => (fromOld_of_quiet each_timeNow).bind fun _ =>
    (fromOld_of_quiet (each_generateRandomString env i)).bind fun _ =>
      (fromOld_of_quiet (hsecret _)).bind fun _ =>
    (each_wrapErr (Prog.each_exec (fromOld_createClient _))).bind fun _ => Prog.each_pure _

/-! ### Finding the client -/

/-- The client is one that was in the store while the request was being handled. -/
def Seen (R : Run env) (i : ReqID) (clientID : String) (c : Client) : Prop :=
  ∃ u, Handling R i u ∧ ∃ row ∈ u.clients, row = { c with
    version := row.version } ∧ (c.id = clientID ∨ c.cimdURL = clientID)

variable (hs : (vouching R).inv s)
include hs

theorem safe_read {f : World → Except Err α} {Q : Except Err α → World → Prop}
    {E : Err → World → Prop} (hok : ∀ a, f s = .ok a → Handling R i s →
      ∀ t, (vouching R).inv t → Q (.ok a) t)
    (herr : ∀ e t, (vouching R).inv t → Q (.error e) t) :
    Safe (vouching R) i Q E (fetch f).attempt s := by
  refine .attempt (safe_exec (fun _ => ⟨hs, ?_⟩) ?_ ?_ ?_)
  · exact fun row hrow => .inr ⟨row, hrow, rfl, rfl⟩
  · exact fun a ha hadm t _ ht => hok a ha hadm.1 t ht
  · exact fun e _ _ t _ ht => herr e t ht
  · exact fun _ t _ ht => herr _ t ht

variable {clientID : String} {r : Registrar env}

theorem safe_ingest {doc : CIMDDocument} {existing : Option Client}
    (hexisting : ∀ c, existing = some c → c.cimdURL = clientID) :
    Ensures (vouching R) i (fun c t => Seen R i clientID c ∧ (vouching R).inv t)
      (CIMDService.ingest r i clientID doc existing) s := by
  cases existing with
  | some c =>
    refine .bind (ensures_wrapErr (Ensures.exec (fun _ => ?_) fun _ hok hadm t _ ht => ⟨?_, ht⟩))
    · obtain ⟨hinv, hguar, -⟩ :=
        tolerates (i := i) s _ hs (fromOld_updateClient (CIMDService.refreshed c doc) s)
      exact ⟨hinv, hguar⟩
    · obtain ⟨row, hrow, heq⟩ := CIMDService.stored_update hok
      exact ⟨_, hadm.2, row, hrow, heq, .inr (hexisting c rfl)⟩
  | none =>
    refine .bindOfExcept fun scope _ => ?_
    refine .bind (ensures_wrapErr (Ensures.exec (fun _ => ?_) fun _ hok hadm t _ ht => ⟨?_, ht⟩))
    · obtain ⟨hinv, hguar, -⟩ :=
        tolerates (i := i) s _ hs
        (fromOld_createClient (CIMDService.newClient doc clientID scope) s)
      exact ⟨hinv, hguar⟩
    · obtain ⟨row, hrow, heq⟩ := CIMDService.stored_create hok
      exact ⟨_, hadm.2, row, hrow, heq, .inl rfl⟩

theorem safe_verifyCIMD :
    Ensures (vouching R) i (fun c t => Seen R i clientID c ∧ (vouching R).inv t)
      (CIMDService.verifyCIMD r i clientID) s := by
  refine .bindOfExcept fun doc _ => ?_
  refine tolerant.readWrapped hs fun existing t _ ht hread => safe_ingest ht fun c hc => ?_
  obtain ⟨u, -, -, -, hfound⟩ := hread
  rw [hc] at hfound
  have hmatch := List.find?_some (Except.ok.inj hfound)
  simp only [Bool.and_eq_true, beq_iff_eq] at hmatch
  exact hmatch.1

theorem safe_lookupByURL :
    Safe (vouching R) i (fun c t => Seen R i clientID c ∧ (vouching R).inv t)
      (fun e _ => e = .sentinel .invalidClient)
      (AuthorizeService.lookupByURL (AuthorizeService.register i clientID R.web.cimd) clientID)
        s := by
  unfold AuthorizeService.lookupByURL
  split
  · refine .bind (safe_read hs (fun found hfound hnow t ht => ?_) fun e t _ => rfl)
    cases found with
    | some c =>
      have hmatch := List.find?_some (Except.ok.inj hfound)
      simp only [Bool.and_eq_true, beq_iff_eq] at hmatch
      exact ⟨⟨s, hnow, c, List.mem_of_find?_eq_some (Except.ok.inj hfound), rfl, .inr hmatch.1⟩, ht⟩
    | none =>
      show Safe _ i _ _ (AuthorizeService.register i clientID R.web.cimd) t
      cases R.web.cimd with
      | none => rfl
      | some r =>
        refine .bind (Safe.attempt
          (Safe.mono (safe_verifyCIMD ht) (fun c t' h => ?_) fun e t' _ => ?_))
        · exact h
        · exact rfl
  · rfl

/-- **The lookup.** It finds a client of that moment, or fails in the one way that is answered with
a page. -/
theorem safe_lookup :
    Safe (vouching R) i (fun c t => Seen R i clientID c ∧ (vouching R).inv t)
      (fun e _ => e = .sentinel .invalidClient)
      (AuthorizeService.lookupClient (AuthorizeService.register i clientID R.web.cimd) clientID)
        s := by
  refine .bind (safe_read hs (fun c hc hnow t ht => ⟨⟨s, hnow, c, ?_⟩, ht⟩) fun e t ht =>
    safe_lookupByURL ht)
  obtain ⟨hmem, hid⟩ := ClientStore.mem_of_getByID hc
  exact ⟨hmem, rfl, .inl hid⟩

/-! ### Starting -/

def Paged (e : Err) : Prop := (OAuthHandler.errorPage e).isSome = true

/-- The session of the request is the only one with its identifier, and redirects where the request
asked. -/
def Owned (i : ReqID) (env : Env) (redirectURI : String) (id : String) (t : World) : Prop :=
  (∃ n, id = env.random i n) ∧ ∀ row ∈ t.sessions, row.id = id → row.redirectURI = redirectURI

omit hs in
theorem Owned.kept {id : String} {t t' : World} (h : Owned i env redirectURI id t)
    (hrely : (vouching R).rely i t t') : Owned i env redirectURI id t' := by
  refine ⟨h.1, fun row hrow hid => ?_⟩
  obtain ⟨old, hold, hid', huri⟩ := hrely row hrow (hid ▸ h.1)
  rw [← huri]
  exact h.2 old hold (hid'.trans hid)

variable {req : AuthorizeRequest}

theorem ensures_createSession {sess : AuthSession} {resourceID : Option String}
    (hreq : R.actions i = .authorize req)
    (hacc : Accepted R i req) (hid : ∃ n, sess.id = env.random i n)
    (huri : sess.redirectURI = req.redirectURI) :
    Ensures (vouching R) i
      (fun _ t => Owned i env req.redirectURI sess.id t ∧ (vouching R).inv t)
      (store (SessionStore.create i sess resourceID)) s := by
  rcases SessionStore.create_cases i sess resourceID s with ⟨e, heq⟩ | ⟨hnew, heq⟩
  · refine .exec (fun _ => ?_) fun _ hok => ?_
    · rw [heq]
      exact ⟨hs, fun row hrow => .inr ⟨row, hrow, rfl, rfl⟩⟩
    · rw [heq] at hok
      cases hok
  · refine .exec (fun _ => ?_) fun _ _ _ t hst ht => ⟨?_, ht⟩
    · rw [heq]
      refine ⟨fun row hrow => ?_, fun row hrow => ?_⟩
      · rcases List.mem_append.mp hrow with hold | hadded
        · exact hs row hold
        · rw [List.mem_singleton.mp hadded]
          exact .inr ⟨i, req, hreq, hid, hacc, huri⟩
      · rcases List.mem_append.mp hrow with hold | hadded
        · exact .inr ⟨row, hold, rfl, rfl⟩
        · rw [List.mem_singleton.mp hadded]
          exact .inl hid
    · refine Owned.kept ?_ hst
      rw [heq]
      refine ⟨hid, fun row hrow hrow' => ?_⟩
      rcases List.mem_append.mp hrow with hold | hadded
      · exact absurd hrow' (hnew row hold).1
      · rw [List.mem_singleton.mp hadded]
        exact huri

theorem safe_startFor {c : Client}
    (hreq : R.actions i = .authorize req) (hseen : Seen R i req.clientID c) :
    Safe (vouching R) i
      (fun r t => Accepted R i req ∧
        Owned i env req.redirectURI r.session.id t ∧ (vouching R).inv t)
      (fun e _ => Paged e ∨ Accepted R i req)
      (AuthorizeService.startFor env i req c) s := by
  unfold AuthorizeService.startFor
  refine .bind (safe_failIf (fun hactive => ?_) fun _ => .inl rfl)
  refine .bind (safe_failIf (fun huri => ?_) fun _ => .inl rfl)
  have hacc : Accepted R i req := by
    obtain ⟨u, hnow, row, hrow, heq, hid⟩ := hseen
    have hactive : c.isActive = true := by simpa using hactive
    have huri : c.hasRedirectURI env req.redirectURI = true := by simpa using huri
    refine ⟨u, hnow, row, hrow, ?_⟩
    rw [heq]
    exact ⟨hid, hactive, huri⟩
  -- from here on every error may be sent to the redirect URI
  refine .mono (Q := fun r t => Owned i env req.redirectURI r.session.id t ∧ (vouching R).inv t)
    (E := fun _ _ => True) ?_ (fun r t h => ⟨hacc, h⟩) fun _ _ _ => .inr hacc
  have hC : Tolerant (vouching R) i := tolerant
  refine Ensures.bindFailIf fun _ => ?_
  refine Ensures.bindFailIf fun _ => ?_
  refine hC.pass (each_resolveMint _) hs fun resolved t₁ _ h₁ => ?_
  refine hC.pass (AuthorizeService.each_requestedScope _ _ _ _) h₁ fun scope t₂ _ h₂ => ?_
  refine .bindOfExcept fun _ _ => ?_
  refine hC.pass (AuthorizeService.each_validateScopes _ _ _) h₂ fun _ t₃ _ h₃ => ?_
  refine hC.pass (AuthorizeService.each_consentCovers _ _ _ _) h₃ fun covered t₄ _ h₄ => ?_
  refine hC.pass each_timeNow h₄ fun now t₅ _ h₅ => ?_
  refine hC.draw h₅ fun id t₆ _ h₆ hdrawn => ?_
  obtain ⟨u, -, hid, -⟩ := hdrawn
  exact .bind (ensures_wrapErr (ensures_createSession h₆ hreq hacc ⟨_, hid⟩ rfl))

/-! ### The endpoint -/

/-- What an answer to an authorization request must satisfy. -/
def Sound (R : Run env) (i : ReqID) (req : AuthorizeRequest) (a : Answer) : Prop :=
  ∀ target, a = .redirect target →
    Accepted R i req ∧ Follows env req.redirectURI target

omit hs in
theorem sound_error {e : Err} (h : Paged e ∨ Accepted R i req) :
    Sound R i req (OAuthHandler.handleAuthorizeError R.web req e iss) := by
  intro target htarget
  unfold OAuthHandler.handleAuthorizeError at htarget
  cases hpage : OAuthHandler.errorPage e with
  | some page =>
    -- none of the pages is a redirect
    rw [hpage] at htarget
    have hkind : ∀ target, OAuthHandler.errorPage e ≠ some (.redirect target) := by
      intro target
      unfold OAuthHandler.errorPage
      repeat' split
      all_goals simp
    rw [hpage] at hkind
    exact absurd (congrArg some htarget) (hkind target)
  | none =>
    rw [hpage] at htarget
    have hacc : Accepted R i req := by
      rcases h with hpaged | hacc
      · rw [Paged, hpage] at hpaged
        cases hpaged
      · exact hacc
    simp only at htarget
    split at htarget
    · exact ⟨hacc, follows_redirectWithError htarget⟩
    · cases htarget

theorem ensures_complete {id : String}
    (hacc : Accepted R i req) (hown : Owned i env req.redirectURI id s) :
    Ensures (vouching R) i (fun a _ => Sound R i req a)
      (OAuthHandler.complete env i req iss id) s := by
  have hread : Ensures (vouching R) i
    (fun r _ => r.redirectURI = req.redirectURI)
      (AuthorizeService.completeAuthorization env i id) s := by
    have hC : Tolerant (vouching R) i := tolerant
    refine hC.readWrapped hs fun sess t hst ht hget => ?_
    obtain ⟨u, -, hsu, -, hget⟩ := hget
    obtain ⟨hmem, hid⟩ := SessionStore.getByID_ok hget
    have huri : sess.redirectURI = req.redirectURI := (hown.kept hsu).2 sess hmem hid
    refine hC.pass each_timeNow ht fun now t₁ _ h₁ => ?_
    refine .bindFailIf fun _ => ?_
    refine hC.pass (each_generateRandomString env i) h₁ fun code t₂ _ h₂ => ?_
    have hupdate := fromOld_updateCode id (env.hashSHA256 code) sess.scope t₂
    refine .bind (ensures_wrapErr (Ensures.exec (fun _ => ?_) fun _ _ _ _ _ _ => huri))
    obtain ⟨hinv, hguar, -⟩ := tolerates (i := i) t₂ _ h₂ hupdate
    exact ⟨hinv, hguar⟩
  refine .bind (Safe.attempt (Safe.mono hread (fun r t huri => ?_) fun e t _ => ?_))
  · intro target htarget
    rw [← huri]
    exact ⟨hacc, follows_redirectWithCode htarget⟩
  · exact fun target htarget => ⟨hacc, follows_redirectWithError htarget⟩

theorem ensures_handleAuthorize (hreq : R.actions i = .authorize req) :
    Ensures (vouching R) i (fun a _ => Sound R i req a)
      (OAuthHandler.handleAuthorize R.web i req) s := by
  unfold OAuthHandler.handleAuthorize
  split
  · rename_i page hissuer
    intro target htarget
    subst htarget
    unfold OAuthHandler.resolveIssuer at hissuer
    split at hissuer
    · cases hissuer
    · split at hissuer <;> cases hissuer
  · have hstart : Safe (vouching R) i
        (fun r t => Accepted R i req ∧
          Owned i env req.redirectURI r.session.id t ∧ (vouching R).inv t)
        (fun e _ => Paged e ∨ Accepted R i req)
        (AuthorizeService.startAuthorization env
          (AuthorizeService.register i req.clientID R.web.cimd) i req)
        s := by
      refine .bind (safe_failIf (fun _ => ?_) fun _ => .inl rfl)
      refine .bind (Safe.mono (safe_lookup hs)
        (fun c t h => safe_startFor h.2 hreq h.1) fun e t he => ?_)
      rw [he]
      exact .inl rfl
    refine .bind (Safe.attempt (Safe.mono hstart (fun r t h => ?_) fun e t h => ?_))
    · obtain ⟨hacc, hown, ht⟩ := h
      show Safe _ i _ _ (if r.loginRequired then _ else if r.consentRequired then _ else _) t
      split
      · exact fun target htarget => by cases htarget
      · split
        · exact fun target htarget => by cases htarget
        · exact ensures_complete ht hacc hown
    · exact sound_error h

/-! ### The consent form -/

/-- What an answer to a consent submission must satisfy. -/
def SoundConsent (R : Run env) (form : ConsentForm) (a : Answer) : Prop :=
  ∀ target, a = .redirect target → (∀ s₀ ∈ R.world.sessions, s₀.id ≠ form.sessionID) →
    ∃ j req, R.actions j = .authorize req ∧ (∃ n, form.sessionID = env.random j n) ∧
      Accepted R j req ∧ Follows env req.redirectURI target

theorem ensures_grantConsent {req : GrantConsentRequest} :
    Ensures (vouching R) i
      (fun r _ => ∃ sess, sess.id = req.sessionID ∧ Vouched R sess ∧
        r.redirectURI = sess.redirectURI) (ConsentService.grantConsent env i req) s := by
  have hC : Tolerant (vouching R) i := tolerant
  unfold ConsentService.grantConsent
  refine hC.readWrapped hs fun sess t _ ht hget => ?_
  obtain ⟨u, hu, -, -, hget⟩ := hget
  obtain ⟨hmem, hid⟩ := SessionStore.getByID_ok hget
  refine hC.pass each_timeNow ht fun now t₁ _ h₁ => ?_
  refine .bindFailIf fun _ => .bindFailIf fun _ =>
    Ensures.bindFailIf fun _ => .bindFailIf fun _ => ?_
  refine hC.pass (each_resolveMint _) h₁ fun resolved t₂ _ h₂ => ?_
  refine hC.pass (each_generateRandomString env i) h₂ fun code t₃ _ h₃ => ?_
  have happrove :
    FromOld t₃ (Write.run env i (.approve req sess.clientID resolved (env.hashSHA256 code)
    (ScopeSet.ofNames req.approvedScopes).toString) t₃) := fromOld_approve i req _ _ _ _ t₃
  refine .bind (Ensures.exec (fun _ => ?_) fun _ _ _ _ _ _ => ⟨sess, hid, hu sess hmem, rfl⟩)
  obtain ⟨hinv, hguar, -⟩ := tolerates (i := i) t₃ _ h₃ happrove
  exact ⟨hinv, hguar⟩

variable {form : ConsentForm}

theorem ensures_approve {userID : String} :
    Ensures (vouching R) i (fun a _ => SoundConsent R form a)
      (ConsentHandler.approve R.web i form userID) s := by
  unfold ConsentHandler.approve
  split
  · exact fun target htarget => by cases htarget
  split
  · exact fun target htarget => by cases htarget
  refine .bind (Safe.attempt
    (Safe.mono (ensures_grantConsent hs) (fun r t h => ?_) fun e t _ => ?_))
  · obtain ⟨sess, hid, hvouched, huri⟩ := h
    intro target htarget hnew
    rcases hvouched with ⟨s₀, hs₀, hid₀⟩ | ⟨j, req, hj, ⟨n, hn⟩, hacc, hreq⟩
    · exact absurd (hid₀.trans hid) (hnew s₀ hs₀)
    · refine ⟨j, req, hj, ⟨n, hid.symm.trans hn⟩, hacc, ?_⟩
      rw [← hreq, ← huri]
      exact follows_redirectWithCode htarget
  · intro target htarget
    have hkind : ∀ target, ConsentHandler.errorPage e ≠ .redirect target := by
      intro target
      unfold ConsentHandler.errorPage
      repeat' split
      all_goals simp
    exact absurd htarget (hkind target)

theorem ensures_handlePostConsent :
    Ensures (vouching R) i (fun a _ => SoundConsent R form a)
      (ConsentHandler.handlePostConsent R.web i form) s := by
  unfold ConsentHandler.handlePostConsent
  split
  · rename_i page hform
    intro target htarget
    subst htarget
    unfold ConsentHandler.checkForm at hform
    repeat' split at hform
    all_goals cases hform
  rename_i userID _
  split
  · have hdeny : (ConsentService.denyConsent form.sessionID userID).Each FromOld :=
      (fromOld_of_quiet each_fetch).attempt.bind fun _ => .failIf <|
        (Prog.each_exec fun u => fromOld_filter rfl).attempt.bind fun _ => Prog.each_pure _
    refine .pass hdeny.attempt tolerates hs fun _ t _ _ => ?_
    exact fun target htarget => by cases htarget
  · exact ensures_approve hs

/-! ### Every schedule -/

/-- What an answer must satisfy. -/
def Post (R : Run env) (i : ReqID) : Option Answer → Prop
  | none => True
  | some a =>
    (∀ req, R.actions i = .authorize req → Sound R i req a) ∧
      ∀ form, R.actions i = .consent form → SoundConsent R form a

omit hs

theorem ensures_program (hdirect : (R.actions i).isDirect = false)
    (hs : (vouching R).inv s) :
    Ensures (vouching R) i (fun a _ => Post R i a)
      (program R.web R.reg i (R.actions i)) s := by
  cases haction : R.actions i with
  | authorize req =>
    refine .seq (ensures_handleAuthorize hs haction) fun a t h => ⟨fun req' hreq' => ?_,
      fun form hform => ?_⟩
    · rw [haction] at hreq'
      obtain rfl := Action.authorize.inj hreq'
      exact h
    · rw [haction] at hform
      cases hform
  | consent form =>
    refine .seq (ensures_handlePostConsent hs) fun a t h => ⟨fun req hreq => ?_,
      fun form' hform' => ?_⟩
    · rw [haction] at hreq
      cases hreq
    · rw [haction] at hform'
      obtain rfl := Action.consent.inj hform'
      exact h
  | register req => exact .pass fromOld_registerClient tolerates hs fun _ t _ _ => trivial
  | other req =>
    rw [haction] at hdirect
    exact .pass (fromOld_serve hdirect) tolerates hs fun _ t _ _ => trivial

theorem admitted_rest (earlier later : Schedule ReqID) (h : R.sched = earlier ++ later) :
    Pool.Admitted (vouching R)
      (R.start.exec earlier) later := by
  induction later generalizing earlier with
  | nil => trivial
  | cons e rest ih =>
    have hstep : (R.start.exec earlier).step e.1 e.2 =
        R.start.exec (earlier ++ [e]) := by
      rw [Pool.exec_append]
      rfl
    refine ⟨⟨⟨earlier, e.2, rest, h, .inl rfl⟩, ⟨earlier, e.2, rest, h, .inr ?_⟩⟩,
      fun _ => trivial, ?_⟩
    · rw [hstep]
    · rw [hstep]
      exact ih (earlier ++ [e]) (by rw [h, List.append_assoc]; rfl)

end Run

/-- **No open redirector.** Take any wiring of the endpoints, any store, any requests, with
authorization requests made through the endpoint, and any interleaving of their store calls, some of
which the store fails. When an authorization request is answered with a redirect to a client, then
at some moment at which that request made a store call the client existed, was active and accepted
the redirect URI; and the target is that redirect URI but for the parameters that the server sets
and for pairs of its query that do not decode. The same holds of a consent submission, for the
request from whose supply the identifier of the session was drawn. -/
theorem redirects_accepted (env : Env) (web : Web env) (reg : Registrar env)
    (actions : ReqID → Action) (w : World)
    (hdirect : ∀ i, (actions i).isDirect = false)
      (sched : Schedule ReqID) (i : ReqID) (target : Target)
    (hanswer : ((start web reg actions w).exec sched).procs i = .ret (some (.redirect target))) :
    (∀ req, actions i = .authorize req →
      Accepted ⟨web, reg, actions, w, sched⟩ i req ∧ Follows env req.redirectURI target) ∧
    ∀ form, actions i = .consent form → (∀ s ∈ w.sessions, s.id ≠ form.sessionID) →
      ∃ j req, actions j = .authorize req ∧ (∃ n, form.sessionID = env.random j n) ∧
        Accepted ⟨web, reg, actions, w, sched⟩ j req ∧ Follows env req.redirectURI target := by
  let R : Run env := ⟨web, reg, actions, w, sched⟩
  have hready : Pool.Ready (vouching R) (fun i a _ => Post R i a) (fun _ _ _ => True) R.start :=
    ⟨fun s hs => .inl ⟨s, hs, rfl⟩, fun i t _ ht => ensures_program (hdirect i) ht⟩
  have hpost : Post R i (some (.redirect target)) :=
    (hready.exec sched (admitted_rest [] sched rfl)).post hanswer
  exact ⟨fun req hreq => hpost.1 req hreq target rfl, fun form hform hnew =>
    hpost.2 form hform target rfl hnew⟩

end OpenRedirect

/-! ### Runs -/

namespace Sample

variable (query : String)

/-- A redirect URI with a query. -/
def landing : URLParts := ⟨"https", none, "app", none, "/cb", some query, none⟩

def landingWorld : World :=
  { world [] with clients := [{ app with redirectURIs := [(landing query).text] }] }

def landingWeb : Web (Env.knowing [landing query]) :=
  ⟨none, fun _ => .ok "https://as", fun _ => none⟩

def hasty : AuthorizeRequest :=
  ⟨"app", (landing query).text, "code", "notes:read", "s", "", "", "S256", ""⟩

def closedDoor (env : Env) : Registrar env where
  dcrMode := fun _ => .ok ⟨"admin_only", []⟩
  cimdConfig := fun _ => .ok ⟨false, true, false, 0⟩
  enabledGrants := fun _ => .ok none
  defaultClientScope := fun _ => .ok ""
  hashClientSecret := .ok
  fetch := fun _ _ _ => .error (.sentinel .cimdFetchFailed)
  fetched := fun h => by cases h

def refusedHasty : Pool ReqID World Err fun _ => Option Answer :=
  (OpenRedirect.start (landingWeb query) (closedDoor _) (fun _ => .authorize (hasty query))
    (landingWorld query)).exec
    [(0, false)]

/-- Where a request was redirected to. -/
def redirectedTo (c : Pool ReqID World Err fun _ => Option Answer) (i : ReqID) : Option Target :=
  match c.procs i with
  | .ret (some (.redirect target)) => some target
  | _ => none

theorem ret_of_redirectedTo {c : Pool ReqID World Err fun _ => Option Answer} {i : ReqID}
    (h : redirectedTo c i = some target) : c.procs i = .ret (some (.redirect target)) := by
  unfold redirectedTo at h
  split at h
  · rename_i target' hp
    rw [hp, Option.some.inj h]
  · cases h

end Sample

/-- What the server writes into the query of a refusal, without the state. -/
def Sample.refusedQuery : String :=
  "error=server_error&error_description=an+internal+error+occurred&iss=https%3A%2F%2Fas"

open Sample in
/-- **A parameter is lost.** The redirect URI has one parameter in its query, with a semicolon in
the value. It is accepted, and the target has only the parameters of the server. A value without a
semicolon stays. -/
theorem OpenRedirect.parameter_lost :
    (redirectedTo (refusedHasty "x=1;2") 0).map Target.query =
        some (bytesOf (refusedQuery ++ "&state=s")) ∧
      (redirectedTo (refusedHasty "x=12") 0).map Target.query =
        some (bytesOf (refusedQuery ++ "&state=s&x=12")) := by
  decide +kernel

open Sample in
/-- The refused request is redirected to the URI that the client accepted. -/
theorem OpenRedirect.redirects_accepted_hasty :
    ∃ target, redirectedTo (refusedHasty "x=12") 0 = some target ∧
      OpenRedirect.Accepted ⟨landingWeb "x=12", closedDoor _, fun _ => .authorize (hasty "x=12"),
        landingWorld "x=12", [(0, false)]⟩ 0 (hasty "x=12") ∧
      OpenRedirect.Follows (Env.knowing [landing "x=12"]) (hasty "x=12").redirectURI target := by
  cases htarget : redirectedTo (refusedHasty "x=12") 0 with
  | none =>
    have hsome : (redirectedTo (refusedHasty "x=12") 0).isSome = true := by decide +kernel
    rw [htarget] at hsome
    cases hsome
  | some target =>
    exact ⟨target, rfl,
      (OpenRedirect.redirects_accepted (Env.knowing [landing "x=12"]) (landingWeb "x=12")
      (closedDoor _) (fun _ => .authorize (hasty "x=12")) (landingWorld "x=12") (fun _ => rfl)
        [(0, false)] 0 target
      (ret_of_redirectedTo htarget)).1 _ rfl⟩

end AuthServer
