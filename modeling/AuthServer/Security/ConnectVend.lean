import AuthServer.Security.UpstreamBound
import AuthServer.Service.OAuthConnect

/-!
# What a connection makes possible

A user connects a resource at an OAuth upstream, and later a token is vended there. Three lists of
scopes meet: what `StartConnect` asks the upstream for, what the callback records of the answer, and
what `Issue` compares a request with. The first and the last are translated from the same catalog.
The second is what the upstream wrote in its answer: an upstream that granted everything may leave
it out, and then nothing is recorded.

The distinction that decides it is the one between a scope and a string of the catalog. The lists
are compared string by string, but the answer is split at white space, so a catalog entry with a
blank in its upstream name is asked for as two scopes, recorded as two, and compared as one.
-/

namespace AuthServer

open Interleave Table

namespace ConnectVend

open ConnectService BrokerIssuer BrokerProtocol

/-! ### Starting -/

variable {α : Type} {provider : BrokerProvider}

section Runs

variable {env : Env} {conf : Connector} {i : ReqID} {plan : List Bool} {w' : World}

theorem ok_of_run_fetch {f : World → Except Err α} {w : World} {a : α}
    (h : (fetch f).run plan w = (.ok a, w')) : f w = .ok a ∧ w' = w := by
  obtain ⟨hok, rfl⟩ := Prod.mk.inj (Prog.ok_of_run_exec h)
  exact ⟨hok, rfl⟩

/-- A method on the tables. -/
theorem run_onWorld (p : Svc α) (plan : List Bool) (s : Connections) :
    (onWorld p).run plan s = ((p.run plan s.world).1, { s with
      world := (p.run plan s.world).2 }) := by
  rw [onWorld, Prog.run_zoom] <;> intros <;> rfl

variable {s t : Connections}

theorem ok_of_run_onWorld {p : Svc α} {a : α} (h : (onWorld p).run plan s = (.ok a, t)) :
    ∃ w, p.run plan s.world = (.ok a, w) ∧ t = { s with world := w } := by
  rw [run_onWorld] at h
  obtain ⟨hok, rfl⟩ := Prod.mk.inj h
  exact ⟨_, Prod.ext hok rfl, rfl⟩

variable {userID providerSlug resourceSlug : String}

/-- **What is prepared**: the pending state has the provider, and what the adapter put into it. -/
theorem built_of_run {returnURL : String} {w : World} {prepared : String × ConnectPendingState}
    {target : Resource}
    (h : (prepareConnect env conf i userID providerSlug resourceSlug returnURL).run plan w =
      (.ok prepared, w'))
    (hprovider : BrokerProviderStore.getBySlug providerSlug w = .ok provider)
    (htarget : targetResource env resourceSlug provider w = .ok target) :
    prepared.2.providerID = provider.id ∧ ∃ built verifier id now,
      conf.buildConnectURL provider target userID returnURL (callbackURL env conf providerSlug)
        target.catalog verifier
        id now = .ok (prepared.1, some built) ∧ prepared.2.scopes = built.scopes := by
  obtain ⟨provider', w₁, plan₁, h₁, k₁⟩ := Prog.ok_of_run_bind h
  obtain ⟨hprovider', rfl⟩ := ok_of_run_fetch (Prog.ok_of_run_mapError h₁)
  obtain rfl := Except.ok.inj (hprovider'.symm.trans hprovider)
  obtain ⟨target', w₂, plan₂, h₂, k₂⟩ := Prog.ok_of_run_bind k₁
  obtain ⟨htarget', rfl⟩ := ok_of_run_fetch h₂
  obtain rfl := Except.ok.inj (htarget'.symm.trans htarget)
  obtain ⟨-, w₃, plan₃, -, k₃⟩ := Prog.ok_of_run_bind k₂
  obtain ⟨-, w₄, plan₄, -, k₄⟩ := Prog.ok_of_run_bind k₃
  obtain ⟨token, w₅, plan₅, -, k₅⟩ := Prog.ok_of_run_bind k₄
  obtain ⟨verifier, w₆, plan₆, -, k₆⟩ := Prog.ok_of_run_bind k₅
  obtain ⟨id, w₇, plan₇, -, k₇⟩ := Prog.ok_of_run_bind k₆
  obtain ⟨now, w₈, plan₈, -, k₈⟩ := Prog.ok_of_run_bind k₇
  obtain ⟨⟨url, pending⟩, w₉, plan₉, h₉, k₉⟩ := Prog.ok_of_run_bind k₈
  have hbuilt := mapError_eq_ok.mp (Prog.ok_of_run_ofExcept h₉).1
  cases pending with
  | none => cases (Prod.mk.inj k₉).1
  | some st =>
    obtain ⟨now', w₁₀, plan₁₀, -, k₁₀⟩ := Prog.ok_of_run_bind k₉
    obtain rfl := Except.ok.inj (Prod.mk.inj k₁₀).1
    exact ⟨rfl, st, verifier, id, now, hbuilt, rfl⟩

/-- **What is stored** at the start is what was prepared. -/
theorem stored_of_run {returnURL : String} {url : String}
    (h : (startConnect env conf i userID providerSlug resourceSlug returnURL).run plan s =
      (.ok url, t)) :
    ∃ prepared w,
      (prepareConnect env conf i userID providerSlug resourceSlug returnURL).run plan s.world =
      (.ok prepared, w) ∧ t.started = (i, prepared.2) :: s.started := by
  obtain ⟨prepared, s₁, plan₁, h₁, k₁⟩ := Prog.ok_of_run_bind h
  obtain ⟨w, hprepared, rfl⟩ := ok_of_run_onWorld h₁
  obtain ⟨_, s₂, plan₂, h₂, k₂⟩ := Prog.ok_of_run_bind k₁
  have hinsert := Prog.ok_of_run_exec (Prog.ok_of_run_mapError h₂)
  obtain rfl := (Prod.mk.inj k₂).2
  refine ⟨prepared, w, hprepared, ?_⟩
  split at hinsert
  · cases (Prod.mk.inj hinsert).1
  · rw [← (Prod.mk.inj hinsert).2]

/-! ### Completing -/

theorem get_upsert {g g' : BrokerGrant} {w : World}
    (h : BrokerGrantStore.upsert g w = (.ok g', w')) :
    BrokerGrantStore.get g.userID g.brokerProviderID w' = .ok (some g') ∧
      g'.scopesGranted = g.scopesGranted := by
  unfold BrokerGrantStore.upsert at h
  dsimp only at h
  split at h
  · rename_i old hold
    obtain ⟨hg', rfl⟩ := Prod.mk.inj h
    obtain rfl := Except.ok.inj hg'
    refine ⟨congrArg Except.ok ?_, rfl⟩
    -- every row of the user at the provider is live afterwards, so the first of them is found
    have hsame := List.find?_some hold
    rw [updateWhere, List.find?_map]
    refine (congrArg (Option.map _) (Eq.trans ?_ hold)).trans (congrArg some (if_pos hsame))
    congr 1
    funext row
    by_cases hrow : (row.userID == g.userID && row.brokerProviderID == g.brokerProviderID) = true
    · simp only [Function.comp, hrow, if_true, Option.isNone_none, Bool.and_true]
    · simp only [Function.comp, hrow, Bool.false_and, Bool.false_eq_true, if_false]
  · rename_i hnone
    split at h
    · cases (Prod.mk.inj h).1
    · obtain ⟨hg', rfl⟩ := Prod.mk.inj h
      obtain rfl := Except.ok.inj hg'
      refine ⟨congrArg Except.ok ?_, rfl⟩
      have hbefore : w.brokerGrants.find? (fun row =>
          row.userID == g.userID && row.brokerProviderID == g.brokerProviderID &&
            row.revokedAt.isNone) = none := by
        rw [List.find?_eq_none] at hnone ⊢
        intro row hrow hmatch
        exact hnone row hrow (Bool.and_eq_true_iff.mp hmatch).1
      rw [List.find?_append, hbefore]
      simp

/-- **What is recorded**: the scopes that the callback returned. -/
theorem granted_of_run {code : String} {st : ConnectPendingState} {result : CompleteConnectResult}
    (h : (completeConnect env conf i userID st.id code).run plan s = (.ok result, t))
    (hpending : s.pending.find? (fun x => x.id == st.id && s.world.clock < x.expiresAt) = some st)
    (hprovider : BrokerProviderStore.getByID st.providerID s.world = .ok provider) :
    ∃ res now answer g, conf.handleCallback provider res code (callbackURL env conf provider.slug)
      st now = .ok answer ∧
      BrokerGrantStore.get userID st.providerID t.world =
        .ok (some g) ∧ g.scopesGranted = answer.2 := by
  have hid : provider.id = st.providerID := BrokerProviderStore.id_of_getByID hprovider
  obtain ⟨st', s₁, plan₁, h₁, k₁⟩ := Prog.ok_of_run_bind h
  have hconsume := Prog.ok_of_run_exec (Prog.ok_of_run_mapError h₁)
  rw [hpending] at hconsume
  obtain ⟨hst, rfl⟩ := Prod.mk.inj hconsume
  obtain rfl := Except.ok.inj hst
  obtain ⟨_, s₂, plan₂, h₂, k₂⟩ := Prog.ok_of_run_bind k₁
  obtain ⟨-, rfl⟩ := Prog.ok_of_run_failIf h₂
  obtain ⟨verified, s₃, plan₃, h₃, k₃⟩ := Prog.ok_of_run_bind k₂
  obtain ⟨w₃, hverify, rfl⟩ := ok_of_run_onWorld h₃
  obtain ⟨answer, s₄, plan₄, h₄, k₄⟩ := Prog.ok_of_run_bind k₃
  obtain ⟨grant, s₅, plan₅, h₅, k₅⟩ := Prog.ok_of_run_bind k₄
  obtain ⟨w₅, hstore, rfl⟩ := ok_of_run_onWorld h₅
  obtain rfl := (Prod.mk.inj k₅).2
  -- the provider that was verified
  obtain ⟨provider', u₁, _, g₁, l₁⟩ := Prog.ok_of_run_bind hverify
  obtain ⟨hprovider', rfl⟩ := ok_of_run_fetch (ok_of_run_wrapErr g₁)
  obtain rfl := Except.ok.inj (hprovider'.symm.trans hprovider)
  obtain ⟨_, u₂, _, -, l₂⟩ := Prog.ok_of_run_bind l₁
  obtain ⟨_, u₃, _, -, l₃⟩ := Prog.ok_of_run_bind l₂
  obtain ⟨_, u₄, _, -, l₄⟩ := Prog.ok_of_run_bind l₃
  obtain ⟨res, u₅, _, -, l₅⟩ := Prog.ok_of_run_bind l₄
  obtain rfl := Except.ok.inj (Prod.mk.inj l₅).1
  -- the answer, and the grant that was stored
  obtain ⟨now, u₆, _, -, l₆⟩ := Prog.ok_of_run_bind h₄
  have hanswer := mapError_eq_ok.mp (Prog.ok_of_run_ofExcept l₆).1
  obtain ⟨credential, u₇, _, -, l₇⟩ := Prog.ok_of_run_bind hstore
  obtain ⟨id, u₈, _, -, l₈⟩ := Prog.ok_of_run_bind l₇
  obtain ⟨hget, hscopes⟩ := get_upsert (Prog.ok_of_run_exec (ok_of_run_wrapErr l₈))
  rw [← hid]
  exact ⟨res, now, answer, grant, hanswer, hget, hscopes⟩

end Runs

/-! ### Vending -/

/-- Refused because scopes are missing. A refusal that the upstream itself caused, by narrowing the
scopes of the token it was asked for, is told apart by its reason. -/
def RefusedForScope (e : Err) : Prop :=
  ∃ service providerSlug resourceSlug missing reason,
    e = .consentRequired service providerSlug resourceSlug .scopeInsufficient missing reason ∧
      reason ≠ "scope_downgrade"

section Vend

variable {env : Env} {k : ReqID} {req : BrokerIssueRequest} {w : World} {detail : String}

theorem not_refused_wrap {e : Err} (h : ¬RefusedForScope e) : ¬RefusedForScope (e.wrap detail) := by
  rintro ⟨service, slug, resource, missing, reason, heq, hreason⟩
  cases e with
  | consentRequired service' slug' resource' cause missing' reason' =>
    exact h ⟨_, _, _, _, _, heq, hreason⟩
  | sentinel kind => cases heq
  | wrapped kind d => cases heq
  | frontingLinkMissing a b => cases heq
  | fault d => cases heq

theorem not_refused_fault : ¬RefusedForScope (.fault detail) := by
  rintro ⟨service, slug, resource, missing, reason, heq, -⟩
  cases heq

theorem not_refused_vendError {e : Err} (h : ¬RefusedForScope e) :
    ¬RefusedForScope (vendError provider e) := by
  unfold vendError
  split
  · rintro ⟨service, slug, resource, missing, reason, heq, -⟩
    cases heq
  · split
    · rintro ⟨service, slug, resource, missing, reason, heq, -⟩
      cases heq
    · split
      · rintro ⟨service, slug, resource, missing, reason, heq, hreason⟩
        cases heq
        exact hreason rfl
      · exact not_refused_wrap h

theorem not_refused_of_wrapErr {p : Svc α} {Q : α → World → Prop}
    (h : Safe (solo k True) k Q (fun e _ => ¬RefusedForScope e) p w) :
    Safe (solo k True) k Q (fun e _ => ¬RefusedForScope e) (wrapErr detail p) w := by
  refine .bind (Safe.attempt (Safe.mono h (fun a t ha => ?_) fun e t he => ?_))
  · exact ha
  · exact not_refused_wrap he

theorem not_refused_vendAndRecord {cleared : BrokerGrant × String}
    (hadapter : ∀ credential now e, env.vend req.provider req.resource credential req.scopes
      now = .error e → ¬RefusedForScope e) :
    Safe (solo k True) k (fun _ _ => True) (fun e _ => ¬RefusedForScope e)
      (vendAndRecord env k req cleared) w := by
  have hguar : ∀ u v : World, (solo k True).guar k u v := fun _ _ h => absurd rfl h
  have hconflict : ∀ {kind : Sentinel}, ¬RefusedForScope (.sentinel kind) := by
    rintro kind ⟨service, slug, resource, missing, reason, heq, -⟩
    cases heq
  have hwrite : ∀ {α : Type} {f : Call α} {u : World},
    (∀ v e, (f v).1 = .error e → ¬RefusedForScope e) →
      Safe (solo k True) k (fun _ _ => True) (fun e _ => ¬RefusedForScope e)
        (store f) u := fun {_ _ u} hf =>
    safe_exec (fun _ => ⟨trivial, hguar _ _⟩) (fun _ _ _ _ _ _ => trivial)
      (fun e he _ _ _ _ => hf u e he)
      fun _ _ _ _ => not_refused_fault
  refine .bind (safe_step fun _ => ⟨trivial, hguar _ _, fun w₁ _ _ => ?_⟩)
  refine .bind (safe_ofExcept (fun vended _ => ?_) fun e he => ?_)
  · have hpersist : Safe (solo k True) k (fun _ _ => True) (fun e _ => ¬RefusedForScope e)
        (persistRotation env (brokerOwnerContext req.subjectUserID req.provider.id) cleared.1
          vended.updatedCredential) w₁ := by
      unfold persistRotation
      split
      · exact trivial
      · split
        · exact not_refused_fault
        · refine .bind
            (Safe.attempt (Safe.mono (hwrite fun v e he => ?_) (fun _ _ _ => ?_) fun e t he => ?_))
          · unfold BrokerGrantStore.updateWithVersion at he
            split at he
            · cases he
            · obtain rfl := Except.error.inj he
              exact hconflict
          · exact trivial
          · show Safe _ _ _ _ (if e.is .brokerGrantConflict then _ else _) t
            split
            · exact trivial
            · exact not_refused_wrap he
    refine .bind (Safe.mono hpersist (fun _ w₂ _ => ?_) fun _ _ h => h)
    refine .bind (safe_step fun _ => ⟨trivial, hguar _ _, fun w₃ _ _ => ?_⟩)
    refine .bind (safe_step fun _ => ⟨trivial, hguar _ _, fun w₄ _ _ => ?_⟩)
    refine .bind (Safe.mono (not_refused_of_wrapErr (hwrite fun v e he => ?_))
      (fun _ _ _ => trivial)
      fun _ _ h => h)
    unfold IssuanceStore.insert at he
    split at he
    · obtain rfl := Except.error.inj he
      exact not_refused_fault
    · cases he
  · cases hvend : env.vend req.provider req.resource cleared.2 req.scopes w.clock with
    | ok v =>
      rw [hvend] at he
      cases he
    | error e' =>
      rw [hvend] at he
      obtain rfl := Except.error.inj he
      exact not_refused_vendError (hadapter _ _ _ hvend)

theorem not_refused_clear
    (hgranted : ∀ g upstream,
      BrokerGrantStore.get req.subjectUserID req.provider.id w = .ok (some g) →
      mapToUpstreamScopes env req.resource req.scopes = .ok upstream →
        scopesNotIn upstream g.scopesGranted = []) :
    Safe (solo k True) k (fun _ _ => True) (fun e _ => ¬RefusedForScope e) (clear env req) w := by
  refine .bind (safe_failIf (fun _ => ?_) fun _ => not_refused_fault)
  have hread : Safe (solo k True) k
      (fun found t => BrokerGrantStore.get req.subjectUserID req.provider.id w = .ok found)
      (fun e _ => ¬RefusedForScope e)
        (fetch (BrokerGrantStore.get req.subjectUserID req.provider.id)) w :=
    safe_exec (fun _ => ⟨trivial, fun h => absurd rfl h⟩) (fun _ ha _ _ _ _ => ha)
      (fun e he _ _ _ _ => by cases he) fun _ _ _ _ => not_refused_fault
  refine .bind (Safe.mono (not_refused_of_wrapErr hread) (fun found w₁ hfound => ?_) fun _ _ h => h)
  cases found with
  | none =>
    rintro ⟨service, slug, resource, missing, reason, heq, -⟩
    cases heq
  | some g =>
    refine .bind (safe_ofExcept (fun g' hg' => ?_) fun e he => by cases he)
    obtain rfl := Except.ok.inj hg'
    refine .bind (safe_ofExcept (fun upstream hupstream => ?_) fun e he => ?_)
    · refine .bind (safe_failIf (fun _ => ?_) fun hmissing => ?_)
      · refine .bind (safe_ofExcept (fun _ _ => ?_) fun e he => ?_)
        · refine .bind (safe_failIf (fun _ => trivial) fun _ => ?_)
          rintro ⟨service, slug, resource, missing, reason, heq, -⟩
          cases heq
        · unfold decryptCredential at he
          split at he
          · cases he
          · obtain rfl := Except.error.inj he
            exact not_refused_fault
      · rw [hgranted g upstream hfound hupstream] at hmissing
        cases hmissing
    · unfold mapToUpstreamScopes at he
      split at he
      · obtain rfl := Except.error.inj he
        rintro ⟨service, slug, resource, missing, reason, heq, -⟩
        cases heq
      · cases he

theorem refused_of_missing (hbroker : req.resource.isBroker = true) {g : BrokerGrant}
    {upstream : List String}
    (hget : BrokerGrantStore.get req.subjectUserID req.provider.id w = .ok (some g))
    (hupstream : mapToUpstreamScopes env req.resource req.scopes = .ok upstream)
    (hmissing : scopesNotIn upstream g.scopesGranted ≠ []) :
    ((issue env k req).run [] w).1 =
      .error (.consentRequired "" req.provider.slug "" .scopeInsufficient
      (scopesNotIn upstream g.scopesGranted) "") := by
  have hread : (wrapErr "look up broker grant"
      (fetch (BrokerGrantStore.get req.subjectUserID req.provider.id))).run [] w =
        (.ok (some g), w) := by
    have hfetch : (fetch (BrokerGrantStore.get req.subjectUserID req.provider.id)).run [] w =
      (.ok (some g), w) :=
      Prod.ext hget rfl
    rw [wrapErr, Prog.run_bind, Prog.run_attempt, hfetch]
    rfl
  have hsome : (!(scopesNotIn upstream g.scopesGranted).isEmpty) = true := by simpa using hmissing
  simp only [issue, clear, Prog.run_bind, Prog.run_failIf, Prog.run_ofExcept, hread, hbroker,
    requireGrant, hupstream, hsome, Bool.not_true, Bool.false_eq_true, if_true, if_false]

end Vend

/-! ### The catalog -/

section Catalog

variable {r : Resource}

theorem upstreamOf_of_mem_catalog {fine : String} (h : fine ∈ r.catalog) :
    ∃ up, upstreamOf r fine = some up := by
  obtain ⟨sc, hsc, rfl⟩ := List.mem_map.mp h
  have hfound : (r.scopes.reverse.find? (·.name == sc.name)).isSome = true :=
    List.find?_isSome.mpr ⟨sc, List.mem_reverse.mpr hsc, beq_self_eq_true _⟩
  obtain ⟨sc', hsc'⟩ := Option.isSome_iff_exists.mp hfound
  exact ⟨sc'.upstream, by rw [upstreamOf, hsc', Option.map_some]⟩

theorem mapToUpstreamScopes_of_mem {env : Env} {requested : List String}
    (h : ∀ fine ∈ requested, fine ∈ r.catalog) :
    ∃ upstream, mapToUpstreamScopes env r requested = .ok upstream ∧
      ∀ up, up ∈ upstream ↔ (∃ fine ∈ requested, upstreamOf r fine = some up) ∧ up ≠ "" := by
  have hall : requested.find? (fun fine => (upstreamOf r fine).isNone) = none := by
    refine List.find?_eq_none.mpr fun fine hfine hnone => ?_
    obtain ⟨up, hup⟩ := upstreamOf_of_mem_catalog (h fine hfine)
    rw [hup] at hnone
    cases hnone
  refine ⟨_, by rw [mapToUpstreamScopes, hall], fun up => ?_⟩
  simp only [List.mem_eraseDups, List.mem_filter, List.mem_filterMap, bne_iff_ne]

theorem getD_askedScope (requested : List String) :
    (OAuth.askedScope r requested).getD "" = Text.join (mapScopes r requested) := by
  unfold OAuth.askedScope
  split
  · rename_i hnone
    rw [List.isEmpty_iff.mp hnone]
    rfl
  · rfl

theorem isBroker_of_targetResource {env : Env} {slug : String} {w : World}
    (h : targetResource env slug provider w = .ok r) : r.isBroker = true := by
  unfold targetResource at h
  split at h
  · obtain ⟨target, -, h⟩ := ok_of_bind h
    split at h
    · rename_i hbroker
      rw [← Except.ok.inj h]
      exact hbroker
    · cases h
  · unfold singleBrokerResourceForProvider at h
    split at h
    · cases h
    · rename_i row hrow
      obtain rfl := Except.ok.inj h
      have hmem := List.mem_singleton_self row
      rw [← hrow] at hmem
      exact (Bool.and_eq_true_iff.mp (List.mem_filter.mp hmem).2).1
    · cases h

end Catalog

/-! ### A connection, and what it makes possible -/

/-- A connection at an OAuth upstream, from its start to the grant. Between the start and the
completion other calls may do anything that leaves the pending state. -/
structure Flow (env : Env) (port : ConnectPort) (conf : Connector) where
  userID : String
  providerSlug : String
  resourceSlug : String
  returnURL : String
  code : String
  startID : ReqID
  completeID : ReqID
  /-- Which of the store calls fail. -/
  startPlan : List Bool
  completePlan : List Bool
  /-- The database before and after the start, and before and after the completion. -/
  initial : Connections
  begun : Connections
  waiting : Connections
  connected : Connections
  url : String
  result : CompleteConnectResult
  /-- What the start finds, and what it stores. -/
  provider : BrokerProvider
  resource : Resource
  state : ConnectPendingState
  /-- The provider at the completion, and what it answers. -/
  answering : BrokerProvider
  response : BrokerProtocol.TokenResponse
  start : (startConnect env conf startID userID providerSlug resourceSlug returnURL).run
    startPlan initial =
    (.ok url, begun)
  provider_eq : BrokerProviderStore.getBySlug providerSlug initial.world = .ok provider
  provider_oauth : provider.protocol = "oauth"
  resource_eq : targetResource env resourceSlug provider initial.world = .ok resource
  state_eq : begun.started = (startID, state) :: initial.started
  state_waits : waiting.pending.find? (fun st => st.id == state.id && waiting.world.clock <
    st.expiresAt) = some state
  complete : (completeConnect env conf completeID userID state.id code).run completePlan waiting =
    (.ok result, connected)
  answering_eq : BrokerProviderStore.getByID state.providerID waiting.world = .ok answering
  answering_oauth : answering.protocol = "oauth"
  response_eq : OAuth.exchangeCode port answering code (callbackURL env conf answering.slug)
    state = .ok response

/-- The answer grants all that was asked for: it names no scope, or at least these. -/
def GrantsAll (asked : Option String) (response : BrokerProtocol.TokenResponse) : Prop :=
  response.scope = "" ∨ ∀ s ∈ Text.fields (asked.getD ""), s ∈ Text.fields response.scope

namespace Flow

variable {env : Env} {port : ConnectPort} {conf : Connector} (flow : Flow env port conf)

/-- The upstream is asked for the whole catalog. -/
theorem scopes_eq (hwired : OAuth.Wired env port conf) : flow.state.scopes =
    flow.resource.catalog := by
  obtain ⟨prepared, w, hprepared, hstarted⟩ := stored_of_run flow.start
  obtain ⟨-, built, verifier, id, now, hbuilt, hscopes⟩ :=
    built_of_run hprepared flow.provider_eq flow.resource_eq
  rw [hwired.buildConnectURL _ _ _ _ _ _ _ _ _ flow.provider_oauth] at hbuilt
  obtain ⟨cfg, -, hbuilt⟩ := ok_of_bind hbuilt
  obtain ⟨url, -, hbuilt⟩ := ok_of_bind hbuilt
  have hstate : flow.state = prepared.2 :=
    congrArg Prod.snd (List.cons.inj (flow.state_eq.symm.trans hstarted)).1
  rw [hstate, hscopes, ← Option.some.inj (Prod.mk.inj (Except.ok.inj hbuilt)).2]

theorem granted (hwired : OAuth.Wired env port conf) :
    ∃ g, BrokerGrantStore.get flow.userID flow.state.providerID flow.connected.world =
      .ok (some g) ∧ g.scopesGranted = OAuth.splitScopes flow.response.scope := by
  obtain ⟨res, now, answer, g, hanswer, hget, hscopes⟩ :=
    granted_of_run flow.complete flow.state_waits flow.answering_eq
  rw [hwired.handleCallback _ _ _ _ _ _ flow.answering_oauth] at hanswer
  obtain ⟨resp, hresp, hanswer⟩ := OAuth.scopes_of_handleCallback hanswer
  obtain rfl := Except.ok.inj (hresp.symm.trans flow.response_eq)
  exact ⟨g, hget, hscopes.trans hanswer⟩

theorem mem_granted_iff (hwired : OAuth.Wired env port conf)
    (hgrants : GrantsAll (OAuth.askedScope flow.resource flow.state.scopes) flow.response)
      {fine up : String}
    (hup : upstreamOf flow.resource fine = some up) (hne : up ≠ "") :
    up ∈ OAuth.splitScopes flow.response.scope ↔ flow.response.scope ≠ "" ∧ Text.Word up := by
  unfold OAuth.splitScopes
  by_cases hempty : flow.response.scope = ""
  · simp [hempty]
  · rw [if_neg (by simpa using hempty)]
    refine ⟨fun hmem => ⟨hempty, Text.word_of_mem_fields hmem⟩, fun hword => ?_⟩
    refine hgrants.resolve_left hempty up ?_
    rw [getD_askedScope, Text.fields_join, flow.scopes_eq hwired]
    obtain ⟨sc, hsc, hname⟩ := name_of_upstreamOf hup
    refine List.mem_flatMap.mpr ⟨up, mem_mapScopes.mpr ⟨fine, ?_, up, hup, (if_neg hne).symm⟩, ?_⟩
    · rw [← hname]
      exact List.mem_map_of_mem hsc
    · rw [Text.fields_of_word hword.2]
      exact List.mem_singleton_self up

end Flow

/-- **What a connection makes possible.** After a connection whose upstream granted all that was
asked for, a vend of scopes of the resource, with the resource and the grant as they were, is not
refused for its scopes, whichever store calls fail, exactly when each of the scopes has no upstream
name, or the upstream named the scopes in its answer and the upstream name is a single word.

The adapters return errors of the upstream, and none that say that consent is missing. -/
theorem vend_possible_iff (env : Env) (port : ConnectPort) (conf : Connector)
    (hwired : OAuth.Wired env port conf)
    (flow : Flow env port conf)
    (hgrants : GrantsAll (OAuth.askedScope flow.resource flow.state.scopes) flow.response)
    (k : ReqID) (req : BrokerIssueRequest) (w : World)
    (hresource : req.resource = flow.resource) (hprovider : req.provider.id = flow.state.providerID)
    (huser : req.subjectUserID = flow.userID)
      (hscopes : ∀ fine ∈ req.scopes, fine ∈ flow.resource.catalog)
    (hgrant : BrokerGrantStore.get flow.userID flow.state.providerID w =
      BrokerGrantStore.get flow.userID flow.state.providerID flow.connected.world)
    (hadapter : ∀ credential now e, env.vend req.provider req.resource credential req.scopes
      now = .error e → ¬RefusedForScope e) :
    (∀ plan e, ((issue env k req).run plan w).1 = .error e → ¬RefusedForScope e) ↔
      ∀ fine ∈ req.scopes, ∀ up, upstreamOf flow.resource fine = some up → up ≠ "" →
        flow.response.scope ≠ "" ∧ Text.Word up := by
  obtain ⟨g, hget, hgranted⟩ := flow.granted hwired
  have hread : BrokerGrantStore.get req.subjectUserID req.provider.id w = .ok (some g) := by
    rw [huser, hprovider, hgrant, hget]
  obtain ⟨upstream, hupstream, hmem⟩ := @mapToUpstreamScopes_of_mem _ env _ hscopes
  rw [← hresource] at hupstream
  constructor
  · intro hpossible fine hfine up hup hne
    rw [← flow.mem_granted_iff hwired hgrants hup hne, ← hgranted]
    by_contra hmissing
    have hin : up ∈ scopesNotIn upstream g.scopesGranted :=
      List.mem_filter.mpr ⟨(hmem up).mpr ⟨⟨fine, hfine, hup⟩, hne⟩, by simpa using hmissing⟩
    have hbroker : req.resource.isBroker = true :=
      hresource ▸ isBroker_of_targetResource flow.resource_eq
    refine hpossible [] _ (refused_of_missing hbroker hread hupstream (List.ne_nil_of_mem hin)) ?_
    exact ⟨_, _, _, _, _, rfl, by decide⟩
  · intro hcond plan e herror
    have hclear : Safe (solo k True) k (fun _ _ => True) (fun e _ => ¬RefusedForScope e)
      (clear env req) w := by
      refine not_refused_clear fun g' upstream' hg' hupstream' => ?_
      obtain rfl := Option.some.inj (Except.ok.inj (hg'.symm.trans hread))
      obtain rfl := Except.ok.inj (hupstream'.symm.trans hupstream)
      refine List.filter_eq_nil_iff.mpr fun up hin => ?_
      obtain ⟨⟨fine, hfine, hup⟩, hne⟩ := (hmem up).mp hin
      have hrecorded :=
        (flow.mem_granted_iff hwired hgrants hup hne).mpr (hcond fine hfine up hup hne)
      simpa [hgranted] using hrecorded
    have hissue : Safe (solo k True) k (fun _ _ => True) (fun e _ => ¬RefusedForScope e)
      (issue env k req) w := by
      unfold issue
      exact .bind (Safe.mono hclear
        (fun _ _ _ => not_refused_vendAndRecord hadapter) fun _ _ h => h)
    exact (hissue.run trivial (fun _ _ => trivial) plan fun _ _ _ => trivial).2.2.2 e herror

/-! ### Connections to a forge -/

namespace Sample

open AuthServer.Sample

variable (scope : String)

def port : ConnectPort where
  toPort := forgePort
  authorizeConfig := fun _ => ⟨"https://forge/authorize", []⟩
  callbackURL := ""
  computeS256Challenge := id
  exchange := fun _ _ => .ok ⟨"access", "refresh", 3600, scope⟩

def conf : Connector where
  redirectBaseURL := ""
  allowedReturnURLs := []
  stateKey := "key"
  hmacSHA256 := fun _ message => message
  encodeBase64 := id
  decodeBase64 := some
  buildConnectURL := OAuth.buildConnectURL forgeEnv (port scope)
  handleCallback := fun p _ code callbackURL st _ =>
    OAuth.handleCallback (port scope) p code callbackURL st

theorem wired : OAuth.Wired forgeEnv (port scope) (conf scope) :=
  ⟨fun _ _ _ _ _ _ _ _ _ _ => rfl, fun _ _ _ _ _ _ _ => rfl⟩

def initial : Connections where
  world :=
    { World.empty 0 with brokerProviders := [⟨"p1", "forge", "oauth"⟩], resources := [forge] }
  pending := []
  started := []
  consumed := []
  calledBack := []

/-- A connection is started, and completed at once. -/
def started : Except Err String × Connections :=
  (startConnect forgeEnv (conf scope) 0 "user" "forge" "forge"
    "https://as/connections").run [] initial

def state : ConnectPendingState where
  id := "-.-:user:forge:https://as/connections"
  userID := "user"
  providerID := "p1"
  resourceID := "r1"
  codeVerifier := "-b"
  returnURL := "https://as/connections"
  scopes := ["user", "repo"]
  expiresAt := 600 * 1000000000

def completed : Except Err CompleteConnectResult × Connections :=
  (completeConnect forgeEnv (conf scope) 1 "user" state.id "code").run [] (started scope).2

/-- Then a token is asked for. -/
def vended : Except Err BrokerIssueResponse :=
  ((issue forgeEnv 2 (forgeRequest ["user"])).run [] (completed scope).2.world).1

theorem eq_ok_of_toOption {r : Except Err α} {a : α} (h : r.toOption = some a) : r = .ok a := by
  cases r with
  | ok b => exact congrArg Except.ok (Option.some.inj h)
  | error e => cases h

def flow : Flow forgeEnv (port "read:user repo") (conf "read:user repo") where
  userID := "user"
  providerSlug := "forge"
  resourceSlug := "forge"
  returnURL := "https://as/connections"
  code := "code"
  startID := 0
  completeID := 1
  startPlan := []
  completePlan := []
  initial := initial
  begun := (started "read:user repo").2
  waiting := (started "read:user repo").2
  connected := (completed "read:user repo").2
  url := "https://forge/authorize?client_id=as&code_challenge=-b&code_challenge_method=S256" ++
    "&redirect_uri=https%3A%2F%2Fas%2Fconnect%2Fforge%2Fcallback&response_type=code" ++
    "&scope=read%3Auser+repo&state=-bb"
  result := ⟨"forge", ["read:user", "repo"], "https://as/connections"⟩
  provider := ⟨"p1", "forge", "oauth"⟩
  resource := forge
  state := state
  answering := ⟨"p1", "forge", "oauth"⟩
  response := ⟨"access", "refresh", 3600, "read:user repo"⟩
  start := Prod.ext (eq_ok_of_toOption (by decide +kernel)) rfl
  provider_eq := rfl
  provider_oauth := rfl
  resource_eq := rfl
  state_eq := by decide +kernel
  state_waits := by decide +kernel
  complete := Prod.ext (eq_ok_of_toOption (by decide +kernel)) rfl
  answering_eq := eq_ok_of_toOption (by decide +kernel)
  answering_oauth := rfl
  response_eq := rfl

end Sample

/-- **A connection without use.** The forge grants what it was asked for and leaves the scope out of
its answer. The token that is asked for next is refused for its scope. Had the forge named the
scopes, the request would have gone to it (and it is not available). -/
theorem refused_after_connect :
    (Sample.completed "").1.toOption = some ⟨"forge", [], "https://as/connections"⟩ ∧
      Sample.vended "" =
        .error (.consentRequired "" "forge" "" .scopeInsufficient ["read:user"] "") ∧
      Sample.vended "read:user repo" =
        .error (.consentRequired "" "forge" "" .consentMissing [] "upstream_error") := by
  refine ⟨by decide +kernel, by rfl, by rfl⟩

open AuthServer.Sample in
theorem vend_possible_with_answer :
    ∃ e, Sample.vended "read:user repo" = .error e ∧ ¬RefusedForScope e := by
  refine ⟨.consentRequired "" "forge" "" .consentMissing [] "upstream_error", by rfl, ?_⟩
  refine (vend_possible_iff forgeEnv (Sample.port "read:user repo") (Sample.conf "read:user repo")
    (Sample.wired "read:user repo") Sample.flow (.inr (by decide +kernel)) 2 (forgeRequest ["user"])
    (Sample.completed "read:user repo").2.world rfl rfl rfl (by decide) rfl
      (fun credential now e he => ?_)).mpr
    (fun fine hfine up hup _ => ?_) [] _ (by rfl)
  · obtain rfl := Except.error.inj he
    rintro ⟨service, slug, resource, missing, reason, heq, -⟩
    cases heq
  · obtain rfl : fine = "user" := List.mem_singleton.mp hfine
    obtain rfl := Option.some.inj hup
    exact ⟨by decide, by decide⟩

end ConnectVend

end AuthServer
