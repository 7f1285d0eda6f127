import AuthServer.Service.ExchangeRules

/-!
# The scopes of a token minted by an exchange

An exchange for a Mint resource checks its scopes against the catalog of the target and against what
authorises its branch: the fronting link, the consent grant, or the subject token itself. This
module says exactly when the token that is signed carries what was checked.

Two things stand between the check and the token. A blank scope parameter is replaced by a list of
default names that is *joined* to a string and split again when the token is issued, so a name with
white space in it comes out in pieces that nobody checked, and a name made of white space not at
all. And a self-exchange relies on the subject token's scopes as its only bound, a bound that does
not apply when the scope claim is empty. -/

namespace AuthServer

open Interleave

namespace TokenExchange

variable {env : Env} {req : TokenExchangeRequest} {claims : AccessTokenClaims} {target : Resource}
  {w : World}

def AuthorisedBy (claims : AccessTokenClaims) (w : World) : Gate → String → Prop
  | .legacy, _ => False
  | .selfExchange, sc => sc ∈ Text.fields claims.scope
  | .consent userID clientID resourceID, sc =>
      ∃ g, ConsentGrantStore.get userID clientID resourceID w = .ok (some g) ∧ sc ∈ g.scopes ∧
        (Text.fields claims.scope ≠ [] → sc ∈ Text.fields claims.scope)
  | .fronted source target, sc =>
      ∃ l, FrontingLinkStore.get source target w = .ok l ∧
        Mapped l.scopeMap (Text.fields claims.scope) sc

structure CarriesAuthorised (claims : AccessTokenClaims) (target : Resource)
    (w : World) (gate : Gate)
    (scopes : List String) : Prop where
  ne_nil : scopes ≠ []
  declared : ∀ sc ∈ scopes, sc ∈ target.catalog
  authorised : ∀ sc ∈ scopes, AuthorisedBy claims w gate sc

/-- What keeps the signed scopes within the checked ones, branch by branch. -/
def ScopeSafe (req : TokenExchangeRequest) (claims : AccessTokenClaims) (target : Resource)
    (w : World) : Gate → Prop
  | .legacy => False
  -- the subject token is the only bound
  | .selfExchange => claims.scope ≠ ""
  -- the names of a scope claim are single words, those of the grant and of the catalog need not be
  | .consent userID clientID resourceID =>
      Text.fields req.scope = [] → Text.fields claims.scope = [] →
        ∀ g, ConsentGrantStore.get userID clientID resourceID w = .ok (some g) →
          (∃ name ∈ g.scopes, name ∈ target.catalog ∧ Text.fields name ≠ []) ∧
            ∀ name ∈ g.scopes, name ∈ target.catalog → Text.fields name ⊆ target.catalog
  -- neither need those of the scope map, which the catalog does not bound
  | .fronted source slug =>
      Text.fields req.scope = [] → ∀ l, FrontingLinkStore.get source slug w = .ok l →
        (∃ name, Charged l.scopeMap (ScopeSet.parse claims.scope) name ∧ Text.fields name ≠ []) ∧
          ∀ name, Charged l.scopeMap (ScopeSet.parse claims.scope) name →
            ∀ piece ∈ Text.fields name,
              piece ∈ target.catalog ∧ Mapped l.scopeMap (Text.fields claims.scope) piece

/-! ### The scope parameter a branch returns -/

variable {scope : String} {f : Fronting}

theorem frontedScope_ok (h : frontedScope env req claims target f = .ok scope) :
    (∀ sc ∈ Text.fields req.scope, Mapped f.link.scopeMap (Text.fields claims.scope) sc) ∧
      scope = if Text.fields req.scope = [] then
          Text.join (frontedMintTargetsFor f.link.scopeMap (ScopeSet.parse claims.scope))
        else req.scope := by
  unfold frontedScope at h
  simp only [List.isEmpty_iff] at h
  by_cases hblank : Text.fields req.scope = []
  · simp only [hblank, if_true] at h ⊢
    refine ⟨by simp, ?_⟩
    repeat' split at h
    all_goals first
      | exact (Except.ok.inj h).symm
      | cases h
  · simp only [hblank, if_false] at h ⊢
    split at h
    · cases h
    split at h
    · cases h
    rename_i hmapped
    split at h
    · cases h
    rename_i hheld
    refine ⟨fun sc hsc => ?_, (Except.ok.inj h).symm⟩
    have hsources : ∀ src ∈ (requiredSourceScopesForTargets f.link.scopeMap
        (Text.fields req.scope)).1, src ∈ (ScopeSet.parse claims.scope).names := fun src hsrc => by
      simpa using List.find?_eq_none.mp hheld src hsrc
    obtain ⟨src, ts, hentry, ht, hsrc⟩ := mapped_of_requiredSourceScopes
      (Prod.ext rfl (by simpa using hmapped)) hsources sc hsc
    exact ⟨src, ts, hentry, ht, ScopeSet.mem_parse.mp hsrc⟩

theorem defaultedScope_ok {grant : Option ConsentGrant} {branch : Authority}
    (h : defaultedScope env req grant claims target branch = .ok scope) :
    (Text.fields req.scope = [] ∧
      directMintDefaultScopes grant target (ScopeSet.parse claims.scope) ≠ [] ∧
      scope = Text.join (directMintDefaultScopes grant target (ScopeSet.parse claims.scope))) ∨
    (Text.fields req.scope ≠ [] ∧ scope = req.scope) := by
  unfold defaultedScope at h
  simp only [List.isEmpty_iff] at h
  split at h
  · rename_i hblank
    exact .inl ⟨hblank, applyDirectMintDefaultScopes_ok h⟩
  · rename_i hnamed
    exact .inr ⟨hnamed, (Except.ok.inj h).symm⟩

/-! ### From the parameter to the token -/

variable {gate : Gate} {names : List String}

theorem claim_ne_of_mem {sc : String} (h : sc ∈ Text.fields claims.scope) : claims.scope ≠ "" := by
  intro hempty
  rw [hempty, Text.fields_empty] at h
  cases h

/-- Names that are joined and split again. -/
theorem carriesAuthorised_join_iff :
    CarriesAuthorised claims target w gate (Text.fields (Text.join names)) ↔
      (∃ name ∈ names, Text.fields name ≠ []) ∧ ∀ name ∈ names, ∀ piece ∈ Text.fields name,
        piece ∈ target.catalog ∧ AuthorisedBy claims w gate piece := by
  rw [Text.fields_join]
  constructor
  · rintro ⟨hne, hdeclared, hauthorised⟩
    refine ⟨?_, fun name hname piece hpiece => ?_⟩
    · by_contra hall
      push Not at hall
      exact hne (List.flatMap_eq_nil_iff.mpr hall)
    · have hmem := List.mem_flatMap.mpr ⟨name, hname, hpiece⟩
      exact ⟨hdeclared piece hmem, hauthorised piece hmem⟩
  · rintro ⟨⟨name, hname, hne⟩, hpieces⟩
    refine ⟨fun hnil => hne (List.flatMap_eq_nil_iff.mp hnil name hname), ?_, ?_⟩
    all_goals
      intro piece hpiece
      obtain ⟨name, hname, hpiece⟩ := List.mem_flatMap.mp hpiece
    · exact (hpieces name hname piece hpiece).1
    · exact (hpieces name hname piece hpiece).2

/-- Words survive. -/
theorem carriesAuthorised_join_of_words (hne : names ≠ []) (hwords : ∀ name ∈ names, Text.Word name)
    (h : ∀ name ∈ names, name ∈ target.catalog ∧ AuthorisedBy claims w gate name) :
    CarriesAuthorised claims target w gate (Text.fields (Text.join names)) := by
  rw [Text.fields_join_of_words hwords]
  exact ⟨hne, fun name hname => (h name hname).1, fun name hname => (h name hname).2⟩

theorem fronted_iff
    (hcatalog : ∀ sc ∈ Text.fields req.scope, sc ∈ target.catalog)
    (hget : FrontingLinkStore.get f.source.slug target.slug w = .ok f.link)
    (h : frontedScope env req claims target f = .ok scope) :
    CarriesAuthorised claims target w (.fronted f.source.slug target.slug) (Text.fields scope) ↔
      ScopeSafe req claims target w (.fronted f.source.slug target.slug) := by
  have hlink : ∀ l, FrontingLinkStore.get f.source.slug target.slug w = .ok l ↔ f.link = l := by
    intro l
    rw [hget, Except.ok.injEq]
  obtain ⟨hmapped, rfl⟩ := frontedScope_ok h
  simp only [ScopeSafe, hlink, forall_eq']
  split
  · rename_i hblank
    simp only [carriesAuthorised_join_iff, mem_frontedMintTargetsFor, AuthorisedBy, hlink,
      exists_eq_left', hblank, true_implies]
  · rename_i hnamed
    refine iff_of_true ⟨hnamed, hcatalog, fun sc hsc => ?_⟩ fun hblank => absurd hblank hnamed
    exact ⟨f.link, hget, hmapped sc hsc⟩

theorem selfExchange_iff
    (hcatalog : ∀ sc ∈ Text.fields req.scope, sc ∈ target.catalog)
    (hceiling : enforceSubjectScopeCeiling req.scope claims = .ok ())
    (h : defaultedScope env req none claims target .selfExchange = .ok scope) :
    CarriesAuthorised claims target w .selfExchange (Text.fields scope) ↔
      ScopeSafe req claims target w .selfExchange := by
  constructor
  · intro hcarries
    obtain ⟨sc, hsc⟩ := List.exists_mem_of_ne_nil _ hcarries.ne_nil
    exact claim_ne_of_mem (hcarries.authorised sc hsc)
  · intro hclaim
    rcases defaultedScope_ok h with ⟨-, hne, rfl⟩ | ⟨hnamed, rfl⟩
    · have hnames : ∀ name ∈ directMintDefaultScopes none target (ScopeSet.parse claims.scope),
          name ∈ target.catalog ∧ name ∈ Text.fields claims.scope := fun name hname => by
        simpa only [mem_directMintDefaultScopes_none, ScopeSet.mem_parse] using hname
      exact carriesAuthorised_join_of_words hne
        (fun name hname => Text.word_of_mem_fields (hnames name hname).2) hnames
    · exact ⟨hnamed, hcatalog, subset_of_enforceSubjectScopeCeiling hceiling hclaim⟩

theorem consent_iff {g : ConsentGrant} {u c r scope : String}
    (hcatalog : ∀ sc ∈ Text.fields req.scope, sc ∈ target.catalog)
    (hceiling : enforceSubjectScopeCeiling req.scope claims = .ok ())
    (hget : ConsentGrantStore.get u c r w = .ok (some g))
    (h : defaultedScope env req (some g) claims target .consentGrant = .ok scope)
    (hcovered : ∀ sc ∈ Text.fields scope, sc ∈ g.scopes) :
    CarriesAuthorised claims target w (.consent u c r) (Text.fields scope) ↔
      ScopeSafe req claims target w (.consent u c r) := by
  have hgrant : ∀ g', ConsentGrantStore.get u c r w = .ok (some g') ↔ g = g' := by
    intro g'
    rw [hget, Except.ok.injEq, Option.some.injEq]
  simp only [ScopeSafe, hgrant, forall_eq']
  rcases defaultedScope_ok h with ⟨hblank, hne, rfl⟩ | ⟨hnamed, rfl⟩
  · simp only [hblank, true_implies]
    by_cases hclaim : Text.fields claims.scope = []
    · -- the grant is checked once more when the names are in pieces, the catalog is not
      have hpieces : ∀ name ∈ g.scopes, name ∈ target.catalog → ∀ piece ∈ Text.fields name,
          piece ∈ g.scopes := by
        intro name hmem hdeclared piece hpiece
        have hname := mem_directBrokerDefaultScopes.mpr ⟨hmem, hdeclared, .inl hclaim⟩
        refine hcovered piece ?_
        rw [Text.fields_join]
        exact List.mem_flatMap.mpr ⟨name, hname, hpiece⟩
      simp only [carriesAuthorised_join_iff, directMintDefaultScopes, mem_directBrokerDefaultScopes,
        AuthorisedBy, hgrant, exists_eq_left', hclaim, true_or, and_true, ne_eq, not_true_eq_false,
        false_implies, true_implies, and_imp, and_assoc]
      refine and_congr_right fun _ => forall_congr' fun name =>
        forall₂_congr fun hmem hdeclared => ?_
      exact ⟨fun h piece hpiece => (h piece hpiece).1,
        fun h piece hpiece => ⟨h hpiece, hpieces name hmem hdeclared piece hpiece⟩⟩
    · simp only [hclaim, false_implies, iff_true]
      have hnames : ∀ name ∈ directMintDefaultScopes (some g) target (ScopeSet.parse claims.scope),
          name ∈ g.scopes ∧ name ∈ target.catalog ∧ name ∈ Text.fields claims.scope :=
        fun name hname => by
          simpa only [directMintDefaultScopes, mem_directBrokerDefaultScopes, hclaim, false_or]
            using hname
      refine carriesAuthorised_join_of_words hne
        (fun name hname => Text.word_of_mem_fields (hnames name hname).2.2) fun name hname => ?_
      obtain ⟨hmem, hdeclared, hclaimed⟩ := hnames name hname
      exact ⟨hdeclared, g, hget, hmem, fun _ => hclaimed⟩
  · refine iff_of_true ⟨hnamed, hcatalog, fun sc hsc => ?_⟩ fun hblank => absurd hblank hnamed
    refine ⟨g, hget, hcovered sc hsc, fun hne => ?_⟩
    obtain ⟨sc', hsc'⟩ := List.exists_mem_of_ne_nil _ hne
    exact subset_of_enforceSubjectScopeCeiling hceiling (claim_ne_of_mem hsc') sc hsc

/-- **What the branch authorised against what is signed.** -/
theorem carriesAuthorised_iff {fronting : Option Fronting}
    (hcatalog : ∀ sc ∈ Text.fields req.scope, sc ∈ target.catalog)
    (hlink : ∀ f ∈ fronting, FrontingLinkStore.get f.source.slug target.slug w = .ok f.link)
    (h : ScopeGranted env req claims target w fronting scope) :
    CarriesAuthorised claims target w (gateOf env req claims target fronting) (Text.fields scope) ↔
      ScopeSafe req claims target w (gateOf env req claims target fronting) := by
  cases h with
  | @fronted f _ hf => exact fronted_iff hcatalog (hlink f rfl) hf
  | selfExchange hself hceiling hdef =>
    simp only [gateOf, hself, if_true]
    exact selfExchange_iff hcatalog hceiling hdef
  | consented hself _ hceiling hget hdef hcovered =>
    simp only [gateOf, hself, Bool.false_eq_true, if_false]
    exact consent_iff hcatalog hceiling hget hdef hcovered

/-! ### The run -/

/-- **Every token an exchange for a Mint resource hands out carries a non-empty list of declared
scopes, each authorised by the branch taken, exactly when the exchange is `ScopeSafe`.** -/
theorem minted_scopes_authorised_iff {ctx : ReqID} {plan : List Bool}
    {resp : TokenExchangeResponse} {w' : World} (hmint : target.isMint = true)
    (hrun : (handleViaRegistry env ctx req claims target).run plan w = (.ok resp, w')) :
    ∃ c gate, resp.accessToken = .minted c ∧
      w'.journal.head? = some ⟨ctx, .exchanged claims.jti c.jti gate⟩ ∧
      (CarriesAuthorised claims target w gate (Text.fields c.scope) ↔
        ScopeSafe req claims target w gate) := by
  have hkind : target.backendKind = .mint := by simpa [Resource.isMint] using hmint
  apply post_of_run (i := ctx) hrun
  have hbroker : isFrontedBrokerExchange env claims.audience target = pure false := by
    simp [isFrontedBrokerExchange, Resource.isBroker, hkind]
  simp only [handleViaRegistry, hbroker, dispatch, hkind]
  refine .bind (safe_pure (Ensures.bindOfExcept fun _ hcatalog => ?_))
  have hcatalog := mem_catalog_of_validateAgainstCatalog hcatalog
  refine ensures_dispatchMint (tolerant_solo ctx True) trivial
    fun fronting scope jkt act agent now t hst _ _ hlink hgranted => ?_
  refine .mono ensures_mintAndRelease ?_
  rintro resp t' ⟨c, hc, hscope, hlast⟩
  refine ⟨c, _, hc, hlast, ?_⟩
  have hfields : Text.fields c.scope = Text.fields scope := by
    rw [hscope]
    exact fields_join_fields scope
  rw [hfields]
  refine carriesAuthorised_iff hcatalog (fun f hf => ?_) ?_
  · refine (hlink f hf).link.of_solo fun u hu hget => ?_
    obtain ⟨_, _, _, -, rfl⟩ := hu
    exact hget
  · exact hgranted.of_solo fun u hu => ScopeGranted.of_quiet hu

/-! ### Runs -/

/-- A gateway, with the one scope its clients hold. -/
def gateway : Resource :=
  ⟨"r1", "gateway", "https://gateway", .mint, "", [⟨"call", ""⟩], ⟨[], ["agent"], []⟩⟩

/-- A file service behind the gateway, whose one scope has a blank in its name. -/
def files : Resource :=
  ⟨"r2", "files", "https://files", .mint, "", [⟨"read write", ""⟩], ⟨[], [], []⟩⟩

/-- A service nothing fronts. -/
def docs : Resource :=
  ⟨"r3", "docs", "https://docs", .mint, "", [⟨"docs:read", ""⟩], ⟨[], [], []⟩⟩

def gatewayToFiles : FrontingLink :=
  ⟨"gateway", "files", ⟨[("call", ["read write"])], by decide⟩⟩

def fileHosting : World :=
  { World.empty 1000000000000 with
    resources := [gateway, files, docs], frontingLinks := [gatewayToFiles] }

def agentToken (audience scope : String) : AccessTokenClaims :=
  ⟨"https://as", "user", [audience], "agent", scope, "jti", 1000, 2000, 1000, none, none, "", []⟩

def agentRequest (resource scope : String) : TokenExchangeRequest :=
  ⟨"agent", "secret", none, tokenTypeAccessToken, none, "", resource, scope, ⟨"", "", ""⟩⟩

/-- The agent exchanges a token that already carries the scope. -/
theorem minted_scopes_authorised_docs :
    ∃ resp w' c gate, (handleViaRegistry Env.plain 0 (agentRequest "docs" "")
        (agentToken "https://as" "docs:read") docs).run [] fileHosting = (.ok resp, w') ∧
      resp.accessToken = .minted c ∧
      w'.journal.head? = some ⟨0, .exchanged "jti" c.jti gate⟩ ∧
      (CarriesAuthorised (agentToken "https://as" "docs:read") docs fileHosting gate
          (Text.fields c.scope) ↔
        ScopeSafe (agentRequest "docs" "") (agentToken "https://as" "docs:read") docs fileHosting
          gate) := by
  have hrun : (handleViaRegistry Env.plain 0 (agentRequest "docs" "")
      (agentToken "https://as" "docs:read") docs).run [] fileHosting = (.ok _, _) := rfl
  obtain ⟨c, gate, hc, hlast, hiff⟩ := minted_scopes_authorised_iff rfl hrun
  exact ⟨_, _, c, gate, hrun, hc, hlast, hiff⟩

/-- **Two ways out of the checked scopes.** Through the gateway, a blank scope parameter turns the
scope `read write` into the scopes `read` and `write`, which nobody declared; and a self-exchange of
a token without scopes obtains `docs:read`, which that token never carried. The resource and the
link pass validation. -/
theorem minted_scopes_not_authorised :
    files.validate Env.plain = .ok () ∧ gatewayToFiles.validate = .ok () ∧
      assertScopeMapMembership Env.plain gatewayToFiles.scopeMap gateway files = .ok () ∧
      docs.validate Env.plain = .ok () ∧
    (∃ resp c, ((handleViaRegistry Env.plain 0 (agentRequest "files" "")
        (agentToken "https://gateway" "call") files).run [] fileHosting).1 = .ok resp ∧
      resp.accessToken = .minted c ∧ Text.fields c.scope = ["read", "write"] ∧
      ¬CarriesAuthorised (agentToken "https://gateway" "call") files fileHosting
        (.fronted "gateway" "files") (Text.fields c.scope)) ∧
    ∃ resp c, ((handleViaRegistry Env.plain 0 (agentRequest "docs" "docs:read")
        (agentToken "https://as" "") docs).run [] fileHosting).1 = .ok resp ∧
      resp.accessToken = .minted c ∧ Text.fields c.scope = ["docs:read"] ∧
      ¬CarriesAuthorised (agentToken "https://as" "") docs fileHosting .selfExchange
        (Text.fields c.scope) := by
  refine ⟨by decide, by decide, by decide, by decide, ⟨_, _, rfl, rfl, by decide, ?_⟩,
    ⟨_, _, rfl, rfl, by decide, ?_⟩⟩
  · intro h
    exact absurd (h.declared "read" (by decide)) (by decide)
  · intro h
    exact absurd (h.authorised "docs:read" (by decide)) (by
      change "docs:read" ∉ Text.fields ""
      decide)

end TokenExchange

end AuthServer
