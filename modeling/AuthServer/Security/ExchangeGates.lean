import AuthServer.Security.MintedScope

/-!
# The gates of an exchange and its defaults

A token exchange takes one of five branches. Each has gates for the scopes that a request names, and
a derivation of its own for the request that names none. `Branch.Allows` says of a single scope what
the gates of a branch ask, so that the gates let a request pass if and only if they allow each of
its scopes (`passes_iff`), and a default is right if it lists the scopes that are allowed
(`exact_iff`). `default_exact_iff` says for each branch when it does. What stands in the way, names
with white space aside, is

* a self-exchange whose subject token has no scope claim: the ceiling lets everything pass and
  nothing is derived;
* a scope claim of blanks: the ceiling takes it for a claim and lets nothing pass, the derivation
  takes it for none;
* a fronting link with a target that the resource does not declare: the catalog is checked for named
  scopes only.

The two fronted gates read the same map. The Mint gate charges a fixed source for each target and
the Broker gate accepts any, which makes the first one stronger (`frontedMint_le_frontedBroker`). -/

namespace AuthServer

namespace TokenExchange

variable {env : Env} {claims : AccessTokenClaims} {target : Resource}
    {grant : ConsentGrant} {m : ScopeMap}
  {ss : ScopeSet} {scope s t src : String} {targets : List String}

/-! ### Sorted lists -/

theorem pairwise_sortStrings (l : List String) : (sortStrings l).Pairwise (· ≤ ·) :=
  List.pairwise_insertionSort _ _

theorem nodup_sortStrings {l : List String} (h : l.Nodup) : (sortStrings l).Nodup :=
  (List.perm_insertionSort _ _).nodup_iff.mpr h

/-! ### One gate at a time -/

theorem validateAgainstCatalog_iff :
    validateAgainstCatalog env scope target = .ok () ↔ ∀ s ∈ Text.fields scope,
      s ∈ target.catalog := by
  refine ⟨mem_catalog_of_validateAgainstCatalog, fun h => ?_⟩
  have hnone : (Text.fields scope).find? (fun sc => !target.catalog.contains sc) = none := by
    rw [List.find?_eq_none]
    simpa using h
  rw [validateAgainstCatalog, hnone]

theorem enforceSubjectScopeCeiling_iff :
    enforceSubjectScopeCeiling scope claims = .ok () ↔
      ∀ s ∈ Text.fields scope, claims.scope = "" ∨ s ∈ Text.fields claims.scope := by
  constructor
  · intro h s hs
    by_cases hclaim : claims.scope = ""
    · exact .inl hclaim
    · exact .inr (subset_of_enforceSubjectScopeCeiling h hclaim s hs)
  · intro h
    unfold enforceSubjectScopeCeiling
    split
    · rfl
    · rename_i hclaim
      have hsub : (ScopeSet.parse scope).isSubset (ScopeSet.parse claims.scope) = true := by
        rw [ScopeSet.isSubset_iff]
        intro s hs
        rw [ScopeSet.mem_parse] at hs ⊢
        exact (h s hs).resolve_left (by simpa using hclaim)
      rw [hsub]
      split <;> rfl

/-- The map has the target. -/
def Declared (m : ScopeMap) (t : String) : Prop :=
  ∃ src ts, (src, ts) ∈ m.entries ∧ t ∈ ts

theorem sourcesOf_ne_nil : sourcesOf m t ≠ [] ↔ Declared m t := by
  constructor
  · intro hne
    obtain ⟨src, hsrc⟩ := List.exists_mem_of_ne_nil _ hne
    exact ⟨src, mem_sourcesOf.mp hsrc⟩
  · rintro ⟨src, hsrc⟩
    exact List.ne_nil_of_mem (mem_sourcesOf.mpr hsrc)

theorem mapped_iff : Mapped m ss.names t ↔ (sourcesOf m t).any ss.contains = true := by
  rw [List.any_eq_true]
  constructor
  · rintro ⟨src, ts, hentry, ht, hsrc⟩
    exact ⟨src, mem_sourcesOf.mpr ⟨ts, hentry, ht⟩, ScopeSet.contains_iff.mpr hsrc⟩
  · rintro ⟨src, hsrc, hheld⟩
    obtain ⟨ts, hentry, ht⟩ := mem_sourcesOf.mp hsrc
    exact ⟨src, ts, hentry, ht, ScopeSet.contains_iff.mp hheld⟩

theorem Mapped.declared (h : Mapped m ss.names t) : Declared m t := by
  obtain ⟨src, ts, hentry, ht, -⟩ := h
  exact ⟨src, ts, hentry, ht⟩

/-- The fronted Mint gate, point by point. -/
theorem requiredSourceScopesForTargets_iff :
    ((requiredSourceScopesForTargets m targets).2 = [] ∧
      ∀ src ∈ (requiredSourceScopesForTargets m targets).1, src ∈ ss.names) ↔ ∀ t ∈ targets,
        Charged m ss t := by
  have hunmapped : (targets.filter fun t => (sourcesOf m t).isEmpty) =
    [] ↔ ∀ t ∈ targets, sourcesOf m t ≠ [] := by
    simp [List.filter_eq_nil_iff]
  unfold requiredSourceScopesForTargets
  simp only [List.isEmpty_iff]
  split
  · rename_i hall
    have hall := hunmapped.mp hall
    simp only [mem_sortStrings, List.mem_dedup, List.mem_filterMap, true_and]
    constructor
    · intro h t ht
      obtain ⟨src, hhead⟩ : ∃ src, (sourcesOf m t).head? = some src :=
        ⟨_, List.head?_eq_some_head (hall t ht)⟩
      exact ⟨src, hhead, h src ⟨t, ht, hhead⟩⟩
    · rintro h src ⟨t, ht, hhead⟩
      obtain ⟨src', hhead', hheld⟩ := h t ht
      exact Option.some.inj (hhead.symm.trans hhead') ▸ hheld
  · rename_i hsome
    refine ⟨fun h => absurd h.1 hsome, fun h => absurd (hunmapped.mpr fun t ht => ?_) hsome⟩
    exact sourcesOf_ne_nil.mpr (h t ht).mapped.declared

theorem validateBrokerTargets_eq_of_mapped (h : ∀ t ∈ targets, Mapped m ss.names t) :
    validateBrokerTargets m targets ss = (sortStrings targets.dedup, [], []) := by
  have hunmapped : (targets.filter fun t => (sourcesOf m t).isEmpty) = [] := by
    rw [List.filter_eq_nil_iff]
    intro t ht
    simpa using sourcesOf_ne_nil.mpr (h t ht).declared
  have huncovered : (targets.filter fun t =>
      !(sourcesOf m t).isEmpty && !(sourcesOf m t).any ss.contains) = [] := by
    rw [List.filter_eq_nil_iff]
    intro t ht
    simp [mapped_iff.mp (h t ht)]
  simp only [validateBrokerTargets, hunmapped, huncovered, List.isEmpty_nil, Bool.and_self, if_true]

/-- The two refusal lists of the Broker check, whatever it decides. -/
theorem mem_validateBrokerTargets_refused :
    (t ∈ (validateBrokerTargets m targets ss).2.1 ↔ t ∈ targets ∧ ¬Declared m t) ∧
      (t ∈ (validateBrokerTargets m targets ss).2.2 ↔ t ∈ targets ∧ Declared m t ∧
        ¬Mapped m ss.names t) := by
  rw [← sourcesOf_ne_nil, mapped_iff]
  unfold validateBrokerTargets
  simp only
  split
  · rename_i hnone
    simp only [Bool.and_eq_true, List.isEmpty_iff, List.filter_eq_nil_iff] at hnone
    constructor
    · simpa using fun ht => by simpa using hnone.1 t ht
    · simpa using fun ht => by simpa using hnone.2 t ht
  · simp [List.mem_filter]

theorem validateBrokerTargets_iff :
    (validateBrokerTargets m targets ss).2 = ([], []) ↔ ∀ t ∈ targets, Mapped m ss.names t := by
  constructor
  · intro h t ht
    obtain ⟨hunmapped, huncovered⟩ := @mem_validateBrokerTargets_refused m ss t targets
    rw [h] at hunmapped huncovered
    have hdeclared : Declared m t := by
      by_contra hnot
      exact List.not_mem_nil (hunmapped.mpr ⟨ht, hnot⟩)
    by_contra hnot
    exact List.not_mem_nil (huncovered.mpr ⟨ht, hdeclared, hnot⟩)
  · intro h
    rw [validateBrokerTargets_eq_of_mapped h]

/-- **The fronted Mint gate is the stronger one.** What it lets pass the Broker check clears, and
returns sorted and without repetition; and they agree on targets with a single source. -/
theorem frontedMint_le_frontedBroker (m : ScopeMap) (targets : List String) (ss : ScopeSet) :
    ((requiredSourceScopesForTargets m targets).2 = [] →
      (∀ src ∈ (requiredSourceScopesForTargets m targets).1, src ∈ ss.names) →
      validateBrokerTargets m targets ss = (sortStrings targets.dedup, [], [])) ∧
    ((∀ t ∈ targets, ∃! src, ∃ ts, (src, ts) ∈ m.entries ∧ t ∈ ts) →
      (((requiredSourceScopesForTargets m targets).2 = [] ∧
        ∀ src ∈ (requiredSourceScopesForTargets m targets).1, src ∈ ss.names) ↔
      (validateBrokerTargets m targets ss).2 = ([], []))) := by
  constructor
  · intro hmapped hheld
    have hcharged := requiredSourceScopesForTargets_iff.mp ⟨hmapped, hheld⟩
    exact validateBrokerTargets_eq_of_mapped fun t ht => (hcharged t ht).mapped
  · intro hunique
    rw [requiredSourceScopesForTargets_iff, validateBrokerTargets_iff]
    refine ⟨fun h t ht => (h t ht).mapped, fun h t ht => ?_⟩
    -- the first source is the only one, so it is the one that is held
    obtain ⟨src, ts, hentry, hmem, hheld⟩ := h t ht
    have hne : sourcesOf m t ≠ [] := sourcesOf_ne_nil.mpr ⟨src, ts, hentry, hmem⟩
    have hfirst := mem_sourcesOf.mp (List.head_mem hne)
    have heq : (sourcesOf m t).head hne = src := (hunique t ht).unique hfirst ⟨ts, hentry, hmem⟩
    exact ⟨src, heq ▸ List.head?_eq_some_head hne, hheld⟩

/-- One source for the one target, which is asked for twice. -/
theorem frontedMint_le_frontedBroker_call :
    validateBrokerTargets ⟨[("call", ["read"])], by decide⟩ ["read", "read"]
      (ScopeSet.parse "call") =
        (["read"], [], []) ∧
      ¬(validateBrokerTargets ⟨[("call", ["read"])], by decide⟩ ["read"] (ScopeSet.parse "")).2 =
        ([], []) := by
  have hcall := frontedMint_le_frontedBroker ⟨[("call", ["read"])], by decide⟩ ["read", "read"]
    (ScopeSet.parse "call")
  have hnone := frontedMint_le_frontedBroker ⟨[("call", ["read"])], by decide⟩ ["read"]
    (ScopeSet.parse "")
  refine ⟨hcall.1 (by decide +kernel) (by decide +kernel), fun hclear => ?_⟩
  have hmint :=
    (hnone.2 fun t ht => ⟨"call", ⟨["read"], by decide, by simpa using ht⟩, ?_⟩).mpr hclear
  · exact absurd (hmint.2 "call" (by decide +kernel)) (by decide +kernel)
  · rintro src ⟨ts, hentry, -⟩
    exact (Prod.mk.inj (List.mem_singleton.mp hentry)).1

/-- What the Broker check returns: everything that was requested, or nothing and the reasons. -/
structure Separates (m : ScopeMap) (requested : List String) (ss : ScopeSet) : Prop where
  valid_iff : (validateBrokerTargets m requested ss).1 = sortStrings requested.dedup ↔
    ∀ t ∈ requested, Mapped m ss.names t
  refused : (¬∀ t ∈ requested, Mapped m ss.names t) → (validateBrokerTargets m requested ss).1 = []
  unmapped : ∀ t, t ∈ (validateBrokerTargets m requested ss).2.1 ↔ t ∈ requested ∧ ¬Declared m t
  uncovered : ∀ t, t ∈ (validateBrokerTargets m requested ss).2.2 ↔
    t ∈ requested ∧ Declared m t ∧ ¬Mapped m ss.names t

/-- Nothing is valid unless everything is. -/
theorem validateBrokerTargets_fst_of_not (h : ¬∀ t ∈ targets, Mapped m ss.names t) :
    (validateBrokerTargets m targets ss).1 = [] := by
  rw [← validateBrokerTargets_iff] at h
  unfold validateBrokerTargets at h ⊢
  simp only at h ⊢
  split at h
  · exact absurd rfl h
  · rename_i hrefused
    rw [if_neg hrefused]

/-- **The Broker check.** It clears all targets or none, its two refusal lists are the targets that
the map does not have and those that it has and nothing held maps to, and one of the lists is empty
exactly when the request does not mix the two kinds. -/
theorem validateBrokerTargets_separates_iff (m : ScopeMap)
    (requested : List String) (ss : ScopeSet) :
    Separates m requested ss ∧
      (((validateBrokerTargets m requested ss).2.1 = [] ∨
          (validateBrokerTargets m requested ss).2.2 = []) ↔
        ¬((∃ t ∈ requested, ¬Declared m t) ∧
          ∃ t ∈ requested, Declared m t ∧ ¬Mapped m ss.names t)) := by
  refine ⟨⟨⟨fun hvalid => ?_, fun hall => ?_⟩, validateBrokerTargets_fst_of_not,
    fun t => mem_validateBrokerTargets_refused.1, fun t => mem_validateBrokerTargets_refused.2⟩, ?_⟩
  · by_contra hsome
    rw [validateBrokerTargets_fst_of_not hsome] at hvalid
    have hnil : requested = [] := (List.dedup_eq_nil _).mp (sortStrings_eq_nil.mp hvalid.symm)
    exact hsome fun t ht => absurd (hnil ▸ ht) List.not_mem_nil
  · rw [validateBrokerTargets_eq_of_mapped hall]
  · rw [not_and_or]
    simp only [List.eq_nil_iff_forall_not_mem, mem_validateBrokerTargets_refused, not_exists]

/-- A request with a target that the map does not have and one that nothing held maps to. -/
theorem validateBrokerTargets_mixed :
    validateBrokerTargets ⟨[("call", ["read"])], by decide⟩ ["write", "read"] (ScopeSet.parse "") =
      ([], ["write"], ["read"]) := by
  decide +kernel

/-! ### The branches -/

/-- The branch that an exchange takes, with what authorises it and what bounds it there. -/
inductive Branch
  | consent (grant : ConsentGrant) (target : Resource)
  | selfExchange (target : Resource)
  | directBroker (attestation : ConsentGrant) (target : Resource)
  | frontedMint (m : ScopeMap) (target : Resource)
  | frontedBroker (m : ScopeMap)

namespace Branch

/-- The scopes that are derived for a request without any. -/
def defaults (claims : AccessTokenClaims) : Branch → List String
  | consent grant target =>
    directMintDefaultScopes (some grant) target (ScopeSet.parse claims.scope)
  | selfExchange target => directMintDefaultScopes none target (ScopeSet.parse claims.scope)
  | directBroker attestation target =>
    directBrokerDefaultScopes attestation target (ScopeSet.parse claims.scope)
  | frontedMint m _ => frontedMintTargetsFor m (ScopeSet.parse claims.scope)
  | frontedBroker m => frontedBrokerTargetsFor m (ScopeSet.parse claims.scope)

def Passes (env : Env) (claims : AccessTokenClaims) (scope : String) : Branch → Prop
  | consent grant target =>
      validateAgainstCatalog env scope target = .ok () ∧
        enforceSubjectScopeCeiling scope claims = .ok () ∧
        scopesNotConsented grant (Text.fields scope) = []
  | selfExchange target =>
      validateAgainstCatalog env scope target = .ok () ∧
        enforceSubjectScopeCeiling scope claims = .ok ()
  | directBroker attestation target =>
      validateAgainstCatalog env scope target = .ok () ∧
        enforceSubjectScopeCeiling scope claims = .ok () ∧
        scopesNotConsented attestation (Text.fields scope) = []
  | frontedMint m target =>
      validateAgainstCatalog env scope target = .ok () ∧
        (requiredSourceScopesForTargets m (Text.fields scope)).2 = [] ∧
        ∀ src ∈ (requiredSourceScopesForTargets m (Text.fields scope)).1, src ∈
          (ScopeSet.parse claims.scope).names
  | frontedBroker m =>
    (validateBrokerTargets m (Text.fields scope) (ScopeSet.parse claims.scope)).2 = ([], [])

/-- What the gates ask of each scope. -/
def Allows (claims : AccessTokenClaims) (s : String) : Branch → Prop
  | consent grant target | directBroker grant target =>
      s ∈ target.catalog ∧ (claims.scope = "" ∨ s ∈ Text.fields claims.scope) ∧ s ∈ grant.scopes
  | selfExchange target => s ∈ target.catalog ∧ (claims.scope = "" ∨ s ∈ Text.fields claims.scope)
  | frontedMint m target => s ∈ target.catalog ∧ Charged m (ScopeSet.parse claims.scope) s
  | frontedBroker m => Mapped m (ScopeSet.parse claims.scope).names s

/-- The gates look at one scope at a time. -/
theorem passes_iff {b : Branch} : b.Passes env claims scope ↔ ∀ s ∈ Text.fields scope,
    b.Allows claims s := by
  cases b with
  | consent grant target =>
    simp only [Passes, Allows, validateAgainstCatalog_iff, enforceSubjectScopeCeiling_iff,
      scopesNotConsented_eq_nil, ← forall_and]
  | selfExchange target =>
    simp only [Passes, Allows, validateAgainstCatalog_iff,
      enforceSubjectScopeCeiling_iff, ← forall_and]
  | directBroker attestation target =>
    simp only [Passes, Allows, validateAgainstCatalog_iff, enforceSubjectScopeCeiling_iff,
      scopesNotConsented_eq_nil, ← forall_and]
  | frontedMint m target =>
    rw [Passes, validateAgainstCatalog_iff, requiredSourceScopesForTargets_iff]
    simp only [Allows, ← forall_and]
  | frontedBroker m => exact validateBrokerTargets_iff

/-- The default is what could have been asked for: it passes as a whole, and it has the scopes that
would pass alone. -/
structure Exact (env : Env) (claims : AccessTokenClaims) (b : Branch) : Prop where
  sorted : (b.defaults claims).Pairwise (· ≤ ·)
  nodup : (b.defaults claims).Nodup
  passes : b.Passes env claims (Text.join (b.defaults claims))
  mem_iff : ∀ s, s ∈ b.defaults claims ↔ ∃ scope,
    Text.fields scope = [s] ∧ b.Passes env claims scope

theorem sorted_defaults (b : Branch) : (b.defaults claims).Pairwise (· ≤ ·) := by
  cases b <;> exact pairwise_sortStrings _

theorem nodup_defaults (b : Branch) : (b.defaults claims).Nodup := by
  cases b with
  | frontedMint m target => exact nodup_sortStrings ((List.nodup_dedup _).filter _)
  | _ => exact nodup_sortStrings (List.nodup_dedup _)

theorem exists_passes_iff {b : Branch} :
    (∃ scope, Text.fields scope = [s] ∧ b.Passes env claims scope) ↔ Text.Word s ∧
      b.Allows claims s := by
  simp only [passes_iff]
  constructor
  · rintro ⟨scope, hfields, hallows⟩
    have hmem : s ∈ Text.fields scope := hfields ▸ List.mem_singleton_self s
    exact ⟨Text.word_of_mem_fields hmem, hallows s hmem⟩
  · rintro ⟨hword, hallows⟩
    refine ⟨s, Text.fields_of_word hword, fun s' hs' => ?_⟩
    rw [Text.fields_of_word hword, List.mem_singleton] at hs'
    exact hs' ▸ hallows

theorem exact_iff {b : Branch} :
    b.Exact env claims ↔ ∀ s, s ∈ b.defaults claims ↔ Text.Word s ∧ b.Allows claims s := by
  constructor
  · intro h s
    rw [h.mem_iff, exists_passes_iff]
  · intro h
    refine ⟨b.sorted_defaults, b.nodup_defaults, ?_, fun s => (h s).trans exists_passes_iff.symm⟩
    rw [passes_iff, Text.fields_join_of_words fun s hs => ((h s).mp hs).1]
    exact fun s hs => ((h s).mp hs).2

/-! ### What is derived -/

theorem mem_frontedBrokerTargetsFor : s ∈ frontedBrokerTargetsFor m ss ↔ Mapped m ss.names s := by
  rw [frontedBrokerTargetsFor, mem_sortStrings, List.mem_dedup, List.mem_flatMap]
  constructor
  · rintro ⟨⟨src, ts⟩, hentry, hs⟩
    obtain ⟨hentry, hheld⟩ := List.mem_filter.mp hentry
    exact ⟨src, ts, hentry, hs, ScopeSet.contains_iff.mp hheld⟩
  · rintro ⟨src, ts, hentry, hs, hheld⟩
    exact ⟨(src, ts), List.mem_filter.mpr ⟨hentry, ScopeSet.contains_iff.mpr hheld⟩, hs⟩

/-- What a branch needs for its default to be exact. -/
def Plain (claims : AccessTokenClaims) : Branch → Prop
  | consent grant target | directBroker grant target =>
      Text.fields claims.scope ≠ [] ∨
        ∀ s ∈ grant.scopes, s ∈ target.catalog → Text.Word s ∧ claims.scope = ""
  | selfExchange target => claims.scope ≠ "" ∨ ∀ s ∈ target.catalog, ¬Text.Word s
  | frontedMint m target =>
    ∀ s, Charged m (ScopeSet.parse claims.scope) s → Text.Word s ∧ s ∈ target.catalog
  | frontedBroker m => ∀ s, Mapped m (ScopeSet.parse claims.scope).names s → Text.Word s

/-- Under a grant: the claim narrows the default only if it names a scope, and the request unless it
is empty. -/
theorem granted_exact_iff :
    (∀ s, s ∈ directBrokerDefaultScopes grant target (ScopeSet.parse claims.scope) ↔
      Text.Word s ∧ s ∈ target.catalog ∧
        (claims.scope = "" ∨ s ∈ Text.fields claims.scope) ∧ s ∈ grant.scopes) ↔
    (Text.fields claims.scope ≠ [] ∨ ∀ s ∈ grant.scopes, s ∈ target.catalog → Text.Word s ∧
      claims.scope = "") := by
  simp only [mem_directBrokerDefaultScopes]
  by_cases hnamed : Text.fields claims.scope = []
  · simp only [hnamed, and_true, List.not_mem_nil, or_false, ne_eq, not_true_eq_false, false_or]
    constructor
    · intro h s hgrant hcatalog
      obtain ⟨hword, -, hclaim, -⟩ := (h s).mp ⟨hgrant, hcatalog⟩
      exact ⟨hword, hclaim⟩
    · intro h s
      refine ⟨fun hs => ?_, fun hs => ⟨hs.2.2.2, hs.2.1⟩⟩
      exact ⟨(h s hs.1 hs.2).1, hs.2, (h s hs.1 hs.2).2, hs.1⟩
  · refine ⟨fun _ => .inl hnamed, fun _ s => ?_⟩
    have hclaim : claims.scope ≠ "" := fun hempty => hnamed (hempty ▸ Text.fields_empty)
    simp only [hnamed, hclaim, false_or]
    exact ⟨fun hs => ⟨Text.word_of_mem_fields hs.2.2, hs.2.1, hs.2.2, hs.1⟩, fun hs =>
      ⟨hs.2.2.2, hs.2.1, hs.2.2.1⟩⟩

/-- Without a grant: an empty claim leaves the request unbounded and the default empty. -/
theorem self_exact_iff :
    (∀ s, s ∈ directMintDefaultScopes none target (ScopeSet.parse claims.scope) ↔
      Text.Word s ∧ s ∈ target.catalog ∧ (claims.scope = "" ∨ s ∈ Text.fields claims.scope)) ↔
    (claims.scope ≠ "" ∨ ∀ s ∈ target.catalog, ¬Text.Word s) := by
  simp only [mem_directMintDefaultScopes_none, ScopeSet.mem_parse]
  by_cases hclaim : claims.scope = ""
  · simp only [hclaim, Text.fields_empty, List.not_mem_nil, and_false, true_or, and_true, false_iff,
      not_and', ne_eq, not_true_eq_false, false_or]
  · refine ⟨fun _ => .inl hclaim, fun _ s => ?_⟩
    simp only [hclaim, false_or]
    exact ⟨fun hs => ⟨Text.word_of_mem_fields hs.2, hs⟩, And.right⟩

/-- **Exactly when omitting the scope grants what could have been asked for**, branch by branch. -/
theorem default_exact_iff (env : Env) (claims : AccessTokenClaims) (b : Branch) :
    b.Exact env claims ↔ b.Plain claims := by
  rw [exact_iff]
  cases b with
  | consent grant target => exact granted_exact_iff
  | selfExchange target => exact self_exact_iff
  | directBroker attestation target => exact granted_exact_iff
  | frontedMint m target =>
    simp only [defaults, Allows, Plain, mem_frontedMintTargetsFor]
    exact ⟨fun h s hs => ((h s).mp hs).imp_right And.left,
      fun h s => ⟨fun hs => ⟨(h s hs).1, (h s hs).2, hs⟩, fun hs => hs.2.2⟩⟩
  | frontedBroker m =>
    simp only [defaults, Allows, Plain, mem_frontedBrokerTargetsFor]
    exact ⟨fun h s hs => ((h s).mp hs).1, fun h s => ⟨fun hs => ⟨h s hs, hs⟩, And.right⟩⟩

/-- Three defaults that are not what could have been asked for: of a self-exchange without a scope
claim, of an exchange under a grant with a claim of one blank, and of a fronted exchange for a scope
the target does not declare. -/
theorem default_not_exact :
    ¬(selfExchange docs).Exact Env.plain (agentToken "https://as" "") ∧
    ¬(consent ⟨"g", "user", "agent", "r3", ["docs:read"], none⟩ docs).Exact Env.plain
      (agentToken "https://as" " ") ∧
    ¬(frontedMint ⟨[("call", ["docs:write"])], by decide⟩ docs).Exact Env.plain
      (agentToken "https://gateway" "call") := by
  refine ⟨fun h => ?_, fun h => ?_, fun h => ?_⟩
  · rcases self_exact_iff.mp (exact_iff.mp h) with hclaim | hnone
    · exact hclaim rfl
    · exact hnone "docs:read" (by decide) (by decide)
  · rcases granted_exact_iff.mp (exact_iff.mp h) with hnamed | hall
    · exact hnamed (by decide +kernel)
    · exact absurd (hall "docs:read" (by decide) (by decide)).2 (by decide)
  · have hmem := (exact_iff.mp h "docs:write").mp (by decide +kernel)
    exact absurd hmem.2.1 (by decide)

end Branch

end TokenExchange

end AuthServer
