import AuthServer.Domain.Validation

/-!
# Scopes and callers in a token exchange

The side-effect-free parts of `internal/services/token_exchange.go`: who may exchange for a
resource, which scopes an exchange that names none is given, and how a fronting link translates
scopes.

A scope map is read backwards through `sourcesOf`, the reverse index the source builds: the sources
of a target scope in sorted order. The Mint branch always charges the *first* of them, also when the
subject token holds another one.
-/

namespace AuthServer

namespace TokenExchange

/-! ### Callers -/

/-- `operatorAllowsClient`: an empty list allows every client. -/
def operatorAllowsClient (allowed : List String) (clientID : String) : Bool :=
  allowed.isEmpty || allowed.contains clientID

def frontedCallerAuthorized (source target : Resource) (clientID : String) : Bool :=
  target.policy.exchangeAllowedClientIDs.contains clientID ||
    source.policy.runtimeClientIDs.contains clientID

def errFrontedCallerNotAuthorized (env : Env) (source target : Resource)
    (clientID : String) : Err :=
  .wrapped .tokenExchangeNotAuthorized ("client " ++ env.quote clientID ++
    " may not exchange through fronting link " ++ source.slug ++
      "->" ++ target.slug ++ "; add it to " ++
    source.slug ++ "'s policy.runtime.client_ids (it is the gateway) or to " ++ target.slug ++
    "'s policy.exchange.allowed_client_ids")

def frontedInnerActor (subjectClientID sourceSlug callerClientID : String) : String :=
  if subjectClientID == "" || subjectClientID == sourceSlug then callerClientID else subjectClientID

/-! ### Direct exchange -/

def scopesNotConsented (grant : ConsentGrant) (requested : List String) : List String :=
  if grant.scopes.isEmpty then requested
  else requested.filter fun s => !grant.scopes.contains s

/-- `directBrokerDefaultScopes`: what the grant covers, the resource declares and, unless the
subject token is without scopes, the subject token carries. -/
def directBrokerDefaultScopes (attestation : ConsentGrant) (target : Resource)
    (subjectScopes : ScopeSet) : List String :=
  sortStrings (attestation.scopes.filter fun sc =>
    target.catalog.contains sc && (subjectScopes.isEmpty || subjectScopes.contains sc)).dedup

/-- `directMintDefaultScopes`: the same with a grant; without one, what the resource declares and
the subject token carries. -/
def directMintDefaultScopes (grant : Option ConsentGrant) (target : Resource)
    (subjectScopes : ScopeSet) : List String :=
  match grant with
  | some g => directBrokerDefaultScopes g target subjectScopes
  | none => sortStrings (target.catalog.filter subjectScopes.contains).dedup

def validateAgainstCatalog (env : Env) (scope : String) (target : Resource) : Except Err Unit :=
  match (Text.fields scope).find? fun sc => !target.catalog.contains sc with
  | none => .ok ()
  | some sc => .error (.wrapped .scopeNotInCatalog ("scope " ++ env.quote sc ++
      " not in catalog for resource " ++ env.quote target.slug))

/-- `enforceSubjectScopeCeiling`: the request stays within the subject token's scopes, unless the
token has an empty scope claim. -/
def enforceSubjectScopeCeiling (scope : String) (claims : AccessTokenClaims) : Except Err Unit :=
  if claims.scope == "" then .ok ()
  else if (ScopeSet.parse scope).isEmpty then .ok ()
  else if !(ScopeSet.parse scope).isSubset (ScopeSet.parse claims.scope) then
    .error (.sentinel .invalidScope)
  else .ok ()

/-- What authorizes a direct exchange, as the refusal names it. -/
inductive Authority
  | selfExchange
  | consentGrant
  deriving DecidableEq, Repr

/-- The branch label with its underscores replaced by blanks. -/
def Authority.label : Authority → String
  | selfExchange => "self exchange"
  | consentGrant => "consent grant"

/-- `applyDirectMintDefaultScopes`: the scope parameter of an exchange that names no scope. -/
def applyDirectMintDefaultScopes (env : Env) (grant : Option ConsentGrant)
    (claims : AccessTokenClaims) (target : Resource) (branch : Authority) : Except Err String :=
  let derived := directMintDefaultScopes grant target (ScopeSet.parse claims.scope)
  if derived.isEmpty then
    .error (.wrapped .invalidScope ("scope omitted and no scope of resource " ++
      env.quote target.slug ++
      " is covered by the subject token and the " ++ branch.label ++
        " that authorizes this exchange"))
  else .ok (Text.join derived)

/-! ### Fronted exchange -/

/-- The reverse index of a scope map at a target scope: its source scopes, sorted. -/
def sourcesOf (m : ScopeMap) (t : String) : List String :=
  sortStrings (m.entries.flatMap fun e => (e.2.filter (· == t)).map fun _ => e.1)

def targetsOf (m : ScopeMap) : List String :=
  (m.entries.flatMap Prod.snd).dedup

/-- `frontedMintTargetsFor`: the targets whose first source the subject token holds. -/
def frontedMintTargetsFor (m : ScopeMap) (subjectScopes : ScopeSet) : List String :=
  sortStrings ((targetsOf m).filter fun t => (sourcesOf m t).head?.any subjectScopes.contains)

/-- `frontedBrokerTargetsFor`: the targets of every source the subject token holds. -/
def frontedBrokerTargetsFor (m : ScopeMap) (subjectScopes : ScopeSet) : List String :=
  sortStrings ((m.entries.filter fun e => subjectScopes.contains e.1).flatMap Prod.snd).dedup

/-- `requiredSourceScopesForTargets`: the source scopes to charge and, if any, the targets that are
not mapped, in which case no sources are returned. -/
def requiredSourceScopesForTargets (m : ScopeMap) (targets : List String) :
    List String × List String :=
  let unmapped := targets.filter fun t => (sourcesOf m t).isEmpty
  if unmapped.isEmpty then
    (sortStrings (targets.filterMap fun t => (sourcesOf m t).head?).dedup, [])
  else ([], unmapped)

/-- `validateBrokerTargets`: the translated scopes, the unmapped ones, and the mapped ones without a
source the subject token holds. -/
def validateBrokerTargets (m : ScopeMap) (requested : List String) (subjectScopes : ScopeSet) :
    List String × List String × List String :=
  let unmapped := requested.filter fun t => (sourcesOf m t).isEmpty
  let uncovered := requested.filter fun t =>
    !(sourcesOf m t).isEmpty && !(sourcesOf m t).any subjectScopes.contains
  if unmapped.isEmpty && uncovered.isEmpty then (sortStrings requested.dedup, [], [])
  else ([], unmapped, uncovered)

/-! ### What the functions return -/

variable {grant : ConsentGrant}

theorem scopesNotConsented_eq_nil {requested : List String} :
    scopesNotConsented grant requested = [] ↔ ∀ s ∈ requested, s ∈ grant.scopes := by
  unfold scopesNotConsented
  split
  · rename_i h
    have hnil : grant.scopes = [] := by simpa using h
    simp [hnil, List.eq_nil_iff_forall_not_mem]
  · simp

variable {target : Resource} {ss : ScopeSet} {s : String}

theorem mem_directMintDefaultScopes_none :
    s ∈ directMintDefaultScopes none target ss ↔ s ∈ target.catalog ∧ s ∈ ss.names := by
  simp only [directMintDefaultScopes, mem_sortStrings, List.mem_dedup, List.mem_filter,
    ScopeSet.contains_iff]

variable {scope : String} {env : Env}

theorem mem_catalog_of_validateAgainstCatalog
    (h : validateAgainstCatalog env scope target = .ok ()) :
    ∀ s ∈ Text.fields scope, s ∈ target.catalog := by
  unfold validateAgainstCatalog at h
  split at h
  · rename_i hnone
    intro s hs
    simpa using List.find?_eq_none.mp hnone s hs
  · cases h

variable {claims : AccessTokenClaims}

theorem subset_of_enforceSubjectScopeCeiling (h : enforceSubjectScopeCeiling scope claims = .ok ())
    (hne : claims.scope ≠ "") : ∀ s ∈ Text.fields scope, s ∈ Text.fields claims.scope := by
  unfold enforceSubjectScopeCeiling at h
  simp only [beq_iff_eq, hne, if_false] at h
  split at h
  · rename_i hempty
    intro s hs
    rw [ScopeSet.isEmpty_iff] at hempty
    have : s ∈ (ScopeSet.parse scope).names := ScopeSet.mem_parse.mpr hs
    rw [hempty] at this
    cases this
  · split at h
    · cases h
    · rename_i hsub
      intro s hs
      simp only [Bool.not_eq_true', Bool.not_eq_false, ScopeSet.isSubset_iff, ScopeSet.mem_parse]
        at hsub
      exact hsub s hs

theorem mem_directBrokerDefaultScopes :
    s ∈ directBrokerDefaultScopes grant target (ScopeSet.parse claims.scope) ↔
      s ∈ grant.scopes ∧ s ∈ target.catalog ∧
        (Text.fields claims.scope = [] ∨ s ∈ Text.fields claims.scope) := by
  rw [directBrokerDefaultScopes, mem_sortStrings, List.mem_dedup, List.mem_filter]
  simp only [Bool.and_eq_true, Bool.or_eq_true, List.contains_iff_mem, ScopeSet.isEmpty_parse,
    ScopeSet.contains_iff, ScopeSet.mem_parse]

theorem applyDirectMintDefaultScopes_ok {grant : Option ConsentGrant} {branch : Authority}
    (h : applyDirectMintDefaultScopes env grant claims target branch = .ok scope) :
    directMintDefaultScopes grant target (ScopeSet.parse claims.scope) ≠ [] ∧
      scope = Text.join (directMintDefaultScopes grant target (ScopeSet.parse claims.scope)) := by
  unfold applyDirectMintDefaultScopes at h
  simp only at h
  split at h
  · cases h
  · rename_i hsome
    exact ⟨by simpa using hsome, (Except.ok.inj h).symm⟩

/-- The subject token's scopes reach a target scope: the link maps one of them to it. -/
def Mapped (m : ScopeMap) (subjectScopes : List String) (t : String) : Prop :=
  ∃ src ts, (src, ts) ∈ m.entries ∧ t ∈ ts ∧ src ∈ subjectScopes

variable {m : ScopeMap} {t src : String}

theorem mem_sourcesOf : src ∈ sourcesOf m t ↔ ∃ ts, (src, ts) ∈ m.entries ∧ t ∈ ts := by
  simp only [sourcesOf, mem_sortStrings, List.mem_flatMap, List.mem_map,
    List.mem_filter, beq_iff_eq]
  constructor
  · rintro ⟨⟨src', ts⟩, hmem, t', ⟨ht', rfl⟩, rfl⟩
    exact ⟨ts, hmem, ht'⟩
  · rintro ⟨ts, hmem, ht⟩
    exact ⟨(src, ts), hmem, t, ⟨ht, rfl⟩, rfl⟩

theorem mapped_of_head {ss : List String} (h : (sourcesOf m t).head? = some src)
    (hsrc : src ∈ ss) : Mapped m ss t := by
  obtain ⟨ts, hmem, ht⟩ := mem_sourcesOf.mp (List.mem_of_mem_head? h)
  exact ⟨src, ts, hmem, ht, hsrc⟩

/-- The source that the Mint gate charges for a target is held. -/
def Charged (m : ScopeMap) (ss : ScopeSet) (t : String) : Prop :=
  ∃ src, (sourcesOf m t).head? = some src ∧ src ∈ ss.names

theorem Charged.mapped (h : Charged m ss t) : Mapped m ss.names t := by
  obtain ⟨src, hhead, hheld⟩ := h
  exact mapped_of_head hhead hheld

theorem mem_frontedMintTargetsFor :
    s ∈ frontedMintTargetsFor m ss ↔ Charged m ss s := by
  rw [frontedMintTargetsFor, mem_sortStrings, List.mem_filter]
  have hhead : (sourcesOf m s).head?.any ss.contains = true ↔ Charged m ss s := by
    rw [Option.any_eq_true]
    exact exists_congr fun src => and_congr_right fun _ => ScopeSet.contains_iff
  rw [hhead, and_iff_right_iff_imp]
  intro h
  obtain ⟨src, ts, hentry, hs, -⟩ := h.mapped
  exact List.mem_dedup.mpr (List.mem_flatMap.mpr ⟨(src, ts), hentry, hs⟩)

/-- When every target is mapped and the subject token holds what is charged, each target is reached
from a scope of the subject token. -/
theorem mapped_of_requiredSourceScopes {targets sources : List String}
    (h : requiredSourceScopesForTargets m targets = (sources, []))
    (hheld : ∀ src ∈ sources, src ∈ ss.names) : ∀ t ∈ targets, Mapped m ss.names t := by
  intro t ht
  unfold requiredSourceScopesForTargets at h
  simp only at h
  split at h
  · rename_i hmapped
    obtain ⟨rfl, -⟩ := Prod.mk.inj h
    have hne : (sourcesOf m t).isEmpty = false := by
      have := List.filter_eq_nil_iff.mp (List.isEmpty_iff.mp hmapped) t ht
      simpa using this
    cases hhead : (sourcesOf m t).head? with
    | none =>
      rw [List.head?_eq_none_iff] at hhead
      simp [hhead] at hne
    | some src =>
      refine mapped_of_head hhead (hheld src ?_)
      rw [mem_sortStrings, List.mem_dedup, List.mem_filterMap]
      exact ⟨t, ht, hhead⟩
  · rename_i hsome
    obtain ⟨-, hnil⟩ := Prod.mk.inj h
    simp [hnil] at hsome

end TokenExchange

end AuthServer
