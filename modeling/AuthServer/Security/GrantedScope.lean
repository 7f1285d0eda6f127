import AuthServer.Service.MachineGrant

/-!
# The scope a grant decides on

Two grants decide on a scope without asking the user. A refresh is bounded by the family and by the
ceiling of the client, `client_credentials` by the ceiling and by the catalog of the resource that
the request names. Both answer a request that names scopes with these scopes or not at all, and a
request that names none with everything the bounds allow.

What they take for a request that names none differs. `clientCredentialsScope` looks at the parsed
set; `refreshScope` looks at the string, so that a string of blanks is a request for the empty set,
and the empty set is within every bound. `refreshScope_bounded_iff` says that this is the only way
in which it fails. -/

namespace AuthServer

/-- A client whose ceiling is `scope`. -/
def Sample.restricted (scope : String) : Client :=
  { id := "c", secretHash := "hash", redirectURIs := []
    grantTypes := ["client_credentials", "refresh_token"], status := .active, cimdURL := ""
    scope := scope, isAgent := false, registrationSource := .admin, name := ""
    responseTypes := [], tokenEndpointAuthMethod := "", agentDescription := ""
    applicationType := "", version := 0 }

/-! ### Refresh -/

namespace TokenService

variable {requested familyScope result : String} {c : Client}

/-- What a refreshed scope is to be: within the family's scopes and within the ceiling, if there is
one; the requested set, or else everything that the bounds allow; and not empty unless the family's
scope is. -/
structure Refreshed (requested familyScope : String) (c : Client) (result : String) : Prop where
  family : ∀ s ∈ Text.fields result, s ∈ Text.fields familyScope
  ceiling : Text.fields c.scope ≠ [] → ∀ s ∈ Text.fields result, s ∈ Text.fields c.scope
  asked : Text.fields requested ≠ [] → ∀ s, s ∈ Text.fields result ↔ s ∈ Text.fields requested
  unasked : Text.fields requested = [] → ∀ s, s ∈ Text.fields result ↔
    s ∈ Text.fields familyScope ∧ (Text.fields c.scope ≠ [] → s ∈ Text.fields c.scope)
  nonempty : Text.fields familyScope ≠ [] → Text.fields result ≠ []

/-- A scope parameter that is not empty is answered with its set, which both bounds contain. -/
theorem asked_of_refreshScope (h : refreshScope requested familyScope c = .ok result)
    (hne : requested ≠ "") :
    result = (ScopeSet.parse requested).toString ∧
      (∀ s ∈ Text.fields requested, s ∈ Text.fields familyScope) ∧
      (Text.fields c.scope ≠ [] → ∀ s ∈ Text.fields requested, s ∈ Text.fields c.scope) := by
  simp only [refreshScope, bne_iff_ne, ne_eq, hne, not_false_eq_true, if_true] at h
  split at h
  · cases h
  · rename_i hgranted
    split at h
    · cases h
    · rename_i hceiling
      refine ⟨(Except.ok.inj h).symm, by simpa using hgranted, fun hsome => ?_⟩
      have hsome : (ScopeSet.parse c.scope).isEmpty = false :=
        Bool.eq_false_iff.mpr fun hempty => hsome (ScopeSet.isEmpty_parse.mp hempty)
      rw [hsome] at hceiling
      simpa using hceiling

/-- Without a scope parameter the family's scope stands, cut to the ceiling if there is one, and
what is left of it is not empty unless it was. -/
theorem unasked_of_refreshScope (h : refreshScope "" familyScope c = .ok result) :
    (∀ s, s ∈ Text.fields result ↔
      s ∈ Text.fields familyScope ∧ (Text.fields c.scope ≠ [] → s ∈ Text.fields c.scope)) ∧
      (Text.fields familyScope ≠ [] → Text.fields result ≠ []) := by
  simp only [refreshScope, bne_self_eq_false, Bool.false_eq_true, if_false, Bool.or_eq_true] at h
  split at h
  · rename_i hall
    obtain rfl := Except.ok.inj h
    refine ⟨fun s => ⟨fun hs => ⟨hs, fun hsome => ?_⟩, And.left⟩, id⟩
    have hsub := hall.resolve_left fun hempty => hsome (ScopeSet.isEmpty_parse.mp hempty)
    exact ScopeSet.mem_parse.mp (ScopeSet.isSubset_iff.mp hsub s (ScopeSet.mem_parse.mpr hs))
  · rename_i hcut
    split at h
    · cases h
    · rename_i hleft
      obtain rfl := Except.ok.inj h
      have hsome : Text.fields c.scope ≠ [] :=
        fun hempty => hcut (.inl (ScopeSet.isEmpty_parse.mpr hempty))
      refine ⟨fun s => ?_, fun _ hnone => hleft ?_⟩
      · rw [ScopeSet.mem_fields_intersect_toString]
        exact and_congr_right fun _ => ⟨fun hs _ => hs, fun hs => hs hsome⟩
      · rw [ScopeSet.isEmpty_iff, List.eq_nil_iff_forall_not_mem]
        intro s hs
        have hs := ScopeSet.mem_intersect.mp hs
        have hmem : s ∈
          Text.fields ((ScopeSet.parse familyScope).intersect (ScopeSet.parse c.scope)).toString :=
          ScopeSet.mem_fields_intersect_toString.mpr
            ⟨ScopeSet.mem_parse.mp hs.1, ScopeSet.mem_parse.mp hs.2⟩
        rw [hnone] at hmem
        exact List.not_mem_nil hmem

/-- A scope parameter of blanks is answered with the empty set. -/
theorem refreshScope_of_blank (familyScope : String) (c : Client) (hne : requested ≠ "")
    (hblank : Text.fields requested = []) :
    ∃ result, refreshScope requested familyScope c = .ok result ∧ Text.fields result = [] := by
  have hnames : (ScopeSet.parse requested).names = [] := ScopeSet.parse_names_eq_nil.mpr hblank
  refine ⟨(ScopeSet.parse requested).toString, ?_, ?_⟩
  · simp [refreshScope, hne, ScopeSet.isSubset, hnames]
  · rw [List.eq_nil_iff_forall_not_mem]
    intro s hs
    rw [ScopeSet.mem_fields_parse_toString, hblank] at hs
    exact List.not_mem_nil hs

/-- **Exactly when a refreshed scope is bounded and not empty.** -/
theorem refreshScope_bounded_iff (requested familyScope : String) (c : Client) :
    (∀ result, refreshScope requested familyScope c = .ok result →
      Refreshed requested familyScope c result) ↔
      requested = "" ∨ Text.fields requested ≠ [] ∨ Text.fields familyScope = [] := by
  constructor
  · intro hall
    by_contra hnot
    obtain ⟨hne, hblank, hfamily⟩ := not_or.mp hnot |>.imp_right not_or.mp
    obtain ⟨result, hresult, hempty⟩ := refreshScope_of_blank familyScope c hne (not_not.mp hblank)
    exact (hall result hresult).nonempty hfamily hempty
  · intro hwhen result h
    by_cases hne : requested = ""
    · subst hne
      obtain ⟨hmem, hnonempty⟩ := unasked_of_refreshScope h
      exact ⟨fun s hs => ((hmem s).mp hs).1, fun hsome s hs => ((hmem s).mp hs).2 hsome,
        fun hnamed => absurd Text.fields_empty hnamed, fun _ => hmem, hnonempty⟩
    · obtain ⟨rfl, hfamily, hceiling⟩ := asked_of_refreshScope h hne
      have hmem : ∀ s, s ∈ Text.fields (ScopeSet.parse requested).toString ↔
        s ∈ Text.fields requested :=
        fun s => ScopeSet.mem_fields_parse_toString
      refine ⟨fun s hs => hfamily s ((hmem s).mp hs), fun hsome s hs =>
        hceiling hsome s ((hmem s).mp hs), fun _ => hmem, fun hblank s => ?_, fun hfam => ?_⟩
      -- a string of blanks is left with the family without a scope only
      · have hnone : Text.fields familyScope = [] :=
          (hwhen.resolve_left hne).resolve_left fun hnamed => hnamed hblank
        rw [hmem, hblank, hnone]
        exact ⟨fun hs => absurd hs List.not_mem_nil, And.left⟩
      · obtain ⟨s, hs⟩ := List.exists_mem_of_ne_nil _
          ((hwhen.resolve_left hne).resolve_right hfam)
        exact List.ne_nil_of_mem ((hmem s).mpr hs)

/-- A blank is answered with no scope, where the family and the ceiling both have one. -/
theorem refreshScope_blank :
    refreshScope " " "read" (Sample.restricted "read") = .ok "" ∧
      ¬Refreshed " " "read" (Sample.restricted "read") "" := by
  refine ⟨by decide +kernel, fun h => ?_⟩
  exact h.nonempty (by decide +kernel) Text.fields_empty

end TokenService

/-! ### Client credentials -/

namespace ClientCredentialsService

variable {c : Client} {requested : String} {catalog : Option ScopeSet} {scopes : ScopeSet}

theorem cases_of_clientCredentialsScope
    (h : clientCredentialsScope c requested catalog = .ok scopes) :
    (Text.fields requested ≠ [] ∧ scopes = ScopeSet.parse requested ∧
      (∀ s ∈ Text.fields requested, s ∈ Text.fields c.scope) ∧
      ∀ cat ∈ catalog, ∀ s ∈ Text.fields requested, s ∈ cat.names) ∨
    (Text.fields requested = [] ∧ catalog = none ∧ scopes = ScopeSet.parse c.scope) ∨
    (Text.fields requested = [] ∧ ∃ cat, catalog = some cat ∧
      scopes = (ScopeSet.parse c.scope).intersect cat ∧ scopes.names ≠ []) := by
  unfold clientCredentialsScope at h
  simp only at h
  split at h
  · rename_i hnamed
    have hnamed : Text.fields requested ≠ [] := by
      intro hblank
      rw [ScopeSet.isEmpty_parse.mpr hblank] at hnamed
      cases hnamed
    split at h
    · cases h
    · rename_i hceiling
      split at h
      · cases h
      · rename_i hcatalog
        refine .inl ⟨hnamed, (Except.ok.inj h).symm, by simpa using hceiling, fun cat hcat => ?_⟩
        obtain rfl := Option.mem_def.mp hcat
        simpa using hcatalog
  · rename_i hblank
    have hblank : Text.fields requested = [] := ScopeSet.isEmpty_parse.mp (by simpa using hblank)
    cases catalog with
    | none => exact .inr (.inl ⟨hblank, rfl, (Except.ok.inj h).symm⟩)
    | some cat =>
      simp only at h
      split at h
      · split at h <;> cases h
      · rename_i hleft
        obtain rfl := Except.ok.inj h
        exact .inr (.inr ⟨hblank, cat, rfl, rfl, fun hnone =>
          hleft (ScopeSet.isEmpty_iff.mpr hnone)⟩)

/-- The rule that a `client_credentials` scope follows. -/
structure Granted (c : Client) (requested : String) (catalog : Option ScopeSet)
    (scopes : ScopeSet) : Prop where
  ceiling : ∀ s ∈ scopes.names, s ∈ Text.fields c.scope
  declared : ∀ cat ∈ catalog, (∀ s ∈ scopes.names, s ∈ cat.names) ∧ scopes.names ≠ []
  asked : Text.fields requested ≠ [] → ∀ s, s ∈ scopes.names ↔ s ∈ Text.fields requested
  unasked : Text.fields requested = [] → ∀ s, s ∈ scopes.names ↔
    s ∈ Text.fields c.scope ∧ ∀ cat ∈ catalog, s ∈ cat.names

/-- **The scope of `client_credentials` follows the rule**, whatever is requested and whether or not
a resource is named. -/
theorem granted_of_clientCredentialsScope
    (h : clientCredentialsScope c requested catalog = .ok scopes) :
    Granted c requested catalog scopes := by
  obtain ⟨hnamed, rfl, hceiling, hcatalog⟩ | ⟨hblank, rfl, rfl⟩ | ⟨hblank, cat, rfl, rfl, hleft⟩ :=
    cases_of_clientCredentialsScope h
  · refine ⟨fun s hs => hceiling s (ScopeSet.mem_parse.mp hs), fun cat hcat => ⟨fun s hs => ?_, ?_⟩,
      fun _ _ => ScopeSet.mem_parse, fun hblank => absurd hblank hnamed⟩
    · exact hcatalog cat hcat s (ScopeSet.mem_parse.mp hs)
    · exact fun hnone => hnamed (ScopeSet.parse_names_eq_nil.mp hnone)
  · refine ⟨fun _ => ScopeSet.mem_parse.mp, fun cat hcat => absurd hcat (Option.not_mem_none _),
      fun hnamed => absurd hblank hnamed, fun _ s => ?_⟩
    rw [ScopeSet.mem_parse]
    exact ⟨fun hs => ⟨hs, fun cat hcat => absurd hcat (Option.not_mem_none _)⟩, And.left⟩
  · refine ⟨fun s hs => ScopeSet.mem_parse.mp (ScopeSet.mem_intersect.mp hs).1, fun cat' hcat => ?_,
      fun hnamed => absurd hblank hnamed, fun _ s => ?_⟩
    · obtain rfl := Option.some.inj hcat
      exact ⟨fun s hs => (ScopeSet.mem_intersect.mp hs).2, hleft⟩
    · rw [ScopeSet.mem_intersect, ScopeSet.mem_parse]
      exact and_congr_right fun _ =>
        ⟨fun hs cat' hcat => Option.some.inj hcat ▸ hs, fun hs => hs cat rfl⟩

/-- A blank request, cut to the catalog of the resource that is named. -/
theorem granted_of_clientCredentialsScope_blank :
    clientCredentialsScope (Sample.restricted "read write") " "
      (some (ScopeSet.parse "write admin")) =
        .ok (ScopeSet.parse "write") ∧
      Granted (Sample.restricted "read write") " " (some (ScopeSet.parse "write admin"))
        (ScopeSet.parse "write") :=
  ⟨by decide +kernel, granted_of_clientCredentialsScope (by decide +kernel)⟩

end ClientCredentialsService

end AuthServer
