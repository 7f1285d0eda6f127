import AuthServer.Service.Uses

/-!
# Links and catalogs

Two services edit two tables that refer to each other: resources with their scope catalogs, and
fronting links, whose scope maps name scopes of both resources of the link. Each service checks its
edits against the other's table, and the store refuses rows that refer to nothing.

`Consistent` is what they keep between them, whatever is called in whichever order and whichever
store calls fail, as long as one call runs at a time. -/

namespace AuthServer

open Interleave

open Table

/-! ### The invariant -/

structure JoinedBy (w : World) (l : FrontingLink) (source target : Resource) : Prop where
  source_mem : source ∈ w.resources
  target_mem : target ∈ w.resources
  source_slug : source.slug = l.sourceSlug
  target_slug : target.slug = l.targetSlug
  different : source.slug ≠ target.slug
  mint : source.isMint = true
  keys : ∀ entry ∈ l.scopeMap.entries, entry.1 ∈ source.catalog
  values : ∀ entry ∈ l.scopeMap.entries, ∀ scope ∈ entry.2, scope ∈ target.catalog

/-- Every link joins two resources, which are known by their ids and by their slugs. -/
structure Consistent (w : World) : Prop where
  ids : UniqueKey (fun r : Resource => some r.id) w.resources
  slugs : UniqueKey (fun r : Resource => some r.slug) w.resources
  links : ∀ l ∈ w.frontingLinks, ∃ source target, JoinedBy w l source target

variable {w w' : World} {l link : FrontingLink}

variable {source target : Resource}

theorem JoinedBy.of_subset (h : JoinedBy w l source target)
    (hsub : ∀ r ∈ w.resources, r = source ∨ r = target → r ∈ w'.resources) :
      JoinedBy w' l source target :=
  { h with
    source_mem := hsub _ h.source_mem (.inl rfl)
    target_mem := hsub _ h.target_mem (.inr rfl) }

theorem Consistent.of_links_subset (h : Consistent w) (hr : w'.resources = w.resources)
    (hl : ∀ l ∈ w'.frontingLinks, l ∈ w.frontingLinks) : Consistent w' where
  ids := hr ▸ h.ids
  slugs := hr ▸ h.slugs
  links l hmem := by
    obtain ⟨source, target, hj⟩ := h.links l (hl l hmem)
    exact ⟨source, target, hj.of_subset fun r hr' _ => hr ▸ hr'⟩

theorem Consistent.of_tables (h : Consistent w) (hr : w'.resources = w.resources)
    (hl : w'.frontingLinks = w.frontingLinks) : Consistent w' :=
  h.of_links_subset hr fun _ hmem => hl ▸ hmem

/-! ### What the stores do -/

theorem consistent_createLink (h : Consistent w) (hlink : JoinedBy w link source target) :
    Consistent (FrontingLinkStore.create link w).2 := by
  unfold FrontingLinkStore.create
  split
  · exact h
  · split
    · refine ⟨h.ids, h.slugs, fun l hmem => ?_⟩
      rcases List.mem_append.mp hmem with hold | hnew
      · obtain ⟨s, t, hj⟩ := h.links l hold
        exact ⟨s, t, { hj with }⟩
      · obtain rfl := List.mem_singleton.mp hnew
        exact ⟨source, target, { hlink with }⟩
    · exact h

theorem consistent_updateLink (h : Consistent w) (hlink : JoinedBy w link source target) :
    Consistent (FrontingLinkStore.update link w).2 := by
  unfold FrontingLinkStore.update
  split
  · refine ⟨h.ids, h.slugs, fun l hmem => ?_⟩
    obtain ⟨old, hold, rfl⟩ := mem_updateWhere.mp hmem
    split
    · next hjoins =>
      -- the row between the two slugs has the new scope map, which fits the two resources
      simp only [FrontingLinkStore.joins, Bool.and_eq_true, beq_iff_eq] at hjoins
      exact ⟨source, target, { hlink with
        source_slug := hlink.source_slug.trans hjoins.1.symm
        target_slug := hlink.target_slug.trans hjoins.2.symm }⟩
    · obtain ⟨s, t, hj⟩ := h.links old hold
      exact ⟨s, t, { hj with }⟩
  · exact h

theorem consistent_deleteLink (h : Consistent w) (sourceSlug targetSlug : String) :
    Consistent (FrontingLinkStore.delete sourceSlug targetSlug w).2 := by
  unfold FrontingLinkStore.delete
  split
  · exact h.of_links_subset rfl fun l hmem => List.mem_of_mem_filter hmem
  · exact h

theorem consistent_cascade (h : Consistent w) (slug : String) :
    Consistent (ResourceAdminService.cascadeDeleteForResource slug w).2 := by
  unfold ResourceAdminService.cascadeDeleteForResource
  dsimp only
  split
  · exact h
  · exact h.of_links_subset rfl fun l hmem => List.mem_of_mem_filter hmem

theorem consistent_createResource (h : Consistent w) (r : Resource) :
    Consistent (ResourceStore.create r w).2 := by
  unfold ResourceStore.create
  split
  · exact h
  · next hfree =>
    simp only [List.any_eq_true, Bool.or_eq_true, beq_iff_eq, not_exists, not_and, not_or] at hfree
    refine ⟨h.ids.append_singleton ?_, h.slugs.append_singleton ?_, fun l hmem => ?_⟩
    · intro k hk r' hr' hk'
      exact (hfree r' hr').1 (Option.some.inj (hk'.trans hk.symm))
    · intro k hk r' hr' hk'
      exact (hfree r' hr').2 (Option.some.inj (hk'.trans hk.symm))
    · obtain ⟨s, t, hj⟩ := h.links l hmem
      exact ⟨s, t, hj.of_subset fun r' hr' _ => List.mem_append_left _ hr'⟩

theorem consistent_deleteResource (h : Consistent w) (id : String) :
    Consistent (ResourceStore.delete id w).2 := by
  unfold ResourceStore.delete
  split
  · split
    · exact h
    · next hfree =>
      refine ⟨h.ids.filter _, h.slugs.filter _, fun l hmem => ?_⟩
      obtain ⟨s, t, hj⟩ := h.links l hmem
      refine ⟨s, t, hj.of_subset fun r hr hend => List.mem_filter.mpr ⟨hr, ?_⟩⟩
      by_contra hid
      apply hfree
      refine List.any_eq_true.mpr ⟨r, hr, ?_⟩
      have hrefers :
        w.frontingLinks.any (fun l => l.sourceSlug == r.slug || l.targetSlug == r.slug) =
          true := by
        refine List.any_eq_true.mpr ⟨l, hmem, ?_⟩
        rcases hend with rfl | rfl
        · simp [hj.source_slug]
        · simp [hj.target_slug]
      simpa [ResourceStore.referenced, hrefers] using hid
  · exact h

/-! ### What a patch may change -/

/-- What the links of a row need of the row that takes its place: the same slug and kind, and the
scopes they refer to. -/
structure Serves (links : List FrontingLink) (prev next : Resource) : Prop where
  slug : next.slug = prev.slug
  kind : next.backendKind = prev.backendKind
  scopes : ∀ l ∈ links, ∀ e ∈ ResourceAdminService.referencedScopes prev.slug l,
    e.1 ∈ prev.catalog → e.1 ∈ next.catalog

/-- The row may be rewritten in this way: it has no links, or they can live with it. -/
def KeepsLinks (w : World) (prev next : Resource) : Prop :=
  FrontingLinkStore.listForResource prev.slug w = [] ∨
    Serves (FrontingLinkStore.listForResource prev.slug w) prev next

variable {prev next r : Resource}

theorem serves_of_keepsLinks (h : Consistent w) (hprev : prev ∈ w.resources)
    (hid : next.id = prev.id) (hkeeps : KeepsLinks w prev next) (hl : l ∈ w.frontingLinks)
    (hr : r ∈ w.resources) (hend : r.slug = l.sourceSlug ∨ r.slug = l.targetSlug) :
    Serves [l] r (if r.id == next.id then next else r) := by
  by_cases hrow : r.id = next.id
  · obtain rfl : r = prev :=
      h.ids r hr prev hprev prev.id (congrArg some (hrow.trans hid)) rfl
    have hmem : l ∈ FrontingLinkStore.listForResource r.slug w := by
      refine List.mem_filter.mpr ⟨hl, ?_⟩
      rcases hend with hend | hend <;> simp [hend]
    have hserves := hkeeps.resolve_left (List.ne_nil_of_mem hmem)
    rw [if_pos (by simp [hrow])]
    exact ⟨hserves.slug, hserves.kind,
      fun l' hl' => hserves.scopes l' (List.mem_singleton.mp hl' ▸ hmem)⟩
  · rw [if_neg (by simp [hrow])]
    exact ⟨rfl, rfl, fun _ _ _ _ he => he⟩

variable {slug : String} {entry : String × List String}

theorem key_mem_referencedScopes (h : l.sourceSlug = slug) (hentry : entry ∈ l.scopeMap.entries) :
    (entry.1, l) ∈ ResourceAdminService.referencedScopes slug l := by
  refine List.mem_map.mpr ⟨entry.1, List.mem_append_left _ ?_, rfl⟩
  rw [if_pos (by simp [h])]
  exact List.mem_map_of_mem hentry

theorem value_mem_referencedScopes (h : l.targetSlug = slug) (hentry : entry ∈ l.scopeMap.entries)
    {scope : String} (hscope : scope ∈ entry.2) :
      (scope, l) ∈ ResourceAdminService.referencedScopes slug l := by
  refine List.mem_map.mpr ⟨scope, List.mem_append_right _ ?_, rfl⟩
  rw [if_pos (by simp [h])]
  exact List.mem_flatMap.mpr ⟨entry, hentry, hscope⟩

theorem consistent_updateResource (h : Consistent w) (hprev : prev ∈ w.resources)
    (hid : next.id = prev.id) (hkeeps : KeepsLinks w prev next) :
      Consistent (ResourceStore.update next w).2 := by
  unfold ResourceStore.update
  split
  · split
    · exact h
    · next hfree =>
      simp only [List.any_eq_true, Bool.and_eq_true, beq_iff_eq, bne_iff_ne, ne_eq, not_exists,
        not_and, not_not] at hfree
      refine ⟨?_, ?_, fun l hmem => ?_⟩
      · intro a ha b hb k hk hk'
        obtain ⟨r, hr, rfl⟩ := mem_updateWhere.mp ha
        obtain ⟨r', hr', rfl⟩ := mem_updateWhere.mp hb
        have hkey : ∀ x : Resource, (if x.id == next.id then next else x).id = x.id := by
          intro x
          split
          · next hx => exact (beq_iff_eq.mp hx).symm
          · rfl
        simp only [hkey] at hk hk'
        rw [h.ids r hr r' hr' k hk hk']
      · intro a ha b hb k hk hk'
        obtain ⟨r, hr, rfl⟩ := mem_updateWhere.mp ha
        obtain ⟨r', hr', rfl⟩ := mem_updateWhere.mp hb
        have hslug : (if r.id == next.id then next else r).slug =
            (if r'.id == next.id then next else r').slug := Option.some.inj (hk.trans hk'.symm)
        by_cases hx : r.id = next.id <;> by_cases hx' : r'.id = next.id
        · simp [hx, hx']
        · simp only [hx, hx', beq_self_eq_true, if_true, beq_iff_eq, if_false] at hslug
          exact absurd (hfree r' hr' hslug.symm) hx'
        · simp only [hx, hx', beq_self_eq_true, if_true, beq_iff_eq, if_false] at hslug
          exact absurd (hfree r hr hslug) hx
        · simp only [hx, hx', beq_iff_eq, if_false] at hslug ⊢
          exact h.slugs r hr r' hr' r.slug rfl (congrArg some hslug.symm)
      · obtain ⟨source, target, hj⟩ := h.links l hmem
        have hs := serves_of_keepsLinks h hprev hid hkeeps hmem hj.source_mem (.inl hj.source_slug)
        have ht := serves_of_keepsLinks h hprev hid hkeeps hmem hj.target_mem (.inr hj.target_slug)
        refine ⟨_, _, mem_updateWhere.mpr ⟨source, hj.source_mem, rfl⟩,
          mem_updateWhere.mpr ⟨target, hj.target_mem, rfl⟩, hs.slug.trans hj.source_slug,
          ht.slug.trans hj.target_slug, ?_, ?_, fun entry hentry => ?_,
          fun entry hentry scope hscope => ?_⟩
        · rw [hs.slug, ht.slug]
          exact hj.different
        · have hmint := hj.mint
          rwa [Resource.isMint, hs.kind]
        · exact hs.scopes l (by simp) _ (key_mem_referencedScopes hj.source_slug.symm hentry)
            (hj.keys entry hentry)
        · exact ht.scopes l (by simp) _
            (value_mem_referencedScopes hj.target_slug.symm hentry hscope)
            (hj.values entry hentry scope hscope)
  · exact h

/-! ### One call at a time -/

/-- The contract of a call that runs alone and keeps the invariant. -/
def alone : Contract ReqID World :=
  { solo 0 True with inv := Consistent }

theorem World.Quiet.resources_eq (h : w.Quiet w') : w'.resources = w.resources := by
  obtain ⟨_, _, _, -, rfl⟩ := h
  rfl

theorem World.Quiet.frontingLinks_eq (h : w.Quiet w') : w'.frontingLinks = w.frontingLinks := by
  obtain ⟨_, _, _, -, rfl⟩ := h
  rfl

theorem tolerant_alone : Tolerant alone 0 :=
  fun _ _ hu h => ⟨hu.of_tables h.resources_eq h.frontingLinks_eq, fun _ => h, fun _ => h⟩

variable {α : Type} {s : World} {env : Env}

/-- What was read of the two tables is true of them for the rest of the call. -/
theorem Between.of_alone {t : World} {P : World → Prop} (h : Between alone 0 s t P) :
    ∃ u, u.resources = t.resources ∧ u.frontingLinks = t.frontingLinks ∧ P u := by
  obtain ⟨u, -, -, hut, hP⟩ := h
  exact ⟨u, (hut rfl).resources_eq.symm, (hut rfl).frontingLinks_eq.symm, hP⟩

/-- A write that keeps the invariant. -/
theorem ensures_store_alone {f : Call α} (h : Consistent (f s).2) :
    Ensures alone 0 (fun _ _ => True) (store f) s :=
  Ensures.exec (fun _ => ⟨h, fun hne => absurd rfl hne⟩) fun _ _ _ _ _ _ => trivial

theorem mem_of_getBySlug (h : ResourceStore.getBySlug slug w = .ok r) : r ∈ w.resources ∧
    r.slug = slug := by
  simpa using mem_of_lookup h

variable {id : String}

theorem mem_of_getByID (h : ResourceStore.getByID id w = .ok r) : r ∈ w.resources ∧ r.id = id := by
  simpa using mem_of_lookup h

namespace FrontingService

theorem ensures_lookupResource {C : Contract ReqID World} {i : ReqID} (hC : Tolerant C i)
    {paramName : String} {g : Resource → Svc α} {Q : α → World → Prop} (hs : C.inv s)
    (h : ∀ r t, C.rely i s t → C.inv t →
      Between C i s t (fun u => ResourceStore.getBySlug slug u = .ok r) → Ensures C i Q (g r) t) :
    Ensures C i Q (lookupResource env slug paramName >>= g) s := by
  rw [lookupResource, Prog.bind_assoc]
  exact hC.readOr hs h

theorem joinedBy_of_checkEnds (hsource : source ∈ w.resources) (htarget : target ∈ w.resources)
    (hs : source.slug = link.sourceSlug) (ht : target.slug = link.targetSlug)
    (hne : link.sourceSlug ≠ link.targetSlug) (h : checkEnds env link source target = .ok ()) :
      JoinedBy w link source target := by
  cases hmint : source.isMint with
  | false =>
    simp [checkEnds, hmint, throw, throwThe, MonadExceptOf.throw, bind, Except.bind] at h
  | true =>
    have hmap : assertScopeMapMembership env link.scopeMap source target = .ok () := by
      cases hmap : assertScopeMapMembership env link.scopeMap source target with
      | ok u => rfl
      | error e => simp [checkEnds, hmint, hmap, bind, Except.bind] at h
    exact ⟨hsource, htarget, hs, ht, by rwa [hs, ht], hmint,
      fun _ => key_mem_of_assertScopeMapMembership hmap,
      fun _ hentry _ => mem_catalog_of_assertScopeMapMembership hmap hentry⟩

theorem ensures_validateForPatch (hs : Consistent s) :
    Ensures alone 0 (fun _ t => Consistent t ∧ ∃ source target, JoinedBy t link source target)
      (validateForPatch env link) s := by
  refine .bindOfExcept fun _ hvalid => ?_
  refine ensures_lookupResource tolerant_alone hs fun source t hst ht hsource => ?_
  refine ensures_lookupResource tolerant_alone ht fun target u htu hu htarget => ?_
  refine .ofExcept fun _ hends => ⟨hu, source, target, ?_⟩
  obtain ⟨v, hv, -, hget⟩ := (hsource.trans htu).of_alone
  obtain ⟨v', hv', -, hget'⟩ := htarget.of_alone
  obtain ⟨hmem, hslug⟩ := mem_of_getBySlug hget
  obtain ⟨hmem', hslug'⟩ := mem_of_getBySlug hget'
  exact joinedBy_of_checkEnds (hv ▸ hmem) (hv' ▸ hmem') hslug hslug'
    (FrontingLink.ne_of_validate hvalid) hends

theorem ensures_create (nodes : ℕ) (link : Option FrontingLink) (hs : Consistent s) :
    Ensures alone 0 (fun _ _ => True) (create env nodes link) s := by
  cases link with
  | none => trivial
  | some link =>
    rw [create, validate, Prog.bind_assoc]
    refine .seq (ensures_validateForPatch hs) fun _ t h => ?_
    obtain ⟨ht, source, target, hj⟩ := h
    refine tolerant_alone.pass ((each_assertNoLink _ _).bind fun _ => each_walk _ _ _ _) ht
      fun _ u htu hu => ensures_store_alone (consistent_createLink hu (hj.of_subset ?_))
    exact fun r hr _ => (htu rfl).resources_eq ▸ hr

theorem ensures_patch (sourceSlug targetSlug : String) (scopeMap : Option ScopeMap)
    (hs : Consistent s) :
    Ensures alone 0 (fun _ _ => True) (patch env sourceSlug targetSlug scopeMap) s := by
  refine tolerant_alone.pass each_fetch hs fun existing t _ ht => ?_
  cases scopeMap with
  | none => trivial
  | some m =>
    refine .seq (ensures_validateForPatch ht) fun _ u h => ?_
    obtain ⟨hu, source, target, hj⟩ := h
    exact .seq (ensures_store_alone (consistent_updateLink hu hj)) fun _ _ _ => trivial

theorem ensures_delete (sourceSlug targetSlug : String) (hs : Consistent s) :
    Ensures alone 0 (fun _ _ => True) (delete sourceSlug targetSlug) s :=
  ensures_store_alone (consistent_deleteLink hs sourceSlug targetSlug)

end FrontingService

namespace ResourceAdminService

theorem each_validatePolicyClients (p : Policy) : (validatePolicyClients env p).Each World.Quiet :=
  (each_validateClientIDList _ _).bind fun _ => each_validateClientIDList _ _

theorem each_assertSlugAvailable (slug excludeID : String) :
    (assertSlugAvailable env slug excludeID).Each World.Quiet :=
  each_fetch.attempt.bind fun _ => Prog.each_ofExcept _

theorem ensures_create (ctx : ReqID) (r : Resource) (hs : Consistent s) :
    Ensures alone 0 (fun _ _ => True) (create env ctx r) s := by
  refine .bindFailIf fun _ => .bindOfExcept fun slug _ =>
    Ensures.bindOfExcept fun _ _ => ?_
  refine tolerant_alone.pass (each_validateBrokerProviderRef _) hs fun _ t _ ht => ?_
  refine tolerant_alone.pass (each_validatePolicyClients _) ht fun _ u _ hu => ?_
  refine tolerant_alone.pass (each_assertSlugAvailable _ _) hu fun _ v _ hv => ?_
  refine tolerant_alone.pass (each_generateRandomString _ _) hv fun id x _ hx => ?_
  exact .seq (ensures_store_alone (consistent_createResource hx _)) fun _ _ _ => trivial

theorem ensures_deleteWithCascade (id : String) (cascade : Bool) (hs : Consistent s) :
    Ensures alone 0 (fun _ _ => True) (deleteWithCascade id cascade) s := by
  refine .bindFailIf fun _ => ?_
  refine tolerant_alone.pass each_fetch hs fun r t _ ht => ?_
  refine tolerant_alone.pass (each_wrapErr each_fetch) ht fun dependents u _ hu => ?_
  refine .bindFailIf fun _ => ?_
  have hdelete : ∀ v, Consistent v → Consistent
      (doDelete id r.slug (cascade && !dependents.isEmpty) v).2 := by
    intro v hv
    unfold doDelete
    split
    · exact Call.andThen_keeps hv (fun _ hw => consistent_cascade hw r.slug)
        fun _ _ hw => consistent_deleteResource hw id
    · exact consistent_deleteResource hv id
  refine .seq (ensures_store_alone ?_) fun _ _ _ => trivial
  rcases Call.atomically_cases (doDelete id r.slug (cascade && !dependents.isEmpty)) u with
    ⟨_, v, hbody, hrun⟩ | ⟨e, hrun⟩
  · rw [hrun]
    have hv := hdelete u hu
    rwa [hbody] at hv
  · rw [hrun]
    exact hu

/-! ### Patching a resource -/

theorem of_apply {p : ResourcePatch} {row : Resource} (h : p.apply row = .ok r) :
    r.id = row.id ∧ (p.slug = none → r.slug = row.slug) := by
  unfold ResourcePatch.apply at h
  cases hslug : p.slug with
  | none =>
    simp only [hslug, bind, Except.bind] at h
    obtain rfl := Except.ok.inj h
    exact ⟨rfl, fun _ => rfl⟩
  | some slug =>
    cases hnorm : normalizeSlug slug with
    | error e => simp [hslug, hnorm, bind, Except.bind] at h
    | ok canonical =>
      simp only [hslug, hnorm, bind, Except.bind] at h
      obtain rfl := Except.ok.inj h
      exact ⟨rfl, fun hnone => by cases hnone⟩

theorem getByID_congr (h : w'.resources = w.resources) : ResourceStore.getByID id w' =
    ResourceStore.getByID id w := by
  rw [ResourceStore.getByID, ResourceStore.getByID, h]

theorem listForResource_congr (h : w'.frontingLinks = w.frontingLinks) :
    FrontingLinkStore.listForResource slug w' = FrontingLinkStore.listForResource slug w := by
  rw [FrontingLinkStore.listForResource, FrontingLinkStore.listForResource, h]

theorem serves_of_validateResourceUpdate {links : List FrontingLink}
    (h : validateResourceUpdate env links prev next = .ok ()) (hslug : next.slug = prev.slug) :
    links = [] ∨ Serves links prev next := by
  unfold validateResourceUpdate at h
  split at h
  · next hempty => exact .inl (by simpa using hempty)
  · split at h
    · cases h
    · next hkind =>
      split at h
      · cases h
      · next hfind =>
        have hsame : prev.backendKind = next.backendKind := by simpa using hkind
        refine .inr ⟨hslug, hsame.symm, fun l hl e he hprev => ?_⟩
        have hkept := List.find?_eq_none.mp hfind e (List.mem_flatMap.mpr ⟨l, hl, he⟩)
        simp only [List.contains_eq_mem, Bool.and_eq_true, decide_eq_true_eq, Bool.not_eq_true',
          decide_eq_false_iff_not, not_and, not_not] at hkept
        exact hkept hprev

theorem serves_strip {links : List FrontingLink} (h : Serves links prev next) :
    Serves links prev (stripMintConnectPolicy next) := by
  unfold stripMintConnectPolicy
  split
  · exact ⟨h.slug, h.kind, h.scopes⟩
  · exact h

theorem ensures_checkRename (hs : Consistent s) :
    Ensures alone 0 (fun _ t => Consistent t ∧ s.Quiet t ∧
      FrontingLinkStore.listForResource prev.slug t = []) (checkRename env prev next) s := by
  refine tolerant_alone.readWrapped hs fun deps t hst ht hread => ?_
  obtain ⟨u, -, hlinks, hdeps⟩ := hread.of_alone
  refine .failIf fun hempty => ⟨ht, hst rfl, ?_⟩
  rw [← listForResource_congr hlinks, Except.ok.inj hdeps]
  simpa using hempty

theorem ensures_checkFronting {p : ResourcePatch} {row : Resource} (hs : Consistent s)
    (hrow : ResourceStore.getByID id s = .ok row) (happly : p.apply row = .ok r) :
    Ensures alone 0 (fun _ t => Consistent t ∧ row ∈ t.resources ∧ KeepsLinks t row r)
      (checkFronting env p id r) s := by
  refine tolerant_alone.read hs fun prev t hst ht hread => ?_
  obtain ⟨u, hres, -, hprev⟩ := hread.of_alone
  -- the row is read a second time, and is still the same
  have hsame : ResourceStore.getByID id t = .ok row := by
    rw [getByID_congr (hst rfl).resources_eq, hrow]
  obtain rfl : prev = row := by
    rw [getByID_congr hres] at hprev
    exact Except.ok.inj (hprev.symm.trans hsame)
  have hmem := (mem_of_getByID hsame).1
  have hrename : Ensures alone 0 (fun _ v => Consistent v ∧ t.Quiet v ∧
      (r.slug = prev.slug ∨ FrontingLinkStore.listForResource prev.slug v = []))
      (runIf (p.slug.isSome && prev.slug != r.slug) (checkRename env prev r)) t := by
    refine ensures_runIf (fun _ => (ensures_checkRename ht).mono fun _ v hv => ?_) fun hskip => ?_
    · exact ⟨hv.1, hv.2.1, .inr hv.2.2⟩
    · refine ⟨ht, .refl t, .inl ?_⟩
      cases hslug : p.slug with
      | none => exact (of_apply happly).2 hslug
      | some slug =>
        have hsame : prev.slug = r.slug := by simpa [hslug] using hskip
        exact hsame.symm
  refine .seq hrename fun _ v hv => ?_
  obtain ⟨hv, htv, hslug⟩ := hv
  refine tolerant_alone.readWrapped hv fun links x hvx hx hlist => ?_
  obtain ⟨y, -, hlinks, hread⟩ := hlist.of_alone
  have hxlinks : FrontingLinkStore.listForResource prev.slug x = links := by
    rw [← listForResource_congr hlinks]
    exact Except.ok.inj hread
  have hres : x.resources = t.resources := (hvx rfl).resources_eq.trans htv.resources_eq
  refine .ofExcept fun _ hvalid => ⟨hx, hres ▸ hmem, ?_⟩
  rcases hslug with hslug | hnone
  · unfold KeepsLinks
    rw [hxlinks]
    exact serves_of_validateResourceUpdate hvalid hslug
  · exact .inl (by rw [listForResource_congr (hvx rfl).frontingLinks_eq, hnone])

theorem ensures_patch (id : String) (p : ResourcePatch) (hs : Consistent s) :
    Ensures alone 0 (fun _ _ => True) (patch env id p) s := by
  refine .bindFailIf fun _ => ?_
  refine tolerant_alone.read hs fun row t _ ht hread => ?_
  obtain ⟨u, hres, -, hrow⟩ := hread.of_alone
  rw [getByID_congr hres] at hrow
  refine .bindOfExcept fun r happly => ?_
  split
  · trivial
  refine .bindOfExcept fun _ _ => ?_
  -- three checks that read other tables
  refine tolerant_alone.pass
    (each_runIf (each_validateBrokerProviderRef _)) ht fun _ t₁ h₁ ht₁ => ?_
  refine tolerant_alone.pass (each_runIf (each_validatePolicyClients _)) ht₁ fun _ t₂ h₂ ht₂ => ?_
  refine tolerant_alone.pass (each_runIf (each_assertSlugAvailable _ _)) ht₂ fun _ t₃ h₃ ht₃ => ?_
  have hquiet : t.Quiet t₃ := ((h₁ rfl).trans (h₂ rfl)).trans (h₃ rfl)
  have hrow₃ : ResourceStore.getByID id t₃ = .ok row := by
    rw [getByID_congr hquiet.resources_eq, hrow]
  refine .seq (ensures_checkFronting ht₃ hrow₃ happly) fun _ v hv => ?_
  obtain ⟨hv, hmem, hkeeps⟩ := hv
  have hid : (stripMintConnectPolicy r).id = row.id := by
    unfold stripMintConnectPolicy
    split <;> exact (of_apply happly).1
  have hstrip : KeepsLinks v row (stripMintConnectPolicy r) := hkeeps.imp_right serves_strip
  exact .bind ((ensures_store_alone (consistent_updateResource hv hmem hid hstrip)).mono
    fun _ _ _ => trivial)

end ResourceAdminService

/-! ### Sequences of calls -/

/-- A call of one of the two services that edits a table. -/
inductive CatalogCall
  | createResource (ctx : ReqID) (r : Resource)
  | patchResource (id : String) (patch : ResourceAdminService.ResourcePatch)
  | deleteResource (id : String) (cascade : Bool)
  | createLink (nodes : ℕ) (link : Option FrontingLink)
  | patchLink (sourceSlug targetSlug : String) (scopeMap : Option ScopeMap)
  | deleteLink (sourceSlug targetSlug : String)

/-- The program of a call, without what it returns. -/
def CatalogCall.prog (env : Env) : CatalogCall → Svc Unit
  | createResource ctx r => do
    let _ ← ResourceAdminService.create env ctx r
    pure ()
  | patchResource id patch => do
    let _ ← ResourceAdminService.patch env id patch
    pure ()
  | deleteResource id cascade => do
    let _ ← ResourceAdminService.deleteWithCascade id cascade
    pure ()
  | createLink nodes link => do
    let _ ← FrontingService.create env nodes link
    pure ()
  | patchLink source target scopeMap => do
    let _ ← FrontingService.patch env source target scopeMap
    pure ()
  | deleteLink source target => FrontingService.delete source target

theorem consistent_run {p : Svc α} (h : Ensures alone 0 (fun _ _ => True) p w) (hw : Consistent w)
    (plan : List Bool) : Consistent (p.run plan w).2 :=
  (Safe.run h hw (fun _ _ => trivial) plan fun _ _ _ => trivial).1

theorem CatalogCall.ensures_prog (call : CatalogCall) (hw : Consistent w) :
    Ensures alone 0 (fun _ _ => True) (call.prog env) w := by
  cases call with
  | createResource ctx r =>
    exact .seq (ResourceAdminService.ensures_create ctx r hw) fun _ _ _ => trivial
  | patchResource id p =>
    exact .seq (ResourceAdminService.ensures_patch id p hw) fun _ _ _ => trivial
  | deleteResource id cascade =>
    exact .seq (ResourceAdminService.ensures_deleteWithCascade id cascade hw) fun _ _ _ => trivial
  | createLink nodes link =>
    exact .seq (FrontingService.ensures_create nodes link hw) fun _ _ _ => trivial
  | patchLink source target scopeMap =>
    exact .seq (FrontingService.ensures_patch source target scopeMap hw) fun _ _ _ => trivial
  | deleteLink source target => exact FrontingService.ensures_delete source target hw

/-- Links and catalogs stay consistent, whatever is called one after another. -/
theorem CatalogCall.consistent_runAll (env : Env) (calls : List (CatalogCall × List Bool))
    (w : World) (hw : Consistent w) : Consistent (Prog.runSeq (CatalogCall.prog env) calls w) := by
  refine Prog.inv_runSeq (I := Consistent) (fun call plan u hu => ?_) calls hw
  exact consistent_run (call.ensures_prog hu) hu plan

theorem consistent_empty (now : Time) : Consistent (.empty now) where
  ids _ hr := absurd hr List.not_mem_nil
  slugs _ hr := absurd hr List.not_mem_nil
  links _ hl := absurd hl List.not_mem_nil

/-- Two resources and a link between them. -/
def CatalogCall.sample : List (CatalogCall × List Bool) :=
  [(.createResource 0 ⟨"", "a", "", .mint, "", [⟨"read", ""⟩], ⟨[], [], []⟩⟩, []),
    (.createResource 1 ⟨"", "b", "", .mint, "", [⟨"get", ""⟩], ⟨[], [], []⟩⟩, []),
    (.createLink 5 (some ⟨"a", "b", ⟨[("read", ["get"])], by decide⟩⟩), [])]

theorem CatalogCall.consistent_runAll_sample :
    Consistent (Prog.runSeq (CatalogCall.prog Env.plain) CatalogCall.sample (.empty 0)) ∧
      (Prog.runSeq (CatalogCall.prog Env.plain) CatalogCall.sample
        (.empty 0)).frontingLinks.length = 1 :=
  ⟨CatalogCall.consistent_runAll _ _ _ (consistent_empty 0), by decide⟩

end AuthServer
