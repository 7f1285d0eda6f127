import AuthServer.Service.Serve

/-!
# The scope of an authorization session

`StartAuthorization` bounds the scope of the session that it creates by the client's ceiling and by
the catalog of the resource that the request names, and it refuses a request for which it would have
nothing to propose. Each of these checks asks whether something is empty, and each asks it of a
string:

* a scope parameter of blanks is not empty, so it is neither defaulted nor refused, and it names no
  scope;
* a resource without a URI leaves the session without a resource, and its catalog is not looked at;
* a resource that shares its URI is looked up by the URI again, and the first one found is taken.

`session_scope_bounded_iff` is exact about the three.
-/

namespace AuthServer

open Interleave

namespace AuthorizeService

/-- What a session is to have that a request for the client has created: a scope, within the
client's ceiling if there is one, and the resource that the request names, within whose catalog the
scope is. A session has a resource if that is what its resource resolves to, as it will when the
user consents and when the code is redeemed. -/
structure Bounded (w : World) (req : AuthorizeRequest) (c : Client)
    (sess : AuthSession) : Prop where
  named : Text.fields sess.scope ≠ []
  ceiling : Text.fields c.scope ≠ [] → ∀ name ∈ Text.fields sess.scope, name ∈ Text.fields c.scope
  resource : req.resource ≠ "" → ∃ r, ResourceRegistry.resolve req.resource w = .ok r ∧
    (∀ name ∈ Text.fields sess.scope, name ∈ r.catalog) ∧
      ResourceRegistry.resolve sess.resource w = .ok r

/-- The scope parameter is absent or names a scope, and the resource that is named, if one is, has a
URI to which no other resource answers. -/
def Sayable (w : World) (req : AuthorizeRequest) : Prop :=
  (req.scope = "" ∨ Text.fields req.scope ≠ []) ∧
    ∀ r, ResourceRegistry.resolve req.resource w = .ok r →
      r.uri ≠ "" ∧ (w.resources.filter fun r' => r'.slug == r.uri || r'.uri == r.uri) = [r]

/-! ### What the checks let through -/

section

variable {env : Env} {w : World} {c : Client} {scope uri : String}

def proposed (resources : List Resource) (c : Client) (uri : String) : ScopeSet :=
  if (ScopeSet.parse c.scope).isEmpty then
    ScopeSet.parse (Text.join (catalogFor resources uri).dedup)
  else (ScopeSet.parse (Text.join (catalogFor resources uri).dedup)).intersect
    (ScopeSet.parse c.scope)

theorem word_of_mem_proposed (resources : List Resource) (c : Client) (uri : String) :
    ∀ name ∈ (proposed resources c uri).names, Text.Word name := by
  intro name hname
  have hcatalog : name ∈ (ScopeSet.parse (Text.join (catalogFor resources uri).dedup)).names := by
    unfold proposed at hname
    split at hname
    · exact hname
    · exact (ScopeSet.mem_intersect.mp hname).1
  exact Text.word_of_mem_fields (ScopeSet.mem_parse.mp hcatalog)

variable {resources : List Resource}

theorem fields_defaultScope (h : defaultScope resources c uri = .ok scope) :
    Text.fields scope ≠ [] := by
  have hwords := word_of_mem_proposed resources c uri
  change (if (proposed resources c uri).toString == "" then _
    else Except.ok (proposed resources c uri).toString) = _ at h
  by_cases hempty : (proposed resources c uri).toString = ""
  · rw [if_pos (by rw [hempty]; rfl)] at h
    cases h
  · rw [if_neg (by simpa using hempty)] at h
    obtain rfl := Except.ok.inj h
    intro hnil
    -- Without a name there would be nothing to write.
    have hnames : (proposed resources c uri).names = [] := by
      refine List.eq_nil_iff_forall_not_mem.mpr fun name hname => ?_
      have := (ScopeSet.mem_fields_toString hwords).mpr hname
      rw [hnil] at this
      cases this
    rw [ScopeSet.toString, ScopeSet.slice, hnames] at hempty
    exact hempty rfl

theorem mem_ceiling_of_checkCeiling (h : checkCeiling c scope = .ok ())
    (hset : Text.fields c.scope ≠ []) :
    ∀ name ∈ Text.fields scope, name ∈ Text.fields c.scope := by
  unfold checkCeiling at h
  split at h
  · rename_i hpass
    rw [Bool.or_eq_true, ScopeSet.isEmpty_iff, ScopeSet.isSubset_iff] at hpass
    rcases hpass with hempty | hsub
    · rw [ScopeSet.parse, List.dedup_eq_nil] at hempty
      exact absurd hempty hset
    · exact fun name hname => ScopeSet.mem_parse.mp (hsub name (ScopeSet.mem_parse.mpr hname))
  · cases h

theorem mem_catalogFor_of_checkCatalog (h : checkCatalog env resources scope uri = .ok ()) :
    ∀ name ∈ Text.fields scope, name ∈ catalogFor resources uri := by
  unfold checkCatalog at h
  dsimp only at h
  split at h
  · cases h
  · split at h
    · cases h
    · rename_i hfind
      intro name hname
      simpa using List.find?_eq_none.mp hfind name hname

/-! ### The session -/

/-- How a session has come about. -/
structure Started (env : Env) (w : World) (req : AuthorizeRequest) (c : Client)
    (resolved : Option Resource)
    (sess : AuthSession) : Prop where
  none : resolved = none → req.resource = ""
  some : ∀ r, resolved = some r → ResourceRegistry.resolve req.resource w = .ok r
  resource : sess.resource = (resolved.map Resource.uri).getD ""
  scope : (req.scope ≠ "" ∧ sess.scope = req.scope) ∨ (req.scope = "" ∧ Text.fields sess.scope ≠ [])
  ceiling : checkCeiling c sess.scope = .ok ()
  catalog : sess.scope ≠ "" → sess.resource ≠ "" →
    checkCatalog env (ResourceStore.list w) sess.scope sess.resource = .ok ()

variable {i : ReqID} {s : World} {req : AuthorizeRequest}

theorem ensures_resolveMint (hs : w.Quiet s) :
    Ensures (solo i True) i (fun resolved t => w.Quiet t ∧ (resolved = none → req.resource = "") ∧
      ∀ r, resolved = some r →
        ResourceRegistry.resolve req.resource w = .ok r) (resolveMint req.resource) s := by
  unfold resolveMint
  by_cases hempty : req.resource = ""
  · rw [if_pos (by rw [hempty]; rfl)]
    exact ⟨hs, fun _ => hempty, nofun⟩
  · rw [if_neg (by simpa using hempty)]
    refine (tolerant_solo i True).read trivial fun r t hst _ hread => ?_
    have hresolve : ResourceRegistry.resolve req.resource w = .ok r := by
      have hread := hread.of_solo fun u hu hget => by
        obtain ⟨_, _, _, -, rfl⟩ := hu
        exact hget
      obtain ⟨_, _, _, -, rfl⟩ := hs
      exact hread
    refine .bindFailIf fun _ => ⟨hs.trans (hst rfl), nofun, fun r' hr' => ?_⟩
    rw [← Option.some.inj hr']
    exact hresolve

theorem ensures_requestedScope (hs : w.Quiet s) :
    Ensures (solo i True) i (fun scope t => w.Quiet t ∧
      ((req.scope ≠ "" ∧ scope = req.scope) ∨ (req.scope = "" ∧ Text.fields scope ≠ [])))
      (requestedScope env req c uri) s := by
  unfold requestedScope
  by_cases hempty : req.scope = ""
  · rw [if_neg (by rw [hempty]; decide)]
    refine .bindFailIf fun _ => ?_
    refine (tolerant_solo i True).readWrapped trivial fun resources t hst _ _ => ?_
    exact .ofExcept fun scope hscope =>
      ⟨hs.trans (hst rfl), .inr ⟨hempty, fields_defaultScope hscope⟩⟩
  · rw [if_pos (by simpa using hempty)]
    exact ⟨hs, .inl ⟨hempty, rfl⟩⟩

theorem ensures_validateScopes (hs : w.Quiet s) :
    Ensures (solo i True) i (fun _ t => w.Quiet t ∧ (scope ≠ "" → uri ≠ "" →
      checkCatalog env (ResourceStore.list w) scope uri =
        .ok ())) (validateScopes env scope uri) s := by
  unfold validateScopes
  split
  · rename_i hskip
    rw [Bool.or_eq_true, beq_iff_eq, beq_iff_eq] at hskip
    exact ⟨hs, fun hscope huri => (hskip.elim hscope huri).elim⟩
  · refine (tolerant_solo i True).readWrapped trivial fun resources t hst _ hread => ?_
    refine .ofExcept fun _ hcatalog => ⟨hs.trans (hst rfl), fun _ _ => ?_⟩
    have hlist : resources = ResourceStore.list w := by
      have hread := hread.of_solo fun u hu hget => by
        obtain ⟨_, _, _, -, rfl⟩ := hu
        exact hget
      obtain ⟨_, _, _, -, rfl⟩ := hs
      exact (Except.ok.inj hread).symm
    rw [← hlist]
    exact hcatalog

/-- **What is known of a session** that has been created while nothing else happened to the store.
-/
theorem ensures_startFor :
    Ensures (solo i True) i
      (fun result _ => ∃ resolved, Started env w req c resolved result.session)
      (startFor env i req c) w := by
  have hC := tolerant_solo i True
  refine .bindFailIf fun _ => .bindFailIf fun _ => ?_
  refine .bindFailIf fun _ => .bindFailIf fun _ => ?_
  refine .bind ((ensures_resolveMint (.refl w)).mono ?_)
  rintro resolved t₁ ⟨h₁, hnone, hsome⟩
  refine .bind ((ensures_requestedScope h₁).mono ?_)
  rintro scope t₂ ⟨h₂, hscope⟩
  refine Ensures.bindOfExcept fun _ hceiling => ?_
  refine Safe.bind ((ensures_validateScopes h₂).mono ?_)
  rintro - t₃ ⟨-, hcatalog⟩
  refine hC.pass (each_consentCovers _ _ _ _) trivial fun covered t₄ _ _ => ?_
  refine hC.pass each_timeNow trivial fun now t₅ _ _ => ?_
  refine hC.pass (each_generateRandomString _ _) trivial fun id t₆ _ _ => ?_
  refine .seq (ensures_solo _) fun _ _ _ => ?_
  exact ⟨resolved, hnone, hsome, rfl, hscope, hceiling, hcatalog⟩

/-! ### When it is bounded -/

variable {r : Resource}

theorem catalogFor_of_filter (huri : r.uri ≠ "")
    (hone : (w.resources.filter fun r' => r'.slug == r.uri || r'.uri == r.uri) = [r]) :
    catalogFor (ResourceStore.list w) r.uri = r.catalog := by
  have hmem : ∀ r', r' ∈ w.resources → r'.uri = r.uri → r' = r := by
    intro r' hr' huri'
    have hfilter : r' ∈ w.resources.filter fun r' => r'.slug == r.uri || r'.uri == r.uri :=
      List.mem_filter.mpr ⟨hr', by simp [huri']⟩
    rw [hone] at hfilter
    exact List.mem_singleton.mp hfilter
  have hr : r ∈ w.resources := by
    have hfilter : r ∈ w.resources.filter fun r' => r'.slug == r.uri || r'.uri == r.uri := by
      rw [hone]
      exact List.mem_singleton_self r
    exact List.mem_of_mem_filter hfilter
  unfold catalogFor
  rw [if_neg (by simpa using huri)]
  cases hfind : (ResourceStore.list w).find? (·.uri == r.uri) with
  | none =>
    have hnone := List.find?_eq_none.mp hfind r ((List.mem_insertionSort _).mpr hr)
    simp at hnone
  | some r' =>
    have hr' : r' ∈ w.resources := (List.mem_insertionSort _).mp (List.mem_of_find?_eq_some hfind)
    rw [hmem r' hr' (by simpa using List.find?_some hfind)]
    rfl

theorem resolve_iff {x : String} :
    ResourceRegistry.resolve x w = .ok r ↔
      x ≠ "" ∧ (w.resources.filter fun r' => r'.slug == x || r'.uri == x) = [r] := by
  unfold ResourceRegistry.resolve ResourceStore.resolve
  by_cases hx : x = ""
  · simp [hx]
  · rw [if_neg (by simpa using hx)]
    rcases hfilter : w.resources.filter fun r' => r'.slug == x || r'.uri ==
      x with _ | ⟨r₁, _ | ⟨r₂, rest⟩⟩ <;>
      simp [hx, hfilter]

variable {resolved : Option Resource} {sess : AuthSession}

theorem bounded_of_sayable (h : Started env w req c resolved sess)
    (hsay : Sayable w req) : Bounded w req c sess := by
  refine ⟨?_, mem_ceiling_of_checkCeiling h.ceiling, fun hnamed => ?_⟩
  · rcases h.scope with ⟨hne, heq⟩ | ⟨-, hfields⟩
    · rw [heq]
      exact hsay.1.resolve_left hne
    · exact hfields
  · cases hresolved : resolved with
    | none => exact absurd (h.none hresolved) hnamed
    | some r =>
      have hresolve := h.some r hresolved
      obtain ⟨huri, hone⟩ := hsay.2 r hresolve
      have hsess : sess.resource = r.uri := by
        rw [h.resource, hresolved]
        rfl
      refine ⟨r, hresolve, fun name hname => ?_, ?_⟩
      · have hne : sess.scope ≠ "" := by
          intro hempty
          rw [hempty] at hname
          cases hname
        have hcatalog :=
          mem_catalogFor_of_checkCatalog (h.catalog hne (by rw [hsess]; exact huri)) name hname
        rw [hsess, catalogFor_of_filter huri hone] at hcatalog
        exact hcatalog
      · rw [hsess]
        exact resolve_iff.mpr ⟨huri, hone⟩

theorem sayable_of_bounded (h : Started env w req c resolved sess)
    (hbounded : Bounded w req c sess) : Sayable w req := by
  constructor
  · rcases h.scope with ⟨-, heq⟩ | ⟨hempty, -⟩
    · rw [← heq]
      exact .inr hbounded.named
    · exact .inl hempty
  · intro r hresolve
    have hnamed : req.resource ≠ "" := (resolve_iff.mp hresolve).1
    obtain ⟨r', hresolve', -, hsess⟩ := hbounded.resource hnamed
    obtain rfl : r = r' := Except.ok.inj (hresolve.symm.trans hresolve')
    cases hresolved : resolved with
    | none => exact absurd (h.none hresolved) hnamed
    | some r₀ =>
      obtain rfl : r = r₀ := Except.ok.inj (hresolve.symm.trans (h.some r₀ hresolved))
      rw [h.resource, hresolved] at hsess
      exact resolve_iff.mp hsess

end

/-- **The scope of a session.** Take any client, any store, any request and any pattern of store
errors. A session that `StartAuthorization` creates has a scope, within the client's ceiling and
within the catalog of the resource that the request names, and has that resource, exactly when the
scope parameter is absent or names a scope and the resource that is named has a URI of its own. -/
theorem session_scope_bounded_iff (env : Env) (ctx : ReqID)
    (req : AuthorizeRequest) (c : Client) (w w' : World)
    (plan : List Bool) (result : AuthorizeResult)
    (hrun : (startFor env ctx req c).run plan w = (.ok result, w')) :
    Bounded w req c result.session ↔ Sayable w req := by
  obtain ⟨resolved, hstarted⟩ := post_of_run (i := ctx) hrun ensures_startFor
  exact ⟨sayable_of_bounded hstarted, bounded_of_sayable hstarted⟩

end AuthorizeService

namespace Sample

def asking (scope resource : String) : AuthorizeRequest :=
  ⟨"app", "https://app", "code", scope, "", resource, "pkce", "S256", "user"⟩

/-- A service that is known by its slug only. -/
def unlocated : Resource := ⟨"r2", "files", "", .mint, "", [⟨"files:read", ""⟩], ⟨[], [], []⟩⟩

/-- A service at the address of the notes. -/
def housemate : Resource :=
    ⟨"r3", "lists", "https://notes", .mint, "", [⟨"lists:read", ""⟩], ⟨[], [], []⟩⟩

def threeServices : World := { world [] with resources := [notes, unlocated, housemate] }

end Sample

namespace AuthorizeService

theorem session_scope_bounded_of_notes :
    ∃ result w', (startFor Env.plain 0 (Sample.asking "notes:read" "notes") Sample.app).run []
      (Sample.world []) =
        (.ok result, w') ∧
      Bounded (Sample.world []) (Sample.asking "notes:read" "notes") Sample.app result.session := by
  refine ⟨_, _, rfl, (session_scope_bounded_iff Env.plain 0 _ _ _ _ [] _ rfl).mpr
    ⟨.inr (by decide), ?_⟩⟩
  intro r hr
  obtain rfl : Sample.notes = r := Except.ok.inj hr
  exact ⟨by decide, rfl⟩

/-- **A session without a scope**, for a scope parameter that is a blank; **one without a
resource**, for a scope that no service has at a service that has no URI; and **one for the scope of
another service** that has the same URI. -/
theorem unbounded_sessions :
    (∃ result w', (startFor Env.plain 0 (Sample.asking " " "notes") Sample.app).run []
      (Sample.world []) =
        (.ok result, w') ∧ Text.fields result.session.scope = []) ∧
    (∃ result w', (startFor Env.plain 0 (Sample.asking "anything" "files") Sample.app).run
      [] Sample.threeServices =
        (.ok result, w') ∧ result.session.scope = "anything" ∧ result.session.resource = "") ∧
    ∃ result w', (startFor Env.plain 0 (Sample.asking "lists:read" "notes") Sample.app).run
      [] Sample.threeServices =
        (.ok result, w') ∧ result.session.scope = "lists:read" ∧
          "lists:read" ∉ Sample.notes.catalog :=
  ⟨⟨_, _, rfl, by decide⟩, ⟨_, _, rfl, rfl, rfl⟩, ⟨_, _, rfl, rfl, by decide⟩⟩

end AuthorizeService

end AuthServer
