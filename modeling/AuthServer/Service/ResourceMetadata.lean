import AuthServer.Service.Serve

/-!
# Protected resource metadata

`PRMetadataService` of `internal/services/prm.go`: the RFC 9728 document of a registered resource.
The reference in the request is first taken for the path of the resource's URI on the issuer's
origin, and when that lookup gives nothing, for the slug of a resource.

The first lookup gives nothing not only when no resource has the URI. Two resources may share one,
which is ambiguous, and the store may fail; in both cases the service goes on to the slug, and may
then describe a resource that is not the one the reference names.
-/

namespace AuthServer

open Interleave

structure ProtectedResourceMetadata where
  resource : String
  authorizationServers : List String
  scopesSupported : List String
  bearerMethodsSupported : List String
  resourceName : String
  deriving DecidableEq, Repr

namespace PRMetadataService

/-- `strings.TrimSuffix(issuer, "/")`. -/
def trimSlash (issuer : String) : String :=
  if issuer.toList.getLast? = some '/' then String.ofList issuer.toList.dropLast else issuer

/-- An ambiguous match is reported as no match. -/
def collapse (e : Err) : Err :=
  if e.is .ambiguousResource then .sentinel .resourceNotFound else e

def lookup (ref : String) : Svc Resource :=
  (fetch (ResourceRegistry.resolve ref)).mapError collapse

def namedURI (issuer ref : String) : String := trimSlash issuer ++ "/" ++ ref

def resolve (issuer ref : String) : Svc Resource :=
  if ref == "" then lookup issuer
  else do
    match ← (lookup (namedURI issuer ref)).attempt with
    | .ok res => pure res
    | .error _ => lookup ref

/-- The reference holds a NUL. The source also refuses bytes that are not UTF-8, which a `String`
cannot hold. -/
def malformed (ref : String) : Bool := ref.toList.contains '\x00'

/-- The document of a resource; there is none without a URI. The display name is a column that
`Resource` leaves out. -/
def document (displayName : Resource → String) (issuer : String) (res : Resource) :
    Svc ProtectedResourceMetadata := do
  failIf (res.uri == "") (.sentinel .resourceNotFound)
  pure
    { resource := res.uri, authorizationServers := [issuer], scopesSupported := res.catalog
      bearerMethodsSupported := ["header"], resourceName := displayName res }

/-- `PRMetadataService.Metadata`, for what the issuer provider answers. -/
def metadata (displayName : Resource → String) (issuer : Except Err String) (ref : String) :
    Svc ProtectedResourceMetadata := do
  let iss ← Prog.ofExcept (issuer.mapError (Err.wrap "resolve issuer"))
  failIf (malformed ref) (.sentinel .resourceNotFound)
  let res ← resolve iss ref
  document displayName iss res

/-! ### The two lookups -/

variable {displayName : Resource → String} {iss ref : String} {plan : List Bool} {w : World}

/-- What a lookup answers: the store may fail it. -/
def answer (bad : Bool) (ref : String) (w : World) : Except Err Resource :=
  (if bad then .error storeFault else ResourceRegistry.resolve ref w).mapError collapse

theorem run_lookup_bind {α : Type} (g : Except Err Resource → Svc α) :
    ((lookup ref).attempt >>= g).run plan w =
      (g (answer (plan.headD false) ref w)).run plan.tail w := by
  have hcall : ∀ r : Except Err Resource,
      ((Prog.ofExcept r : Svc Resource).mapError collapse).attempt = .ret (r.mapError collapse) :=
    fun r => by cases r <;> rfl
  change (((Prog.ofExcept (Prog.outcome _ _ (plan.headD false) w).1 : Svc Resource).mapError
    collapse).attempt.bind g).run plan.tail (Prog.outcome _ _ (plan.headD false) w).2 = _
  rw [hcall]
  cases plan.headD false <;> rfl

theorem run_lookup : ((lookup ref).run plan w).1 = answer (plan.headD false) ref w := by
  have hcall : ∀ (r : Except Err Resource) (rest : List Bool),
      ((Prog.ofExcept r : Svc Resource).mapError collapse).run rest w = (r.mapError collapse, w) :=
    fun r rest => by cases r <;> rfl
  change (((Prog.ofExcept (Prog.outcome _ _ (plan.headD false) w).1 : Svc Resource).mapError
    collapse).run plan.tail (Prog.outcome _ _ (plan.headD false) w).2).1 = _
  cases plan.headD false <;> exact congrArg Prod.fst (hcall _ _)

variable {r : Resource}

theorem answer_eq_ok {bad : Bool} :
    answer bad ref w = .ok r ↔ bad = false ∧ ResourceRegistry.resolve ref w = .ok r := by
  cases bad <;> simp [answer]

theorem run_resolve (href : ref ≠ "") :
    ((resolve iss ref).run plan w).1 = .ok r ↔
      answer (plan.headD false) (namedURI iss ref) w = .ok r ∨
      (∀ r', answer (plan.headD false) (namedURI iss ref) w ≠ .ok r') ∧
        answer (plan.tail.headD false) ref w = .ok r := by
  rw [resolve, if_neg (by simpa using href), run_lookup_bind]
  cases hfirst : answer (plan.headD false) (namedURI iss ref) w with
  | ok r' => simp [Prog.run, pure]
  | error e => simp [run_lookup]

variable {doc : ProtectedResourceMetadata}

theorem run_document {res : Resource} :
    ((document displayName iss res).run plan w).1 = .ok doc ↔
      res.uri ≠ "" ∧ ⟨res.uri, [iss], res.catalog, ["header"], displayName res⟩ = doc := by
  unfold document
  by_cases huri : res.uri = ""
  · simp [huri, failIf, Prog.run, bind, Prog.bind]
  · simp [huri, failIf, Prog.run, bind, Prog.bind, pure]

theorem run_metadata :
    ((metadata displayName (.ok iss) ref).run plan w).1 = .ok doc ↔
      malformed ref = false ∧ ∃ r, ((resolve iss ref).run plan w).1 = .ok r ∧ r.uri ≠ "" ∧
        ⟨r.uri, [iss], r.catalog, ["header"], displayName r⟩ = doc := by
  have hmeta : metadata displayName (.ok iss) ref = failIf (malformed ref)
      (.sentinel .resourceNotFound) >>= fun _ => resolve iss ref >>= document displayName iss := rfl
  rw [hmeta]
  cases malformed ref with
  | true => simp [failIf, Prog.run, bind, Prog.bind]
  | false =>
    change ((resolve iss ref >>= document displayName iss).run plan w).1 = .ok doc ↔ _
    constructor
    · intro h
      obtain ⟨r, u, rest, hresolved, hdoc⟩ := Prog.ok_of_run_bind (Prod.ext h rfl)
      exact ⟨rfl, r, congrArg Prod.fst hresolved, run_document.mp (congrArg Prod.fst hdoc)⟩
    · rintro ⟨-, r, hresolved, hdoc⟩
      obtain ⟨rest, hrest⟩ :=
        Prog.exists_run_bind (Prod.ext hresolved rfl) (document displayName iss)
      rw [hrest]
      exact run_document.mpr hdoc

theorem uri_of_resolve {uri : String} (hnamed : ∃ r ∈ w.resources, r.uri = uri)
    (h : ResourceRegistry.resolve uri w = .ok r) : r.uri = uri := by
  obtain ⟨r₀, hr₀, huri⟩ := hnamed
  have hmem : r₀ ∈ w.resources.filter fun r => r.slug == uri || r.uri == uri := by
    simp [hr₀, huri]
  rw [(ResourceRegistry.filter_of_resolve_ok h).2, List.mem_singleton] at hmem
  rw [← hmem, huri]

end PRMetadataService

open PRMetadataService

/-- **When the document describes the resource that was named.** Let some registered resource have
the URI that the reference names. For each choice of failing lookups, a document that is returned is
about that URI exactly when the reference is refused as malformed, or the first lookup is not failed
and finds one resource, or the second lookup is failed, or the one resource with the reference as
its slug or URI, if there is one, has that very URI or none. -/
theorem PRMetadataService.metadata_describes_iff (displayName : Resource → String) (w : World)
    (iss ref : String) (plan : List Bool) (href : ref ≠ "")
    (hnamed : ∃ r ∈ w.resources, r.uri = namedURI iss ref) :
    (∀ doc, ((metadata displayName (.ok iss) ref).run plan w).1 = .ok doc →
      doc.resource = namedURI iss ref) ↔
    malformed ref = true ∨
      (plan.headD false = false ∧ ∃ r, ResourceRegistry.resolve (namedURI iss ref) w = .ok r) ∨
      plan.tail.headD false = true ∨
      ∀ r, ResourceRegistry.resolve ref w = .ok r → r.uri = namedURI iss ref ∨ r.uri = "" := by
  constructor
  · intro h
    by_contra hnot
    push Not at hnot
    obtain ⟨hform, hfirst, hsecond, r, hr, huri, hne⟩ := hnot
    refine huri (h _ (run_metadata.mpr ⟨by simpa using hform, r, ?_, hne, rfl⟩))
    refine (run_resolve href).mpr
      (.inr ⟨fun r' hr' => ?_, answer_eq_ok.mpr ⟨by simpa using hsecond, hr⟩⟩)
    obtain ⟨hgood, hok⟩ := answer_eq_ok.mp hr'
    exact hfirst hgood r' hok
  · intro h doc hdoc
    obtain ⟨hform, r, hresolved, hne, rfl⟩ := run_metadata.mp hdoc
    rcases (run_resolve href).mp hresolved with hnamed' | ⟨hfirst, hslug⟩
    · exact uri_of_resolve hnamed (answer_eq_ok.mp hnamed').2
    · obtain ⟨hgood, hr⟩ := answer_eq_ok.mp hslug
      rcases h with hbad | ⟨hgood', r', hr'⟩ | hbad | hsame
      · rw [hform] at hbad
        cases hbad
      · exact absurd (answer_eq_ok.mpr ⟨hgood', hr'⟩) (hfirst r')
      · rw [hgood] at hbad
        cases hbad
      · exact (hsame r hr).resolve_right hne

namespace Sample

def onOrigin (id slug : String) : Resource :=
  ⟨id, slug, "https://as/notes", .mint, "", [], ⟨[], [], []⟩⟩

/-- The registry has `notes` on another origin, and these resources. -/
def registry (others : List Resource) : World :=
  { world [] with resources := notes :: others }

end Sample

/-- One resource has the URI, and the reference leads to it although another has it as its slug. -/
theorem PRMetadataService.metadata_describes_one :
    namedURI "https://as/" "notes" = "https://as/notes" ∧
    ∀ doc, ((metadata Resource.slug (.ok "https://as/") "notes").run []
      (Sample.registry [Sample.onOrigin "r2" "board"])).1 = .ok doc →
        doc.resource = "https://as/notes" :=
  ⟨by decide, (PRMetadataService.metadata_describes_iff Resource.slug
    (Sample.registry [Sample.onOrigin "r2" "board"])
    "https://as/" "notes" [] (by decide) ⟨Sample.onOrigin "r2" "board", by decide, by decide⟩).mpr
    (.inr (.inl ⟨rfl, Sample.onOrigin "r2" "board", by decide⟩))⟩

/-- **Two resources share the URI**, and the document is about a third: `notes` on another origin.
-/
theorem PRMetadataService.shared_uri_misdescribed :
    (∃ r ∈ (Sample.registry [Sample.onOrigin "r2" "board", Sample.onOrigin "r3" "wiki"]).resources,
      r.uri = namedURI "https://as" "notes") ∧
    ((metadata Resource.slug (.ok "https://as") "notes").run []
      (Sample.registry [Sample.onOrigin "r2" "board", Sample.onOrigin "r3" "wiki"])).1 =
      .ok ⟨"https://notes", ["https://as"], ["notes:read"], ["header"], "notes"⟩ := by
  exact ⟨⟨Sample.onOrigin "r2" "board", by decide, by decide⟩, by decide⟩

end AuthServer
