import AuthServer.Interleave.Yields
import AuthServer.Service.BrokerProtocol
import AuthServer.Service.Serve

/-!
# What a broker vend asks of the upstream

`BrokerIssuer.Issue` translates the requested scopes to the upstream's names and refuses the vend
when one of these is not among the scopes the user granted there. The adapter it then calls is given
the scopes as requested and translates them again. The two translations agree on every catalog entry
that has an upstream name. An entry without one adds nothing to what the issuer checks, and goes out
under its own name.
-/

namespace AuthServer

open Interleave

/-! ### The names of a valid catalog -/

theorem name_ne_empty_of_checkScopeNames {env : Env} {i : ℕ} {seen : List String}
    {scopes : List CatalogScope} (h : checkScopeNames env i seen scopes = .ok ()) :
      ∀ s ∈ scopes, s.name ≠ "" := by
  induction scopes generalizing i seen with
  | nil => simp
  | cons s rest ih =>
    rw [checkScopeNames] at h
    split at h
    · cases h
    · rename_i hname
      split at h
      · cases h
      · simp only [List.mem_cons, forall_eq_or_imp]
        exact ⟨by simpa using hname, ih h⟩

theorem Resource.name_ne_empty {env : Env} {r : Resource} (h : r.validate env = .ok ()) :
    ∀ s ∈ r.scopes, s.name ≠ "" := by
  simp only [Resource.validate, bind, Except.bind] at h
  repeat' split at h
  all_goals first
    | cases h
    | exact name_ne_empty_of_checkScopeNames h

namespace BrokerIssuer

/-! ### The checks before the adapter -/

theorem upstreamOf_of_mapToUpstreamScopes {env : Env} {r : Resource} {requested up : List String}
    (h : mapToUpstreamScopes env r requested = .ok up) {fine : String} (hfine : fine ∈ requested) :
    ∃ u, upstreamOf r fine = some u ∧ (u ≠ "" → u ∈ up) := by
  rw [mapToUpstreamScopes] at h
  split at h
  · cases h
  · rename_i hall
    have hsome : upstreamOf r fine ≠ none := by
      simpa using List.find?_eq_none.mp hall fine hfine
    obtain ⟨u, hu⟩ := Option.ne_none_iff_exists'.mp hsome
    refine ⟨u, hu, fun hne => ?_⟩
    obtain rfl := Except.ok.inj h
    simp only [List.mem_eraseDups, List.mem_filter, List.mem_filterMap, bne_iff_ne]
    exact ⟨⟨fine, hfine, hu⟩, hne⟩

/-- A requested scope is in the catalog, and its upstream name, if it has one, was granted. -/
def Checked (r : Resource) (granted : List String) (fine : String) : Prop :=
  ∃ u, upstreamOf r fine = some u ∧ (u ≠ "" → u ∈ granted)

theorem yields_clear (env : Env) (req : BrokerIssueRequest) : (clear env req).Yields fun cleared =>
    ∀ fine ∈ req.scopes, Checked req.resource cleared.1.scopesGranted fine := by
  refine .skip fun _ => .skip fun found => .skip fun grant => .bind (Prog.yields_ofExcept ?_)
  intro up hup
  refine .bind (Prog.yields_failIf fun hmissing => .skip fun plaintext => .skip fun _ =>
    Prog.yields_pure fun fine hfine => ?_)
  obtain ⟨u, hu, hmem⟩ := upstreamOf_of_mapToUpstreamScopes hup hfine
  have hgranted : ∀ s ∈ up, s ∈ grant.scopesGranted := by simpa [scopesNotIn] using hmissing
  exact ⟨u, hu, fun hne => hgranted u (hmem hne)⟩

end BrokerIssuer

/-! ### The request of the adapter -/

namespace BrokerProtocol

open BrokerIssuer

variable {r : Resource} {requested granted : List String}

theorem mem_mapScopes {s : String} : s ∈ mapScopes r requested ↔
    ∃ fine ∈ requested, ∃ u, upstreamOf r fine = some u ∧ s = if u = "" then fine else u := by
  simp only [mapScopes, List.mem_filterMap, Option.map_eq_some_iff, beq_iff_eq]
  exact ⟨fun ⟨fine, hfine, u, hu, hs⟩ => ⟨fine, hfine, u, hu, hs.symm⟩,
    fun ⟨fine, hfine, u, hu, hs⟩ => ⟨fine, hfine, u, hu, hs.symm⟩⟩

theorem mapScopes_ne_nil (hne : requested ≠ []) (h : ∀ fine ∈ requested, Checked r granted fine) :
    mapScopes r requested ≠ [] := by
  obtain ⟨fine, rest, rfl⟩ := List.exists_cons_of_ne_nil hne
  obtain ⟨u, hu, -⟩ := h fine (by simp)
  exact List.ne_nil_of_mem (mem_mapScopes.mpr ⟨fine, by simp, u, hu, rfl⟩)

theorem name_of_upstreamOf {fine u : String} (h : upstreamOf r fine = some u) : ∃ s ∈ r.scopes,
    s.name = fine := by
  simp only [upstreamOf, Option.map_eq_some_iff] at h
  obtain ⟨s, hs, -⟩ := h
  exact ⟨s, by simpa using List.mem_of_find?_eq_some hs, by simpa using List.find?_some hs⟩

theorem ne_empty_of_mem_mapScopes (hnames : ∀ s ∈ r.scopes, s.name ≠ "") {s : String}
    (h : s ∈ mapScopes r requested) : s ≠ "" := by
  obtain ⟨fine, -, u, hu, rfl⟩ := mem_mapScopes.mp h
  split
  · obtain ⟨sc, hsc, rfl⟩ := name_of_upstreamOf hu
    exact hnames sc hsc
  · assumption

theorem mapScopes_granted_iff (h : ∀ fine ∈ requested, Checked r granted fine) :
    (∀ s ∈ mapScopes r requested, s ∈ granted) ↔
      ∀ fine ∈ requested, upstreamOf r fine = some "" → fine ∈ granted := by
  constructor
  · intro hall fine hfine hu
    exact hall fine (mem_mapScopes.mpr ⟨fine, hfine, "", hu, rfl⟩)
  · intro hpass s hs
    obtain ⟨fine, hfine, u, hu, rfl⟩ := mem_mapScopes.mp hs
    obtain ⟨u', hu', hgranted⟩ := h fine hfine
    obtain rfl : u = u' := Option.some.inj (hu.symm.trans hu')
    split
    · rename_i hempty
      exact hpass fine hfine (hempty ▸ hu)
    · rename_i hne
      exact hgranted hne

end BrokerProtocol

open BrokerProtocol in
/-- **The upstream request and the grant.** When the checks of a vend passed, the request that
either adapter makes carries a scope; and every scope string in it was granted exactly when each
requested scope that the catalog gives no upstream name was. -/
theorem BrokerIssuer.upstream_request_bounded_iff (env : Env) (req : BrokerIssueRequest) (w : World)
    (plan : List Bool) (grant : BrokerGrant) (credential : String) (port : Port) (a : Adapter)
    (now : Time) (rq : TokenRequest)
    (hvalid : req.resource.validate env = .ok ())
    (hne : req.scopes ≠ [])
    (hclear : ((clear env req).run plan w).1 = .ok (grant, credential))
    (hrequest : a.vendRequest port req.provider req.resource credential req.scopes now = .ok rq) :
    ((∀ s ∈ rq.scopes, s ∈ grant.scopesGranted) ∧ rq.scope = some (Text.join rq.scopes) ∧
        rq.scopes ≠ []) ↔
      ∀ fine ∈ req.scopes, upstreamOf req.resource fine = some "" → fine ∈ grant.scopesGranted := by
  have hchecked : ∀ fine ∈ req.scopes, Checked req.resource grant.scopesGranted fine :=
    (yields_clear env req).run hclear
  have hscopes := Adapter.scopes_of_vendRequest hrequest
  have hsome : rq.scopes ≠ [] := hscopes ▸ mapScopes_ne_nil hne hchecked
  have hnames : ∀ s ∈ rq.scopes, s ≠ "" := fun s hs =>
    ne_empty_of_mem_mapScopes (Resource.name_ne_empty hvalid) (hscopes ▸ hs)
  have hsent := TokenRequest.scope_eq hsome hnames
  rw [← mapScopes_granted_iff hchecked, ← hscopes]
  exact ⟨fun h => h.1, fun h => ⟨h, hsent, hsome⟩⟩

/-! ### A forge -/

namespace Sample

/-- A forge with a scope the catalog translates, and one it leaves as it is. -/
def forge : Resource :=
  ⟨"r1", "forge", "https://forge", .broker, "p1", [⟨"user", "read:user"⟩, ⟨"repo", ""⟩],
    ⟨[], [], []⟩⟩

def forgeWorld (granted : List String) : World :=
  { World.empty 0 with brokerGrants := [⟨"g", "user", "p1", "sealed", granted, 1, none⟩] }

def forgeRequest (scopes : List String) : BrokerIssueRequest :=
  ⟨forge, ⟨"p1", "forge", "oauth"⟩, "user", "agent", scopes, none, ""⟩

def forgeEnv : Env :=
  { Env.plain with adapterRegistered := fun _ => true }

open BrokerProtocol in
/-- A refresh token is its own credential, and no other request succeeds. -/
def forgePort : Port where
  oauthConfig := fun _ => .ok ⟨"as", "ref", "https://forge/token"⟩
  oauthCredential := .ok
  marshalCredential := id
  serviceAccountConfig := fun _ => .error (.fault "service_account config_data: empty")
  serviceAccountCredential := fun _ => .error (.fault "service_account credential: empty")
  resolveSecret := fun _ _ => .ok "secret"
  assertionID := fun _ => "id"
  signAssertion := fun _ _ _ => .error (.fault "service_account: unsupported algorithm")
  post := fun _ _ => .ok ⟨"token", "", 3600, ""⟩

end Sample

open BrokerProtocol Sample in
/-- A user who granted nothing at the forge, and a request there for a scope. -/
theorem BrokerIssuer.upstream_request_beyond_grant :
    forge.validate forgeEnv = .ok () ∧
    ((clear forgeEnv (forgeRequest ["repo"])).run [] (forgeWorld [])).1 =
      .ok (⟨"g", "user", "p1", "sealed", [], 1, none⟩, "broker:user:p1") ∧
    Adapter.oauth.vendRequest forgePort ⟨"p1", "forge", "oauth"⟩ forge "broker:user:p1" ["repo"] 0 =
      .ok (.refreshToken "https://forge/token" "as" "secret" "broker:user:p1" ["repo"]) ∧
    "repo" ∉ ([] : List String) := by
  refine ⟨by decide +kernel, by rfl, by rfl, by simp⟩

open BrokerProtocol Sample in
theorem BrokerIssuer.upstream_request_bounded_iff_user :
    "read:user" ∈ (["read:user"] : List String) ∧
    (TokenRequest.refreshToken "https://forge/token" "as" "secret" "broker:user:p1"
      ["read:user"]).scope = some "read:user" := by
  have h := (upstream_request_bounded_iff forgeEnv (forgeRequest ["user"])
    (forgeWorld ["read:user"])
    [] ⟨"g", "user", "p1", "sealed", ["read:user"], 1, none⟩ "broker:user:p1" forgePort .oauth 0
    (.refreshToken "https://forge/token" "as" "secret" "broker:user:p1" ["read:user"])
    (by decide +kernel) (by simp [forgeRequest]) (by rfl) (by rfl)).mpr (by decide +kernel)
  exact ⟨h.1 "read:user" (by simp [TokenRequest.scopes]), h.2.1⟩

end AuthServer
