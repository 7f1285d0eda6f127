import AuthServer.Service.Registration
import AuthServer.Service.Serve

/-!
# Registration by document and registration by request

A client that publishes a metadata document gets a row without asking for one. The policy is the
same for both doors: the mode, the approved redirect URIs and the enabled grants are looked at by
`VerifyCIMD` as by `RegisterClient`. The metadata themselves are not. A request is put through
`ValidateCreateParams`; a document is put through `validateDocument` of the fetcher, which looks at
the name only to see that it is not empty and does not look at grant types, response types and the
authentication method at all. `ValidateGrantTypesEnabled` does not make up for that: it passes over
a grant type that no server knows, for `ValidateCreateParams` to complain of. -/

namespace AuthServer

open Interleave

/-! ### What the fetcher has checked -/

namespace CIMD

variable {env : Env} {doc : CIMDDocument} {url : String}

/-- What is known of a document that has been fetched. -/
structure Vetted (env : Env) (doc : CIMDDocument) : Prop where
  redirects : doc.redirectURIs ≠ []
  valid : ∀ uri ∈ doc.redirectURIs, validateRedirectURI env uri = .ok ()
  method : doc.tokenEndpointAuthMethod ≠ ""

theorem validateDocument_ok (h : validateDocument env doc url = .ok ()) :
    doc.redirectURIs ≠ [] ∧ ∀ uri ∈ doc.redirectURIs, validateRedirectURI env uri = .ok () := by
  unfold validateDocument at h
  obtain ⟨-, h⟩ := ok_of_guard h
  obtain ⟨-, h⟩ := ok_of_guard h
  obtain ⟨-, h⟩ := ok_of_guard h
  obtain ⟨hne, h⟩ := ok_of_guard h
  exact ⟨by simpa using hne, fun uri huri => mapError_eq_ok.mp (forM_ok h uri huri)⟩

theorem readDocument_ok {resp : Response} (h : readDocument env resp url = .ok doc) :
    Vetted env doc := by
  unfold readDocument at h
  obtain ⟨-, h⟩ := ok_of_guard h
  obtain ⟨-, h⟩ := ok_of_guard h
  obtain ⟨body, -, h⟩ := ok_of_bind h
  obtain ⟨-, h⟩ := ok_of_guard h
  cases hdecoded : body.decoded with
  | none =>
    rw [hdecoded] at h
    cases h
  | some d =>
    rw [hdecoded] at h
    obtain ⟨_, hchecked, h⟩ := ok_of_bind h
    obtain rfl := Except.ok.inj h
    obtain ⟨hne, hvalid⟩ := validateDocument_ok hchecked
    refine ⟨hne, hvalid, ?_⟩
    show (if d.tokenEndpointAuthMethod == "" then "none" else d.tokenEndpointAuthMethod) ≠ ""
    split
    · simp
    · rename_i hmethod
      simpa using hmethod

end CIMD

/-! ### What the policy has checked -/

namespace CIMDService

variable {env : Env} {reg : Registrar env} {ctx : ReqID} {clientID : String} {doc : CIMDDocument}

theorem requireApproved_iff {what : String} {approved uris : List String} :
    requireApproved env what approved uris = .ok () ↔ ∀ uri ∈ uris, uri ∈ approved := by
  constructor
  · intro h uri huri
    by_contra hout
    simpa [hout] using forM_ok h uri huri
  · intro h
    refine forM_eq_ok fun uri huri => ?_
    rw [if_pos (List.contains_iff_mem.mpr (h uri huri))]

/-- The document was fetched, its grants are enabled as far as any server knows them, and its
redirect URIs pass the mode of the policy. -/
structure Admitted (reg : Registrar env) (ctx : ReqID) (clientID : String) (doc : CIMDDocument)
    (policy : DCRMode)
    (enabled : Option (List String)) : Prop where
  resolved : reg.dcrMode ctx = .ok policy ∧ reg.enabledGrants ctx = .ok enabled
  fetched : ∃ cfg, reg.cimdConfig ctx = .ok cfg ∧ reg.fetch ctx clientID cfg.fetchConfig = .ok doc
  grants : checkGrantTypesEnabled env doc.grantTypes enabled = []
  mode : DCRService.enforceMode env policy doc.redirectURIs = .ok ()

theorem permit_ok (h : permit reg ctx clientID = .ok doc) :
    ∃ policy enabled, Admitted reg ctx clientID doc policy enabled := by
  unfold permit at h
  obtain ⟨cfg, hcfg, h⟩ := ok_of_bind h
  obtain ⟨-, h⟩ := ok_of_guard h
  obtain ⟨policy, hpolicy, h⟩ := ok_of_bind h
  obtain ⟨hknown, h⟩ := ok_of_guard h
  obtain ⟨hadmin, h⟩ := ok_of_guard h
  obtain ⟨doc', hdoc, h⟩ := ok_of_bind h
  obtain ⟨enabled, henabled, h⟩ := ok_of_bind h
  obtain ⟨_, hgrants, h⟩ := ok_of_bind h
  have hresolved : reg.dcrMode ctx = .ok policy ∧ reg.enabledGrants ctx = .ok enabled :=
    ⟨mapError_eq_ok.mp hpolicy, mapError_eq_ok.mp henabled⟩
  have hfetched : ∃ cfg, reg.cimdConfig ctx = .ok cfg ∧
    reg.fetch ctx clientID cfg.fetchConfig = .ok doc' :=
    ⟨cfg, mapError_eq_ok.mp hcfg, hdoc⟩
  have hgrants : checkGrantTypesEnabled env doc'.grantTypes enabled = [] :=
    ofComplaints_eq_ok.mp (mapError_eq_ok.mp hgrants)
  by_cases hmode : (policy.mode == "approved_redirects") = true
  · rw [if_pos hmode] at h
    obtain ⟨_, happroved, h⟩ := ok_of_bind h
    obtain rfl := Except.ok.inj h
    refine ⟨policy, enabled, hresolved, hfetched, hgrants, ?_⟩
    unfold DCRService.enforceMode
    split
    · rfl
    · exact requireApproved_iff.mpr (requireApproved_iff.mp happroved)
  · rw [if_neg hmode] at h
    obtain rfl := Except.ok.inj h
    refine ⟨policy, enabled, hresolved, hfetched, hgrants, ?_⟩
    -- the mode is known, and neither of the other two
    have hopen : (policy.mode == "open") = true := by
      simpa [knownMode, hmode, hadmin] using hknown
    unfold DCRService.enforceMode
    rw [if_pos hopen]

/-! ### The two doors -/

def registrationOf (c : Client) : CreateParams where
  name := c.name
  redirectURIs := c.redirectURIs
  grantTypes := c.grantTypes
  responseTypes := c.responseTypes
  tokenEndpointAuthMethod := c.tokenEndpointAuthMethod
  isAgent := false
  agentDescription := ""

/-- The document passes the checks that are made of requests only. -/
structure Registrable (doc : CIMDDocument) : Prop where
  name : Text.trimSpace doc.clientName ≠ "" ∧ doc.clientName.utf8ByteSize ≤ maxClientNameLength
  redirects : doc.redirectURIs.length ≤ maxRedirectURIs
  grants : ∀ gt ∈ doc.grantTypes, gt ∈ validGrantTypes
  responses : ∀ rt ∈ doc.responseTypes, rt = "code"
  method : doc.tokenEndpointAuthMethod ∈ ["none", "client_secret_basic", "client_secret_post"]

structure Describes (doc : CIMDDocument) (c : Client) : Prop where
  name : c.name = doc.clientName
  redirects : c.redirectURIs = doc.redirectURIs
  grants : c.grantTypes = doc.grantTypes
  responses : c.responseTypes = doc.responseTypes
  method : c.tokenEndpointAuthMethod = doc.tokenEndpointAuthMethod

theorem validateCreateParams_document {c : Client} {enabled : Option (List String)}
    (hdoc : Describes doc c)
    (hvetted : CIMD.Vetted env doc)
      (hgrants : checkGrantTypesEnabled env doc.grantTypes enabled = []) :
    validateCreateParams env (registrationOf c) enabled = .ok () ↔ Registrable doc := by
  rw [validateCreateParams_iff, registrationOf]
  simp only [hdoc.name, hdoc.redirects, hdoc.grants, hdoc.responses, hdoc.method]
  constructor
  · rintro ⟨hname, ⟨-, hlength, -⟩, hvalid, -, hresponses, hmethod, -⟩
    refine ⟨hname, hlength, hvalid, hresponses, ?_⟩
    have hmethod := validateAuthMethod_ok.mp (hmethod hvetted.method)
    simpa using hmethod
  · intro h
    refine ⟨h.name, ⟨fun hnil => absurd hnil hvetted.redirects, h.redirects, hvetted.valid⟩,
      h.grants, hgrants,
      h.responses, fun _ => validateAuthMethod_ok.mpr (by simpa using h.method), by decide⟩

def Stored (w : World) (c : Client) : Prop := ∃ row ∈ w.clients, row = { c with
    version := row.version }

theorem stored_create {c : Client} {w : World} (h : (ClientStore.create c w).1 = .ok ()) :
    Stored (ClientStore.create c w).2 c := by
  rcases ClientStore.create_cases c w with ⟨e, heq⟩ | ⟨-, v, heq⟩
  · rw [heq] at h
    cases h
  · rw [heq]
    exact ⟨_, List.mem_append_right _ List.mem_cons_self, rfl⟩

theorem stored_update {c : Client} {w : World} (h : (ClientStore.update c w).1 = .ok ()) :
    Stored (ClientStore.update c w).2 c := by
  rcases ClientStore.update_cases c w with ⟨e, heq⟩ | ⟨row, hrow, hread, heq⟩
  · rw [heq] at h
    cases h
  · rw [heq]
    exact ⟨{ c with
      version := row.version + 1 }, Table.mem_updateWhere.mpr ⟨row, hrow, by rw [if_pos hread]⟩,
        rfl⟩

theorem ensures_ingest {w : World} {existing : Option Client} :
    Ensures (solo ctx True) ctx (fun c t => Describes doc c ∧ Stored t c)
      (ingest reg ctx clientID doc existing) w := by
  cases existing with
  | some c =>
    refine .bind (ensures_wrapErr (Ensures.exec (fun _ => ⟨trivial, fun h => absurd rfl h⟩) ?_))
    intro _ hok _ t hst _
    obtain ⟨_, _, _, -, rfl⟩ := hst rfl
    exact ⟨⟨rfl, rfl, rfl, rfl, rfl⟩, stored_update hok⟩
  | none =>
    refine .bindOfExcept fun scope _ => ?_
    refine .bind (ensures_wrapErr (Ensures.exec (fun _ => ⟨trivial, fun h => absurd rfl h⟩) ?_))
    intro _ hok _ t hst _
    obtain ⟨_, _, _, -, rfl⟩ := hst rfl
    exact ⟨⟨rfl, rfl, rfl, rfl, rfl⟩, stored_create hok⟩

/-- **Two doors.** Take any providers, any document and any pattern of store errors. When
`VerifyCIMD` creates or updates a client, the client is in the store with the metadata of the
document, and the mode check of a registration accepts its redirect URIs under the same policy;
`ValidateCreateParams` accepts its metadata under the same enabled grants exactly when the document
passes the checks that are made of requests only. -/
theorem document_registrable_iff (env : Env) (reg : Registrar env) (ctx : ReqID)
    (clientID : String) (w w' : World)
    (plan : List Bool) (c : Client)
      (hrun : (verifyCIMD reg ctx clientID).run plan w = (.ok c, w')) :
    ∃ doc policy enabled, Admitted reg ctx clientID doc policy enabled ∧
      Describes doc c ∧ Stored w' c ∧
      (validateCreateParams env (registrationOf c) enabled = .ok () ∧
          DCRService.enforceMode env policy c.redirectURIs = .ok () ↔
        Registrable doc) := by
  have hens : Ensures (solo ctx True) ctx
    (fun c t => ∃ doc, permit reg ctx clientID = .ok doc ∧ Describes doc c ∧
      Stored t c) (verifyCIMD reg ctx clientID) w := by
    refine .bindOfExcept fun doc hdoc => ?_
    refine (tolerant_solo ctx True).readWrapped trivial fun existing t _ _ _ => ?_
    exact .mono ensures_ingest fun c t h => ⟨doc, hdoc, h⟩
  obtain ⟨doc, hadmit, hdescribes, hstored⟩ := post_of_run hrun hens
  obtain ⟨policy, enabled, hadmitted⟩ := permit_ok hadmit
  obtain ⟨cfg, -, hfetch⟩ := hadmitted.fetched
  obtain ⟨resp, hread⟩ := reg.fetched hfetch
  refine ⟨doc, policy, enabled, hadmitted, hdescribes, hstored, ?_⟩
  rw [validateCreateParams_document hdescribes (CIMD.readDocument_ok hread) hadmitted.grants,
    hdescribes.redirects]
  exact and_iff_left hadmitted.mode

end CIMDService

/-! ### Runs -/

namespace Sample

def clientURL : String := "https://app.example/client.json"

def document (name : String) (grantTypes : List String) : CIMDDocument :=
  ⟨clientURL, ["https://app.example/cb"], name, grantTypes, [], ""⟩

def publishing (doc : CIMDDocument) : Registrar Env.plain where
  dcrMode := fun _ => .ok ⟨"open", []⟩
  cimdConfig := fun _ => .ok ⟨true, true, false, 0⟩
  enabledGrants := fun _ => .ok (some ["authorization_code", "refresh_token"])
  defaultClientScope := fun _ => .ok "notes:read"
  hashClientSecret := .ok
  fetch := fun _ url _ =>
    (CIMD.readDocument Env.plain ⟨200, "application/json",
      [], "", .ok ⟨1, some doc⟩⟩ url).mapError fun _ =>
      .sentinel .cimdFetchFailed
  fetched := fun h => ⟨_, mapError_eq_ok.mp h⟩

def published (doc : CIMDDocument) : Except Err Client :=
  ((CIMDService.verifyCIMD (publishing doc) 0 clientURL).run [] (World.empty 0)).1

end Sample

open Sample in
/-- **A grant that no server knows.** A document that asks for one makes a client that has it, and
so does one whose name is a blank. A registration with the same metadata is refused. -/
theorem CIMDService.unknown_grant_published :
    (published (document "App" ["implicit"])).map Client.grantTypes = .ok ["implicit"] ∧
      (published (document " " [])).map Client.name = .ok " " ∧
      validateCreateParams Env.plain
          ⟨"App", ["https://app.example/cb"], ["implicit"], ["code"], "none", false, ""⟩
          (some ["authorization_code", "refresh_token"]) =
        .error "client validation failed: unsupported grant_type: <implicit>" ∧
      validateCreateParams Env.plain
          ⟨" ", ["https://app.example/cb"], ["authorization_code", "refresh_token"],
            ["code"], "none", false, ""⟩
          (some ["authorization_code", "refresh_token"]) =
        .error "client validation failed: client_name is required" := by
  decide +kernel

open Sample in
/-- A document that leaves everything to the defaults makes a client that could have registered
itself. -/
theorem CIMDService.document_registrable_by_default :
    ∃ c, published (document "App" []) = .ok c ∧ ∃ policy enabled,
      validateCreateParams Env.plain (registrationOf c) enabled = .ok () ∧
        DCRService.enforceMode Env.plain policy c.redirectURIs = .ok () := by
  cases hresult : published (document "App" []) with
  | error e =>
    have hok : (published (document "App" [])).isOk = true := by decide +kernel
    rw [hresult] at hok
    cases hok
  | ok c =>
    obtain ⟨doc, policy, enabled, hadmitted, hdescribes, -, hiff⟩ :=
      CIMDService.document_registrable_iff Env.plain
      (publishing (document "App" [])) 0 clientURL (World.empty 0) _ [] c (Prod.ext hresult rfl)
    obtain ⟨cfg, -, hfetch⟩ := hadmitted.fetched
    have hdoc : (publishing (document "App" [])).fetch 0 clientURL cfg.fetchConfig =
        .ok (CIMD.CIMDDocument.withDefaults (document "App" [])) := by rfl
    obtain rfl := Except.ok.inj (hfetch.symm.trans hdoc)
    exact ⟨c, rfl, policy, enabled,
      hiff.mpr ⟨by decide +kernel, by decide, by decide, by decide, by decide⟩⟩

end AuthServer
