import AuthServer.Interleave.Yields
import AuthServer.Service.Serve

/-!
# The scope of a `jwt-bearer` token

The grant composes three bounds. The client's registered scopes and the assertion's scope claim make
the ceiling; the request must lie within it; and the policy that admits the grant may have a scope
list, which the request must lie within too. Each bound is checked by inclusion, so what passes all
of them is within all of them, with one exception.

`EvaluatePolicy` takes an empty set for a request that asks for nothing in particular and puts the
policy's own list in its place. The grant means never to pass it an empty set: it refuses a client
without scopes and an assertion whose scopes miss the client's. But a scope parameter of white space
only is not empty as a string, and is the empty set once parsed. That set is within every ceiling,
and what comes back from the policy has not been compared with any. -/

namespace AuthServer

open Interleave

/-! ### The bounds -/

namespace XAAPolicyService

def listed (p : XAAPolicy) (sc : String) : Prop :=
  ∃ names, p.scopes = some names ∧ ∃ entry ∈ names, sc ∈ Text.fields entry

variable {names : List String} {sc : String}

theorem mem_maximum :
    sc ∈ (maximum names).names ↔ ∃ entry ∈ names, sc ∈ Text.fields entry := by
  rw [maximum, joinScopes, ScopeSet.mem_parse, Text.fields_join, List.mem_flatMap]

variable {clientID resource : String} {given : ScopeSet} {p : XAAPolicy}

/-- A request that asks for something comes back as it was, within the policy's list. -/
theorem effectiveScope_of_ne_empty (hgiven : given.isEmpty = false) :
    effectiveScope given p = given := by
  unfold effectiveScope
  cases p.scopes with
  | none => rfl
  | some names => simp [hgiven]

theorem listed_of_admits (hadmits : admits clientID resource given p = true)
    (hgiven : given.isEmpty = false) (hnames : p.scopes = some names) :
    ∀ sc ∈ given.names, ∃ entry ∈ names, sc ∈ Text.fields entry := by
  simp only [admits, Bool.and_eq_true, hnames, scopesAdmit, hgiven, Bool.false_or,
    ScopeSet.isSubset_iff] at hadmits
  exact fun sc hsc => mem_maximum.mp (hadmits.2.2 sc hsc)

/-- A request that asks for nothing is filled in with the policy's list. -/
theorem mem_effectiveScope_of_empty (hgiven : given.isEmpty = true) :
    sc ∈ (effectiveScope given p).names ↔ listed p sc := by
  have hnone : given.names = [] := ScopeSet.isEmpty_iff.mp hgiven
  unfold effectiveScope listed
  cases p.scopes with
  | none => simp [hnone]
  | some names => simp [hgiven, mem_maximum]

theorem word_of_mem_effectiveScope (hwords : ∀ s ∈ given.names, Text.Word s) :
    ∀ s ∈ (effectiveScope given p).names, Text.Word s := by
  cases hgiven : given.isEmpty with
  | false => rwa [effectiveScope_of_ne_empty hgiven]
  | true =>
    intro s hs
    obtain ⟨_, _, _, _, hmem⟩ := (mem_effectiveScope_of_empty hgiven).mp hs
    exact Text.word_of_mem_fields hmem

end XAAPolicyService

open XAAPolicyService

namespace JWTBearerService

/-- The scope parameter is given and holds no scope. -/
def BlankScope (requested : String) : Prop :=
  requested ≠ "" ∧ Text.fields requested = []

variable {c : Client}

theorem ceiling_spec {asserted : String} {composed : ScopeSet}
    (h : ceiling c asserted = .ok composed) : composed.isEmpty = false ∧
      ∀ sc ∈ composed.names, sc ∈ Text.fields c.scope ∧
        (asserted ≠ "" → sc ∈ Text.fields asserted) := by
  unfold ceiling at h
  simp only at h
  split at h
  · cases h
  · rename_i hclient
    split at h
    · rename_i hasserted
      split at h
      · cases h
      · rename_i hne
        obtain rfl := Except.ok.inj h
        refine ⟨Bool.eq_false_iff.mpr hne, fun sc hsc => ?_⟩
        obtain ⟨hc, ha⟩ := ScopeSet.mem_intersect.mp hsc
        exact ⟨ScopeSet.mem_parse.mp hc, fun _ => ScopeSet.mem_parse.mp ha⟩
    · rename_i hasserted
      obtain rfl := Except.ok.inj h
      refine ⟨Bool.eq_false_iff.mpr hclient, fun sc hsc =>
        ⟨ScopeSet.mem_parse.mp hsc, fun hne => ?_⟩⟩
      exact absurd (by simpa using hasserted) hne

variable {given : ScopeSet}

/-- What enters policy evaluation is within the ceiling, and empty only for a blank scope
parameter. -/
theorem requestedScopes_spec {asserted requested : String}
    (h : requestedScopes c asserted requested = .ok given) :
    (given.isEmpty = true ↔ BlankScope requested) ∧
      ∀ sc ∈ given.names, sc ∈ Text.fields c.scope ∧
        (asserted ≠ "" → sc ∈ Text.fields asserted) := by
  unfold requestedScopes at h
  cases hceiling : ceiling c asserted with
  | error e =>
    rw [hceiling] at h
    cases h
  | ok composed =>
    obtain ⟨hne, hwithin⟩ := ceiling_spec hceiling
    rw [hceiling] at h
    change (if requested != "" then _ else _) = Except.ok given at h
    split at h
    · rename_i hreq
      split at h
      · rename_i hsub
        obtain rfl := Except.ok.inj h
        refine ⟨?_, fun sc hsc => hwithin sc (ScopeSet.isSubset_iff.mp hsub sc hsc)⟩
        rw [ScopeSet.isEmpty_iff, ScopeSet.parse, List.dedup_eq_nil]
        exact ⟨fun hnil => ⟨by simpa using hreq, hnil⟩, fun hblank => hblank.2⟩
      · cases h
    · rename_i hreq
      obtain rfl := Except.ok.inj h
      refine ⟨⟨fun hempty => ?_, fun hblank => absurd (by simpa using hreq) hblank.1⟩, hwithin⟩
      rw [hne] at hempty
      cases hempty

/-- The scopes of a token are within the client's registered scopes, within the assertion's scope
claim if it has one, within the scope list of the policy that admitted the grant if it has one, and
within the set that policy was given. -/
structure WithinCeilings (c : Client) (asserted : String) (p : XAAPolicy) (given : ScopeSet)
    (scopes : List String) : Prop where
  client : ∀ sc ∈ scopes, sc ∈ Text.fields c.scope
  assertion : asserted ≠ "" → ∀ sc ∈ scopes, sc ∈ Text.fields asserted
  policy : ∀ names, p.scopes = some names → ∀ sc ∈ scopes, ∃ entry ∈ names, sc ∈ Text.fields entry
  narrowed : ∀ sc ∈ scopes, sc ∈ given.names

/-- **The decision, as sets.** -/
theorem withinCeilings_iff {asserted requested clientID resource : String}
    {p : XAAPolicy} (hgiven : requestedScopes c asserted requested = .ok given)
    (hadmits : admits clientID resource given p = true) :
    WithinCeilings c asserted p given (Text.fields (effectiveScope given p).toString) ↔
      ¬(BlankScope requested ∧ ∃ sc, listed p sc) := by
  obtain ⟨hempty, hwithin⟩ := requestedScopes_spec hgiven
  have hwords : ∀ sc ∈ given.names, Text.Word sc := fun sc hsc =>
    Text.word_of_mem_fields (hwithin sc hsc).1
  have hmem : ∀ sc, sc ∈ Text.fields (effectiveScope given p).toString ↔
      sc ∈ (effectiveScope given p).names := fun sc =>
    ScopeSet.mem_fields_toString (word_of_mem_effectiveScope hwords)
  constructor
  · rintro h ⟨hblank, sc, hsc⟩
    -- what the policy fills in was not in the empty set it was given
    have hissued := (hmem sc).mpr ((mem_effectiveScope_of_empty (hempty.mpr hblank)).mpr hsc)
    have hin := h.narrowed sc hissued
    rw [ScopeSet.isEmpty_iff.mp (hempty.mpr hblank)] at hin
    cases hin
  · intro hcond
    cases hgivenEmpty : given.isEmpty with
    | true =>
      -- nothing is filled in, so nothing is issued
      have hnone : ∀ sc, sc ∉ Text.fields (effectiveScope given p).toString := fun sc hsc =>
        hcond ⟨hempty.mp hgivenEmpty, sc,
          (mem_effectiveScope_of_empty hgivenEmpty).mp ((hmem sc).mp hsc)⟩
      exact ⟨fun sc hsc => (hnone sc hsc).elim, fun _ sc hsc => (hnone sc hsc).elim,
        fun _ _ sc hsc => (hnone sc hsc).elim, fun sc hsc => (hnone sc hsc).elim⟩
    | false =>
      have hsame : ∀ sc, sc ∈ Text.fields (effectiveScope given p).toString → sc ∈ given.names :=
        fun sc hsc => by
          have hsc := (hmem sc).mp hsc
          rwa [effectiveScope_of_ne_empty hgivenEmpty] at hsc
      exact ⟨fun sc hsc => (hwithin sc (hsame sc hsc)).1,
        fun hne sc hsc => (hwithin sc (hsame sc hsc)).2 hne,
        fun names hnames sc hsc => listed_of_admits hadmits hgivenEmpty hnames sc
          (hsame sc hsc), hsame⟩

/-! ### The grant -/

theorem yields_issue {env : Env} {ctx : ReqID} {detail : String} {lifetime : Time}
    {m : MachineIssue} :
    (m.issue env ctx detail lifetime).Yields fun resp => resp.accessToken.clientID = m.clientID ∧
      resp.accessToken.scope = m.scopes.toString ∧ resp.scope = m.scopes.toString := by
  refine .skip fun agent => Prog.Yields.bind (Prog.yields_ofExcept fun signed hsigned => ?_)
  obtain ⟨rfl, -⟩ := signAccessToken_ok (mapError_eq_ok.mp hsigned)
  exact .skip fun _ => .skip fun _ => .skip fun _ => Prog.yields_pure ⟨rfl, rfl, rfl⟩

/-- What the grant decides from the store it finds: the client, the provider, the resource, the set
of scopes given to the policies, and the policy that admits it. -/
structure Decided (env : Env) (req : JWTBearerRequest) (w : World) (c : Client)
    (a : IdentityAssertion)
    (given : ScopeSet) (p : XAAPolicy) : Prop where
  client : ClientStore.getByID req.clientID w = .ok c
  assertion : ∃ signed, req.assertion = .signed signed ∧ signed.claims = a
  requested : requestedScopes c a.scope req.scope = .ok given
  policy : ∃ idp resource, IDPStore.getByIssuer a.issuer w = .ok idp ∧
    reconcileResource env req.resource a.resource = .ok resource ∧
    (XAAPolicyStore.listByIDP idp.id w).find? (admits req.clientID resource given) = some p

variable {a : SignedAssertion}

theorem assertion_of_parse {param : AssertionParam}
    (h : parseAssertion param = .ok a) : param = .signed a := by
  cases param with
  | missing => cases h
  | malformed => cases h
  | signed a' => rw [Except.ok.inj h]

theorem issuer_of_extract {issuer : String} (h : extractIssuer a = .ok issuer) :
    issuer = a.claims.issuer := by
  unfold extractIssuer at h
  split at h
  · cases h
  · exact (Except.ok.inj h).symm

variable {env : Env} {i : ReqID} {w : World} {req : JWTBearerRequest}

theorem ensures_grantAsserted {idp : TrustedIDP} {a : IdentityAssertion} {resource : String}
    {s : World} (hpolicies : s.xaaPolicies = w.xaaPolicies) :
    Ensures (solo i True) i
      (fun resp _ => ∃ given p, requestedScopes c a.scope req.scope = .ok given ∧
      (XAAPolicyStore.listByIDP idp.id w).find? (admits a.clientID resource given) = some p ∧
      resp.accessToken.scope = (effectiveScope given p).toString ∧
      resp.scope = (effectiveScope given p).toString)
      (grantAsserted env i req c idp a resource) s := by
  have hC := tolerant_solo i True
  have hconsume : Ensures (solo i True) i (fun _ t => t.xaaPolicies = w.xaaPolicies)
      (consumeAssertion a) s := by
    refine .bind (Ensures.attempt_exec (fun _ => ⟨trivial, fun h => absurd rfl h⟩)
      (fun _ t hst _ => ?_) fun _ t hst _ => ?_)
    · obtain ⟨_, _, _, -, rfl⟩ := hst rfl
      exact Ensures.ofExcept fun _ _ =>
        ((Write.frame env i (.consumeAssertion _ _) s).same .federation
          (by simp [Write.touches])).2.1.trans hpolicies
    · exact Ensures.ofExcept fun _ h => by cases h
  refine .seq hconsume fun _ t₁ h₁ => ?_
  refine Ensures.bindOfExcept fun given hgiven => ?_
  refine hC.pass (each_checkResource _) trivial fun _ t₂ h₂ _ => ?_
  refine .bind ?_
  refine hC.readWrapped trivial fun policies t₃ _ _ hread => ?_
  refine .ofExcept fun scopes hdecided => ?_
  have hlist : policies = XAAPolicyStore.listByIDP idp.id w := by
    have hread := hread.of_solo fun u hu hu' => by
      obtain ⟨_, _, _, -, rfl⟩ := hu
      exact hu'
    obtain ⟨_, _, _, -, rfl⟩ := h₂ rfl
    rw [← Except.ok.inj hread]
    simp only [XAAPolicyStore.listByIDP, h₁]
  subst hlist
  unfold decidePolicy at hdecided
  split at hdecided
  · rename_i p hp
    obtain rfl := Except.ok.inj hdecided
    refine hC.pass (each_dpopThumbprint _ _) trivial fun jkt t₄ _ _ => ?_
    refine hC.pass each_timeNow trivial fun now t₅ _ _ => ?_
    refine hC.pass (each_generateRandomString _ _) trivial fun jti t₆ _ _ => ?_
    refine hC.pass (JWTBearerService.each_tokenSubject _ _) trivial fun sub t₇ _ _ => ?_
    refine .mono (Safe.and_yields (ensures_solo _) yields_issue) fun resp t h => ?_
    exact ⟨given, p, hgiven, hp, h.2.2⟩
  · cases hdecided

/-- **The scope of a token.** Take any store, any request and any pattern of store errors. When the
grant returns a token, the token's scope is the one decided by the policy that admitted it, and is
within the client's registered scopes, the assertion's scope claim, the policy's scope list and the
set the policy was given exactly when the scope parameter is not a string of white space only, or
that policy's scope list names no scope. -/
theorem asserted_scope_within_iff (env : Env) (ctx : ReqID) (req : JWTBearerRequest) (w w' : World)
    (plan : List Bool) (resp : MachineTokenResponse)
    (hrun : (grantJWTBearer env ctx req).run plan w = (.ok resp, w')) :
    ∃ c a given p, Decided env req w c a given p ∧ resp.scope = resp.accessToken.scope ∧
      (WithinCeilings c a.scope p given (Text.fields resp.accessToken.scope) ↔
        ¬(BlankScope req.scope ∧ ∃ sc, listed p sc)) := by
  apply post_of_run (i := ctx) hrun
  have hC := tolerant_solo ctx True
  simp only [grantJWTBearer, authenticateClient, authenticateMachine, lookupIDP,
    validateAssertion, Prog.bind_assoc, Prog.pure_bind]
  refine .bindFailIf fun _ => ?_
  refine hC.readOr trivial fun c t₁ h₁ _ hclient => ?_
  refine .bindFailIf fun _ => .bindFailIf fun _ =>
    Ensures.bindFailIf fun _ => .bindFailIf fun _ => ?_
  refine .bindOfExcept fun signed hsigned => ?_
  refine .bindOfExcept fun issuer hissuer => ?_
  refine hC.readOr trivial fun idp t₂ h₂ _ hidp => ?_
  refine .bindFailIf fun _ => ?_
  refine hC.pass each_timeNow trivial fun now t₃ h₃ _ => ?_
  refine .bindOfExcept fun keys _ => ?_
  refine hC.pass each_timeNow trivial fun now' t₄ h₄ _ => ?_
  refine .bindOfExcept fun a ha => ?_
  refine .bindFailIf fun hown => ?_
  refine .bindOfExcept fun resource hresource => ?_
  have hclient : ClientStore.getByID req.clientID w = .ok c := hclient.of_solo fun u hu hget => by
    obtain ⟨_, _, _, -, rfl⟩ := hu
    exact hget
  have hidp : IDPStore.getByIssuer issuer w = .ok idp := by
    have hidp := hidp.of_solo fun u hu hget => by
      obtain ⟨_, _, _, -, rfl⟩ := hu
      exact hget
    obtain ⟨_, _, _, -, rfl⟩ := h₁ rfl
    exact hidp
  have hpolicies : t₄.xaaPolicies = w.xaaPolicies := by
    obtain ⟨_, _, _, -, rfl⟩ := (solo ctx True).rely_trans
      ((solo ctx True).rely_trans ((solo ctx True).rely_trans h₁ h₂) h₃) h₄ rfl
    rfl
  have hassertion := assertion_of_parse hsigned
  obtain rfl := issuer_of_extract hissuer
  obtain rfl := (validateIDJAG_ok ha).1
  have hown : signed.claims.clientID = req.clientID := by simpa using hown
  refine .mono (ensures_grantAsserted hpolicies) fun resp t h => ?_
  obtain ⟨given, p, hgiven, hp, htoken, hscope⟩ := h
  rw [hown] at hp
  refine ⟨c, signed.claims, given, p,
    ⟨hclient, ⟨signed, hassertion, rfl⟩, hgiven, idp, resource, hidp, hresource, hp⟩,
    hscope.trans htoken.symm, ?_⟩
  rw [htoken]
  exact withinCeilings_iff hgiven (List.find?_some hp)

end JWTBearerService

namespace Sample

def reader : Client :=
  { app with grantTypes := ["urn:ietf:params:oauth:grant-type:jwt-bearer"], scope := "notes:read" }

/-- A provider, whose only policy lists the given scopes. -/
def federated (scopes : List String) : World :=
  { world [] with
    clients := [reader]
    trustedIDPs := [⟨"idp", "IdP", "https://idp", "https://idp/jwks", "https://as", true⟩]
    xaaPolicies := [⟨"p", "idp", [], some scopes, [], true, 0⟩] }

def assert (scope : String) : JWTBearerRequest :=
  ⟨.signed ⟨"oauth-id-jag+jwt", "", "https://idp",
      ⟨"https://idp", "user", "https://as", "", "app", "jti", 1100, 990, "notes:read"⟩⟩,
    "app", "secret", scope, "", ⟨"", "", ""⟩⟩

def assertedScope (scope : String) (scopes : List String) : Except Err String :=
  ((JWTBearerService.grantJWTBearer Env.plain 0 (assert scope)).run [] (federated scopes)).1.map
    (·.accessToken.scope)

end Sample

open Sample in
/-- **A blank scope parameter takes the policy's scopes.** The client is registered for one scope
and the assertion names the same one; a policy lists another. Without a scope parameter, or with one
that names the client's scope, the grant is refused. With a single space the token carries the
policy's scope. -/
theorem JWTBearerService.blank_scope_escapes :
    assertedScope "" ["notes:admin"] = .error (.sentinel .assertionPolicyDenied) ∧
      assertedScope "notes:read" ["notes:admin"] = .error (.sentinel .assertionPolicyDenied) ∧
      assertedScope " " ["notes:admin"] = .ok "notes:admin" ∧
      "notes:admin" ∉ Text.fields reader.scope := by
  decide +kernel

open Sample in
/-- A request for the scope of the client and of the assertion is granted within all bounds. -/
theorem JWTBearerService.asserted_scope_within_reader :
    ∃ c a given p, Decided Env.plain (assert "notes:read") (federated ["notes:read", "notes:admin"])
        c a given p ∧ WithinCeilings c a.scope p given ["notes:read"] := by
  have hscope : assertedScope "notes:read" ["notes:read", "notes:admin"] = .ok "notes:read" := by
    decide +kernel
  unfold assertedScope at hscope
  cases hresp : ((JWTBearerService.grantJWTBearer Env.plain 0 (assert "notes:read")).run []
      (federated ["notes:read", "notes:admin"])).1 with
  | error e =>
    rw [hresp] at hscope
    cases hscope
  | ok resp =>
    rw [hresp] at hscope
    obtain ⟨c, a, given, p, hdecided, -, hiff⟩ :=
      JWTBearerService.asserted_scope_within_iff Env.plain 0
      (assert "notes:read") (federated ["notes:read", "notes:admin"]) _ [] resp (Prod.ext hresp rfl)
    have hfields : Text.fields "notes:read" = ["notes:read"] := by decide +kernel
    rw [show resp.accessToken.scope = "notes:read" from Except.ok.inj hscope, hfields] at hiff
    refine ⟨c, a, given, p, hdecided, hiff.mpr fun hblank => ?_⟩
    exact absurd hblank.1.2 (by decide +kernel)

end AuthServer
