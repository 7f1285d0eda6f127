import AuthServer.Store.World

/-!
# Validation of resources, fronting links, identity providers and configuration

`Resource.Validate`, `FrontingLink.Validate` and the scope-map membership check of the fronting
service, `TrustedIDP.Validate`, and what `Config.Validate` asks of an enabled token exchange. Scope
names are checked for being non-empty and unique, and for nothing else; in particular a name may
contain white space.

A Go map is walked in no fixed order, so which of several faults of a scope map is reported is not
determined by the source. Here the entries are walked in the order in which they are listed.
-/

namespace AuthServer

/-- `domain.NewInvalidRequestError`. -/
def invalidRequest (message : String) : Err := .wrapped .invalidRequest message

/-- A character of a slug other than its first. -/
def isSlugChar (c : Char) : Bool :=
  c.isLower || c.isDigit || c == '-'

/-- `slugPattern`: `^[a-z0-9][a-z0-9-]{0,63}$`. -/
def matchesSlugPattern (s : String) : Bool :=
  match s.toList with
  | [] => false
  | c :: cs => (c.isLower || c.isDigit) && cs.all isSlugChar && cs.length ≤ 63

/-- `strings.ToLower`, on ASCII letters. -/
def toLower (s : String) : String :=
  String.ofList (s.toList.map Char.toLower)

def normalizeSlug (s : String) : Except Err String :=
  if matchesSlugPattern (toLower s) then .ok (toLower s) else .error (.sentinel .invalidSlug)

variable (env : Env)

def validateResourceURI (uri : String) : Except Err Unit :=
  if uri == "" then .ok ()
  else
    match env.urlParse uri with
    | none => .error (.fault "uri must be a valid URL")
    | some u =>
      if u.scheme == "" then .error (.fault "uri must be absolute (include scheme + host)")
      else if u.scheme != "http" && u.scheme != "https" then
        .error (.fault ("uri scheme must be http or https, got " ++ env.quote u.scheme))
      else if u.host == "" then .error (.fault "uri must include a host")
      else .ok ()

def validateHTTPSURL (raw field : String) : Except Err Unit :=
  if raw == "" then .error (.fault (field ++ " is required"))
  else
    match env.urlParse raw with
    | none => .error (.fault (field ++ " is not a valid URL"))
    | some u =>
      if u.scheme != "https" then .error (.fault (field ++ " must use HTTPS scheme"))
      else if u.host == "" then .error (.fault (field ++ " must have a host"))
      else .ok ()

/-- `ValidateRedirectURI` of a client that is being registered. -/
def validateRedirectURI (uri : String) : Except String Unit :=
  let refused (why : String) : Except String Unit :=
    .error ("redirect_uri " ++ env.quote uri ++ why)
  match env.urlParse uri with
  | none => refused " is not a valid URL"
  | some u =>
    if u.fragment != "" then refused " must not contain a fragment"
    else if u.scheme == "" || u.host == "" then refused " must have scheme and host"
    else if u.scheme == "http" then
      if u.hostname != "localhost" && u.hostname != "127.0.0.1" && u.hostname != "::1" then
        refused " must use https (http allowed only for localhost)"
      else .ok ()
    else if u.scheme != "https" then refused " must use https scheme"
    else .ok ()

def TrustedIDP.validate (idp : TrustedIDP) : Except Err Unit := do
  if idp.name == "" then throw (.fault "name is required")
  validateHTTPSURL env idp.issuer "issuer"
  if idp.jwksURI != "" then validateHTTPSURL env idp.jwksURI "jwks_uri"
  if idp.audience == "" then throw (.fault "audience is required")

/-- The loop of `validateResourceScopes`, with the names seen so far. -/
def checkScopeNames (env : Env) : ℕ → List String → List CatalogScope → Except Err Unit
  | _, _, [] => .ok ()
  | i, seen, s :: rest =>
    if s.name == "" then
      .error (.fault ("scopes[" ++ Nat.repr i ++ "].name must not be empty"))
    else if seen.contains s.name then
      .error (.fault ("scopes[" ++ Nat.repr i ++ "].name " ++ env.quote s.name ++
        " duplicates an earlier entry"))
    else checkScopeNames env (i + 1) (s.name :: seen) rest

def validateResourceScopes (scopes : List CatalogScope) : Except Err Unit :=
  checkScopeNames env 0 [] scopes

/-- The provider part of `Resource.Validate`. -/
def validateBackend (r : Resource) : Except Err Unit :=
  match r.backendKind with
  | .mint =>
    if r.brokerProviderID != "" then
      .error (.fault "mint resource must not reference a broker provider")
    else .ok ()
  | .broker =>
    if r.brokerProviderID == "" then
      .error (.fault "broker resource must reference a broker provider")
    else .ok ()

def Resource.validate (r : Resource) : Except Err Unit := do
  if r.slug == "" then .error (.sentinel .invalidSlug)
  else if !matchesSlugPattern r.slug then .error (.sentinel .invalidSlug)
  else do
    validateBackend r
    validateResourceURI env r.uri
    validateResourceScopes env r.scopes

/-! ### Fronting links -/

def checkTargets (src : String) : List String → List String → Except Err Unit
  | _, [] => .ok ()
  | seen, t :: rest =>
    if t == "" then
      .error (invalidRequest ("scope_map entry " ++ src ++ " contains an empty target scope"))
    else if seen.contains t then
      .error (invalidRequest
        ("scope_map entry " ++ src ++ " contains duplicate target scope " ++ t))
    else checkTargets src (t :: seen) rest

/-- One scope-map entry, as `FrontingLink.Validate` checks it. -/
def checkEntry (entry : String × List String) : Except Err Unit :=
  if entry.1 == "" then .error (invalidRequest "scope_map keys must not be empty")
  else if entry.2.isEmpty then
    .error (invalidRequest
      ("scope_map entry " ++ entry.1 ++ " must list at least one target scope"))
  else checkTargets entry.1 [] entry.2

def FrontingLink.validate (l : FrontingLink) : Except Err Unit :=
  if l.sourceSlug == "" then .error (invalidRequest "source slug is required")
  else if l.targetSlug == "" then .error (invalidRequest "target slug is required")
  else if !matchesSlugPattern l.sourceSlug then .error (invalidRequest "source slug is malformed")
  else if !matchesSlugPattern l.targetSlug then .error (invalidRequest "target slug is malformed")
  else if l.sourceSlug == l.targetSlug then
    .error (invalidRequest "source and target must differ (no self-loop)")
  else if l.scopeMap.entries.isEmpty then
    .error (invalidRequest "scope_map must contain at least one entry")
  else l.scopeMap.entries.forM checkEntry

def checkMapped (src : String) (target : Resource) (t : String) : Except Err Unit :=
  if target.catalog.contains t then .ok ()
  else .error (invalidRequest
    ("scope_map value " ++ env.quote t ++ " (under key " ++ env.quote src ++
    ") is not a scope on target resource " ++ env.quote target.slug))

/-- `assertScopeMapMembership`: keys are scopes of the source, values are scopes of the target. -/
def assertScopeMapMembership (m : ScopeMap) (source target : Resource) : Except Err Unit :=
  m.entries.forM fun entry =>
    if source.catalog.contains entry.1 then entry.2.forM (checkMapped env entry.1 target)
    else .error (invalidRequest ("scope_map key " ++ env.quote entry.1 ++
      " is not a scope on source resource " ++ env.quote source.slug))

variable {ε α : Type} {f : α → Except ε Unit} {l : List α}

/-- A sequence of checks succeeds only if each of them does. -/
theorem forM_ok (h : l.forM f = .ok ()) : ∀ a ∈ l, f a = .ok () := by
  induction l with
  | nil => simp
  | cons a rest ih =>
    cases ha : f a with
    | error e => simp [List.forM, bind, Except.bind, ha] at h
    | ok u =>
      intro b hb
      rcases List.mem_cons.mp hb with rfl | hmem
      · exact ha
      · refine ih ?_ b hmem
        simpa [List.forM, bind, Except.bind, ha] using h

theorem forM_eq_ok (h : ∀ a ∈ l, f a = .ok ()) :
    l.forM f = .ok () := by
  induction l with
  | nil => rfl
  | cons a rest ih =>
    have hrest := ih fun b hb => h b (List.mem_cons_of_mem a hb)
    simpa [List.forM, bind, Except.bind, h a List.mem_cons_self] using hrest

theorem FrontingLink.ne_of_validate {l : FrontingLink} (h : l.validate = .ok ()) : l.sourceSlug ≠
    l.targetSlug := by
  intro heq
  unfold validate at h
  split at h
  · cases h
  · split at h
    · cases h
    · split at h
      · cases h
      · split at h
        · cases h
        · rw [if_pos (by simp [heq])] at h
          cases h

variable {source target : Resource} {m : ScopeMap}

/-- What a link that passed the membership check maps is declared by the source. -/
theorem key_mem_of_assertScopeMapMembership {env : Env}
    (h : assertScopeMapMembership env m source target = .ok ()) {entry : String × List String}
    (hentry : entry ∈ m.entries) : entry.1 ∈ source.catalog := by
  have hsrc := forM_ok h entry hentry
  by_contra hne
  rw [if_neg (by simpa using hne)] at hsrc
  cases hsrc

/-- What a link that passed the membership check maps to is declared by the target. -/
theorem mem_catalog_of_assertScopeMapMembership {env : Env}
    (h : assertScopeMapMembership env m source target = .ok ()) {src t : String} {ts : List String}
    (hentry : (src, ts) ∈ m.entries) (ht : t ∈ ts) : t ∈ target.catalog := by
  have hsrc := forM_ok h (src, ts) hentry
  by_cases hs : source.catalog.contains src = true
  · rw [if_pos hs] at hsrc
    have htgt := forM_ok hsrc t ht
    unfold checkMapped at htgt
    by_contra hne
    simp [hne] at htgt
  · rw [if_neg hs] at hsrc
    cases hsrc

/-- The token-exchange block of `Config.Validate`, when the exchange is enabled: what is wrong with
the configuration. The exchange service is built for an enabled exchange only. -/
def TokenExchangeConfig.validate (c : TokenExchangeConfig) : List String :=
  (if c.maxChainDepth < 1 || c.maxChainDepth > 10 then
    ["token_exchange.max_chain_depth must be between 1 and 10, got " ++ toString c.maxChainDepth]
  else []) ++
  (if c.tokenExpiry ≤ 0 then
    ["token_exchange.token_expiry must be positive when token_exchange is enabled"]
  else [])

theorem TokenExchangeConfig.maxChainDepth_pos {c : TokenExchangeConfig} (h : c.validate = []) :
    1 ≤ c.maxChainDepth := by
  by_contra hlt
  have : c.maxChainDepth < 1 := by omega
  simp [validate, this] at h

end AuthServer
