import AuthServer.Domain.Validation

/-!
# What a client may be registered with

`ValidateCreateParams` of `internal/domain/client/validation.go` and the defaults of `entity.go`.
All checks are made and all complaints collected, so that a registration is refused with everything
that is wrong with it.

`checkGrantTypesEnabled` passes over a grant type that no server knows, since `ValidateGrantType`
has complained about it already. That is so in `ValidateCreateParams`, which calls both.
`ValidateGrantTypesEnabled` is the first of the two alone.
-/

namespace AuthServer

/-- `client.CreateParams`, as far as it is read. -/
structure CreateParams where
  name : String
  redirectURIs : List String
  grantTypes : List String
  responseTypes : List String
  tokenEndpointAuthMethod : String
  isAgent : Bool
  agentDescription : String
  deriving DecidableEq, Repr

def CreateParams.defaults (p : CreateParams) : CreateParams :=
  { p with
    grantTypes :=
      if p.grantTypes.isEmpty then ["authorization_code", "refresh_token"] else p.grantTypes
    responseTypes := if p.responseTypes.isEmpty then ["code"] else p.responseTypes
    tokenEndpointAuthMethod :=
      if p.tokenEndpointAuthMethod == "" then "none" else p.tokenEndpointAuthMethod }

def maxClientNameLength : ℕ := 255

def maxRedirectURIs : ℕ := 10

def maxAgentDescriptionLength : ℕ := 255

def validGrantTypes : List String :=
  ["authorization_code", "refresh_token", "client_credentials",
    "urn:ietf:params:oauth:grant-type:token-exchange",
      "urn:ietf:params:oauth:grant-type:jwt-bearer"]

variable (env : Env)

def validateGrantType (gt : String) : Except String Unit :=
  if validGrantTypes.contains gt then .ok ()
    else .error ("unsupported grant_type: " ++ env.quote gt)

def validateResponseType (rt : String) : Except String Unit :=
  if rt != "code" then
    .error ("unsupported response_type: " ++ env.quote rt ++ " (only \"code\" is supported)")
  else .ok ()

def validateAuthMethod (method : String) : Except String Unit :=
  if method == "none" || method == "client_secret_basic" ||
    method == "client_secret_post" then .ok ()
  else .error ("unsupported token_endpoint_auth_method: " ++ env.quote method)

variable (grantTypes : List String)

def requiresRedirectURI : Bool :=
  grantTypes.any fun gt => gt == "authorization_code" || gt == "refresh_token"

/-- `grantTypeEnvVars`. -/
def grantTypeEnvVar (gt : String) : Option String :=
  if gt == "client_credentials" then some "AUTHPLANE_CLIENT_CREDENTIALS_ENABLED"
  else if gt == "urn:ietf:params:oauth:grant-type:token-exchange" then
    some "AUTHPLANE_TOKEN_EXCHANGE_ENABLED"
  else if gt == "urn:ietf:params:oauth:grant-type:jwt-bearer" then some "AUTHPLANE_XAA_ENABLED"
  else none

/-- The complaint about a grant type that the server does not honour. -/
def grantTypeDisabled (gt : String) : String :=
  "grant_type " ++ env.quote gt ++ " is not enabled on this server" ++
    (match grantTypeEnvVar gt with
    | some envVar => " — set " ++ envVar ++ "=true to enable it"
    | none => "")

def complaint : Except String Unit → List String
  | .ok () => []
  | .error e => [e]

/-- `checkGrantTypesEnabled`: without a set of enabled grants there is nothing to check. -/
def checkGrantTypesEnabled : Option (List String) → List String
  | none => []
  | some enabled => grantTypes.flatMap fun gt =>
      if enabled.contains gt then []
      else if complaint (validateGrantType env gt) ≠ [] then []
      else [grantTypeDisabled env gt]

/-- `ValidationError.Error`. -/
def validationError (errs : List String) : String :=
  "client validation failed: " ++ "; ".intercalate errs

def ofComplaints (errs : List String) : Except String Unit :=
  if errs.isEmpty then .ok () else .error (validationError errs)

def validateGrantTypesEnabled (enabledGrants : Option (List String)) : Except String Unit :=
  ofComplaints (checkGrantTypesEnabled env grantTypes enabledGrants)

def validateApplicationType (t : String) : Except String Unit :=
  if t == "" || t == "web" || t == "native" then .ok ()
  else .error (validationError
    ["application_type must be \"web\" or \"native\", got \"" ++ t ++ "\""])

def Client.effectiveApplicationType (c : Client) : String :=
  if c.applicationType == "" then "web" else c.applicationType

def nameComplaints (name : String) : List String :=
  if Text.trimSpace name == "" then ["client_name is required"]
  else if maxClientNameLength < name.utf8ByteSize then ["client_name exceeds 255 characters"]
  else []

def redirectComplaints (redirectURIs grantTypes : List String) : List String :=
  (if redirectURIs.isEmpty && requiresRedirectURI grantTypes then
    ["at least one redirect_uri is required"]
    else []) ++
  (if maxRedirectURIs < redirectURIs.length then ["too many redirect_uris (max 10)"] else []) ++
  redirectURIs.flatMap fun uri => complaint (validateRedirectURI env uri)

/-- `ValidateCreateParams`. Proofs go by `validateCreateParams_iff`. -/
@[irreducible] def validateCreateParams (p : CreateParams) (enabledGrants : Option (List String)) :
    Except String Unit :=
  ofComplaints
    (nameComplaints p.name ++ redirectComplaints env p.redirectURIs p.grantTypes ++
      (p.grantTypes.flatMap fun gt => complaint (validateGrantType env gt)) ++
      checkGrantTypesEnabled env p.grantTypes enabledGrants ++
      (p.responseTypes.flatMap fun rt => complaint (validateResponseType env rt)) ++
      (if p.tokenEndpointAuthMethod != "" then
        complaint (validateAuthMethod env p.tokenEndpointAuthMethod)
        else []) ++
      if maxAgentDescriptionLength < p.agentDescription.utf8ByteSize then
        ["agent_description exceeds 255 characters"]
      else [])

/-! ### What passes -/

theorem complaint_eq_nil {r : Except String Unit} : complaint r = [] ↔ r = .ok () := by
  cases r with
  | ok u => simp [complaint]
  | error e => simp [complaint]

theorem ofComplaints_eq_ok {errs : List String} : ofComplaints errs = .ok () ↔ errs = [] := by
  cases errs with
  | nil => simp [ofComplaints]
  | cons e rest => simp [ofComplaints]

theorem validateGrantType_ok {env : Env} {gt : String} : validateGrantType env gt = .ok () ↔
    gt ∈ validGrantTypes := by
  simp [validateGrantType]

theorem validateResponseType_ok {env : Env} {rt : String} :
    validateResponseType env rt = .ok () ↔ rt = "code" := by
  simp [validateResponseType]

theorem validateAuthMethod_ok {env : Env} {method : String} :
    validateAuthMethod env method = .ok () ↔
      method = "none" ∨ method = "client_secret_basic" ∨ method = "client_secret_post" := by
  unfold validateAuthMethod
  split
  · rename_i h
    simpa [or_assoc] using h
  · rename_i h
    simpa [or_assoc] using h

theorem nameComplaints_eq_nil {name : String} :
    nameComplaints name = [] ↔ Text.trimSpace name ≠ "" ∧
      name.utf8ByteSize ≤ maxClientNameLength := by
  unfold nameComplaints
  by_cases hblank : Text.trimSpace name = ""
  · simp [hblank]
  · simp [hblank]

theorem redirectComplaints_eq_nil {env : Env} {redirectURIs grantTypes : List String} :
    redirectComplaints env redirectURIs grantTypes = [] ↔
      (redirectURIs = [] → requiresRedirectURI grantTypes = false) ∧
      redirectURIs.length ≤ maxRedirectURIs ∧ ∀ uri ∈ redirectURIs,
        validateRedirectURI env uri = .ok () := by
  simp [redirectComplaints, complaint_eq_nil]

/-- **What passes.** -/
theorem validateCreateParams_iff {env : Env} {p : CreateParams} {enabled : Option (List String)} :
    validateCreateParams env p enabled = .ok () ↔
      (Text.trimSpace p.name ≠ "" ∧ p.name.utf8ByteSize ≤ maxClientNameLength) ∧
      ((p.redirectURIs = [] → requiresRedirectURI p.grantTypes = false) ∧
        p.redirectURIs.length ≤ maxRedirectURIs ∧
        ∀ uri ∈ p.redirectURIs, validateRedirectURI env uri = .ok ()) ∧
      (∀ gt ∈ p.grantTypes, gt ∈ validGrantTypes) ∧
      checkGrantTypesEnabled env p.grantTypes enabled = [] ∧
      (∀ rt ∈ p.responseTypes, rt = "code") ∧
      (p.tokenEndpointAuthMethod ≠ "" → validateAuthMethod env p.tokenEndpointAuthMethod = .ok ()) ∧
      p.agentDescription.utf8ByteSize ≤ maxAgentDescriptionLength := by
  unfold validateCreateParams
  simp only [ofComplaints_eq_ok, List.append_eq_nil_iff, nameComplaints_eq_nil,
    redirectComplaints_eq_nil,
    List.flatMap_eq_nil_iff, complaint_eq_nil, validateGrantType_ok,
      validateResponseType_ok, and_assoc]
  simp [complaint_eq_nil]

end AuthServer
