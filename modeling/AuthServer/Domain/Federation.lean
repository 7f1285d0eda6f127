import AuthServer.Domain.Entity

/-!
# Identity providers, assertions and policies

The domain types of enterprise-managed authorization: the identity providers whose assertions the
`jwt-bearer` grant accepts, the assertion itself, the policies an administrator sets for a provider,
and the mapping of its subjects to local users.

A signed assertion carries the key that signed it. Signatures are taken to be perfect: verifying
with a key succeeds exactly when that key signed. -/

namespace AuthServer

structure TrustedIDP where
  id : String
  name : String
  issuer : String
  jwksURI : String
  audience : String
  enabled : Bool
  deriving DecidableEq, Repr

/-- `xaa.Policy`. The list of scopes may be absent, which is not the same as an empty one; for the
other two lists it is. -/
structure XAAPolicy where
  id : String
  idpID : String
  clientIDs : List String
  scopes : Option (List String)
  resources : List String
  enabled : Bool
  createdAt : Time
  deriving DecidableEq, Repr

structure SubjectMapping where
  idpID : String
  idpSubject : String
  /-- Empty when the mapping names no local user. -/
  localUserID : String
  deriving DecidableEq, Repr

/-- The `xaa.subject_mode` setting. -/
inductive SubjectMode
  | strict
  | autoMap
  deriving DecidableEq, Repr

structure IdentityAssertion where
  issuer : String
  subject : String
  audience : String
  resource : String
  clientID : String
  jti : String
  expiry : Int
  issuedAt : Int
  scope : String
  deriving DecidableEq, Repr

structure JSONWebKey where
  kid : String
  key : String
  deriving DecidableEq, Repr

/-- An assertion in a JWT that parses and is signed with one of the accepted algorithms. -/
structure SignedAssertion where
  /-- The `typ` header. -/
  typ : String
  /-- The `kid` header. -/
  kid : String
  /-- The key that signed it. -/
  signer : String
  claims : IdentityAssertion
  deriving DecidableEq, Repr

/-- The `assertion` parameter of a request: absent, a text that is no such JWT, or one. -/
inductive AssertionParam
  | missing
  | malformed
  | signed (a : SignedAssertion)
  deriving DecidableEq, Repr

end AuthServer
