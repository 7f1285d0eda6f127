import AuthServer.Service.Token

/-!
# Revoking tokens

The RFC 7009 endpoint, and the administrator's ways of revoking tokens. Every one of them revokes a
family and then denylists the access tokens tracked for it, in two calls, and goes on when the
second does not work. -/

namespace AuthServer

open Interleave

/-- A token as it is presented for revocation: the text of a refresh token, or an access token. -/
inductive PresentedToken
  | refresh (plain : String)
  | access (claims : AccessTokenClaims)
  deriving DecidableEq, Repr

structure RevokeRequest where
  token : PresentedToken
  clientID : String
  clientSecret : String
  deriving DecidableEq, Repr

namespace RevocationService

/-- May this client revoke? A suspended public client is answered as if it had, a confidential one
is told once its secret is proven. -/
def standing (env : Env) (c : Client) (clientSecret : String) : Except Err Bool :=
  if c.isPublic then .ok c.isActive
  else if clientSecret == "" ||
    !env.compareClientSecret c.secretHash clientSecret || !c.isActive then
    .error (.sentinel .invalidClient)
  else .ok true

def revokeOwnFamily (ctx : ReqID) (clientID : String) (rt : RefreshToken) : Svc Unit := do
  let found ← (fetch (TokenStore.getFamily rt.familyID)).attempt
  match found with
  | .error _ => pure ()
  | .ok family =>
    if family.clientID != clientID then pure ()
    else do
      let r ← (store (TokenStore.revokeFamily ctx rt.familyID)).attempt
      match r with
      | .error _ => pure ()
      | .ok _ => do
        let _ ← (store (RevocationStore.revokeByFamily ctx rt.familyID)).attempt
        pure ()

def tryRevokeMachineToken (env : Env) (clientID : String) (raw : AccessTokenClaims) : Svc Unit := do
  let verdict ← (fetch fun w => .ok (verifyAccessToken env raw w)).attempt
  match verdict with
  | .ok (.ok claims) =>
    if claims.clientID != clientID then pure ()
    else do
      let _ ← (store (MachineTokenStore.revoke claims.jti)).attempt
      pure ()
  | _ => pure ()

def revokePresented (env : Env) (ctx : ReqID) (clientID : String) : PresentedToken → Svc Unit
  | .refresh plain => do
    let r ← (fetch (TokenStore.getRefreshTokenByHash (env.hashSHA256 plain))).attempt
    match r with
    | .error _ => pure ()
    | .ok rt => revokeOwnFamily ctx clientID rt
  | .access raw => tryRevokeMachineToken env clientID raw

/-- `RevocationService.RevokeToken`. -/
def revokeToken (env : Env) (ctx : ReqID) (req : RevokeRequest) : Svc Unit := do
  let r ← (fetch (ClientStore.getByID req.clientID)).attempt
  let c ← Prog.ofExcept (r.mapError fun _ => .sentinel .invalidClient)
  let allowed ← Prog.ofExcept (standing env c req.clientSecret)
  runIf allowed (revokePresented env ctx req.clientID req.token)

end RevocationService

namespace AdminService

/-- The machine-token half of `AdminService.RevokeToken`. -/
def revokeMachineToken (jti : String) : Svc Unit := do
  let found ← wrapErr "get machine token" (fetch (MachineTokenStore.getByJTI jti))
  match found with
  | some _ => wrapErr "revoke machine token" (store (MachineTokenStore.revoke jti))
  | none => Prog.fail (.wrapped .invalidGrant "token not found")

/-- `AdminService.RevokeToken`: the identifier of a family, or of a machine token. -/
def revokeToken (ctx : ReqID) (jti : String) : Svc Unit := do
  let found ← (fetch (TokenStore.getFamily jti)).attempt
  match found with
  | .ok _ => do
    let _ ← wrapErr "revoke family" (store (TokenStore.revokeFamily ctx jti))
    let _ ← (store (RevocationStore.revokeByFamily ctx jti)).attempt
    pure ()
  | .error _ => revokeMachineToken jti

/-- The denylist loop of `ForceLogoutUser`. -/
def denylistFamilies (ctx : ReqID) : List Family → Svc Unit
  | [] => pure ()
  | f :: rest => do
    let _ ← (store (RevocationStore.revokeByFamily ctx f.id)).attempt
    denylistFamilies ctx rest

/-- The families `ForceLogoutUser` is going to denylist. Reading them is recorded in the history
variable. -/
def listForLogout (ctx : ReqID) (id : String) : Call (List Family) := fun w =>
  (.ok (TokenStore.listActiveFamiliesOfUser id 500 w), w.note ctx (.userListed id))

/-- `AdminService.ForceLogoutUser`: the number of families that were revoked. -/
def forceLogoutUser (ctx : ReqID) (id : String) : Svc ℕ := do
  let _ ← fetch (UserStore.getByID id)
  let families ← wrapErr "list user token families" (store (listForLogout ctx id))
  let count ← wrapErr "revoke user tokens" (store (TokenStore.revokeByUserID ctx id))
  denylistFamilies ctx families
  pure count

/-- The transaction of `DeleteUser`. -/
def doDelete (ctx : ReqID) (id : String) (force : Bool) : Call Unit := fun w =>
  match UserStore.getByID id w with
  | .error e => (.error e, w)
  | .ok _ =>
    if (TokenStore.activeOfUser id w).isEmpty then (UserStore.delete id).wrapErr "delete user" w
    else if !force then (.error (.sentinel .userHasActiveTokens), w)
    else
      ((TokenStore.revokeByUserID ctx id).wrapErr "revoke user tokens").andThen
        (fun _ => (UserStore.delete id).wrapErr "delete user") w

/-- `AdminService.DeleteUser`. -/
def deleteUser (ctx : ReqID) (id : String) (force : Bool) : Svc Unit :=
  store (doDelete ctx id force).atomically

end AdminService

namespace IssuanceAdminService

/-- `IssuanceAdminService.Revoke`; the row looked up first is only reported. -/
def revoke (id : String) : Svc Unit := do
  failIf (id == "") (invalidRequest "id is required")
  let _ ← wrapErr "lookup issuance" (fetch fun w => .ok (w.issuances.find? (·.id == id)))
  wrapErr "revoke issuance" (store (IssuanceStore.revoke id))

end IssuanceAdminService

end AuthServer
