import AuthServer.Store.World
import AuthServer.Table.Grows

/-!
# Signing in with an upstream identity, and editing accounts

`OIDCFacade.AuthenticateOIDC` of `internal/services/oidc.go`, and `CreateUser`, `UpdateUser`,
`DisableUser` and `EnableUser` of `internal/services/admin.go`, on the table of users in full
(`internal/adapters/sqlite/user.go`, with the unique indexes of the migrations 014 and 015). An
upstream identity is found by its subject. Whoever writes a row has read it, and the write goes
through only if the row still has the version that was read.

The exchange of the code at the upstream is a parameter of the sign-in. Timestamps and the audit log
are left out. -/

namespace AuthServer

open Interleave Table

inductive Role
  | roleAdmin
  | roleUser
  deriving DecidableEq, Repr

inductive Provider
  | providerLocal
  | providerOIDC
  deriving DecidableEq, Repr

/-- `user.User` in full. -/
structure Account extends User where
  /-- Empty for no email, which is stored as NULL. -/
  email : String
  name : String
  passwordHash : String
  role : Role
  provider : Provider
  providerSub : String
  version : ℕ
  deriving DecidableEq, Repr

namespace Account

/-- What the index `uq_users_provider_sub` is on. -/
def identity (a : Account) : Option (Provider × String) :=
  if a.provider != .providerLocal &&
    a.providerSub != "" then some (a.provider, a.providerSub) else none

/-- Two rows may not both be in the table. -/
def clashes (a b : Account) : Bool :=
  (a.email != "" && a.email == b.email) || (a.identity.isSome && a.identity == b.identity)

def disable (a : Account) : Except Err Account :=
  if a.isActive then .ok { a with isActive := false }
  else .error (.fault "invalid user state transition from disabled to disabled")

def enable (a : Account) : Except Err Account :=
  if a.isActive then .error (.fault "invalid user state transition from active to active")
  else .ok { a with isActive := true }

end Account

/-- The table of users, and the supply of random strings. -/
structure Accounts where
  users : List Account
  drawn : ReqID → ℕ

namespace AccountStore

def create (a : Account) : Prog Accounts Err Unit :=
  Prog.exec storeFault fun s =>
    if s.users.any fun b => b.id == a.id || a.clashes b then
      (.error (.sentinel .userAlreadyExists), s)
    else (.ok (), { s with
      users := s.users ++ [{ a with version := if a.version == 0 then 1 else a.version }] })

def getByID (id : String) : Prog Accounts Err Account :=
  Prog.query storeFault fun s =>
    lookup (·.id == id) (.sentinel .userNotFound) s.users

def getByProviderSub (provider : Provider) (sub : String) : Prog Accounts Err Account :=
  Prog.query storeFault fun s =>
    lookup (fun a => a.provider == provider && a.providerSub == sub)
      (.sentinel .userNotFound) s.users

/-- The row that was read, if no one has written it since. -/
def isRead (a row : Account) : Bool := row.id == a.id && row.version == a.version

def update (a : Account) : Prog Accounts Err Unit :=
  Prog.exec storeFault fun s =>
    if s.users.any (isRead a) then
      if s.users.any fun b => b.id != a.id && a.clashes b then
        (.error (.sentinel .userAlreadyExists), s)
      else (.ok (), { s with
        users := updateWhere (isRead a) (fun row => { a with
          version := row.version + 1 }) s.users })
    else (.error (.sentinel .userConflict), s)

end AccountStore

/-- `crypto.GenerateRandomString`, for the identifier of an account. -/
def generateAccountID (env : Env) (ctx : ReqID) : Prog Accounts Err String :=
  Prog.step fun s =>
    (env.random ctx (s.drawn ctx), { s with
      drawn := Function.update s.drawn ctx (s.drawn ctx + 1) })

/-! ### Signing in -/

/-- `output.OIDCTokenResult`. The ID token is refused if its subject is empty. -/
structure OIDCTokenResult where
  subject : String
  email : String
  name : String
  subject_ne_empty : subject ≠ ""

namespace OIDCFacade

variable (result : OIDCTokenResult)

def provisionUser (id : String) : Account where
  id := id
  isActive := true
  email := result.email
  name := result.name
  passwordHash := ""
  role := .roleUser
  provider := .providerOIDC
  providerSub := result.subject
  version := 0

/-- What the sign-in makes of the account that it found. -/
def refreshed (a : Account) : Account :=
  { a with
    email := if result.email != "" && result.email != a.email then result.email else a.email
    name := if result.name != "" && result.name != a.name then result.name else a.name }

/-- `AuthenticateOIDC` when an account was found: 3b. -/
def signInExisting (a : Account) : Prog Accounts Err Account := do
  failIf (!a.isActive) (.sentinel .oidcAuthFailed)
  let u := refreshed result a
  match ← (AccountStore.update u).attempt with
  | .ok _ => pure u
  | .error e =>
    if e.is .userAlreadyExists && u.email != a.email then do
      -- the new email belongs to another account, and only its change is dropped
      (AccountStore.update { u with email := a.email }).mapError (Err.wrap "update federated user")
      pure { u with email := a.email }
    else Prog.fail (e.wrap "update federated user")

/-- `AuthenticateOIDC` when no account was found: 3a. -/
def provision (env : Env) (ctx : ReqID) (result : OIDCTokenResult) : Prog Accounts Err Account := do
  let id ← generateAccountID env ctx
  let nu := provisionUser result id
  match ← (AccountStore.create nu).attempt with
  | .ok _ => pure { nu with version := 1 }
  | .error e =>
    if e.is .userAlreadyExists then do
      match ← (AccountStore.getByProviderSub .providerOIDC result.subject).attempt with
      | .ok raced => signInExisting result raced
      | .error _ => Prog.fail (.sentinel .oidcEmailInUse)
    else Prog.fail (e.wrap "create federated user")

/-- `AuthenticateOIDC`, with what the upstream answered to the code. -/
def authenticateOIDC (env : Env) (ctx : ReqID) (exchanged : Except Err OIDCTokenResult) :
    Prog Accounts Err Account :=
  match exchanged with
  | .error e => Prog.fail (if e.is .oidcUnavailable then e else .sentinel .oidcAuthFailed)
  | .ok result => do
    match ← (AccountStore.getByProviderSub .providerOIDC result.subject).attempt with
    | .ok a => signInExisting result a
    | .error e =>
      if e.is .userNotFound then provision env ctx result
      else Prog.fail (e.wrap "lookup federated user")

end OIDCFacade

/-! ### Editing -/

namespace AdminService

/-- `CreateUser`, with the hash of the password. -/
def createUser (env : Env) (ctx : ReqID) (email name passwordHash : String) (role : Role) :
    Prog Accounts Err Account := do
  let id ← generateAccountID env ctx
  let u : Account :=
    { id := id, isActive := true, email := email, name := name
      passwordHash := passwordHash, role := role
      provider := .providerLocal, providerSub := "", version := 0 }
  (AccountStore.create u).mapError (Err.wrap "create user")
  pure { u with version := 1 }

def updateUser (id : String) (email name : Option String) : Prog Accounts Err Account := do
  let u ← AccountStore.getByID id
  let u := { u with email := email.getD u.email, name := name.getD u.name }
  (AccountStore.update u).mapError (Err.wrap "update user")
  pure u

/-- `AdminService.DisableUser`. -/
def disableUser (id : String) : Prog Accounts Err Unit := do
  let u ← (AccountStore.getByID id).mapError (Err.wrap "get user")
  let u ← Prog.ofExcept (u.disable.mapError (Err.wrap "disable"))
  (AccountStore.update u).mapError (Err.wrap "update user")

/-- `AdminService.EnableUser`. -/
def enableUser (id : String) : Prog Accounts Err Unit := do
  let u ← (AccountStore.getByID id).mapError (Err.wrap "get user")
  let u ← Prog.ofExcept (u.enable.mapError (Err.wrap "enable"))
  (AccountStore.update u).mapError (Err.wrap "update user")

end AdminService

end AuthServer
