import AuthServer.Domain.Validation
import AuthServer.Table.Grows

/-!
# Identity providers and the cache of their keys

`Cache` of `internal/adapters/idpjwks/cache.go` and the calls of `internal/services/xaa_idp.go` that
work on it: a key set is fetched from the provider's `jwks_uri`, kept for a while, and served beyond
that while the provider cannot be reached. Every program makes one step at a time on the store, the
cache or the network.

A key set carries where it came from: the registration it was fetched for, and the clock reading of
the call that fetched it. The state has three history variables that no step reads: every
registration there has been, which registration each call has looked up and not yet done with, and
which registrations have been deleted and their keys removed from the cache. -/

namespace AuthServer

open Interleave Table

structure FetchedKeys where
  keys : List JSONWebKey
  idp : TrustedIDP
  fetchedAt : Time

/-- `idpjwks.Entry`. -/
structure JWKSEntry where
  keys : FetchedKeys
  expiresAt : Time

/-- The trusted providers, the cache of their keys, the clock, and how many requests have been sent.
-/
structure Registry where
  idps : List TrustedIDP
  cache : String → Option JWKSEntry
  clock : Time
  requests : ℕ
  /-- History: all the registrations there have been. -/
  ever : List TrustedIDP
  /-- History: what a call has looked up to fetch keys for. -/
  holding : ReqID → Option TrustedIDP
  /-- History: the registrations whose deletion has removed their keys. -/
  dropped : List String

/-- What the network answers to the `n`-th request. -/
structure Network where
  /-- A `GET` of a `jwks_uri`, decoded. -/
  jwks : String → ℕ → Except Err (List JSONWebKey)
  /-- `DiscoverJWKSUri`. -/
  discover : String → ℕ → Except Err String

namespace IDPJWKSCache

/-- `idpjwks.CacheConfig`, after the defaults. -/
structure Config where
  ttl : Time
  maxStale : Time

/-- The defaults of `idpjwks.New`: an hour, and a day. -/
def Config.new (ttl maxStale : Time) : Config where
  ttl := if ttl = 0 then 3600000000000 else ttl
  maxStale := if maxStale = 0 then 86400000000000 else maxStale

/-- The keys that a call returns, with its clock reading. -/
structure Served where
  keys : FetchedKeys
  now : Time

/-- `IDPStore.GetByIssuer`, for keys to be fetched. -/
def resolve (env : Env) (ctx : ReqID) (issuer : String) : Prog Registry Err TrustedIDP :=
  (Prog.exec storeFault fun s =>
    match s.idps.find? (·.issuer == issuer) with
    | some idp => (.ok idp, { s with holding := Function.update s.holding ctx (some idp) })
    | none => (.error (.sentinel .idpNotFound), s)).mapError
      (Err.wrap ("resolve IdP for issuer " ++ env.quote issuer))

/-- `fetchJWKS`. A fetch that fails is the end of what was looked up. -/
def fetchJWKS (net : Network) (ctx : ReqID) (idp : TrustedIDP) (now : Time) :
    Prog Registry Err (Except Err FetchedKeys) :=
  Prog.step fun s =>
    match net.jwks idp.jwksURI s.requests with
    | .ok keys => (.ok ⟨keys, idp, now⟩, { s with requests := s.requests + 1 })
    | .error e => (.error e, { s with
        requests := s.requests + 1
        holding := Function.update s.holding ctx none })

/-- `cache.Store`. -/
def storeEntry (ctx : ReqID) (issuer : String) (entry : JWKSEntry) : Prog Registry Err Unit :=
  Prog.step fun s => ((), { s with
    cache := Function.update s.cache issuer (some entry)
    holding := Function.update s.holding ctx none })

/-- What `GetKeys` does when the entry, if there is one, is not fresh. -/
def fetchKeys (cfg : Config) (env : Env) (net : Network) (ctx : ReqID) (issuer : String)
    (entry : Option JWKSEntry) (now : Time) : Prog Registry Err Served := do
  let idp ← resolve env ctx issuer
  let r ← fetchJWKS net ctx idp now
  match r with
  | .error e =>
    match entry with
    | some old =>
      if now < old.expiresAt + cfg.maxStale then pure ⟨old.keys, now⟩
      else Prog.fail (e.wrap ("fetch JWKS from " ++ env.quote idp.jwksURI))
    | none => Prog.fail (e.wrap ("fetch JWKS from " ++ env.quote idp.jwksURI))
  | .ok keys => do
    storeEntry ctx issuer ⟨keys, now + cfg.ttl⟩
    pure ⟨keys, now⟩

/-- `GetKeys`: from the cache, or fetched. -/
def getKeys (cfg : Config) (env : Env) (net : Network) (ctx : ReqID) (issuer : String) :
    Prog Registry Err Served := do
  let entry ← Prog.step fun s => (s.cache issuer, s)
  let now ← Prog.step fun s => (s.clock, s)
  match entry with
  | some fresh =>
    if now < fresh.expiresAt then pure ⟨fresh.keys, now⟩
    else fetchKeys cfg env net ctx issuer entry now
  | none => fetchKeys cfg env net ctx issuer entry now

def invalidateCache (issuer : String) : Prog Registry Err Unit :=
  Prog.step fun s => ((), { s with cache := Function.update s.cache issuer none })

end IDPJWKSCache

namespace XAAIDPService

def getByID (id : String) : Prog Registry Err TrustedIDP :=
  Prog.query storeFault fun s =>
    lookup (·.id == id) (.sentinel .idpNotFound) s.idps

structure RegisterIDPRequest where
  name : String
  issuer : String
  jwksURI : String
  audience : String

/-- `IDPStore.Save`: the row of that id is replaced, and no other may have its issuer. -/
def saveIDP (env : Env) (idp : TrustedIDP) : Prog Registry Err Unit :=
  Prog.exec storeFault fun s =>
    let others := s.idps.filter (·.id != idp.id)
    if others.any (·.issuer == idp.issuer) then
      (.error (.fault ("IdP with issuer " ++ env.quote idp.issuer ++ " already exists")), s)
    else (.ok (), { s with idps := others ++ [idp], ever := s.ever ++ [idp] })

/-- The `jwks_uri` of a request, which is discovered if there is none. -/
def discoverJWKSUri (env : Env) (net : Network) (req : RegisterIDPRequest) :
    Prog Registry Err String :=
  if req.jwksURI == "" then do
    let r ← Prog.step fun s => (net.discover req.issuer s.requests, { s with
      requests := s.requests + 1 })
    Prog.ofExcept
      (r.mapError (Err.wrap ("OIDC discovery for " ++ env.quote req.issuer ++ " failed")))
  else pure req.jwksURI

def RegisterIDPRequest.entity (env : Env) (ctx : ReqID) (req : RegisterIDPRequest)
    (jwksURI : String) :
    TrustedIDP where
  id := env.random ctx 0
  name := req.name
  issuer := req.issuer
  jwksURI := jwksURI
  audience := if req.audience == "" then env.issuer else req.audience
  enabled := true

/-- `RegisterIDP`. -/
def registerIDP (env : Env) (net : Network) (ctx : ReqID) (req : RegisterIDPRequest) :
    Prog Registry Err TrustedIDP := do
  let jwksURI ← discoverJWKSUri env net req
  let idp := req.entity env ctx jwksURI
  Prog.ofExcept ((idp.validate env).mapError (Err.wrap "validation"))
  saveIDP env idp
  pure idp

/-- `DeleteIDP`. -/
def deleteIDP (id : String) : Prog Registry Err Unit := do
  let existing ← getByID id
  Prog.exec storeFault fun s =>
    if s.idps.any (·.id == id) then (.ok (), { s with idps := s.idps.filter (·.id != id) })
    else (.error (.sentinel .idpNotFound), s)
  Prog.step fun s => ((), { s with
    cache := Function.update s.cache existing.issuer none
    dropped := id :: s.dropped })

/-- `XAAIDPService.RefreshKeys`, with the keys that it fetched, which the code drops. -/
def refreshKeys (cfg : IDPJWKSCache.Config) (env : Env)
    (net : Network) (ctx : ReqID) (id : String) :
    Prog Registry Err IDPJWKSCache.Served := do
  let existing ← getByID id
  IDPJWKSCache.invalidateCache existing.issuer
  (IDPJWKSCache.getKeys cfg env net ctx existing.issuer).mapError (Err.wrap "refresh keys")

end XAAIDPService

end AuthServer
