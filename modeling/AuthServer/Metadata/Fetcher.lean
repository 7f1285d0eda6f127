import AuthServer.Domain.Validation
import AuthServer.Metadata.SSRF

/-!
# Fetching client metadata documents

`Fetch` of `internal/adapters/cimd/fetcher.go` with all that calls share: the cache of documents,
the memory of failures, the group of flights, the slots for outbound requests, and the two
transports of `dispatch.go` with the idle connections of each (`NewSafeTransport` of
`internal/ssrf/transport.go`). A call that finds no document joins the flight for its key or starts
one, which is a party of its own; a call that waits makes no step until it takes the result, or
gives up.

A document carries the connection it was obtained over. What the network, the resolver and the clock
answer is a function of how many such questions have been asked before (`Outside`), so that no two
answers need agree.

## Scope

Timeouts are errors of the network. `http.Transport` is modelled by what it documents: a request
goes over an idle connection of the same transport, scheme and address or over one that is dialled
for it, and while it is being dialled another may become idle. That it repeats a request when an
idle connection turns out to be closed is left out. -/

namespace AuthServer

open Interleave Net

/-- The calls of `Fetch`. -/
abbrev FetchID := ℕ

structure CIMDDocument where
  clientID : String
  redirectURIs : List String
  clientName : String
  grantTypes : List String
  responseTypes : List String
  tokenEndpointAuthMethod : String
  deriving DecidableEq, Repr

/-- `output.CIMDFetchConfig`, without the timeout. -/
structure CIMDFetchConfig where
  requireHTTPS : Bool
  allowPrivateAddresses : Bool
  cacheTTL : Time
  deriving DecidableEq, Repr

variable (env : Env) (o : Outside)

namespace CIMD

/-! ### The world outside -/

structure Conn where
  scheme : String
  addr : String
  remote : IP
  deriving DecidableEq, Repr

structure Body where
  size : ℕ
  decoded : Option CIMDDocument

structure Response where
  status : ℕ
  contentType : String
  /-- The values of the `Cache-Control` lines, in order. -/
  cacheControl : List String
  expires : String
  body : Except String Body

/-- The answers of the world, and the functions of the standard library. -/
structure Outside where
  now : ℕ → Time
  /-- `LookupIPAddr`. -/
  lookupIPAddr : String → ℕ → Except String (List IP)
  /-- Connect to an address and a port. -/
  dialAddress : IP → String → ℕ → Except String Unit
  /-- Connect to a name and a port, at whichever address the dialer settles on. -/
  dialName : String → ℕ → Except String IP
  /-- A `GET` of the URL over the connection. -/
  respond : Conn → String → ℕ → Except String Response
  /-- Which of the idle connections that fit is taken. -/
  pick : ℕ → ℕ
  /-- Can the connection be used again? -/
  keepAlive : ℕ → Bool
  /-- The order in which a map is walked. -/
  walk : ℕ → List String → List String
  parseIP : String → Option IP
  ipString : IP → String
  /-- Host and port of a URL, with the port of its scheme if it has none. -/
  canonicalAddr : ParsedURL → String
  splitHostPort : String → Option (String × String)
  atoi : String → Option Int
  parseTime : String → Option Time

structure Fetched where
  doc : CIMDDocument
  conn : Conn

/-- An error. A fetch that was shed for want of a slot is told apart from the others. -/
inductive FetchError
  | shed (cause : String)
  | failed (e : Err)
  deriving DecidableEq, Repr

/-- `ErrCIMDFetchFailed` and `ErrCIMDInvalid` with a reason. -/
def fetchFailed (why : String) : FetchError := .failed (.wrapped .cimdFetchFailed why)

def invalid (why : String) : FetchError := .failed (.wrapped .cimdInvalid why)

/-! ### The state -/

structure CacheEntry where
  doc : Fetched
  expiresAt : Time

structure FailureEntry where
  err : FetchError
  expiresAt : Time

/-- What the fetcher has done for a key. -/
inductive FetchEvent
  /-- A slot was taken, or given back. -/
  | acquired (key : String)
  | released (key : String)
  /-- An outbound request was sent, or is over, with a document or without. -/
  | sent (key : String) (time : Time)
  | ended (key : String) (ok : Bool)
  /-- A failure was recorded. -/
  | recorded (key : String) (time : Time)
  deriving DecidableEq, Repr

/-- A call of `Fetch`. -/
structure Job where
  docURL : String
  cfg : CIMDFetchConfig

/-- What calls of `Fetch` share. -/
structure Fetcher where
  cache : List (String × CacheEntry)
  failures : List (String × FailureEntry)
  /-- The single-flight group: the call that has started the flight of a key. -/
  group : String → Option FetchID
  /-- The flights that have been started, under the call that has started them. -/
  jobs : FetchID → Option Job
  /-- The results of the flights that have ended. -/
  results : FetchID → Option (Except FetchError Fetched)
  /-- The slots that are taken. -/
  sem : ℕ
  /-- The idle connections of the filtering and of the other transport. -/
  idle : Bool → List Conn
  /-- How many questions the world has been asked. -/
  asked : ℕ
  /-- A history variable, with the newest event first. -/
  log : List FetchEvent

def Fetcher.new : Fetcher where
  cache := []
  failures := []
  group := fun _ => none
  jobs := fun _ => none
  results := fun _ => none
  sem := 0
  idle := fun _ => []
  asked := 0
  log := []

/-- The parties of a run: the calls, and the flights that they start. -/
inductive Party
  | call (i : FetchID)
  | flight (i : FetchID)
  deriving DecidableEq, Repr

def fetchKey (docURL : String) (allowPrivateAddresses : Bool) : String :=
  if allowPrivateAddresses then "unfiltered" ++ docURL else "filtered" ++ docURL

def Job.key (job : Job) : String := fetchKey job.docURL job.cfg.allowPrivateAddresses

abbrev Step (ε α : Type) := Prog Fetcher ε α

/-- The event is recorded in the history variable. -/
def Fetcher.note (s : Fetcher) (e : FetchEvent) : Fetcher := { s with log := e :: s.log }

/-- A question to the world. -/
def ask {ε α : Type} (answer : ℕ → α) : Step ε α :=
  Prog.step fun s => (answer s.asked, { s with asked := s.asked + 1 })

/-! ### The caches -/

def minCacheTTL : Time := 60000000000

def maxCacheEntries : ℕ := 1024

def negativeCacheTTL : Time := 30000000000

def maxNegativeCacheEntries : ℕ := 1024

/-- The key that `evictOneLocked` deletes, when it walks the map in this order: the first one that
has expired, or the one that expires soonest. -/
def victim (now : Time) (expiresAt : String → Option Time) : Option (String × Time) →
    List String → Option String
  | soonest, [] => soonest.map (·.1)
  | soonest, k :: rest =>
    match expiresAt k with
    | none => victim now expiresAt soonest rest
    | some exp =>
      if exp < now then some k
      else if soonest.all (exp < ·.2) then victim now expiresAt (some (k, exp)) rest
      else victim now expiresAt soonest rest

/-- Store an entry, after one has been evicted if the map is full and has none for the key. -/
def insert {V : Type} (bound : ℕ) (expiresAt : V → Time) (now : Time)
    (walk : List String → List String)
    (key : String) (v : V) (m : List (String × V)) : List (String × V) :=
  let keys := m.map (·.1)
  let evicted :=
    if keys.contains key || m.length < bound then none
    else victim now (fun k => (m.lookup k).map expiresAt) none (walk keys)
  (key, v) :: m.filter fun e => e.1 != key && some e.1 != evicted

variable {ε : Type} (key : String)

/-- The cached document, if it is fresh. -/
def getCached : Step ε (Option Fetched) :=
  Prog.step fun s =>
    let live := (s.cache.lookup key).filter fun e => !(e.expiresAt < o.now s.asked)
    (live.map (·.doc), { s with asked := s.asked + 1 })

def getCachedFailure : Step ε (Option FetchError) :=
  Prog.step fun s =>
    let live := (s.failures.lookup key).filter fun e => !(e.expiresAt < o.now s.asked)
    (live.map (·.err), { s with asked := s.asked + 1 })

/-- `putCache`. The clock is read for the eviction, and again for the entry. -/
def putCache (doc : Fetched) (ttl : Time) : Step ε Unit :=
  Prog.step fun s => ((), { s with
    cache := insert maxCacheEntries (·.expiresAt) (o.now s.asked) (o.walk s.asked) key
      ⟨doc, o.now (s.asked + 1) + ttl⟩ s.cache
    asked := s.asked + 2 })

def putFailure (err : FetchError) : Step ε Unit :=
  Prog.step fun s => ((), { s with
    failures := insert maxNegativeCacheEntries (·.expiresAt) (o.now s.asked) (o.walk s.asked) key
      ⟨err, o.now (s.asked + 1) + negativeCacheTTL⟩ s.failures
    asked := s.asked + 2
    log := .recorded key (o.now (s.asked + 1)) :: s.log })

/-! ### The transports -/

variable (allowPrivate : Bool)

def takeIdle (scheme addr : String) : Step ε (Option Conn) :=
  Prog.step fun s =>
    let fitting := (s.idle allowPrivate).filter fun c => c.scheme == scheme && c.addr == addr
    match fitting[o.pick s.asked]? with
    | none => (none, { s with asked := s.asked + 1 })
    | some conn => (some conn, { s with
        idle := Function.update s.idle allowPrivate ((s.idle allowPrivate).erase conn)
        asked := s.asked + 1 })

def putIdle (conn : Conn) : Step ε Unit :=
  Prog.step fun s => ((), { s with
    idle := Function.update s.idle allowPrivate (conn :: s.idle allowPrivate) })

/-- The address that the filtering transport dials, of those that a name has been resolved to: the
first, in the short form in which it is printed, if none of them is private. -/
def dialable (host : String) : List IP → Except String IP
  | [] => .error ("ssrf: no addresses resolved for " ++ env.quote host)
  | first :: rest =>
    match (first :: rest).find? SSRF.isPrivateIP with
    | some ip => .error
        ("ssrf: blocked connection to private IP " ++ o.ipString ip ++
          " (resolved from " ++ host ++ ")")
    | none => .ok first.canonical

/-- The `DialContext` of a transport: the address that it has connected to. -/
def dialContext (addr : String) : Step String IP :=
  if allowPrivate then do
    let r ← ask (o.dialName addr)
    Prog.ofExcept r
  else
    match o.splitHostPort addr with
    | none => Prog.fail ("ssrf: invalid address " ++ env.quote addr)
    | some (host, port) => do
      let r ← ask (o.lookupIPAddr host)
      let ips ← Prog.ofExcept
        (r.mapError fun e => "ssrf: DNS resolution failed for " ++ env.quote host ++ ": " ++ e)
      let ip ← Prog.ofExcept (dialable env o host ips)
      let r ← ask (o.dialAddress ip port)
      Prog.ofExcept r
      pure ip

def getConn (u : ParsedURL) : Step String Conn := do
  let addr := o.canonicalAddr u
  let idle ← takeIdle o allowPrivate u.scheme addr
  match idle with
  | some conn => pure conn
  | none => do
    let remote ← dialContext env o allowPrivate addr
    let idle ← takeIdle o allowPrivate u.scheme addr
    match idle with
    | some conn => do
      putIdle allowPrivate ⟨u.scheme, addr, remote⟩
      pure conn
    | none => pure ⟨u.scheme, addr, remote⟩

/-- `RoundTrip`, by the transport of the policy, and the connection. -/
def roundTrip (u : ParsedURL) (docURL : String) : Step String (Response × Conn) := do
  let conn ← getConn env o allowPrivate u
  let r ← ask (o.respond conn docURL)
  let resp ← Prog.ofExcept r
  let again ← ask o.keepAlive
  if again then putIdle allowPrivate conn else pure ()
  pure (resp, conn)

/-! ### The document -/

def maxCIMDBodySize : ℕ := 1048576

def isJSONContentType (ct : String) : Bool :=
  let ct := (toLower (Text.trimSpace ct)).toList
  "application/json".toList.isPrefixOf ct || "application/client-id+json".toList.isPrefixOf ct

/-- `validateDocument`. -/
def validateDocument (doc : CIMDDocument) (fetchURL : String) : Except FetchError Unit := do
  if doc.clientID == "" then throw (invalid "missing client_id")
  if doc.clientID != fetchURL then
    throw (invalid ("client_id " ++ env.quote doc.clientID ++ " does not match fetch URL " ++
      env.quote fetchURL))
  if doc.clientName == "" then throw (invalid "missing client_name")
  if doc.redirectURIs.isEmpty then throw (invalid "missing redirect_uris")
  doc.redirectURIs.forM fun uri => (validateRedirectURI env uri).mapError fun e =>
    invalid ("invalid redirect_uri " ++ env.quote uri ++ ": " ++ e)

def CIMDDocument.withDefaults (doc : CIMDDocument) : CIMDDocument :=
  { doc with
    grantTypes := if doc.grantTypes.isEmpty then ["authorization_code", "refresh_token"]
      else doc.grantTypes
    responseTypes := if doc.responseTypes.isEmpty then ["code"] else doc.responseTypes
    tokenEndpointAuthMethod :=
      if doc.tokenEndpointAuthMethod == "" then "none" else doc.tokenEndpointAuthMethod }

/-- What `doFetch` makes of a response. -/
def readDocument (resp : Response) (docURL : String) : Except FetchError CIMDDocument := do
  if resp.status != 200 then
    throw (fetchFailed ("HTTP " ++ Nat.repr resp.status ++ " from " ++ docURL))
  if !isJSONContentType resp.contentType then
    throw (invalid ("expected JSON content-type, got " ++ env.quote resp.contentType))
  let body ← resp.body.mapError fun e => fetchFailed ("read body: " ++ e)
  if maxCIMDBodySize < body.size then
    throw (fetchFailed ("response body exceeds maximum size (" ++
      Nat.repr maxCIMDBodySize ++ " bytes)"))
  match body.decoded with
  | none => throw (invalid "invalid JSON")
  | some doc => do
    validateDocument env doc docURL
    pure (CIMDDocument.withDefaults doc)

def splitCacheControl (v : String) : List String :=
  (((toLower v).toList.splitOnP (· == ',')).map fun p =>
    Text.trimSpace (String.ofList p)).filter (· != "")

/-- The first `max-age` that is a number of seconds. -/
def maxAge (directives : List String) : Option Int :=
  directives.findSome? fun d =>
    if "max-age=".toList.isPrefixOf d.toList then
      (o.atoi (String.ofList (d.toList.drop 8))).filter (0 ≤ ·)
    else none

/-- `cacheLifetime`, at a time; nothing when the response must not be stored. -/
def cacheLifetime (resp : Response) (configTTL now : Time) : Option Time :=
  let clamp (d : Time) : Time := min (max d minCacheTTL) configTTL
  -- `Header.Get` gives the first of several lines
  let directives := splitCacheControl (resp.cacheControl.headD "")
  if directives.any fun d => d == "no-store" || d == "no-cache" then none
  else
    match maxAge o directives with
    | some secs => if secs == 0 then none else some (clamp (int64 (secs * 1000000000)))
    | none =>
      if resp.expires == "" then some configTTL
      else
        match o.parseTime resp.expires with
        | none => none
        | some t => if t - now ≤ 0 then none else some (clamp (t - now))

/-! ### A flight -/

def maxConcurrentFetches : ℕ := 16

/-- `acquire`: a slot, or the fetch is shed, if there is none when the wait is over. -/
def acquire : Step FetchError Unit :=
  Prog.exec (.shed "cimd fetch concurrency limit reached") fun s =>
    if s.sem < maxConcurrentFetches then (.ok (), { s with sem := s.sem + 1 }.note (.acquired key))
    else (.error (.shed "cimd fetch concurrency limit reached"), s)

def release : Step FetchError Unit :=
  Prog.step fun s => ((), { s with sem := s.sem - 1 }.note (.released key))

/-- The outbound request, up to the document. -/
def exchange (job : Job) (u : ParsedURL) : Step FetchError Fetched := do
  let answer ← (roundTrip env o job.cfg.allowPrivateAddresses u job.docURL).mapError
    fun e => fetchFailed ("Get " ++ env.quote job.docURL ++ ": " ++ e)
  let doc ← Prog.ofExcept (readDocument env answer.1 job.docURL)
  let now ← ask o.now
  match cacheLifetime o answer.1 job.cfg.cacheTTL now with
  | none => pure ()
  | some ttl => putCache o job.key ⟨doc, answer.2⟩ ttl
  pure ⟨doc, answer.2⟩

/-- What `doFetch` does with its slot. The request is over when the body is closed, which is on the
way out. -/
def request (job : Job) : Step FetchError Fetched :=
  match env.urlParse job.docURL with
  | none => Prog.fail (fetchFailed ("parse " ++ env.quote job.docURL))
  | some u => do
    Prog.step fun s => ((), s.note (.sent job.key (o.now s.asked)))
    let r ← (exchange env o job u).attempt
    Prog.step fun s => ((), s.note (.ended job.key r.isOk))
    Prog.ofExcept r

/-- One request, within a slot. -/
def doFetch (job : Job) : Step FetchError Fetched := do
  acquire job.key
  let r ← (request env o job).attempt
  release job.key
  Prog.ofExcept r

def shouldNegativeCache : FetchError → Bool
  | .shed _ => false
  | .failed _ => true

/-- The function that a flight runs. -/
def fly (job : Job) : Step FetchError Fetched := do
  let cached ← getCached o job.key
  match cached with
  | some doc => pure doc
  | none => do
    let cachedErr ← getCachedFailure o job.key
    match cachedErr with
    | some e => Prog.fail e
    | none => do
      let r ← (doFetch env o job).attempt
      match r with
      | .ok doc => pure doc
      | .error e => do
        if shouldNegativeCache e then putFailure o job.key e else pure ()
        Prog.fail e

variable (i : FetchID)

/-- The flight ends: it leaves the group, and its result goes to those who wait for it. -/
def deliver (job : Job) (r : Except FetchError Fetched) : Step FetchError Unit :=
  Prog.step fun s => ((), { s with
    results := Function.update s.results i (some r)
    group := if s.group job.key = some i then Function.update s.group job.key none else s.group })

/-- The flight that a call has started, if it has. -/
def flight : Step FetchError Unit := do
  let job ← Prog.step fun s => (s.jobs i, s)
  match job with
  | none => pure ()
  | some job => do
    let r ← (fly env o job).attempt
    deliver i job r

/-! ### A call -/

def hasMeaningfulPath (path : String) : Bool :=
  let path := path.toList
  let rest := if path.head? == some '/' then path.tail else path
  (rest.splitOnP (· == '/')).any fun seg => seg != [] && seg != ['.'] && seg != ['.', '.']

/-- The checks that `Fetch` makes on the URL. -/
def gate (docURL : String) (cfg : CIMDFetchConfig) : Except FetchError Unit :=
  match env.urlParse docURL with
  | none => .error (fetchFailed ("parse " ++ env.quote docURL))
  | some parsed =>
    if cfg.requireHTTPS && parsed.scheme != "https" then
      .error (fetchFailed ("HTTPS required, got " ++ parsed.scheme))
    else if parsed.scheme != "https" && parsed.scheme != "http" then
      .error (fetchFailed ("unsupported scheme " ++ parsed.scheme))
    else if !hasMeaningfulPath parsed.path then
      .error (invalid
        ("client_id URL must contain a path component (e.g. https://example.com/client.json), got "
          ++
        env.quote docURL))
    else (validateURLSafety env o.parseIP parsed cfg.allowPrivateAddresses).mapError .failed

/-- `DoChan`: the call joins the flight for the key, or starts one. -/
def doChan (job : Job) : Step FetchError FetchID :=
  Prog.step fun s =>
    match s.group job.key with
    | some j => (j, s)
    | none => (i, { s with
        group := Function.update s.group job.key (some i)
        jobs := Function.update s.jobs i (some job) })

/-- The end of the wait: the result of the flight is there, or the call gives up. -/
def wait : Step FetchError Fetched :=
  Prog.exec (fetchFailed "context canceled") fun s =>
    match s.results i with
    | some r => (r, s)
    | none => (.error (fetchFailed "context canceled"), s)

/-- `Fetcher.Fetch`. -/
def fetch (job : Job) : Step FetchError Fetched := do
  Prog.ofExcept (gate env o job.docURL job.cfg)
  let cached ← getCached o job.key
  match cached with
  | some doc => pure doc
  | none => do
    let cachedErr ← getCachedFailure o job.key
    match cachedErr with
    | some e => Prog.fail e
    | none => do
      let j ← doChan i job
      wait j

/-! ### All calls together -/

def Party.Result : Party → Type
  | .call _ => Fetched
  | .flight _ => Unit

def pool (calls : FetchID → Job) : Pool Party Fetcher FetchError Party.Result where
  store := .new
  procs
    | .call i => fetch env o i (calls i)
    | .flight i => flight env o i

end CIMD

end AuthServer
