import AuthServer.Service.Authorize

/-!
# Redirect URIs up to a loopback port

A redirect URI is accepted if it is registered, or if a registered URI on a loopback host agrees
with it in four fields of the parsed URL: scheme, host name, decoded path and query. The parser
separates more than that from the text: user info, the path as it was written, whether a question
mark stands before an empty query, and the fragment.

`url.Parse` is taken as a splitting of the text (`Splits`). `hasRedirectURI_portOnly_iff` says when
a URI that is accepted differs from a registered one in nothing but the port.
-/

namespace AuthServer

/-- The pieces of a URL with an authority, as they are written. -/
structure URLParts where
  /-- Empty in a reference without a scheme. -/
  scheme : String
  userinfo : Option String
  /-- The host, with the brackets of an address literal. -/
  host : String
  port : Option String
  path : String
  query : Option String
  fragment : Option String
  deriving DecidableEq, Repr

namespace URLParts

/-- A piece that may be missing, after the character that announces it. -/
def piece (mark : String) (s : Option String) : String := (s.map (mark ++ ·)).getD ""

/-- What stands before the port. -/
def front (p : URLParts) : String :=
  (if p.scheme == "" then "" else p.scheme ++ ":") ++ "//" ++
    (p.userinfo.map (· ++ "@")).getD "" ++ p.host

/-- What stands after the port. -/
def back (p : URLParts) : String := p.path ++ piece "?" p.query ++ piece "#" p.fragment

def text (p : URLParts) : String := p.front ++ piece ":" p.port ++ p.back

/-- `URL.Hostname`: the host without brackets. -/
def hostname (p : URLParts) : String :=
  if p.host.toList.head? == some '[' && p.host.toList.getLast? == some ']' then
    String.ofList p.host.toList.tail.dropLast
  else p.host

end URLParts

/-- `url.Parse` splits the text of a URL with a host: it lowers the scheme, decodes the path and
reports a missing query as an empty one. -/
structure Splits (env : Env) (split : String → Option URLParts) (lower decode : String → String) :
    Prop where
  text : ∀ {s p}, split s = some p → p.text = s
  parsed : ∀ {s p}, split s = some p → ∃ u, env.urlParse s = some u ∧ u.scheme = lower p.scheme ∧
    u.hostname = p.hostname ∧ u.path = decode p.path ∧ u.rawQuery = p.query.getD ""
  exists_split : ∀ {s u}, env.urlParse s = some u → u.hostname ≠ "" → ∃ p, split s = some p

/-- The URIs differ in nothing but the presence or the value of the port, on a loopback host. -/
def PortOnly (split : String → Option URLParts) (registered uri : String) : Prop :=
  ∃ r u, split registered = some r ∧ split uri = some u ∧ isLoopback r.hostname = true ∧
    { r with port := u.port } = u ∧
    registered = r.front ++ URLParts.piece ":" r.port ++ r.back ∧
    uri = r.front ++ URLParts.piece ":" u.port ++ r.back

/-- The pieces that `matchesLoopbackRedirect` does not compare, or not as they are written. -/
def AgreeUncompared (split : String → Option URLParts) (registered uri : String) : Prop :=
  ∀ r u, split registered = some r → split uri = some u →
    r.scheme = u.scheme ∧ r.userinfo = u.userinfo ∧ r.host = u.host ∧ r.path = u.path ∧
      r.query.isSome = u.query.isSome ∧ r.fragment = u.fragment

section

variable {env : Env} {split : String → Option URLParts} {lower decode : String → String}
  {registered uri : String}

theorem hasRedirectURI_iff {c : Client} :
    c.hasRedirectURI env uri = true ↔
      uri ∈ c.redirectURIs ∨
        ∃ registered ∈ c.redirectURIs, matchesLoopbackRedirect env registered uri = true := by
  simp only [Client.hasRedirectURI, List.any_eq_true, Bool.or_eq_true, beq_iff_eq, and_or_left,
    exists_or, exists_eq_right]

/-- What the loopback comparison says of the pieces. -/
theorem matchesLoopbackRedirect_iff (h : Splits env split lower decode) :
    matchesLoopbackRedirect env registered uri = true ↔
      ∃ r u, split registered = some r ∧ split uri = some u ∧ isLoopback r.hostname = true ∧
        lower r.scheme = lower u.scheme ∧ r.hostname = u.hostname ∧
        decode r.path = decode u.path ∧ r.query.getD "" = u.query.getD "" := by
  have hhost : ∀ {host : String}, isLoopback host = true → host ≠ "" := by
    rintro host hloop rfl
    simp [isLoopback] at hloop
  constructor
  · intro hmatch
    rcases hr : env.urlParse registered with _ | pr
    · simp [matchesLoopbackRedirect, hr] at hmatch
    rcases hu : env.urlParse uri with _ | pu
    · simp [matchesLoopbackRedirect, hr, hu] at hmatch
    simp only [matchesLoopbackRedirect, hr, hu, Bool.and_eq_true, beq_iff_eq] at hmatch
    obtain ⟨⟨⟨⟨hloop, hscheme⟩, hname⟩, hpath⟩, hquery⟩ := hmatch
    obtain ⟨r, hsr⟩ := h.exists_split hr (hhost hloop)
    obtain ⟨u, hsu⟩ := h.exists_split hu (hname ▸ hhost hloop)
    obtain ⟨pr', hr', hr₁, hr₂, hr₃, hr₄⟩ := h.parsed hsr
    obtain ⟨pu', hu', hu₁, hu₂, hu₃, hu₄⟩ := h.parsed hsu
    obtain rfl : pr = pr' := Option.some.inj (hr.symm.trans hr')
    obtain rfl : pu = pu' := Option.some.inj (hu.symm.trans hu')
    exact ⟨r, u, hsr, hsu, hr₂ ▸ hloop, by rw [← hr₁, ← hu₁, hscheme], by rw [← hr₂, ← hu₂, hname],
      by rw [← hr₃, ← hu₃, hpath], by rw [← hr₄, ← hu₄, hquery]⟩
  · rintro ⟨r, u, hsr, hsu, hloop, hscheme, hname, hpath, hquery⟩
    obtain ⟨pr, hr, hr₁, hr₂, hr₃, hr₄⟩ := h.parsed hsr
    obtain ⟨pu, hu, hu₁, hu₂, hu₃, hu₄⟩ := h.parsed hsu
    simp [matchesLoopbackRedirect, hr, hu, hr₁, hr₂, hr₃, hr₄, hu₁, hu₂, hu₃, hu₄, hloop, hscheme,
      ← hname, hpath, hquery]

/-- Two loopback URIs differ in the port alone exactly when they match and agree in what the match
leaves out. -/
theorem portOnly_iff (h : Splits env split lower decode) :
    PortOnly split registered uri ↔
      matchesLoopbackRedirect env registered uri = true ∧
        AgreeUncompared split registered uri := by
  rw [matchesLoopbackRedirect_iff h]
  constructor
  · rintro ⟨r, u, hr, hu, hloop, heq, -, -⟩
    have hpieces : r.scheme = u.scheme ∧ r.userinfo = u.userinfo ∧ r.host = u.host ∧
        r.path = u.path ∧ r.query = u.query ∧ r.fragment = u.fragment := by
      rw [← heq]
      exact ⟨rfl, rfl, rfl, rfl, rfl, rfl⟩
    obtain ⟨h₁, h₂, h₃, h₄, h₅, h₆⟩ := hpieces
    refine ⟨⟨r, u, hr, hu, hloop, by rw [h₁], by rw [URLParts.hostname, h₃]; rfl, by rw [h₄],
      by rw [h₅]⟩, fun r' u' hr' hu' => ?_⟩
    obtain rfl : r = r' := Option.some.inj (hr.symm.trans hr')
    obtain rfl : u = u' := Option.some.inj (hu.symm.trans hu')
    exact ⟨h₁, h₂, h₃, h₄, by rw [h₅], h₆⟩
  · rintro ⟨⟨r, u, hr, hu, hloop, -, -, -, hquery⟩, hagree⟩
    obtain ⟨h₁, h₂, h₃, h₄, h₅, h₆⟩ := hagree r u hr hu
    have hq : r.query = u.query := by
      rcases hrq : r.query with _ | q <;> rcases huq : u.query with _ | q' <;> simp_all
    have heq : { r with port := u.port } = u := by
      cases r
      cases u
      simp_all
    refine ⟨r, u, hr, hu, hloop, heq, (h.text hr).symm, ?_⟩
    have hfront : r.front = u.front := by rw [← heq]; rfl
    have hback : r.back = u.back := by rw [← heq]; rfl
    rw [hfront, hback]
    exact (h.text hu).symm

end

/-- Acceptance is exact up to a loopback port, exactly when one of the registered URIs that match
agrees with the requested one in what the match does not compare. -/
theorem hasRedirectURI_portOnly_iff (env : Env) (split : String → Option URLParts)
    (lower decode : String → String) (h : Splits env split lower decode) (c : Client)
    (uri : String) :
    (c.hasRedirectURI env uri = true →
      uri ∈ c.redirectURIs ∨ ∃ registered ∈ c.redirectURIs, PortOnly split registered uri) ↔
    (uri ∈ c.redirectURIs ∨
      (∀ registered ∈ c.redirectURIs, matchesLoopbackRedirect env registered uri = false) ∨
      ∃ registered ∈ c.redirectURIs, matchesLoopbackRedirect env registered uri = true ∧
        AgreeUncompared split registered uri) := by
  simp only [hasRedirectURI_iff, portOnly_iff h]
  by_cases hmem : uri ∈ c.redirectURIs
  · simp [hmem]
  · simp only [hmem, false_or]
    by_cases hmatch : ∃ registered ∈ c.redirectURIs,
        matchesLoopbackRedirect env registered uri = true
    · obtain ⟨registered, hreg, hm⟩ := hmatch
      constructor
      · exact fun hall => .inr (hall ⟨registered, hreg, hm⟩)
      · rintro (hnone | hagree) _
        · rw [hnone registered hreg] at hm
          cases hm
        · exact hagree
    · refine iff_of_true (fun hex => absurd hex hmatch) (.inl fun registered hreg => ?_)
      by_contra hm
      exact hmatch ⟨registered, hreg, by simpa using hm⟩

/-! ### A parser for a list of URLs -/

/-- The pieces of the URLs in a list. -/
def splitAmong (known : List URLParts) (s : String) : Option URLParts :=
  known.find? fun p => p.text == s

/-- A deployment whose parser knows the URLs in a list. -/
def Env.knowing (known : List URLParts) : Env :=
  { Env.plain with
    urlParse := fun s => (splitAmong known s).map fun p =>
      ⟨p.scheme, p.host ++ URLParts.piece ":" p.port, p.hostname, p.path, p.query.getD "",
        p.userinfo.getD "", p.fragment.getD ""⟩ }

theorem splits_knowing (known : List URLParts) :
    Splits (Env.knowing known) (splitAmong known) id id where
  text h := by simpa using List.find?_some h
  parsed {s p} h := ⟨_, by simp only [Env.knowing, h, Option.map_some]; rfl, rfl, rfl, rfl, rfl⟩
  exists_split {s u} h _ := by
    obtain ⟨p, hp, -⟩ := Option.map_eq_some_iff.mp h
    exact ⟨p, hp⟩

/-- `http://localhost/cb`. -/
def callback : URLParts := ⟨"http", none, "localhost", none, "/cb", none, none⟩

def loopbackClient : Client :=
  ⟨"c", "", [callback.text], [], .active, "", "", false, .dcr, "", [], "", "", "", 1⟩

theorem hasRedirectURI_portOnly_callback :
    (loopbackClient.hasRedirectURI
        (Env.knowing [callback, { callback with port := some "8080" }])
        "http://localhost:8080/cb" = true →
      "http://localhost:8080/cb" ∈ loopbackClient.redirectURIs ∨
        ∃ registered ∈ loopbackClient.redirectURIs,
          PortOnly (splitAmong [callback, { callback with port := some "8080" }]) registered
            "http://localhost:8080/cb") ↔
    ("http://localhost:8080/cb" ∈ loopbackClient.redirectURIs ∨
      (∀ registered ∈ loopbackClient.redirectURIs,
        matchesLoopbackRedirect (Env.knowing [callback, { callback with port := some "8080" }])
          registered "http://localhost:8080/cb" = false) ∨
      ∃ registered ∈ loopbackClient.redirectURIs,
        matchesLoopbackRedirect (Env.knowing [callback, { callback with port := some "8080" }])
          registered "http://localhost:8080/cb" = true ∧
        AgreeUncompared (splitAmong [callback, { callback with port := some "8080" }]) registered
          "http://localhost:8080/cb") :=
  hasRedirectURI_portOnly_iff _ _ id id (splits_knowing _) loopbackClient _

/-- `http://user@localhost/cb` is accepted for `http://localhost/cb`. -/
theorem hasRedirectURI_with_userinfo :
    loopbackClient.hasRedirectURI
        (Env.knowing [callback, { callback with userinfo := some "user" }])
        "http://user@localhost/cb" = true ∧
      "http://user@localhost/cb" ∉ loopbackClient.redirectURIs ∧
      ∀ registered ∈ loopbackClient.redirectURIs,
        ¬ PortOnly
          (splitAmong [callback, { callback with userinfo := some "user" }])
          registered "http://user@localhost/cb" := by
  refine ⟨by decide, by decide, fun registered hreg => ?_⟩
  obtain rfl : registered = callback.text := by simpa [loopbackClient] using hreg
  rw [portOnly_iff (splits_knowing _)]
  rintro ⟨-, hagree⟩
  have huser := (hagree callback { callback with userinfo := some "user" }
    (by decide) (by decide)).2.1
  cases huser

end AuthServer
