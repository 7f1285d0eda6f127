import AuthServer.Domain.Entity
import AuthServer.Text.CleanPath
import AuthServer.Text.WebOrigin

/-!
# Redirects after login

`SafeRedirect` of `api/shared/redirect.go`, and what becomes of its result: `http.Redirect` cleans
the part before the first question mark, and the browser resolves what it then receives against
the server's origin. What `url.Parse` says of a target is a parameter.

As it stands, an accepted target stays on the server's origin. The check for backslashes stops at
the first `#`, while the cleaning goes on to the first `?`, so that a fragment can bring a
backslash to the front. `safeRedirect_confined_iff` says exactly when that happens.
-/

namespace AuthServer

/-- What `SafeRedirect` reads of a parsed URL: `IsAbs` and `Host`. -/
structure ParsedTarget where
  isAbs : Bool
  host : Bytes
  deriving DecidableEq, Repr

/-- A byte that `SafeRedirect` refuses anywhere. -/
def isControl (c : UInt8) : Bool := c < 0x20 || c == 0x7f

/-- The part of a target before its first question mark or hash. -/
def pathPart (path : Bytes) : Bytes := path.takeWhile fun c => c != 63 && c != 35

/-- `SafeRedirect`, with `url.Parse` as `urlParse`. -/
def safeRedirect (urlParse : Bytes → Option ParsedTarget) (path fallback : Bytes) : Bytes :=
  if path = [] then fallback
  else if path.any isControl then fallback
  else if (pathPart path).contains 92 then fallback
  else if [47, 47].isPrefixOf path then fallback
  else
    match urlParse path with
    | none => fallback
    | some u =>
      if u.isAbs || u.host != [] then fallback
      else if path.head? != some 47 then fallback
      else path

/-- The `Location` that `http.Redirect` sends for a rooted target: the part before the first
question mark is cleaned, a slash at its end stays, and the rest is appended as it is. -/
def redirectLocation (target : Bytes) : Bytes :=
  let url := target.takeWhile (· != 63)
  let cleaned := Text.clean url
  (if url.getLast? == some 47 && cleaned.getLast? != some 47 then cleaned ++ [47] else cleaned) ++
    target.dropWhile (· != 63)

/-- The targets that `SafeRedirect` lets through. -/
structure SafeTarget (urlParse : Bytes → Option ParsedTarget) (path : Bytes) : Prop where
  rooted : path.head? = some 47
  noControl : path.any isControl = false
  noBackslash : (pathPart path).contains 92 = false
  notDouble : [47, 47].isPrefixOf path = false
  parsed : ∃ u, urlParse path = some u ∧ u.isAbs = false ∧ u.host = []

/-- An element that begins with a backslash comes first in the part before the question mark. -/
def Surfaces (path : Bytes) : Prop :=
  ∃ e, e.head? = some 92 ∧ Text.ComesFirst e (Text.elements (path.takeWhile (· != 63)))

variable {urlParse : Bytes → Option ParsedTarget} {path fallback : Bytes}

theorem SafeTarget.printable (h : SafeTarget urlParse path) : ∀ c ∈ path, 32 ≤ c := by
  intro c hc
  have hctl := List.any_eq_false.mp h.noControl c hc
  simp only [isControl, Bool.or_eq_true, decide_eq_true_eq, not_or] at hctl
  exact UInt8.not_lt.mp hctl.1

theorem safeRedirect_of_safeTarget (h : SafeTarget urlParse path) :
    safeRedirect urlParse path fallback = path := by
  obtain ⟨u, hu, habs, hhost⟩ := h.parsed
  have hne : path ≠ [] := by
    rintro rfl
    simpa using h.rooted
  rw [safeRedirect, if_neg hne, h.noControl, h.noBackslash, h.notDouble, hu]
  simp [habs, hhost, h.rooted]

theorem safeRedirect_of_not_safeTarget (h : ¬ SafeTarget urlParse path) :
    safeRedirect urlParse path fallback = fallback := by
  -- every check that fails gives the fallback; passing all of them is being a safe target
  by_contra hne
  have h₁ : path ≠ [] := fun h₁ => hne (by rw [safeRedirect, if_pos h₁])
  rw [safeRedirect, if_neg h₁] at hne
  have h₂ : ¬ path.any isControl = true := fun h₂ => hne (if_pos h₂)
  rw [if_neg h₂] at hne
  have h₃ : ¬ (pathPart path).contains 92 = true := fun h₃ => hne (if_pos h₃)
  rw [if_neg h₃] at hne
  have h₄ : ¬ [47, 47].isPrefixOf path = true := fun h₄ => hne (if_pos h₄)
  rw [if_neg h₄] at hne
  rcases hu : urlParse path with _ | u
  · simp [hu] at hne
  · simp only [hu] at hne
    have h₅ : ¬ (u.isAbs || u.host != []) = true := fun h₅ => hne (if_pos h₅)
    rw [if_neg h₅] at hne
    have h₆ : ¬ (path.head? != some 47) = true := fun h₆ => hne (if_pos h₆)
    simp only [Bool.not_eq_true] at h₂ h₃ h₄
    exact h ⟨by simpa using h₆, h₂, h₃, h₄, u, hu, by simpa using h₅⟩

/-! ### As it stands -/

theorem SafeTarget.second {rest : Bytes} (h : SafeTarget urlParse (47 :: rest)) :
    ∀ c, rest.head? = some c → Web.isSlash c = false := by
  intro c hc
  obtain ⟨tail, rfl⟩ := List.head?_eq_some_iff.mp hc
  have hslash : c ≠ 47 := by
    rintro rfl
    exact absurd h.notDouble (by simp)
  have hback : c ≠ 92 := by
    rintro rfl
    exact absurd h.noBackslash (by simp [pathPart])
  simp [Web.isSlash, hslash, hback]

variable {hostPort : Web.Scheme → Bytes → Option (Bytes × Option ℕ)}

theorem SafeTarget.resolve_eq (h : SafeTarget urlParse path) (own : Web.Origin) :
    Web.resolve hostPort own path = .origin own := by
  obtain ⟨rest, rfl⟩ := List.head?_eq_some_iff.mp h.rooted
  exact Web.resolve_eq_base (fun c hc => h.printable c (by simp [hc])) h.second

/-! ### After cleaning -/

theorem head?_takeWhile_of_rooted (h : path.head? = some 47) :
    (path.takeWhile (· != 63)).head? = some 47 := by
  obtain ⟨rest, rfl⟩ := List.head?_eq_some_iff.mp h
  rw [List.takeWhile_cons_of_pos (by decide)]
  rfl

/-- The location of a rooted target begins as its cleaned path does; after a path that is only a
slash comes the query. -/
theorem redirectLocation_of_rooted (h : path.head? = some 47) :
    ∃ rest, redirectLocation path = 47 :: rest ∧ (∀ c ∈ rest, c ∈ path) ∧
      (rest.head? = some 92 ↔ (Text.clean (path.takeWhile (· != 63))).tail.head? = some 92) ∧
      rest.head? ≠ some 47 := by
  have hroot := head?_takeWhile_of_rooted h
  have hslash : (47 : UInt8) ∈ path := List.mem_of_head? h
  have hquery : ∀ c, (path.dropWhile (· != 63)).head? = some c → c = 63 := by
    intro c hc
    have hstop := List.head?_dropWhile_not (· != 63) path
    rw [hc] at hstop
    simpa using hstop
  obtain ⟨body, hbody⟩ : ∃ body, Text.clean (path.takeWhile (· != 63)) = 47 :: body :=
    ⟨_, Text.clean_of_rooted hroot⟩
  have hmem : ∀ c ∈ body, c ∈ path := by
    intro c hc
    have hclean : c ∈ path.takeWhile (· != 63) :=
      Text.mem_of_mem_clean hroot (by rw [hbody]; exact List.mem_cons_of_mem _ hc)
    exact (List.takeWhile_prefix _).subset hclean
  have hne := Text.head?_tail_clean_ne hroot
  rw [hbody, List.tail_cons] at hne ⊢
  -- what is appended comes into view only where the cleaned path is a single slash
  have happend : ∀ tail : Bytes, (body = [] → ∀ c, tail.head? = some c → c = 63) →
      ((body ++ tail).head? = some 92 ↔ body.head? = some 92) ∧ (body ++ tail).head? ≠ some 47 := by
    intro tail htail
    cases body with
    | cons b body => exact ⟨by simp, by simpa using hne⟩
    | nil =>
      have hno : ∀ c, c ≠ 63 → tail.head? ≠ some c := fun c hc heq => hc (htail rfl c heq)
      exact ⟨by simpa using hno 92 (by decide), by simpa using hno 47 (by decide)⟩
  have hdrop : ∀ c ∈ path.dropWhile (· != 63), c ∈ path := fun c hc =>
    (List.dropWhile_suffix _).subset hc
  rw [redirectLocation, hbody]
  split_ifs with htrailing
  · refine ⟨body ++ ([47] ++ path.dropWhile (· != 63)), by simp, ?_, happend _ ?_⟩
    · simp only [List.mem_append, List.mem_singleton]
      rintro c (hc | rfl | hc)
      · exact hmem c hc
      · exact hslash
      · exact hdrop c hc
    · rintro rfl
      simp at htrailing
  · refine ⟨body ++ path.dropWhile (· != 63), by simp, ?_, happend _ fun _ => hquery⟩
    intro c hc
    rcases List.mem_append.mp hc with hc | hc
    · exact hmem c hc
    · exact hdrop c hc

theorem surfaces_iff (h : path.head? = some 47) :
    (Text.clean (path.takeWhile (· != 63))).tail.head? = some 92 ↔ Surfaces path := by
  rw [Text.head?_tail_clean (head?_takeWhile_of_rooted h)]
  refine exists_congr fun e => and_congr_right fun he => and_iff_right ?_
  obtain ⟨tail, rfl⟩ := List.head?_eq_some_iff.mp he
  simp [Text.Ordinary, Text.dotDot]

/-- A target that is let through stays on every server's origin after cleaning, unless it brings a
backslash to the front. -/
theorem SafeTarget.resolve_location_iff (h : SafeTarget urlParse path) :
    (∀ own, Web.resolve hostPort own (redirectLocation path) = .origin own) ↔ ¬ Surfaces path := by
  obtain ⟨rest, hloc, hmem, hback, hslash⟩ := redirectLocation_of_rooted h.rooted
  have hprint : ∀ c ∈ rest, 32 ≤ c := fun c hc => h.printable c (hmem c hc)
  rw [hloc, ← surfaces_iff h.rooted, ← hback]
  constructor
  · intro hall hhead
    obtain ⟨address, haddress⟩ : ∃ address, ∀ base : Web.Origin,
        Web.resolve hostPort base (47 :: rest) = Web.authority hostPort base.scheme address :=
      Web.resolve_eq_authority hprint hhead
    obtain ⟨own, hown⟩ := Web.exists_authority_ne hostPort address
    exact hown ((haddress own).symm.trans (hall own))
  · intro hhead own
    refine Web.resolve_eq_base hprint fun c hc => ?_
    have h₁ : c ≠ 47 := fun heq => hslash (heq ▸ hc)
    have h₂ : c ≠ 92 := fun heq => hhead (heq ▸ hc)
    simp [Web.isSlash, h₁, h₂]

/-- The result is the target or the fallback, and as it stands it leads nowhere else than the
fallback does. After cleaning it stays on every server's origin exactly when the target is let
through and brings no backslash to the front, or the fallback is taken and stays there. -/
theorem safeRedirect_confined_iff (urlParse : Bytes → Option ParsedTarget)
    (hostPort : Web.Scheme → Bytes → Option (Bytes × Option ℕ)) (path fallback : Bytes) :
    (safeRedirect urlParse path fallback = fallback ∨
      safeRedirect urlParse path fallback = path) ∧
    (∀ own, Web.resolve hostPort own fallback = .origin own →
      Web.resolve hostPort own (safeRedirect urlParse path fallback) = .origin own) ∧
    ((∀ own, Web.resolve hostPort own
        (redirectLocation (safeRedirect urlParse path fallback)) = .origin own) ↔
      (SafeTarget urlParse path → ¬ Surfaces path) ∧
        (¬ SafeTarget urlParse path →
          ∀ own, Web.resolve hostPort own (redirectLocation fallback) = .origin own)) := by
  by_cases h : SafeTarget urlParse path
  · rw [safeRedirect_of_safeTarget h]
    refine ⟨.inr rfl, fun own _ => h.resolve_eq own, ?_⟩
    rw [h.resolve_location_iff]
    exact ⟨fun hs => ⟨fun _ => hs, fun hn => absurd h hn⟩, fun hs => hs.1 h⟩
  · rw [safeRedirect_of_not_safeTarget h]
    refine ⟨.inl rfl, fun own hown => hown, ?_⟩
    exact ⟨fun hall => ⟨fun hs => absurd hs h, fun _ => hall⟩, fun hall => hall.2 h⟩

/-- With the fallback `/`, the target `/a#/../\evil.com` is let through and sent as `/\evil.com`,
which leads from any page of `as` to `evil.com`. -/
theorem safeRedirect_fragment_escapes :
    safeRedirect (fun _ => some ⟨false, []⟩)
        [47, 97, 35, 47, 46, 46, 47, 92, 101, 118, 105, 108, 46, 99, 111, 109] [47] =
      [47, 97, 35, 47, 46, 46, 47, 92, 101, 118, 105, 108, 46, 99, 111, 109] ∧
    redirectLocation
        [47, 97, 35, 47, 46, 46, 47, 92, 101, 118, 105, 108, 46, 99, 111, 109] =
      [47, 92, 101, 118, 105, 108, 46, 99, 111, 109] ∧
    Web.resolve (fun _ host => some (host, none)) ⟨.https, [97, 115], none⟩ [47] =
      .origin ⟨.https, [97, 115], none⟩ ∧
    Web.resolve (fun _ host => some (host, none)) ⟨.https, [97, 115], none⟩
        [47, 92, 101, 118, 105, 108, 46, 99, 111, 109] =
      .origin ⟨.https, [101, 118, 105, 108, 46, 99, 111, 109], none⟩ := by
  decide

end AuthServer
