import AuthServer.Metadata.Fetcher

/-!
# How long a document is cached

`cacheLifetime` of `internal/adapters/cimd/fetcher.go` against the rule it is to follow. A response
may have several `Cache-Control` lines, which mean the same as one line with all their directives,
and a `max-age` may be any 64-bit number of seconds.

The operator's ceiling holds for every response. The rest of the rule is broken in two ways:
`Header.Get` sees the first line only, and the multiplication by a second wraps around. `Heard` says
when neither shows: what a later line says comes out all the same, or the ceiling hides the
difference.
-/

namespace AuthServer

namespace CIMD

variable {o : Outside} {resp : Response} {configTTL now t : Time} {d : String} {ds : List String}
  {secs : Int}

/-! ### The rule -/

/-- The directives of the first `Cache-Control` line. -/
def firstLine (resp : Response) : List String := splitCacheControl (resp.cacheControl.headD "")

/-- The directives of all `Cache-Control` lines, in order. -/
def directives (resp : Response) : List String := resp.cacheControl.flatMap splitCacheControl

/-- A directive that bars the document from the cache. -/
def forbids (d : String) : Bool := d == "no-store" || d == "no-cache"

/-- A well-formed `max-age` of so many seconds. -/
def IsMaxAge (o : Outside) (d : String) (secs : Int) : Prop :=
  ∃ digits, d = "max-age=" ++ digits ∧ o.atoi digits = some secs ∧ 0 ≤ secs

/-- The first well-formed `max-age` is of so many seconds. -/
def FirstMaxAge (o : Outside) (ds : List String) (secs : Int) : Prop :=
  ∃ before d after, ds = before ++ d :: after ∧ IsMaxAge o d secs ∧
    ∀ d' ∈ before, ∀ n, ¬IsMaxAge o d' n

/-- Nothing is stored against a prohibition; a positive `max-age` is raised to a minute and cut to
the operator's lifetime, in nanoseconds; and that lifetime is never exceeded. -/
structure FollowsHeaders (o : Outside) (resp : Response) (configTTL now : Time) : Prop where
  forbidden : (∃ d ∈ directives resp, forbids d = true) → cacheLifetime o resp configTTL now = none
  maxAge : (∀ d ∈ directives resp, forbids d = false) → ∀ secs,
    FirstMaxAge o (directives resp) secs → 0 < secs →
      cacheLifetime o resp configTTL now =
        some (min configTTL (max 60000000000 (secs * 1000000000)))
  ceiling : ∀ d, cacheLifetime o resp configTTL now = some d → d ≤ configTTL

/-! ### When it is followed -/

/-- There is an `Expires` line, and it is past or not a date. -/
def Stale (o : Outside) (resp : Response) (now : Time) : Prop :=
  resp.expires ≠ "" ∧ ∀ t, o.parseTime resp.expires = some t → t ≤ now

/-- Nothing is lost with the later lines, nor in the multiplication. -/
structure Heard (o : Outside) (resp : Response) (configTTL now : Time) : Prop where
  /-- What only a later line forbids is not stored for another reason. -/
  forbidden : (∃ d ∈ directives resp, forbids d = true) →
    (∃ d ∈ firstLine resp, forbids d = true) ∨ FirstMaxAge o (firstLine resp) 0 ∨
      ((∀ d ∈ firstLine resp, ∀ n, ¬IsMaxAge o d n) ∧ Stale o resp now)
  /-- What more seconds than a duration can hold become reaches the ceiling. -/
  fits : (∀ d ∈ directives resp, forbids d = false) → ∀ secs, FirstMaxAge o (firstLine resp) secs →
    secs ≤ 9223372036 ∨ configTTL ≤ max 60000000000 (int64 (secs * 1000000000))
  /-- A `max-age` of a later line is as long as the `Expires` line, or as the ceiling without
  one. -/
  later : (∀ d ∈ directives resp, forbids d = false) →
    (∀ d ∈ firstLine resp, ∀ n, ¬IsMaxAge o d n) → ∀ secs, FirstMaxAge o (directives resp) secs →
    0 < secs → ¬Stale o resp now ∧
      (resp.expires = "" → configTTL ≤ max 60000000000 (secs * 1000000000)) ∧
      ∀ t, resp.expires ≠ "" → o.parseTime resp.expires = some t →
        max 60000000000 (t - now) = max 60000000000 (secs * 1000000000) ∨
          configTTL ≤ max 60000000000 (t - now) ∧
            configTTL ≤ max 60000000000 (secs * 1000000000)

/-! ### Reading the header -/

theorem isMaxAge_iff : (if "max-age=".toList.isPrefixOf d.toList then
    (o.atoi (String.ofList (d.toList.drop 8))).filter (0 ≤ ·) else none) = some secs ↔
      IsMaxAge o d secs := by
  constructor
  · intro h
    split at h
    · rename_i hstarts
      obtain ⟨digits, hdigits⟩ := List.isPrefixOf_iff_prefix.mp hstarts
      have hd : d = "max-age=" ++ String.ofList digits := by
        rw [← String.ofList_toList (s := d), ← hdigits, String.ofList_append, String.ofList_toList]
      have hdrop : d.toList.drop 8 = digits := by rw [← hdigits]; rfl
      obtain ⟨hread, hnonneg⟩ := Option.filter_eq_some_iff.mp h
      exact ⟨_, hd, hdrop ▸ hread, by simpa using hnonneg⟩
    · cases h
  · rintro ⟨digits, rfl, hread, hnonneg⟩
    have hstarts : "max-age=".toList.isPrefixOf ("max-age=" ++ digits).toList = true := by
      rw [String.toList_append, List.isPrefixOf_iff_prefix]
      exact List.prefix_append _ _
    have hdrop : String.ofList (("max-age=" ++ digits).toList.drop 8) = digits := by
      rw [String.toList_append, List.drop_left' (by decide), String.ofList_toList]
    rw [if_pos hstarts, hdrop, hread]
    simpa using hnonneg

theorem maxAge_eq_none : maxAge o ds = none ↔ ∀ d ∈ ds, ∀ n, ¬IsMaxAge o d n := by
  rw [maxAge, List.findSome?_eq_none_iff]
  simp only [Option.eq_none_iff_forall_ne_some, ne_eq, isMaxAge_iff]

theorem maxAge_eq_some : maxAge o ds = some secs ↔ FirstMaxAge o ds secs := by
  simp only [maxAge, List.findSome?_eq_some_iff, FirstMaxAge,
    Option.eq_none_iff_forall_ne_some, ne_eq, isMaxAge_iff]

theorem directives_eq_append (resp : Response) : ∃ rest,
    directives resp = firstLine resp ++ rest := by
  unfold directives firstLine
  cases resp.cacheControl with
  | nil => exact ⟨[], by decide⟩
  | cons line rest => exact ⟨rest.flatMap splitCacheControl, rfl⟩

theorem FirstMaxAge.append (h : FirstMaxAge o ds secs) (rest : List String) :
    FirstMaxAge o (ds ++ rest) secs := by
  obtain ⟨before, d, after, rfl, hd, hbefore⟩ := h
  exact ⟨before, d, after ++ rest, by simp, hd, hbefore⟩

theorem FirstMaxAge.unique {n : Int} (h : FirstMaxAge o ds secs)
    (h' : FirstMaxAge o ds n) : secs = n :=
  Option.some.inj ((maxAge_eq_some.mpr h).symm.trans (maxAge_eq_some.mpr h'))

/-! ### What comes out -/

theorem lifetime_of_forbids (h : ∃ d ∈ firstLine resp, forbids d = true) :
    cacheLifetime o resp configTTL now = none :=
  if_pos (List.any_eq_true.mpr h)

theorem min_eq_min_iff {l a b : Int} : min l a = min l b ↔ a = b ∨ l ≤ a ∧ l ≤ b := by
  omega

section Stored

variable (hstored : ∀ d ∈ firstLine resp, forbids d = false)
include hstored

theorem lifetime_of_maxAge (h : FirstMaxAge o (firstLine resp) secs) :
    cacheLifetime o resp configTTL now = if secs = 0 then none
      else some (min configTTL (max 60000000000 (int64 (secs * 1000000000)))) := by
  have hnone : ¬(firstLine resp).any forbids = true := by simpa using hstored
  refine (if_neg hnone).trans ?_
  rw [show maxAge o (splitCacheControl _) = _ from maxAge_eq_some.mpr h, min_comm, max_comm]
  simp only [beq_iff_eq]
  rfl

variable (hnone : ∀ d ∈ firstLine resp, ∀ n, ¬IsMaxAge o d n)
include hnone

theorem lifetime_of_expires : cacheLifetime o resp configTTL now =
    if resp.expires = "" then some configTTL
    else match o.parseTime resp.expires with
      | none => none
      | some t => if t ≤ now then none else some (min configTTL (max 60000000000 (t - now))) := by
  have hnone' : ¬(firstLine resp).any forbids = true := by simpa using hstored
  refine (if_neg hnone').trans ?_
  rw [show maxAge o (splitCacheControl _) = _ from maxAge_eq_none.mpr hnone]
  simp only [beq_iff_eq, sub_nonpos]
  simp only [min_comm _ configTTL, max_comm _ minCacheTTL]
  rfl

theorem stale_iff : cacheLifetime o resp configTTL now = none ↔ Stale o resp now := by
  rw [lifetime_of_expires hstored hnone, Stale]
  split
  · simp [*]
  · split <;> simp [*]

end Stored

/-- **The ceiling** needs nothing of the response. -/
theorem lifetime_le {d : Time} (h : cacheLifetime o resp configTTL now = some d) :
    d ≤ configTTL := by
  have hclamp : ∀ d, min (max d minCacheTTL) configTTL ≤ configTTL := fun d => min_le_right _ _
  simp only [cacheLifetime] at h
  split at h
  · cases h
  · split at h
    · split at h
      · cases h
      · exact Option.some.inj h ▸ hclamp _
    · split at h
      · exact le_of_eq (Option.some.inj h).symm
      · split at h
        · cases h
        · split at h
          · cases h
          · exact Option.some.inj h ▸ hclamp _

/-! ### Line by line -/

theorem stored_of_none (h : ¬∃ d ∈ firstLine resp, forbids d = true) :
    ∀ d ∈ firstLine resp, forbids d = false :=
  fun d hd => Bool.eq_false_iff.mpr fun hforbids => h ⟨d, hd, hforbids⟩

theorem lifetime_eq_none_iff : cacheLifetime o resp configTTL now = none ↔
    (∃ d ∈ firstLine resp, forbids d = true) ∨ FirstMaxAge o (firstLine resp) 0 ∨
      ((∀ d ∈ firstLine resp, ∀ n, ¬IsMaxAge o d n) ∧ Stale o resp now) := by
  by_cases hforbids : ∃ d ∈ firstLine resp, forbids d = true
  · exact iff_of_true (lifetime_of_forbids hforbids) (.inl hforbids)
  have hstored := stored_of_none hforbids
  simp only [hforbids, false_or]
  cases hage : maxAge o (firstLine resp) with
  | some secs =>
    have hfirst := maxAge_eq_some.mp hage
    obtain ⟨before, d, after, hlines, hd, -⟩ := id hfirst
    have hsome : ¬∀ d ∈ firstLine resp, ∀ n, ¬IsMaxAge o d n := by
      intro hnone
      exact hnone d (by simp [hlines]) secs hd
    simp only [lifetime_of_maxAge hstored hfirst, ite_eq_left_iff, reduceCtorEq, imp_false, not_not,
      hsome, false_and, or_false]
    exact ⟨fun h => h ▸ hfirst, hfirst.unique⟩
  | none =>
    have hnone := maxAge_eq_none.mp hage
    have hno : ¬FirstMaxAge o (firstLine resp) 0 := by simp [← maxAge_eq_some, hage]
    simp only [hno, false_or, and_iff_right hnone]
    exact stale_iff hstored hnone

theorem first_iff (hconfig : configTTL < 9223372036854775808)
    (hstored : ∀ d ∈ firstLine resp, forbids d = false) (h : FirstMaxAge o (firstLine resp) secs)
    (hpos : 0 < secs) :
    cacheLifetime o resp configTTL now =
      some (min configTTL (max 60000000000 (secs * 1000000000))) ↔
      secs ≤ 9223372036 ∨ configTTL ≤ max 60000000000 (int64 (secs * 1000000000)) := by
  rw [lifetime_of_maxAge hstored h, if_neg hpos.ne', Option.some.injEq, min_eq_min_iff]
  by_cases hfits : secs ≤ 9223372036
  · rw [int64_eq_self (by omega) (by omega)]
    exact iff_of_true (.inl rfl) (.inl hfits)
  · have hnanos : (9223372036854775808 : Int) ≤ secs * 1000000000 := by omega
    have hceiling : configTTL ≤ max 60000000000 (secs * 1000000000) :=
      le_max_of_le_right (hconfig.le.trans hnanos)
    simp only [hfits, false_or, hceiling, and_true, or_iff_right_iff_imp]
    exact fun heq => heq ▸ hceiling

/-- Without a `max-age` in the first line, the `Expires` line decides, or the ceiling. -/
theorem later_iff (hstored : ∀ d ∈ firstLine resp, forbids d = false)
    (hnone : ∀ d ∈ firstLine resp, ∀ n, ¬IsMaxAge o d n) (span : Time) :
    cacheLifetime o resp configTTL now = some (min configTTL span) ↔
      ¬Stale o resp now ∧ (resp.expires = "" → configTTL ≤ span) ∧
      ∀ t, resp.expires ≠ "" → o.parseTime resp.expires = some t →
        max 60000000000 (t - now) = span ∨ configTTL ≤ max 60000000000 (t - now) ∧
          configTTL ≤ span := by
  rw [lifetime_of_expires hstored hnone, Stale]
  by_cases hexpires : resp.expires = ""
  · simp [hexpires, eq_comm]
  simp only [hexpires, if_false, not_false_eq_true, ne_eq, true_and, false_implies, true_implies]
  cases hparse : o.parseTime resp.expires with
  | none => simp
  | some t =>
    simp only [Option.some.injEq, forall_eq', ← min_eq_min_iff]
    by_cases hpast : t ≤ now
    · simp [hpast]
    · simp [hpast]

end CIMD

open CIMD

/-- **Exactly when a document is cached as long as its headers and the operator allow.** The
operator's lifetime is any duration. -/
theorem CIMD.lifetime_follows_headers (o : Outside) (resp : Response) (configTTL now : Time)
    (hconfig : configTTL < 9223372036854775808) :
    FollowsHeaders o resp configTTL now ↔ Heard o resp configTTL now := by
  obtain ⟨rest, hlines⟩ := directives_eq_append resp
  have hfirst : (∀ d ∈ directives resp, forbids d = false) → ∀ d ∈ firstLine resp,
    forbids d = false :=
    fun h d hd => h d (by simp [hlines, hd])
  constructor
  · intro h
    refine ⟨fun hany => lifetime_eq_none_iff.mp (h.forbidden hany), fun hall secs hage => ?_,
      fun hall hnone secs hage hpos => ?_⟩
    · by_cases hpos : 0 < secs
      · exact (first_iff hconfig (hfirst hall) hage hpos).mp
          (h.maxAge hall secs (hlines ▸ hage.append rest) hpos)
      · exact .inl (by omega)
    · exact (later_iff (hfirst hall) hnone _).mp (h.maxAge hall secs hage hpos)
  · intro h
    refine ⟨fun hany => lifetime_eq_none_iff.mpr (h.forbidden hany), fun hall secs hage hpos => ?_,
      fun d => lifetime_le⟩
    cases hread : maxAge o (firstLine resp) with
    | some n =>
      have hn := maxAge_eq_some.mp hread
      obtain rfl : n = secs :=
        (hlines ▸ hn.append rest : FirstMaxAge o (directives resp) n).unique hage
      exact (first_iff hconfig (hfirst hall) hn hpos).mpr (h.fits hall n hn)
    | none =>
      have hnone := maxAge_eq_none.mp hread
      exact (later_iff (hfirst hall) hnone _).mpr (h.later hall hnone secs hage hpos)

namespace Sample

def cached (lines : List String) : CIMD.Response :=
  ⟨200, "application/json", lines, "", .error ""⟩

/-- A world with a reader of numbers that knows these three. -/
def numerals : CIMD.Outside where
  now := fun _ => 0
  lookupIPAddr := fun _ _ => .ok []
  dialAddress := fun _ _ _ => .ok ()
  dialName := fun _ _ => .error ""
  respond := fun _ _ _ => .error ""
  pick := fun _ => 0
  keepAlive := fun _ => true
  walk := fun _ keys => keys
  parseIP := fun _ => none
  ipString := fun _ => ""
  canonicalAddr := fun u => u.host
  splitHostPort := fun _ => none
  atoi := fun s =>
    if s = "30" then some 30 else if s = "300" then some 300
    else if s = "9223372037" then some 9223372037 else none
  parseTime := fun _ => none

end Sample

/-- Half a minute is raised to a minute, under a ceiling of an hour, whatever else a second line
says. -/
theorem CIMD.lifetime_follows_headers_floor :
    cacheLifetime Sample.numerals
      (Sample.cached ["Public, max-age=30", "private"]) 3600000000000 0 =
      some 60000000000 := by
  have hfirst : FirstMaxAge Sample.numerals
      (firstLine (Sample.cached ["Public, max-age=30", "private"])) 30 :=
    maxAge_eq_some.mp (by decide +kernel)
  have hheard : Heard Sample.numerals (Sample.cached ["Public, max-age=30", "private"])
      3600000000000 0 :=
    { forbidden := fun h => absurd h (by decide +kernel)
      fits := fun _ secs h => .inl (h.unique hfirst ▸ by decide)
      later := fun _ hnone => absurd (maxAge_eq_none.mpr hnone) (by decide +kernel) }
  exact ((CIMD.lifetime_follows_headers _ _ _ _ (by decide)).mpr hheard).maxAge
    (by decide +kernel) 30 (maxAge_eq_some.mp (by decide +kernel)) (by decide)

/-- **What the rule does not get.** A `no-store` in a second line does not keep the document out of
the cache, and a `max-age` of 9223372037 seconds is a minute, under a ceiling of a day. -/
theorem CIMD.lifetime_ignores_headers :
    (∃ d ∈ directives (Sample.cached ["max-age=300", "no-store"]), forbids d = true) ∧
    cacheLifetime Sample.numerals (Sample.cached ["max-age=300", "no-store"]) 86400000000000 0 =
      some 300000000000 ∧
    FirstMaxAge Sample.numerals (directives (Sample.cached ["max-age=9223372037"])) 9223372037 ∧
    cacheLifetime Sample.numerals (Sample.cached ["max-age=9223372037"]) 86400000000000 0 =
      some 60000000000 := by
  rw [← maxAge_eq_some]
  decide +kernel

end AuthServer
