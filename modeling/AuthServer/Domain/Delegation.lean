import Mathlib.Data.List.Forall2
import AuthServer.Json.Object

/-!
# The delegation chain

`token.ActClaim` of `internal/domain/token/exchange.go`: the actors behind a token, as the RFC 8693
`act` claim nests them. In memory a claim is a linked list of hops, outermost first, and a nil claim
is the empty list, so the depth of the chain is the length of the list. In a token it is an object
with the actor under `sub`, the next hop under `act`, and whatever else is known of the actor beside
them.

A chain is parsed from a token and rendered into the next one at every exchange. `actors` reads the
actors off a claim *as it stands in a token*; parsing and rendering are related to that reading, so
a statement about `actors` does not depend on the parser it is meant to check. -/

namespace AuthServer

open Json

/-- One hop of an `act` claim: the actor, and what else is known of it. -/
structure Hop where
  sub : String
  extras : Object
  deriving DecidableEq, Repr

/-- `token.ActClaim`: the hops, outermost first; the empty list is a nil claim. -/
abbrev ActClaim := List Hop

def nonIdentityClaimKeys : List String := ["exp", "nbf", "aud", "iat", "jti"]

variable (act : ActClaim)

def sanitizeNonIdentityClaims : ActClaim :=
  act.map fun hop => { hop with
    extras := nonIdentityClaimKeys.foldl (fun m k => m.erase k) hop.extras }

def ActClaim.depth : ActClaim → ℕ
  | [] => 0
  | _ :: rest => 1 + ActClaim.depth rest

/-- `ActClaimToMap`: `sub` and `act` are written over whatever the extras hold under these names. -/
def actClaimToMap : ActClaim → Option Object
  | [] => none
  | hop :: rest =>
    let m := hop.extras.set "sub" (.str hop.sub)
    some (match actClaimToMap rest with
      | some inner => m.set "act" (.obj inner)
      | none => m.erase "act")

/-- The outermost hop of a claim. -/
def hopOfMap (m : Object) : Hop :=
  ⟨m.text "sub", (m.erase "sub").erase "act"⟩

/-- `ActClaimFromMap`: one hop for the object and one for each object nested under `act`; an `act`
that is not an object ends the chain. -/
def actClaimFromMap : Option Object → ActClaim
  | none => []
  | some m => (m.along "act").map hopOfMap

/-- The actors a claim names, outermost first. -/
def actors : Option Object → List String
  | none => []
  | some m => (m.along "act").map (Object.text "sub")

/-- The recursion of the source. -/
theorem actClaimFromMap_some (m : Object) :
    actClaimFromMap (some m) = hopOfMap m :: actClaimFromMap (m.object "act") := by
  rw [actClaimFromMap, Object.along_eq, List.map_cons]
  cases m.object "act" <;> rfl

theorem actors_some (m : Object) : actors (some m) = m.text "sub" :: actors (m.object "act") := by
  rw [actors, Object.along_eq, List.map_cons]
  cases m.object "act" <;> rfl

@[simp] theorem map_sub_actClaimFromMap (act : Option Object) :
    (actClaimFromMap act).map Hop.sub = actors act := by
  cases act with
  | none => rfl
  | some m =>
    rw [actClaimFromMap, actors, List.map_map]
    rfl

@[simp] theorem map_sub_sanitizeNonIdentityClaims :
    (sanitizeNonIdentityClaims act).map Hop.sub = act.map Hop.sub := by
  rw [sanitizeNonIdentityClaims, List.map_map]
  rfl

/-! ### The object of a chain -/

section ToMap

variable (hop : Hop) (rest : ActClaim)

/-- What the object of a chain holds under the two names that are its own. -/
theorem get_actClaimToMap_cons : ∃ m, actClaimToMap (hop :: rest) = some m ∧
    m.get "sub" = some (.str hop.sub) ∧ m.get "act" = (actClaimToMap rest).map Value.obj := by
  have hne : "act" ≠ "sub" := by decide
  refine ⟨_, rfl, ?_⟩
  cases actClaimToMap rest with
  | none => simp [Object.get_erase_of_ne hne]
  | some inner => simp [Object.get_set_of_ne hne]

theorem actClaimToMap_cons : ∃ m, actClaimToMap (hop :: rest) = some m ∧ m.text "sub" = hop.sub ∧
    m.object "act" = actClaimToMap rest ∧
    (m.erase "sub").erase "act" = (hop.extras.erase "sub").erase "act" := by
  have hne : "act" ≠ "sub" := by decide
  refine ⟨_, rfl, ?_⟩
  cases actClaimToMap rest with
  | none =>
    refine ⟨?_, ?_, ?_⟩
    · simp [Object.text, Object.get_erase_of_ne hne]
    · simp [Object.object]
    · rw [Object.erase_comm "act", Object.erase_set_self, Object.erase_erase_self]
  | some inner =>
    refine ⟨?_, ?_, ?_⟩
    · simp [Object.text, Object.get_set_of_ne hne]
    · simp [Object.object]
    · rw [Object.erase_comm "sub", Object.erase_set_self, Object.erase_comm "act",
        Object.erase_set_self]

end ToMap

@[simp] theorem actors_actClaimToMap : actors (actClaimToMap act) = act.map Hop.sub := by
  induction act with
  | nil => rfl
  | cons hop rest ih =>
    obtain ⟨m, hm, hsub, hact, -⟩ := actClaimToMap_cons hop rest
    rw [hm, actors_some, hsub, hact, ih, List.map_cons]

/-- **The round trip.** Parsing what was rendered gives the chain back, without the extras that
stand in the place of `sub` or `act`. -/
theorem actClaimFromMap_actClaimToMap :
    actClaimFromMap (actClaimToMap act) =
      act.map fun hop => { hop with extras := (hop.extras.erase "sub").erase "act" } := by
  induction act with
  | nil => rfl
  | cons hop rest ih =>
    obtain ⟨m, hm, hsub, hact, hextras⟩ := actClaimToMap_cons hop rest
    rw [hm, actClaimFromMap_some, hact, ih, hopOfMap, hsub, hextras, List.map_cons]

/-- A hop that holds nothing under the names of the claim's own members. -/
def Hop.Plain (hop : Hop) : Prop :=
  hop.extras.get "sub" = none ∧ hop.extras.get "act" = none

instance : DecidablePred Hop.Plain := fun _ => inferInstanceAs (Decidable (_ ∧ _))

/-- The second hop is the first without the members that do not identify an actor. -/
def Hop.SanitizedTo (hop hop' : Hop) : Prop :=
  hop'.sub = hop.sub ∧
    ∀ k, hop'.extras.get k = if k ∈ nonIdentityClaimKeys then none else hop.extras.get k

theorem sanitizedTo_sanitizeNonIdentityClaims :
    List.Forall₂ Hop.SanitizedTo act (sanitizeNonIdentityClaims act) := by
  rw [sanitizeNonIdentityClaims, List.forall₂_map_right_iff, List.forall₂_same]
  exact fun hop _ => ⟨rfl, Object.get_foldl_erase nonIdentityClaimKeys hop.extras⟩

theorem foldl_erase_eq_self {ks : List String} {m : Object} (h : ∀ k ∈ ks, m.get k = none) :
    ks.foldl (fun m k => m.erase k) m = m := by
  induction ks with
  | nil => rfl
  | cons k ks ih =>
    rw [List.foldl_cons, Object.erase_of_get_eq_none (h k List.mem_cons_self)]
    exact ih fun k' hk' => h k' (List.mem_cons_of_mem k hk')

theorem sanitizeNonIdentityClaims_idem :
    sanitizeNonIdentityClaims (sanitizeNonIdentityClaims act) = sanitizeNonIdentityClaims act := by
  simp only [sanitizeNonIdentityClaims, List.map_map]
  refine List.map_congr_left fun hop _ => ?_
  have hgone : ∀ k ∈ nonIdentityClaimKeys,
      (nonIdentityClaimKeys.foldl (fun m k => m.erase k) hop.extras).get k = none := fun k hk => by
    rw [Object.get_foldl_erase, if_pos hk]
  exact congrArg (Hop.mk hop.sub) (foldl_erase_eq_self hgone)

/-- **Actor claims survive the trip through maps.**

* A claim none of whose hops holds an extra under `sub` or `act` is read back as it was rendered,
  with its depth.
* At every depth, the rendered subject is the hop's own and what is nested is the rendering of the
  rest of the chain, or nothing at the end of it, whatever the extras hold under these two names.
* Sanitizing twice is sanitizing once; it keeps the hops, their subjects and every extra but the
  ones named `exp`, `nbf`, `aud`, `iat` and `jti`, which it removes from each of them. -/
theorem actClaim_maps (act : ActClaim) :
    ((∀ hop ∈ act, hop.Plain) → actClaimFromMap (actClaimToMap act) = act ∧
      (actClaimFromMap (actClaimToMap act)).depth = act.depth) ∧
    (∀ hop rest, ∃ m, actClaimToMap (hop :: rest) = some m ∧ m.get "sub" = some (.str hop.sub) ∧
      m.get "act" = (actClaimToMap rest).map Value.obj) ∧
    sanitizeNonIdentityClaims (sanitizeNonIdentityClaims act) = sanitizeNonIdentityClaims act ∧
    List.Forall₂ Hop.SanitizedTo act (sanitizeNonIdentityClaims act) := by
  refine ⟨fun hplain => ?_, get_actClaimToMap_cons, sanitizeNonIdentityClaims_idem act,
    sanitizedTo_sanitizeNonIdentityClaims act⟩
  have hsame : ∀ hop ∈ act,
      { hop with extras := (hop.extras.erase "sub").erase "act" } = hop := fun hop hmem => by
    obtain ⟨hsub, hact⟩ := hplain hop hmem
    rw [Object.erase_of_get_eq_none hsub, Object.erase_of_get_eq_none hact]
  have hback : actClaimFromMap (actClaimToMap act) = act := by
    rw [actClaimFromMap_actClaimToMap, List.map_congr_left hsame, List.map_id']
  exact ⟨hback, congrArg ActClaim.depth hback⟩

/-- A gateway acting for a worker, each with a member beside its subject. -/
theorem actClaim_maps_two_hops :
    actClaimFromMap (actClaimToMap [⟨"gateway", .entry "actor_type" (.str "service") .empty⟩,
        ⟨"worker", .entry "iat" (.other "7") .empty⟩]) =
      [⟨"gateway", .entry "actor_type" (.str "service") .empty⟩,
        ⟨"worker", .entry "iat" (.other "7") .empty⟩] :=
  ((actClaim_maps [⟨"gateway", .entry "actor_type" (.str "service") .empty⟩,
    ⟨"worker", .entry "iat" (.other "7") .empty⟩]).1 (by decide)).1

end AuthServer
