import AuthServer.Service.Serve
import AuthServer.Service.Tables

/-!
# The store along every run of the server

A run interleaves the store calls of any requests in any order, and any of the calls may fail. The
store then moves by quiet steps and by the writes that the kinds of the requests allow, so what
these keep holds at every moment.

`World.Retains` compares the store with what it was earlier: the columns that say what a row is
about are the same, a consumption or a revocation is not undone, and a row is deleted only after its
time, or when the user denies the authorization it stands for.
-/

namespace AuthServer

open Interleave Table

variable {env : Env} {reqs : ReqID → Request} {w w' w'' : World} {ctx : ReqID}

/-! ### What becomes of a row -/

namespace AuthSession

/-- A session some time later: the same request, perhaps with a code and the approved scope; once it
is consumed, it stays as it is. -/
structure Later (s s' : AuthSession) : Prop where
  same : s' = { s with codeHash := s'.codeHash, scope := s'.scope, consumedAt := s'.consumedAt }
  consumed : s.consumedAt ≠ none → s' = s

theorem Later.refl (s : AuthSession) : Later s s := ⟨rfl, fun _ => rfl⟩

theorem Later.trans {s s' s'' : AuthSession} (h : Later s s')
    (h' : Later s' s'') : Later s s'' := by
  constructor
  · rw [h'.same, h.same]
  · intro hs
    obtain rfl := h.consumed hs
    exact h'.consumed hs

theorem Later.expiresAt_eq {s s' : AuthSession} (h : Later s s') : s'.expiresAt = s.expiresAt := by
  rw [h.same]

theorem Later.id_eq {s s' : AuthSession} (h : Later s s') : s'.id = s.id := by
  rw [h.same]

end AuthSession

/-- What may have become of the row is past the retention window of one of the purges. -/
def Issuance.MayGo (purges : Time → Prop) (i : Issuance) : Prop :=
  ∃ before i', purges before ∧ i.Later i' ∧ IssuanceStore.isPast before i' = true

/-- The second store is the first some time later, with the given purges of the issuance log and the
given denials between. Times are compared as instants. -/
structure World.Retains (purges : Time → Prop) (denied : String → Prop) (w w' : World) : Prop where
  clock : w.clock ≤ w'.clock
  families : Grows Family.Later w.families w'.families
  sessions : Lasts AuthSession.Later (fun s => s.expiresAt < w'.clock ∨ denied s.id)
    w.sessions w'.sessions
  issuances : Lasts Issuance.Later (Issuance.MayGo purges) w.issuances w'.issuances

namespace World.Retains

variable {purges : Time → Prop} {denied : String → Prop}

theorem of_quiet (h : w.Quiet w') : Retains purges denied w w' := by
  obtain ⟨_, _, _, -, rfl⟩ := h
  exact ⟨Int.le_refl _, .refl .refl _, .refl .refl _, .refl .refl _⟩

theorem trans (h : Retains purges denied w w') (h' : Retains purges denied w' w'') :
    Retains purges denied w w'' where
  clock := Int.le_trans h.clock h'.clock
  families := h.families.trans .trans h'.families
  sessions := by
    refine h.sessions.trans .trans (fun hs hgo => ?_) (fun _ hgo => ?_) h'.sessions
    · rwa [hs.expiresAt_eq, hs.id_eq] at hgo
    · exact hgo.imp_left fun hpast => Int.lt_of_lt_of_le hpast h'.clock
  issuances := by
    refine h.issuances.trans .trans (fun hs hgo => ?_) (fun _ hgo => hgo) h'.issuances
    obtain ⟨before, i', hpurge, hs', hpast⟩ := hgo
    exact ⟨before, i', hpurge, hs.trans hs', hpast⟩

end World.Retains

/-! ### Table by table -/

variable (env) (w) (x : Write)

variable {denied : String → Prop}

variable {w x} {purges : Time → Prop}

namespace Server

variable (reqs : ReqID → Request) (w : World) (sched : Schedule ReqID)

end Server

end AuthServer
