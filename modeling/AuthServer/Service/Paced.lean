import AuthServer.Interleave.Paced
import AuthServer.Service.Rules

/-!
# Methods at a pace

A service method that runs alone while time passes: before each of its store calls the clock may
advance, and the store may fail any of them. Here is what the common calls do in such a run.
`World.Idle` is what waiting and quiet calls do, and lookups in the tables of the services are the
same along it. -/

namespace AuthServer

open Interleave

/-- The clock advances. -/
def World.wait (d : ℕ) (w : World) : World :=
  { w with clock := w.clock + d }

/-- For each store call of a method, how long it is waited for and whether it fails. -/
abbrev Pace := List (ℕ × Bool)

theorem World.clock_le_wait (d : ℕ) (w : World) : w.clock ≤ (w.wait d).clock :=
  Int.le_add_of_nonneg_right (Int.natCast_nonneg d)

/-- The clock was not set back, and no token was handed out. -/
structure World.Before (w w' : World) : Prop where
  clock : w.clock ≤ w'.clock
  released : w'.released = w.released

theorem World.Before.refl (w : World) : w.Before w := ⟨Int.le_refl _, rfl⟩

theorem World.Before.drifts : Prog.Drifts World.wait World.Before where
  refl := .refl
  trans := fun h h' => ⟨Int.le_trans h.clock h'.clock, h'.released.trans h.released⟩
  waits := fun d w => ⟨w.clock_le_wait d, rfl⟩

theorem eq_wait_of_waited {w u : World} (h : Prog.Waited World.wait w u) : ∃ d, u = w.wait d := by
  rcases h with rfl | h
  · exact ⟨0, by simp [World.wait]⟩
  · exact h

theorem runPaced_timeNow_bind {α : Type} (g : Time → Svc α) (pace : Pace) (w : World) :
    ∃ d rest, (timeNow >>= g).runPaced World.wait pace w =
      (g (w.wait d).clock).runPaced World.wait rest (w.wait d) := by
  obtain ⟨u, rest, hu, hrun⟩ := Prog.runPaced_step_bind (fun w : World => (w.clock, w)) g pace w
  obtain ⟨d, rfl⟩ := eq_wait_of_waited hu
  exact ⟨d, rest, hrun⟩

/-- A pass that reads the clock first: the time it read stays in the past while it goes on. -/
theorem runPaced_timeNow_inv {α : Type} {I : World → Prop} {g : Time → Svc α}
    (hwait : ∀ d w, I w → I (w.wait d))
    (hg : ∀ now, (g now).Each fun u u' => now ≤ u.clock ∧ I u → now ≤ u'.clock ∧ I u')
    (pace : Pace) (w : World) (h : I w) : I ((timeNow >>= g).runPaced World.wait pace w).2 := by
  obtain ⟨d, rest, hrun⟩ := runPaced_timeNow_bind g pace w
  have hdrifts : Prog.Drifts World.wait
      fun u u' => (w.wait d).clock ≤ u.clock ∧ I u → (w.wait d).clock ≤ u'.clock ∧ I u' :=
    .of_inv fun d' u hu => ⟨hu.1.trans (u.clock_le_wait d'), hwait d' u hu.2⟩
  rw [hrun]
  exact ((hg _).runPaced hdrifts rest (w.wait d) ⟨Int.le_refl _, hwait d w h⟩).2

/-- Time passed, and nothing but quiet calls was made. -/
def World.Idle (w w' : World) : Prop :=
  ∃ clock, w.clock ≤ clock ∧ World.Quiet { w with clock := clock } w'

theorem World.Idle.of_quiet {w w' : World} (h : w.Quiet w') : w.Idle w' :=
  ⟨w.clock, Int.le_refl _, h⟩

theorem World.Idle.drifts : Prog.Drifts World.wait World.Idle where
  refl w := .of_quiet (.refl w)
  trans h h' := by
    obtain ⟨clock, hle, _, _, _, hd, rfl⟩ := h
    obtain ⟨clock', hle', _, _, _, hd', rfl⟩ := h'
    exact ⟨clock', hle.trans hle', _, _, _, fun i => (hd i).trans (hd' i), rfl⟩
  waits d w := ⟨_, w.clock_le_wait d, .refl _⟩

section Lookups

variable {w u : World}

theorem World.Idle.clock_le (h : w.Idle u) : w.clock ≤ u.clock := by
  obtain ⟨_, hle, _, _, _, -, rfl⟩ := h
  exact hle

theorem World.Idle.getRefreshTokenByHash (h : w.Idle u) (hash : String) :
    TokenStore.getRefreshTokenByHash hash u = TokenStore.getRefreshTokenByHash hash w := by
  obtain ⟨_, -, _, _, _, -, rfl⟩ := h
  rfl

theorem World.Idle.getFamily (h : w.Idle u) (id : String) : TokenStore.getFamily id u =
    TokenStore.getFamily id w := by
  obtain ⟨_, -, _, _, _, -, rfl⟩ := h
  rfl

theorem World.Idle.getFamilyByAuthSessionID (h : w.Idle u) (id : String) :
    TokenStore.getFamilyByAuthSessionID id u = TokenStore.getFamilyByAuthSessionID id w := by
  obtain ⟨_, -, _, _, _, -, rfl⟩ := h
  rfl

theorem World.Idle.getByID (h : w.Idle u) (id : String) : ClientStore.getByID id u =
    ClientStore.getByID id w := by
  obtain ⟨_, -, _, _, _, -, rfl⟩ := h
  rfl

theorem World.Idle.resolve (h : w.Idle u) (identifier : String) :
    ResourceRegistry.resolve identifier u = ResourceRegistry.resolve identifier w := by
  obtain ⟨_, -, _, _, _, -, rfl⟩ := h
  rfl

end Lookups

variable {α β : Type} {pace : Pace} {w t : World}

theorem idle_fetch (f : World → Except Err α) (pace : Pace) (w : World) :
    w.Idle ((fetch f).runPaced World.wait pace w).2 :=
  (each_fetch.mono fun _ _ => World.Idle.of_quiet).runPaced World.Idle.drifts pace w

variable {f : World → Except Err α}

/-- A read that succeeded returned what it read at that moment. -/
theorem ok_of_fetch {a : α}
    (h : (fetch f).runPaced World.wait pace w = (.ok a, t)) : w.Idle t ∧ f t = .ok a := by
  obtain ⟨u, hu, hcall⟩ := Prog.ok_of_runPaced_exec h
  obtain ⟨hok, rfl⟩ := Prod.mk.inj hcall
  exact ⟨World.Idle.drifts.waited hu, hok⟩

variable {φ : Err → Err}

theorem ok_of_read {a : α}
    (h : ((fetch f).attempt >>= fun r => Prog.ofExcept (r.mapError φ)).runPaced World.wait pace w =
      (.ok a, t)) : w.Idle t ∧ f t = .ok a := by
  rw [Prog.runPaced_attempt_ofExcept] at h
  obtain ⟨hresult, hworld⟩ := Prod.mk.inj h
  exact ok_of_fetch (Prod.ext (mapError_eq_ok.mp hresult) hworld)

variable {g : α → Svc β}

theorem ok_of_read_bind {b : β}
    (h : ((fetch f).attempt >>= fun r => Prog.ofExcept (r.mapError φ) >>= g).runPaced
      World.wait pace w =
      (.ok b, t)) : ∃ a u rest, w.Idle u ∧ f u = .ok a ∧
        (g a).runPaced World.wait rest u = (.ok b, t) := by
  rw [← Prog.bind_assoc] at h
  obtain ⟨a, u, rest, hread, h⟩ := Prog.ok_of_runPaced_bind h
  obtain ⟨hidle, hok⟩ := ok_of_read hread
  exact ⟨a, u, rest, hidle, hok, h⟩

theorem ok_of_wrapErr_bind {detail : String} {b : β}
    (h : (wrapErr detail (fetch f) >>= g).runPaced World.wait pace w = (.ok b, t)) :
    ∃ a u rest, w.Idle u ∧ f u = .ok a ∧ (g a).runPaced World.wait rest u = (.ok b, t) := by
  obtain ⟨a, u, rest, hread, h⟩ := Prog.ok_of_runPaced_bind h
  obtain ⟨hidle, hok⟩ := ok_of_read hread
  exact ⟨a, u, rest, hidle, hok, h⟩

end AuthServer
