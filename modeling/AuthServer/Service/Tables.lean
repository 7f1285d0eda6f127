import AuthServer.Service.Write

/-!
# What happens to each table

One lemma per table says what any write may do to it: which rows it rewrites and how, and which it
adds. Invariants of a table are derived from these, not from the writes one by one.
-/

namespace AuthServer

open Table

/-! ### Random strings -/

variable (env : Env)

/-- The string is one that no request has drawn yet. -/
def Undrawn (w : World) (s : String) : Prop :=
  ∃ j n, w.drawn j ≤ n ∧ s = env.random j n

variable {w : World}

theorem Undrawn.of_le {env : Env} {w' : World} {s : String} (hs : Undrawn env w' s)
    (h : ∀ j, w.drawn j ≤ w'.drawn j) : Undrawn env w s := by
  obtain ⟨j, n, hn, rfl⟩ := hs
  exact ⟨j, n, (h j).trans hn, rfl⟩

theorem not_undrawn_of_lt {env : Env} {i : ReqID} {n : ℕ} (h : n < w.drawn i) :
    ¬Undrawn env w (env.random i n) := by
  rintro ⟨j, m, hm, heq⟩
  obtain ⟨rfl, rfl⟩ := env.random_injective heq
  omega

theorem undrawn_next (w : World) (i : ReqID) : Undrawn env w (env.random i (w.drawn i)) :=
  ⟨i, _, Nat.le_refl _, rfl⟩

/-- In the transparent deployment, every string that is drawn has a dash. -/
theorem not_undrawn_plain {s : String} (h : '-' ∉ s.toList) : ¬Undrawn Env.plain w s := by
  rintro ⟨j, n, -, rfl⟩
  exact h (by simp [Env.plain, tally])

/-! ### Families -/

namespace Family

/-- A family row some time later: the same but for its status, which does not go back to active. -/
structure Later (f f' : Family) : Prop where
  same : f' = { f with status := f'.status, revokedAt := f'.revokedAt }
  inactive : f.isActive = false → f'.isActive = false

theorem Later.refl (f : Family) : Later f f := ⟨rfl, fun h => h⟩

variable {f f' : Family}

theorem Later.id_eq (h : Later f f') : f'.id = f.id := by
  rw [h.same]

theorem Later.trans {f'' : Family} (h : Later f f') (h' : Later f' f'') : Later f f'' := by
  refine ⟨?_, fun hf => h'.inactive (h.inactive hf)⟩
  rw [h'.same, h.same]

theorem Later.active (h : Later f f') (hactive : f'.isActive = true) : f.isActive = true := by
  by_contra hne
  rw [h.inactive (by simpa using hne)] at hactive
  cases hactive

theorem later_revoke (f : Family) (now : Time) : Later f { f with
    status := .revoked, revokedAt := some now } :=
  ⟨rfl, fun _ => rfl⟩

end Family

/-- **The families table.** A write revokes rows or adds a new family. -/
theorem families_run (ctx : ReqID) (x : Write) (w : World) :
    (∃ g : Family → Family, (∀ f, Family.Later f (g f)) ∧
      (x.run env ctx w).families = w.families.map g) ∨ ∃ f, (∃ jti now expiry issueRefresh tracked,
          x = .openFamily f jti now expiry issueRefresh tracked) ∧
        (∀ f' ∈ w.families, f'.id ≠ f.id ∧
          (f.authSessionID ≠ "" → f'.authSessionID ≠ f.authSessionID)) ∧
        (x.run env ctx w).families = w.families ++ [f] := by
  have hsame : ∀ w' : World, w'.families = w.families →
      ∃ g : Family → Family, (∀ f, Family.Later f (g f)) ∧ w'.families = w.families.map g :=
    fun w' h => ⟨id, Family.Later.refl, by rw [h, List.map_id]⟩
  have hframe := x.frame env ctx w
  cases x with
  | openFamily f jti now expiry issueRefresh tracked =>
    rcases run_openFamily_frame env ctx f jti now expiry issueRefresh tracked w with
      h | ⟨_, _, _, _, -, hnew, -, h⟩
    · exact .inl (hsame _ (by rw [h]))
    · exact .inr ⟨f, ⟨_, _, _, _, _, rfl⟩, hnew, by rw [h]⟩
  | revokeFamily id =>
    left
    simp only [Write.run, TokenStore.revokeFamily]
    split <;> exact exists_map_updateWhere .refl (·.later_revoke w.clock)
  | revokeFamiliesOfClient id => exact .inl (exists_map_updateWhere .refl (·.later_revoke w.clock))
  | revokeFamiliesOfUser id => exact .inl (exists_map_updateWhere .refl (·.later_revoke w.clock))
  | maintain m => cases m <;> exact .inl (hsame _ rfl)
  | _ => exact .inl (hsame _ (hframe.same .families (by simp [Write.touches])))

/-- No family is lost or comes back to life. -/
theorem grows_families_run (ctx : ReqID) (x : Write) (w : World) :
    Grows Family.Later w.families (x.run env ctx w).families := by
  rcases families_run env ctx x w with ⟨g, hg, h⟩ | ⟨f, -, -, h⟩
  · rw [h]
    exact fun f hf => ⟨g f, List.mem_map_of_mem hf, hg f⟩
  · rw [h]
    exact grows_append Family.Later.refl _ _

theorem unique_families_run (ctx : ReqID) (x : Write)
    (h : UniqueKey (fun f => some f.id) w.families) :
    UniqueKey (fun f => some f.id) (x.run env ctx w).families := by
  rcases families_run env ctx x w with ⟨g, hg, heq⟩ | ⟨f, -, hnew, heq⟩
  · exact h.of_subset_map (fun f => congrArg some (hg f).id_eq) (heq ▸ List.Subset.refl _)
  · rw [heq]
    exact h.append_singleton fun k hk f' hf' hkey =>
      (hnew f' hf').1 (Option.some.inj (hkey.trans hk.symm))

/-! ### Issuances -/

variable {i i' : Issuance}

namespace Issuance

/-- An issuance row some time later: the same but that it may have been revoked. -/
structure Later (i i' : Issuance) : Prop where
  same : i' = { i with revokedAt := i'.revokedAt }
  revoked : i.isRevoked = true → i'.isRevoked = true

theorem Later.refl (i : Issuance) : Later i i := ⟨rfl, fun h => h⟩

theorem Later.trans {i'' : Issuance} (h : Later i i') (h' : Later i' i'') : Later i i'' := by
  refine ⟨?_, fun hi => h'.revoked (h.revoked hi)⟩
  rw [h'.same, h.same]

theorem Later.jti_eq (h : Later i i') : i'.jti = i.jti := by
  rw [h.same]

theorem Later.parentJTI_eq (h : Later i i') : i'.parentJTI = i.parentJTI := by
  rw [h.same]

theorem Later.isMintRow_eq (h : Later i i') : IssuanceStore.isMintRow i' =
    IssuanceStore.isMintRow i := by
  rw [h.same]
  rfl

theorem Later.isRoot_eq (h : Later i i') (userID clientID resourceID : String) :
    IssuanceStore.isRoot userID clientID resourceID i' =
      IssuanceStore.isRoot userID clientID resourceID i := by
  rw [h.same]
  rfl

theorem later_revoke (i : Issuance) (now : Time) : Later i { i with revokedAt := some now } :=
  ⟨rfl, fun _ => rfl⟩

end Issuance

/-- The identifier of the token of a row, where it has one. -/
def Issuance.key (i : Issuance) : Option String :=
  if i.jti = "" then none else some i.jti

theorem Issuance.key_eq_some {jti : String} : i.key = some jti ↔ i.jti = jti ∧ jti ≠ "" := by
  unfold Issuance.key
  split
  · rename_i h
    simp only [reduceCtorEq, h, false_iff, not_and, not_not]
    exact fun h => h.symm
  · rename_i h
    simp only [Option.some.injEq]
    exact ⟨fun heq => ⟨heq, heq ▸ h⟩, fun heq => heq.1⟩

theorem Issuance.Later.key_eq (h : Later i i') : i'.key = i.key := by
  rw [h.same]
  rfl

/-- **The issuance log.** A write revokes rows, adds a row, or purges. -/
theorem issuances_run (ctx : ReqID) (x : Write) (w : World)
    (hpurge : ∀ before, x ≠ .maintain (.purgeIssuances before)) :
    (∃ g : Issuance → Issuance, (∀ i, Issuance.Later i (g i)) ∧
        (x.run env ctx w).issuances = w.issuances.map g) ∨
      ∃ row, x = .insertIssuance row ∧
        (∀ i ∈ w.issuances, i.id ≠ row.id ∧ (row.jti ≠ "" → i.jti ≠ row.jti)) ∧
        x.run env ctx w = { w with
          issuances := w.issuances ++ [row] }.note ctx (.issued row.jti) := by
  have hsame : ∀ w' : World, w'.issuances = w.issuances →
      ∃ g : Issuance → Issuance, (∀ i, Issuance.Later i (g i)) ∧ w'.issuances = w.issuances.map g :=
    fun w' h => ⟨id, Issuance.Later.refl, by rw [h, List.map_id]⟩
  have hframe := x.frame env ctx w
  cases x with
  | insertIssuance row =>
    rcases IssuanceStore.insert_cases ctx row w with ⟨e, h⟩ | ⟨hnew, h⟩
    · exact .inl (hsame _ (by rw [Write.run, h]))
    · exact .inr ⟨row, rfl, hnew, by rw [Write.run, h]⟩
  | revokeIssuance id => exact .inl (exists_map_updateWhere .refl (·.later_revoke w.clock))
  | cascade u c r => exact .inl (exists_map_updateWhere .refl (·.later_revoke w.clock))
  | maintain m =>
    cases m with
    | purgeIssuances before => exact absurd rfl (hpurge before)
    | _ => exact .inl (hsame _ rfl)
  | _ => exact .inl (hsame _ (hframe.same .issuances (by simp [Write.touches])))

end AuthServer
