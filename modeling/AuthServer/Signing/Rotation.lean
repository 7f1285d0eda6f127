import AuthServer.Signing.HAKeyStore
import Mathlib.Data.List.Induction

/-!
# Rotations by several instances

Instances that share a database save their keys one transaction after another. Each row carries the
reading its own instance took of its own clock before the first attempt, so the stamps of the rows
need not follow the order of the commits. What the prune of `doSaveTx` keeps is decided by the
stamps.
-/

namespace AuthServer

open Interleave

namespace Signing

variable {prims : Primitives}

/-- A `Save` at its transaction: the key, encrypted, with the row identifier of the attempt and the
clock reading of the call. -/
structure SaveTx (prims : Primitives) where
  key : SigningKey
  generated : Generated prims key
  encPrivate : String
  encrypted : HAKeyStore.sealPrivate prims key = .ok encPrivate
  id : String
  now : Int

namespace SaveTx

variable (tx : SaveTx prims)

def row : KeyRow := HAKeyStore.rowOf tx.key tx.encPrivate tx.now tx.id

@[simp] theorem id_row : tx.row.id = tx.id := rfl

@[simp] theorem kid_row : tx.row.kid = tx.key.keyID := rfl

def stamp : Int := tx.row.createdAt

theorem decryptAndParse_row : HAKeyStore.decryptAndParse prims tx.row = .ok tx.key :=
  HAKeyStore.decryptAndParse_rowOf tx.generated tx.encrypted tx.now tx.id

end SaveTx

/-- The table after the transactions have committed one after another; nothing when one of them does
not commit. -/
def commitAll (planner : Planner) (t : KeyTable) : List (SaveTx prims) → Option KeyTable
  | [] => some t
  | tx :: rest => (t.save planner tx.row).bind fun t' => commitAll planner t' rest

theorem commitAll_append (planner : Planner) (t : KeyTable) (txs txs' : List (SaveTx prims)) :
    commitAll planner t (txs ++ txs') =
      (commitAll planner t txs).bind fun t' => commitAll planner t' txs' := by
  induction txs generalizing t with
  | nil => rfl
  | cons tx rest ih => simp [commitAll, Option.bind_assoc, ih]

variable {planner : Planner} {t t' : KeyTable} {tx : SaveTx prims}

/-- The last of several transactions. -/
theorem exists_save_of_commitAll {before : List (SaveTx prims)}
    (h : commitAll planner t (before ++ [tx]) = some t') :
    ∃ t₀, commitAll planner t before = some t₀ ∧ t₀.save planner tx.row = some t' := by
  rw [commitAll_append] at h
  obtain ⟨t₀, hbefore, hlast⟩ := Option.bind_eq_some_iff.mp h
  exact ⟨t₀, hbefore, by simpa [commitAll] using hlast⟩

/-- What a table holds just after a transaction that replaced the key of another, or none. -/
structure Rotated (replaced : Option (SaveTx prims)) (tx : SaveTx prims)
    (d : KeyDatabase) : Prop where
  current : d.table.rows.filter KeyRow.isCurrent = [tx.row]
  others : d.table.others = replaced.toList.map fun tx => tx.row.demote
  loadPrevious : ∀ planner,
    (HAKeyStore.loadPrevious prims planner).run [] d = (.ok (replaced.map SaveTx.key), d)
  listActive : ∀ planner, (HAKeyStore.listActive prims planner).run [] d =
    (.ok (tx.key :: replaced.toList.map SaveTx.key), d)

/-- After each commit, the row just saved is current and the only other row is the one it replaced.
-/
def KeepsReplaced (planner : Planner) (txs : List (SaveTx prims)) : Prop :=
  ∀ before tx after t, txs = before ++ tx :: after →
    commitAll planner KeyTable.empty (before ++ [tx]) = some t →
      ∀ clock drawn, Rotated before.getLast? tx ⟨t, clock, drawn⟩

/-- Of three consecutive transactions the first has an earlier stamp than the second. -/
def StampsFollow (txs : List (SaveTx prims)) : Prop :=
  ∀ before (a b c : SaveTx prims) after, txs = before ++ a :: b :: c :: after → a.stamp < b.stamp

theorem stampsFollow_triple {a b c : SaveTx prims} : StampsFollow [a, b, c] ↔
    a.stamp < b.stamp := by
  refine ⟨fun h => h [] a b c [] rfl, fun h before a' b' c' after heq => ?_⟩
  obtain rfl : before = [] := by
    have hlen := congrArg List.length heq
    simp only [List.length_append, List.length_cons, List.length_nil] at hlen
    exact List.eq_nil_of_length_eq_zero (by omega)
  obtain ⟨rfl, rfl, -⟩ : a = a' ∧ b = b' ∧ _ := by simpa using heq
  exact h

/-! ### Stamps that follow the commits -/

/-- The rows after several transactions, the last two of which are given. -/
structure Holds (newest older : Option (SaveTx prims)) (t : KeyTable) : Prop where
  current : t.current = newest.map SaveTx.row
  others : t.others = older.toList.map fun tx => tx.row.demote

variable {newest older : Option (SaveTx prims)}

theorem Holds.settled (h : Holds newest older t) : t.Settled := by
  rw [KeyTable.Settled, h.others]
  cases older <;> simp

/-- One more transaction. -/
theorem Holds.save
    (h : Holds newest older t) (hstamps : ∀ a ∈ older, ∀ b ∈ newest, a.stamp < b.stamp)
    (hnone : newest = none → older = none) (hsave : t.save planner tx.row = some t') :
      Holds (some tx) newest t' := by
  refine ⟨KeyTable.current_save hsave, ?_⟩
  cases newest with
  | none =>
    rw [KeyTable.others_save_of_none hsave h.current h.settled, h.others, hnone rfl]
  | some b =>
    refine KeyTable.others_save_of_current hsave h.current ?_
    intro c hc r hr
    obtain rfl : b.row = c := Option.some.inj (h.current.symm.trans hc)
    rw [h.others] at hr
    obtain ⟨a, ha, rfl⟩ := List.mem_map.mp hr
    exact hstamps a (by simpa using ha) b rfl

variable {txs : List (SaveTx prims)}

/-- **What several transactions leave.** -/
theorem holds_of_commitAll
    (hstamps : ∀ before (a b c : SaveTx prims) after, txs = before ++ a :: b :: c :: after →
      a.stamp < b.stamp)
    (h : commitAll planner KeyTable.empty txs = some t) :
      Holds txs.getLast? txs.dropLast.getLast? t := by
  induction txs using List.reverseRecOn generalizing t with
  | nil =>
    obtain rfl := Option.some.inj h
    exact ⟨rfl, rfl⟩
  | append_singleton before tx ih =>
    obtain ⟨t₀, hbefore, hsave⟩ := exists_save_of_commitAll h
    have hholds := ih (fun before' a b c after htxs => hstamps before' a b c (after ++ [tx])
      (by simp [htxs])) hbefore
    simp only [List.getLast?_append, List.getLast?_singleton, Option.some_or, List.dropLast_concat]
    refine hholds.save (fun a ha b hb => ?_) (fun hnone => ?_) hsave
    · obtain ⟨init, rfl⟩ := List.getLast?_eq_some_iff.mp hb
      rw [List.dropLast_concat] at ha
      obtain ⟨init', rfl⟩ := List.getLast?_eq_some_iff.mp ha
      exact hstamps init' a b tx [] (by simp)
    · rw [List.getLast?_eq_none_iff.mp hnone]
      rfl

/-- A result of which only the success is known. -/
theorem eq_ok_of_toOption {α : Type} {r : Except Err α} {a : α}
    (h : r.toOption = some a) : r = .ok a := by
  cases r with
  | error e => cases h
  | ok b => exact congrArg Except.ok (Option.some.inj h)

/-- What is read of the two rows. -/
theorem Holds.rotated {replaced : Option (SaveTx prims)} {d : KeyDatabase}
    (h : Holds (some tx) replaced d.table) : Rotated replaced tx d := by
  have hcurrent : HAKeyStore.readRow prims d.table.current = some (some tx.key) := by
    simp [h.current, HAKeyStore.readRow, tx.decryptAndParse_row, Except.toOption]
  have hprevious : HAKeyStore.readRow prims d.table.others.head? =
    some (replaced.map SaveTx.key) := by
    cases replaced with
    | none => simp [h.others, HAKeyStore.readRow]
    | some b =>
      simp [h.others, HAKeyStore.readRow, HAKeyStore.decryptAndParse_demote, b.decryptAndParse_row,
        Except.toOption]
  refine ⟨?_, h.others, fun planner => ?_, fun planner => ?_⟩
  · have hlen := d.table.oneCurrent
    have hhead : (d.table.rows.filter KeyRow.isCurrent).head? = some tx.row := by
      rw [List.head?_filter]
      exact h.current
    rcases hrows : d.table.rows.filter KeyRow.isCurrent with _ | ⟨r, _ | ⟨r', rest⟩⟩
    · simp [hrows] at hhead
    · simpa [hrows] using hhead
    · simp [hrows] at hlen
  · obtain ⟨r, hrun, hread⟩ := HAKeyStore.run_loadRow prims "previous"
      (fun t => (planner.sort newerFirst t.others).head?) d
    rw [KeyTable.sort_others planner h.settled, hprevious] at hread
    rw [← eq_ok_of_toOption hread]
    exact hrun
  · obtain ⟨r, hrun, hread⟩ := HAKeyStore.run_listActive prims planner h.settled
    have hlist : (HAKeyStore.view prims d).list =
      some (tx.key :: replaced.toList.map SaveTx.key) := by
      simp only [View.list, HAKeyStore.view, hcurrent, hprevious]
      cases replaced <;> rfl
    rw [hlist] at hread
    rw [← eq_ok_of_toOption hread]
    exact hrun

theorem keepsReplaced_of_stampsFollow (h : StampsFollow txs)
    (planner : Planner) : KeepsReplaced planner txs := by
  intro before tx after t htxs ht clock drawn
  have hholds := holds_of_commitAll (fun before' a b c after' heq =>
    h before' a b c (after' ++ after) (by
      have : txs = (before ++ [tx]) ++ after := by simp [htxs]
      rw [this, heq]
      simp)) ht
  rw [List.getLast?_append, List.getLast?_singleton, Option.some_or, List.dropLast_concat] at hholds
  exact hholds.rotated

/-! ### Stamps that do not -/

/-- Of two rows with stamps that are not in order, the first stays in front. -/
theorem stable_sort_pair {a b : KeyRow} (h : b.createdAt ≤ a.createdAt) :
    Planner.stable.sort newerFirst [a, b] = [a, b] := by
  simp [Planner.stable, List.insertionSort, newerFirst, h]

theorem stampsFollow_of_keepsReplaced
    (hcommits : (commitAll Planner.stable KeyTable.empty txs).isSome = true)
    (h : KeepsReplaced Planner.stable txs) : StampsFollow txs := by
  intro before a b c after htxs
  by_contra hstamp
  obtain ⟨last, hlast⟩ := Option.isSome_iff_exists.mp hcommits
  rw [htxs, show before ++ a :: b :: c :: after = (((before ++ [a]) ++ [b]) ++ [c]) ++
    after by simp, commitAll_append] at hlast
  obtain ⟨tc, hc, -⟩ := Option.bind_eq_some_iff.mp hlast
  obtain ⟨tb, hb, hsavec⟩ := exists_save_of_commitAll hc
  obtain ⟨ta, -, hsaveb⟩ := exists_save_of_commitAll hb
  -- what the two commits leave, as the statement has it
  have hrotb := (h (before ++ [a]) b (c :: after) tb (by simp [htxs]) hb 0 0).others
  have hrotc := (h (before ++ [a] ++ [b]) c after tc (by simp [htxs]) hc 0 0).others
  simp only [List.getLast?_append, List.getLast?_singleton, Option.some_or, Option.toList_some,
    List.map_cons, List.map_nil] at hrotb hrotc
  have hrows : tb.rows = [a.row.demote, b.row] := by
    rw [KeyTable.rows_eq_of_save hsaveb, hrotb]
    rfl
  have hkept : tc.others = [a.row.demote] := by
    rw [KeyTable.others_save hsavec, hrows]
    exact congrArg (List.take 1) (stable_sort_pair (a := a.row.demote) (b := b.row.demote)
      (Int.not_lt.mp hstamp))
  have hsame : a.key.keyID = b.key.keyID := by
    have hdemoted : a.row.demote = b.row.demote := List.singleton_inj.mp (hkept.symm.trans hrotc)
    simpa using congrArg KeyRow.kid hdemoted
  have hkids := tb.kids
  simp [hrows, hsame] at hkids

/-- **A rotation keeps the key it replaced** exactly when the stamps follow the commits: of three
consecutive transactions the first has an earlier stamp than the second. -/
theorem keeps_replaced_iff (prims : Primitives) (txs : List (SaveTx prims))
    (hcommits : ∀ planner, (commitAll planner KeyTable.empty txs).isSome = true) :
    (∀ planner, KeepsReplaced planner txs) ↔ StampsFollow txs :=
  ⟨fun h => stampsFollow_of_keepsReplaced (hcommits Planner.stable) (h Planner.stable),
    fun h planner => keepsReplaced_of_stampsFollow h planner⟩

/-! ### Transactions that commit -/

variable {new : KeyRow}

theorem exists_save (planner : Planner) (hnew : new.isCurrent = true)
    (hid : new.id ∉ t.rows.map KeyRow.id) (hkid : new.kid ∉ t.rows.map KeyRow.kid) :
    ∃ t', t.save planner new = some t' := by
  unfold KeyTable.save
  exact ⟨_, dif_pos ⟨hnew, hid, hkid⟩⟩

theorem map_rows_sublist {β : Type} (h : t.save planner new = some t')
    (col : KeyRow → β) (hcol : ∀ r : KeyRow, col r.demote = col r) :
    (t'.rows.map col).Sublist (t.rows.map col ++ [col new]) := by
  obtain ⟨-, -, -, hrows⟩ := KeyTable.rows_save h
  have hsub := (KeyTable.pruned_sublist planner (t.inserted new)).map col
  rw [← hrows] at hsub
  have hmap : (t.inserted new).map col = t.rows.map col ++ [col new] := by
    simp [KeyTable.inserted, Function.comp_def, hcol]
  rwa [hmap] at hsub

theorem isSome_commitAll (planner : Planner)
    (hids : (t.rows.map KeyRow.id ++ txs.map SaveTx.id).Nodup)
    (hkids : (t.rows.map KeyRow.kid ++ txs.map fun tx => tx.key.keyID).Nodup) :
    (commitAll planner t txs).isSome = true := by
  induction txs generalizing t with
  | nil => rfl
  | cons tx rest ih =>
    have hid : tx.row.id ∉ t.rows.map KeyRow.id := fun hmem =>
      (List.nodup_append.mp hids).2.2 _ hmem tx.id (List.mem_cons_self ..) rfl
    have hkid : tx.row.kid ∉ t.rows.map KeyRow.kid := fun hmem =>
      (List.nodup_append.mp hkids).2.2 _ hmem tx.key.keyID (List.mem_cons_self ..) rfl
    obtain ⟨t', hsave⟩ := exists_save planner (rfl : tx.row.isCurrent = true) hid hkid
    rw [commitAll, hsave]
    refine ih (hids.sublist ?_) (hkids.sublist ?_)
    · simpa using (map_rows_sublist hsave KeyRow.id fun _ => rfl).append_right (rest.map SaveTx.id)
    · simpa using (map_rows_sublist hsave KeyRow.kid fun _ => rfl).append_right
        (rest.map fun tx => tx.key.keyID)

namespace Sample

/-- The `n`-th key, saved with the given clock reading. -/
def saveTx (n : ℕ) (now : Int) : SaveTx primitives where
  key := ⟨.software ⟨.ecdsa, primitives.keyMaterial n⟩,
    primitives.publicKey ⟨.ecdsa, primitives.keyMaterial n⟩, "ES256", primitives.randomString n⟩
  generated := generated_of_generateKeyPair (n := n) (primitives.randomString_word n)
    (rfl : generateKeyPair primitives "ES256" _ n = .ok _)
  encPrivate := _
  encrypted := rfl
  id := primitives.rowID n
  now := now

/-- Three rotations; the clock of the instance that makes the second is behind. -/
def lateClock : List (SaveTx primitives) := [saveTx 0 10000, saveTx 1 5000, saveTx 2 7000]

theorem commits_lateClock (planner : Planner) :
    (commitAll planner KeyTable.empty lateClock).isSome = true :=
  isSome_commitAll planner (by decide +kernel) (by decide +kernel)

end Sample

/-- With stamps in order the condition is met. -/
theorem keeps_replaced_in_order :
    KeepsReplaced Planner.stable [Sample.saveTx 0 10000, Sample.saveTx 1 20000,
      Sample.saveTx 2 15000] :=
  (keeps_replaced_iff Sample.primitives _ fun planner =>
    isSome_commitAll planner (by decide +kernel) (by decide +kernel)).mpr
    (stampsFollow_triple.mpr (by decide +kernel)) Planner.stable

/-- **The replaced key is lost.** All three transactions commit, and the second key, which the third
replaced, is deleted in favour of the first. -/
theorem late_clock_drops_replaced :
    (∀ planner, (commitAll planner KeyTable.empty Sample.lateClock).isSome = true) ∧
      (commitAll Planner.stable KeyTable.empty Sample.lateClock).map
        (fun t => t.rows.map KeyRow.kid) =
        some ["k", "k11"] ∧
      ¬ KeepsReplaced Planner.stable Sample.lateClock := by
  refine ⟨Sample.commits_lateClock, by decide +kernel, fun h => ?_⟩
  have hfollow := stampsFollow_of_keepsReplaced (Sample.commits_lateClock _) h [] _ _ _ [] rfl
  exact absurd hfollow (by decide +kernel)

end Signing

end AuthServer
