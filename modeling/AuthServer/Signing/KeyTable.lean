import AuthServer.Signing.Key
import Mathlib.Data.List.Sort

/-!
# The table of signing keys

The table `signing_keys` of the Postgres key store and the transaction `doSaveTx` of
`internal/adapters/postgres/hakeystore.go`: the current row is demoted, the new row is inserted as
the current one, and of the others all but the newest by `created_at` are deleted. Rows of equal
stamps come in an order that is the database's own; a `Planner` is any way of resolving that.
-/

namespace AuthServer

namespace Signing

/-- A row of `signing_keys`. The stamp is in microseconds, as the column keeps it. -/
structure KeyRow where
  id : String
  kid : String
  algorithm : String
  encPrivate : String
  isCurrent : Bool
  createdAt : Int
  deriving DecidableEq, Repr

def KeyRow.demote (r : KeyRow) : KeyRow := { r with isCurrent := false }

@[simp] theorem KeyRow.id_demote (r : KeyRow) : r.demote.id = r.id := rfl

@[simp] theorem KeyRow.kid_demote (r : KeyRow) : r.demote.kid = r.kid := rfl

@[simp] theorem KeyRow.isCurrent_demote (r : KeyRow) : r.demote.isCurrent = false := rfl

@[simp] theorem KeyRow.createdAt_demote (r : KeyRow) : r.demote.createdAt = r.createdAt := rfl

variable {r : KeyRow}

theorem KeyRow.demote_of_not_current (h : r.isCurrent = false) : r.demote = r := by
  obtain ⟨id, kid, algorithm, encPrivate, isCurrent, createdAt⟩ := r
  simp only at h
  subst h
  rfl

/-- The table, with its primary key, the unique key identifiers and the unique index on the current
row. -/
structure KeyTable where
  rows : List KeyRow
  ids : (rows.map KeyRow.id).Nodup
  kids : (rows.map KeyRow.kid).Nodup
  oneCurrent : (rows.filter KeyRow.isCurrent).length ≤ 1

/-- How the database answers `ORDER BY`: some sorted arrangement of the rows. -/
structure Planner where
  sort : (KeyRow → KeyRow → Bool) → List KeyRow → List KeyRow
  perm : ∀ le rows, (sort le rows).Perm rows
  sorted : ∀ le rows, (∀ a b, le a b = true ∨ le b a = true) →
    (∀ a b c, le a b = true → le b c = true → le a c = true) →
    (sort le rows).Pairwise fun a b => le a b = true

/-- The arrangement that leaves rows of equal stamps in the order of the table. -/
def Planner.stable : Planner where
  sort le rows := rows.insertionSort fun a b => le a b = true
  perm _ rows := List.perm_insertionSort _ rows
  sorted le rows htotal htrans :=
    haveI : Std.Total fun a b : KeyRow => le a b = true := ⟨htotal⟩
    haveI : IsTrans KeyRow fun a b => le a b = true := ⟨htrans⟩
    List.pairwise_insertionSort _ rows

/-- `ORDER BY created_at DESC`. -/
def newerFirst (a b : KeyRow) : Bool := decide (b.createdAt ≤ a.createdAt)

/-- `ORDER BY is_current DESC, created_at DESC`. -/
def currentFirst (a b : KeyRow) : Bool :=
  (a.isCurrent && !b.isCurrent) || (a.isCurrent == b.isCurrent && newerFirst a b)

theorem newerFirst_total (a b : KeyRow) : newerFirst a b = true ∨ newerFirst b a = true := by
  simp only [newerFirst, decide_eq_true_eq]
  omega

theorem newerFirst_trans (a b c : KeyRow) (hab : newerFirst a b = true)
    (hbc : newerFirst b c = true) :
    newerFirst a c = true := by
  simp only [newerFirst, decide_eq_true_eq] at hab hbc ⊢
  omega

theorem currentFirst_total (a b : KeyRow) : currentFirst a b = true ∨ currentFirst b a = true := by
  have h := newerFirst_total a b
  cases ha : a.isCurrent <;> cases hb : b.isCurrent <;> simp_all [currentFirst]

theorem currentFirst_trans (a b c : KeyRow) (hab : currentFirst a b = true)
    (hbc : currentFirst b c = true) : currentFirst a c = true := by
  have h := newerFirst_trans a b c
  cases ha : a.isCurrent <;> cases hb : b.isCurrent <;> cases hc : c.isCurrent <;>
    simp_all [currentFirst]

namespace KeyTable

def empty : KeyTable := ⟨[], by simp, by simp, by simp⟩

/-- `SELECT … WHERE is_current = TRUE`. -/
def current (t : KeyTable) : Option KeyRow := t.rows.find? KeyRow.isCurrent

/-- `… WHERE is_current = FALSE`. -/
def others (t : KeyTable) : List KeyRow := t.rows.filter fun r => !r.isCurrent

/-- The rows within the transaction, before old ones are deleted. -/
def inserted (t : KeyTable) (new : KeyRow) : List KeyRow := t.rows.map KeyRow.demote ++ [new]

/-- The rows that survive: the current one, and the newest of the others. -/
def pruned (planner : Planner) (rows : List KeyRow) : List KeyRow :=
  let kept := ((planner.sort newerFirst (rows.filter fun r => !r.isCurrent)).take 1).map KeyRow.id
  rows.filter fun r => r.isCurrent || kept.contains r.id

theorem pruned_sublist (planner : Planner) (rows : List KeyRow) :
    (pruned planner rows).Sublist rows := List.filter_sublist

theorem nodup_map_inserted {t : KeyTable} {new : KeyRow} {g : KeyRow → String}
    (hg : ∀ r : KeyRow, g r.demote = g r) (hrows : (t.rows.map g).Nodup)
    (h : g new ∉ t.rows.map g) : ((t.inserted new).map g).Nodup := by
  have hmap : (t.inserted new).map g = t.rows.map g ++ [g new] := by
    simp [inserted, Function.comp_def, hg]
  rw [hmap]
  refine List.Nodup.append hrows (List.nodup_singleton _) ?_
  simpa using h

theorem inserted_current (t : KeyTable) {new : KeyRow} (hnew : new.isCurrent = true) :
    (t.inserted new).filter KeyRow.isCurrent = [new] := by
  have hold : (t.rows.map KeyRow.demote).filter KeyRow.isCurrent = [] := by
    simp [List.filter_eq_nil_iff]
  rw [inserted, List.filter_append, hold]
  simp [hnew]

/-- `doSaveTx`, with the row to insert as the current one. Nothing happens when the row's identifier
or its key identifier is there already. -/
def save (planner : Planner) (t : KeyTable) (new : KeyRow) : Option KeyTable :=
  if h : new.isCurrent = true ∧ new.id ∉ t.rows.map KeyRow.id ∧ new.kid ∉ t.rows.map KeyRow.kid then
    some {
      rows := pruned planner (t.inserted new)
      ids := (nodup_map_inserted (fun _ => rfl) t.ids h.2.1).sublist ((pruned_sublist _ _).map _)
      kids := (nodup_map_inserted (fun _ => rfl) t.kids h.2.2).sublist ((pruned_sublist _ _).map _)
      oneCurrent := by
        have hsub := ((pruned_sublist planner (t.inserted new)).filter KeyRow.isCurrent).length_le
        rw [inserted_current t h.1] at hsub
        exact hsub }
  else none

/-! ### The rows after the transaction -/

variable {planner : Planner} {t t' : KeyTable} {new : KeyRow}

theorem rows_save (h : t.save planner new = some t') :
    new.isCurrent = true ∧ new.id ∉ t.rows.map KeyRow.id ∧ new.kid ∉ t.rows.map KeyRow.kid ∧
      t'.rows = pruned planner (t.inserted new) := by
  unfold save at h
  split at h
  · rename_i hfresh
    obtain rfl := Option.some.inj h
    exact ⟨hfresh.1, hfresh.2.1, hfresh.2.2, rfl⟩
  · cases h

theorem current_save (h : t.save planner new = some t') : t'.current = some new := by
  obtain ⟨hnew, -, -, hrows⟩ := rows_save h
  have hfilter : t'.rows.filter KeyRow.isCurrent = [new] := by
    have hall : ∀ r ∈ t.inserted new, (r.isCurrent && (r.isCurrent ||
        (((planner.sort newerFirst ((t.inserted new).filter fun r => !r.isCurrent)).take 1).map
          KeyRow.id).contains r.id)) = r.isCurrent := by
      intro r _
      cases r.isCurrent <;> rfl
    rw [hrows, pruned, List.filter_filter, List.filter_congr hall, inserted_current t hnew]
  rw [current, ← List.head?_filter, hfilter]
  rfl

variable {rows : List KeyRow}

/-- In a list without repeated identifiers, the rows with the identifier of one of them are that
one. -/
theorem filter_id_eq (hids : (rows.map KeyRow.id).Nodup) (hr : r ∈ rows) :
    (rows.filter fun r' => [r.id].contains r'.id) = [r] := by
  induction rows with
  | nil => cases hr
  | cons a rest ih =>
    simp only [List.map_cons, List.nodup_cons] at hids
    rcases List.mem_cons.mp hr with rfl | hr
    · have hrest : (rest.filter fun r' => [r.id].contains r'.id) = [] := by
        rw [List.filter_eq_nil_iff]
        intro r' hr' heq
        have hid : r'.id = r.id := by simpa using heq
        exact hids.1 (hid ▸ List.mem_map_of_mem hr')
      rw [List.filter_cons_of_pos (by simp), hrest]
    · have hne : ¬ [r.id].contains a.id = true := by
        intro heq
        have hid : a.id = r.id := by simpa using heq
        exact hids.1 (hid ▸ List.mem_map_of_mem hr)
      rw [List.filter_cons, if_neg hne, ih hids.2 hr]

/-- **What is kept.** Of the rows that were there, the newest one. -/
theorem others_save (h : t.save planner new = some t') :
    t'.others = (planner.sort newerFirst (t.rows.map KeyRow.demote)).take 1 := by
  obtain ⟨hnew, hid, -, hrows⟩ := rows_save h
  have hold : (t.inserted new).filter (fun r => !r.isCurrent) = t.rows.map KeyRow.demote := by
    have hall : (t.rows.map KeyRow.demote).filter (fun r => !r.isCurrent) =
      t.rows.map KeyRow.demote := by
      rw [List.filter_eq_self]
      simp
    rw [inserted, List.filter_append, hall]
    simp [hnew]
  have hids : ((t.rows.map KeyRow.demote).map KeyRow.id).Nodup := by
    simpa [Function.comp_def] using t.ids
  have hothers : t'.others = (t.rows.map KeyRow.demote).filter fun r =>
      (((planner.sort newerFirst (t.rows.map KeyRow.demote)).take 1).map
        KeyRow.id).contains r.id := by
    rw [others, hrows, pruned, hold, List.filter_filter, ← hold, List.filter_filter]
    refine List.filter_congr fun r _ => ?_
    rw [hold]
    cases r.isCurrent <;> simp
  have hperm := planner.perm newerFirst (t.rows.map KeyRow.demote)
  rw [hothers]
  cases hsort : planner.sort newerFirst (t.rows.map KeyRow.demote) with
  | nil => simp
  | cons r rest =>
    have hr : r ∈ t.rows.map KeyRow.demote :=
      hperm.subset (by rw [hsort]; exact List.mem_cons_self ..)
    simpa using filter_id_eq hids hr

theorem rows_eq_of_save (h : t.save planner new = some t') : t'.rows = t'.others ++ [new] := by
  obtain ⟨hnew, -, -, hrows⟩ := rows_save h
  have hold : ∀ p : KeyRow → Bool,
    (t.rows.map KeyRow.demote).filter (fun r => !r.isCurrent && p r) =
      (t.rows.map KeyRow.demote).filter p := fun p => by
    refine List.filter_congr fun r hr => ?_
    obtain ⟨r, -, rfl⟩ := List.mem_map.mp hr
    rfl
  have hkept : ∀ p : KeyRow → Bool,
      (t.inserted new).filter (fun r => !r.isCurrent && (r.isCurrent || p r)) ++ [new] =
        (t.inserted new).filter (fun r => r.isCurrent || p r) := fun p => by
    simp only [inserted, List.filter_append, hold fun r => r.isCurrent || p r]
    simp [hnew]
  rw [others, hrows, pruned, List.filter_filter]
  exact (hkept _).symm

/-! ### Tables of at most two rows -/

/-- At most one row is kept beside the current one. -/
def Settled (t : KeyTable) : Prop := t.others.length ≤ 1

/-- The current row has a later stamp than any other. -/
def CurrentNewest (t : KeyTable) : Prop :=
  ∀ c, t.current = some c → ∀ r ∈ t.others, r.createdAt < c.createdAt

theorem settled_save (h : t.save planner new = some t') : t'.Settled := by
  rw [Settled, others_save h]
  simp

variable {c : KeyRow}

theorem mem_of_current (h : t.current = some c) : c ∈ t.rows := List.mem_of_find?_eq_some h

theorem isCurrent_of_current (h : t.current = some c) : c.isCurrent = true := by
  simpa using List.find?_some h

theorem rows_perm (t : KeyTable) : (t.current.toList ++ t.others).Perm t.rows := by
  have hcurrent : t.current.toList = t.rows.filter KeyRow.isCurrent := by
    have hlen := t.oneCurrent
    rw [current, ← List.head?_filter]
    match hf : t.rows.filter KeyRow.isCurrent with
    | [] => rfl
    | [_] => rfl
    | _ :: _ :: _ => simp [hf] at hlen
  rw [hcurrent]
  exact List.filter_append_perm KeyRow.isCurrent t.rows

/-- One row has one arrangement. -/
theorem sort_others (planner : Planner) (h : t.Settled) :
    planner.sort newerFirst t.others = t.others := by
  have hperm := planner.perm newerFirst t.others
  unfold Settled at h
  match hothers : t.others with
  | [] => rw [hothers] at hperm; simpa using hperm
  | [_] => rw [hothers] at hperm; exact List.perm_singleton.mp hperm
  | _ :: _ :: _ => simp [hothers] at h

/-- **The active keys.** The current row comes first. -/
theorem sort_currentFirst (planner : Planner) (h : t.Settled) :
    planner.sort currentFirst t.rows = t.current.toList ++ t.others := by
  have hperm : (planner.sort currentFirst t.rows).Perm (t.current.toList ++ t.others) :=
    (planner.perm _ _).trans t.rows_perm.symm
  have hsorted := planner.sorted currentFirst t.rows currentFirst_total currentFirst_trans
  have hother : ∀ o ∈ t.others, o.isCurrent = false := fun o ho => by
    simpa using (List.mem_filter.mp ho).2
  cases hcurrent : t.current with
  | none =>
    rw [hcurrent] at hperm
    match hothers : t.others with
    | [] => rw [hothers] at hperm; simpa using hperm
    | [o] => rw [hothers] at hperm; simpa using hperm
    | _ :: _ :: _ => simp [Settled, hothers] at h
  | some c =>
    rw [hcurrent] at hperm
    match hothers : t.others with
    | [] => rw [hothers] at hperm; simpa using hperm
    | [o] =>
      rw [hothers] at hperm
      have ho : o.isCurrent = false := hother o (by simp [hothers])
      have hc : c.isCurrent = true := isCurrent_of_current hcurrent
      refine hperm.eq_of_pairwise ?_ hsorted (by simp [currentFirst, hc, ho])
      -- of the two rows only one is current, so neither order can be read both ways
      intro a b ha hb hab hba
      have hmem : ∀ x ∈ planner.sort currentFirst t.rows, x = c ∨ x = o := fun x hx => by
        simpa using hperm.subset hx
      have hb : b = c ∨ b = o := by simpa using hb
      rcases hmem a ha with rfl | rfl <;> rcases hb with rfl | rfl <;>
        simp_all [currentFirst]
    | _ :: _ :: _ => simp [Settled, hothers] at h

theorem take_one_sort (planner : Planner) (hr : r ∈ rows)
    (hnewest : ∀ r' ∈ rows, r' ≠ r → r'.createdAt < r.createdAt) :
      (planner.sort newerFirst rows).take 1 = [r] := by
  have hperm := planner.perm newerFirst rows
  have hsorted := planner.sorted newerFirst rows newerFirst_total newerFirst_trans
  cases hsort : planner.sort newerFirst rows with
  | nil => simp [hsort] at hperm; simp [hperm] at hr
  | cons first rest =>
    rw [hsort] at hperm hsorted
    by_cases hfirst : first = r
    · simp [hfirst]
    · have hrest : r ∈ rest := by
        rcases List.mem_cons.mp (hperm.symm.subset hr) with h | h
        · exact absurd h.symm hfirst
        · exact h
      have hlater := hnewest first (hperm.subset (List.mem_cons_self ..)) hfirst
      have hle := (List.pairwise_cons.mp hsorted).1 r hrest
      simp only [newerFirst, decide_eq_true_eq] at hle
      omega

/-- **The replaced row is kept**, when it has the later stamp. -/
theorem others_save_of_current (h : t.save planner new = some t')
    (hcurrent : t.current = some c) (hnewest : t.CurrentNewest) : t'.others = [c.demote] := by
  rw [others_save h]
  refine take_one_sort planner (List.mem_map_of_mem (mem_of_current hcurrent)) ?_
  intro r' hr' hne
  obtain ⟨r, hr, rfl⟩ := List.mem_map.mp hr'
  have hmem : r ∈ t.current.toList ++ t.others := t.rows_perm.symm.subset hr
  rcases List.mem_append.mp hmem with hr | hr
  · rw [hcurrent] at hr
    obtain rfl : r = c := by simpa using hr
    exact absurd rfl hne
  · exact hnewest c hcurrent r hr

theorem others_save_of_none (h : t.save planner new = some t') (hcurrent : t.current = none)
    (hsettled : t.Settled) : t'.others = t.others := by
  have hrows : t.rows = t.others := by
    rw [others]
    refine (List.filter_eq_self.mpr fun r hr => ?_).symm
    simpa using List.find?_eq_none.mp hcurrent r hr
  have hdemote : t.rows.map KeyRow.demote = t.others := by
    rw [hrows]
    refine (List.map_congr_left fun r hr => ?_).trans (List.map_id _)
    exact KeyRow.demote_of_not_current (by simpa using (List.mem_filter.mp hr).2)
  rw [others_save h, hdemote, sort_others planner hsettled]
  exact List.take_of_length_le hsettled

end KeyTable

end Signing

end AuthServer
