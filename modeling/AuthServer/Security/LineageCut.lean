import Mathlib.Order.Bounds.Defs
import AuthServer.Store.Tokens

/-!
# The lineage that a revocation marks

`IssuanceStore.RevokeFamily` is one statement: a recursive query for the identifiers in the lineage
of a grant, and an update of the unrevoked Mint rows that have one of them. The query is what
`Lineage.evaluate` computes, with the working table of a `WITH RECURSIVE … UNION`;
`revokeFamily_marks_lineage` says that it ends on every table, also on one whose parents go round in
a circle, that it yields the least set with the roots that parents hand on, and that the update
marks the unrevoked Mint rows in it and nothing else. -/

namespace AuthServer

open Table

namespace IssuanceStore

variable {userID clientID resourceID : String} {rows : List Issuance} {w : World}

/-- A set of identifiers that has those of the rows minted under the grant, and that a parent hands
on: with a row it has every Mint row whose parent that row is. An empty identifier is NULL. -/
structure Inherited (userID clientID resourceID : String) (rows : List Issuance)
    (S : Set String) : Prop where
  root : ∀ i ∈ rows, i.backendKind = .mint → i.jti ≠ "" → i.subjectUserID = userID →
    i.resourceID = resourceID →
    (i.consentClientID ≠ "" ∧ i.consentClientID = clientID ∨
      i.consentClientID = "" ∧ i.clientID = clientID) → i.jti ∈ S
  child : ∀ i ∈ rows, i.backendKind = .mint → i.jti ≠ "" → i.parentJTI ≠ "" →
    i.parentJTI ∈ S → i.jti ∈ S

theorem isMintRow_iff {i : Issuance} : isMintRow i = true ↔ i.backendKind = .mint ∧ i.jti ≠ "" := by
  simp [isMintRow]

theorem isRoot_iff {i : Issuance} : isRoot userID clientID resourceID i = true ↔
    i.backendKind = .mint ∧ i.jti ≠ "" ∧ i.subjectUserID = userID ∧ i.resourceID = resourceID ∧
      (i.consentClientID ≠ "" ∧ i.consentClientID = clientID ∨
        i.consentClientID = "" ∧ i.clientID = clientID) := by
  simp only [isRoot, Bool.and_eq_true, isMintRow_iff, beq_iff_eq]
  by_cases hconsent : i.consentClientID = "" <;> simp [hconsent, and_assoc]

theorem mem_roots {jti : String} : jti ∈ roots userID clientID resourceID rows ↔
    ∃ i, (i ∈ rows ∧ isRoot userID clientID resourceID i = true) ∧ i.jti = jti := by
  simp only [roots, List.mem_map, List.mem_filter]

theorem mem_parentLinks {p k : String} : (p, k) ∈ parentLinks rows ↔
    ∃ i ∈ rows, i.parentJTI = p ∧ i.jti = k ∧ i.backendKind = .mint ∧ i.jti ≠ "" ∧
      i.parentJTI ≠ "" := by
  simp only [parentLinks, List.mem_map, List.mem_filter, Bool.and_eq_true, isMintRow_iff,
    bne_iff_ne, Prod.mk.injEq]
  exact exists_congr fun i => by tauto

theorem isLeast_reach : IsLeast {S | Inherited userID clientID resourceID rows S}
    {jti | Lineage.Reach (parentLinks rows) (roots userID clientID resourceID rows) jti} := by
  refine ⟨⟨fun i hi hmint hjti huser hresource hclient => ?_,
    fun i hi hmint hjti hparent hmem => ?_⟩, ?_⟩
  · have hroot := isRoot_iff.mpr ⟨hmint, hjti, huser, hresource, hclient⟩
    exact .root (mem_roots.mpr ⟨i, ⟨hi, hroot⟩, rfl⟩)
  · exact .child hmem (mem_parentLinks.mpr ⟨i, hi, rfl, rfl, hmint, hjti, hparent⟩)
  · intro S hS jti hreach
    induction hreach with
    | root hk =>
      obtain ⟨i, ⟨hi, hroot⟩, rfl⟩ := mem_roots.mp hk
      obtain ⟨hmint, hjti, huser, hresource, hclient⟩ := isRoot_iff.mp hroot
      exact hS.root i hi hmint hjti huser hresource hclient
    | child _ hpk ih =>
      obtain ⟨i, hi, rfl, rfl, hmint, hjti, hparent⟩ := mem_parentLinks.mp hpk
      exact hS.child i hi hmint hjti hparent ih

/-- The rows that are marked: the unrevoked Mint rows with an identifier of the lineage. -/
def marked (userID clientID resourceID : String) (rows : List Issuance) (i : Issuance) : Bool :=
  (lineage userID clientID resourceID rows).contains i.jti && i.backendKind == .mint &&
    i.revokedAt.isNone

theorem lineage_updateWhere (p : Issuance → Bool) (t : Time) :
    lineage userID clientID resourceID (updateWhere p (fun i => { i with
      revokedAt := some t }) rows) =
      lineage userID clientID resourceID rows := by
  have hroots : roots userID clientID resourceID (updateWhere p (fun i => { i with
    revokedAt := some t }) rows) =
      roots userID clientID resourceID rows := map_filter_updateWhere (fun _ => rfl) fun _ => rfl
  have hlinks : parentLinks (updateWhere p (fun i => { i with revokedAt := some t }) rows) =
    parentLinks rows :=
    map_filter_updateWhere (fun _ => rfl) fun _ => rfl
  rw [lineage, hroots, hlinks, lineage]

theorem filter_marked_eq_nil (userID clientID resourceID : String)
    (rows : List Issuance) (t : Time) :
    ((updateWhere (marked userID clientID resourceID rows)
      (fun i => { i with revokedAt := some t }) rows).filter (marked userID clientID resourceID
      (updateWhere (marked userID clientID resourceID rows) (fun i => { i with
        revokedAt := some t }) rows))) = [] := by
  rw [List.filter_eq_nil_iff]
  intro i hi
  obtain ⟨i', -, rfl⟩ := mem_updateWhere.mp hi
  unfold marked
  rw [lineage_updateWhere]
  split
  · simp
  · rename_i hnot
    exact hnot

/-- **The revocation marks exactly the lineage.** The recursive query ends, with the least set of
identifiers that has the roots and that parents hand on; the unrevoked Mint rows with one of them
are marked and counted, nothing else changes, and a second revocation marks nothing. -/
theorem revokeFamily_marks_lineage (ctx : ReqID) (userID clientID resourceID : String) (w : World) :
    ∃ S : Set String, IsLeast {S | Inherited userID clientID resourceID w.issuances S} S ∧
      (∃ jtis : List String, (∀ jti, jti ∈ jtis ↔ jti ∈ S) ∧ ∀ n, w.issuances.length < n →
        Lineage.evaluate (parentLinks w.issuances) n
          (roots userID clientID resourceID w.issuances).dedup
          (roots userID clientID resourceID w.issuances).dedup = some jtis) ∧
      ∃ hit : Issuance → Bool,
        (∀ i, hit i = true ↔ i.jti ∈ S ∧ i.backendKind = .mint ∧ i.revokedAt = none) ∧
        ∃ t, revokeFamily ctx userID clientID resourceID w = (.ok (w.issuances.countP hit), t) ∧
          t.issuances =
            w.issuances.map (fun i => if hit i then { i with revokedAt := some w.clock } else i) ∧
          { t with issuances := w.issuances, journal := w.journal } = w ∧
          ∀ ctx' u, u.issuances = t.issuances →
            (revokeFamily ctx' userID clientID resourceID u).1 = .ok 0 ∧
            (revokeFamily ctx' userID clientID resourceID u).2.issuances = t.issuances := by
  refine ⟨_, isLeast_reach, ?_, marked userID clientID resourceID w.issuances, fun i => ?_,
    (revokeFamily ctx userID clientID resourceID w).2, ?_, rfl, rfl, fun ctx' u hu => ?_⟩
  · obtain ⟨jtis, heval, -, hmem⟩ := Lineage.evaluate_eq (parentLinks w.issuances)
      (roots userID clientID resourceID w.issuances)
    refine ⟨jtis, hmem, fun n hn => heval n (lt_of_le_of_lt ?_ hn)⟩
    rw [parentLinks, List.length_map]
    exact List.length_filter_le _ _
  · simp only [marked, Bool.and_eq_true, List.contains_iff_mem, mem_lineage, beq_iff_eq,
      Option.isNone_iff_eq_none, Set.mem_ofPred_eq, and_assoc]
  · rw [List.countP_eq_length_filter]
    rfl
  · have hnil := filter_marked_eq_nil userID clientID resourceID w.issuances w.clock
    have hnone := List.filter_eq_nil_iff.mp hnil
    constructor
    · change Except.ok
        (u.issuances.filter (marked userID clientID resourceID u.issuances)).length = _
      rw [hu]
      exact congrArg (fun l => Except.ok (List.length l)) hnil
    · change updateWhere (marked userID clientID resourceID u.issuances) _ u.issuances = _
      rw [hu]
      exact (List.map_congr_left fun i hi => if_neg (hnone i hi)).trans (List.map_id' _)

end IssuanceStore

end AuthServer
