import Mathlib.Data.List.Forall2
import Mathlib.Data.List.Nodup
import NearDoc.Store.Basic

/-!
Rows in the order of their numbers. As long as no two rows have one number, the order is the same
however the table is held: a choice of rows keeps it, a document that is replaced stays in its place
and a row under a new key comes last.
-/

namespace NearDoc.Store

/-- No two rows have one number. -/
def Numbered (rows : List Row) : Prop := (rows.map Row.rowid).Nodup

variable {rows ordered : List Row} {row : Row}

lemma perm_byRowid (rows : List Row) : (byRowid rows).Perm rows := List.mergeSort_perm ..

lemma mem_byRowid : row ∈ byRowid rows ↔ row ∈ rows := (perm_byRowid rows).mem_iff

lemma numbered_iff : Numbered rows ↔ rows.Pairwise fun r r' => r.rowid ≠ r'.rowid := by
  rw [Numbered, List.Nodup, List.pairwise_map]

lemma Numbered.filter (h : Numbered rows) (p : Row → Bool) : Numbered (rows.filter p) :=
  h.sublist (List.filter_sublist.map Row.rowid)

lemma pairwise_byRowid (h : Numbered rows) :
    (byRowid rows).Pairwise fun r r' => r.rowid < r'.rowid := by
  have hsorted : (byRowid rows).Pairwise fun r r' => decide (r.rowid ≤ r'.rowid) = true :=
    List.pairwise_mergeSort
      (fun _ _ _ hab hbc => by simpa using Nat.le_trans (by simpa using hab) (by simpa using hbc))
      (fun r r' => by simpa using Nat.le_total r.rowid r'.rowid) rows
  have hle : (byRowid rows).Pairwise fun r r' => r.rowid ≤ r'.rowid := by simpa using hsorted
  have hne : (byRowid rows).Pairwise fun r r' => r.rowid ≠ r'.rowid :=
    numbered_iff.mp ((((perm_byRowid rows).map Row.rowid).nodup_iff).mpr h)
  exact (hle.and hne).imp fun ⟨hle, hne⟩ => Nat.lt_of_le_of_ne hle hne

/-- There is one order of the numbers. -/
lemma byRowid_eq (hperm : ordered.Perm rows)
    (hlt : ordered.Pairwise fun r r' => r.rowid < r'.rowid) : byRowid rows = ordered := by
  have hnumbered : Numbered rows :=
    ((hperm.map Row.rowid).nodup_iff).mp (numbered_iff.mpr (hlt.imp Nat.ne_of_lt))
  exact ((perm_byRowid rows).trans hperm.symm).eq_of_pairwise
    (fun _ _ _ _ h h' => absurd h' (Nat.lt_asymm h)) (pairwise_byRowid hnumbered) hlt

lemma byRowid_filter (h : Numbered rows) (p : Row → Bool) :
    byRowid (rows.filter p) = (byRowid rows).filter p :=
  byRowid_eq ((perm_byRowid rows).filter p) ((pairwise_byRowid h).filter p)

/-! ### Writing -/

variable {collection : CollectionName} {id body : String}

lemma lt_nextRowid (h : row ∈ rows) : row.rowid < nextRowid rows := by
  rw [nextRowid, Nat.lt_succ_iff]
  induction rows with
  | nil => cases h
  | cons r rows ih =>
    rw [List.map_cons, List.foldr_cons]
    rcases List.mem_cons.mp h with rfl | h
    · exact Nat.le_max_left ..
    · exact Nat.le_trans (ih h) (Nat.le_max_right ..)

/-- A document that is replaced leaves its row where it is. -/
lemma byRowid_putRow_of_any (hnumbered : Numbered rows)
    (hany : rows.any (·.hasKey collection id) = true) :
    byRowid (putRow collection id body rows) =
      (byRowid rows).map fun r => if r.hasKey collection id then { r with body } else r := by
  rw [putRow, if_pos hany]
  refine byRowid_eq ((perm_byRowid rows).map _) ?_
  rw [List.pairwise_map]
  refine (pairwise_byRowid hnumbered).imp fun {r r'} hlt => ?_
  split <;> split <;> exact hlt

/-- A row under a new key comes last. -/
lemma byRowid_putRow_of_not_any (hnumbered : Numbered rows)
    (hany : ¬ rows.any (·.hasKey collection id) = true) :
    byRowid (putRow collection id body rows) =
      byRowid rows ++ [⟨nextRowid rows, collection, id, body⟩] := by
  rw [putRow, if_neg hany]
  refine byRowid_eq ?_ ?_
  · exact List.perm_append_singleton _ _ |>.trans ((perm_byRowid rows).cons _)
  · rw [List.pairwise_append]
    refine ⟨pairwise_byRowid hnumbered, List.pairwise_singleton _ _, fun r hr r' hr' => ?_⟩
    rw [List.mem_singleton.mp hr']
    exact lt_nextRowid (mem_byRowid.mp hr)

lemma Numbered.putRow (h : Numbered rows) (collection : CollectionName) (id body : String) :
    Numbered (putRow collection id body rows) := by
  unfold Store.putRow
  split
  · have hsame : (rows.map fun r => if r.hasKey collection id then { r with body } else r).map
        Row.rowid = rows.map Row.rowid := by
      rw [List.map_map]
      refine List.map_congr_left fun r _ => ?_
      simp only [Function.comp_apply]
      split <;> rfl
    rwa [Numbered, hsame]
  · rw [Numbered, List.map_cons, List.nodup_cons]
    refine ⟨fun hmem => ?_, h⟩
    obtain ⟨r, hr, heq⟩ := List.mem_map.mp hmem
    exact absurd heq (Nat.ne_of_lt (lt_nextRowid hr))

/-- What is found by a key that only one row has is found in any order. -/
lemma find?_byRowid {p : Row → Bool} (h : (rows.filter p).length ≤ 1) :
    (byRowid rows).find? p = rows.find? p := by
  have hperm := (perm_byRowid rows).filter p
  rw [← List.head?_filter, ← List.head?_filter]
  generalize rows.filter p = found at h hperm
  match found, h with
  | [], _ => rw [hperm.eq_nil]
  | [r], _ => rw [List.perm_singleton.mp hperm]

end NearDoc.Store
