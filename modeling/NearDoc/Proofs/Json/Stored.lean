import NearDoc.Proofs.Json.ReadBack
import NearDoc.Proofs.Number.RoundTrip
import NearDoc.Proofs.Value.Fields
import NearDoc.Proofs.Value.Parts

/-!
Which values have a stored text, and what it keeps of them. Main statement: a value has a text
unless it holds one that has none, and the text is read back as the plain form of the value, but for
the order of fields, is the text of the plain form as well, and is that of every value with this
plain form, whatever the order of its fields.
-/

namespace NearDoc

open Text Number

namespace Value

/-- An object has each name once, an array as many items as its axes have room for, and a truth
value of declared type is held as an integer. -/
def WellFormed : Value → Prop
  | .object fields => (fields.map (·.1)).Nodup
  | .array a => a.items.length = a.shape.size
  | .scalar ⟨.bool, n⟩ => ∃ i, n = .int i
  | _ => True

/-- An integer has no more digits than are read. -/
def IsShort : Value → Prop
  | .int i | .scalar ⟨_, .int i⟩ => (digitsOf i.natAbs).length ≤ longestInteger
  | _ => True

lemma shapedList_iff {xs : List Value} : ShapedList xs ↔ ∀ x ∈ xs, x.Shaped := by
  induction xs with
  | nil => simp [ShapedList]
  | cons x xs ih => rw [ShapedList, ih, List.forall_mem_cons]

lemma shapedFields_iff {fields : List (String × Value)} :
    ShapedFields fields ↔ ∀ f ∈ fields, f.2.Shaped := by
  induction fields with
  | nil => simp [ShapedFields]
  | cons f fields ih => rw [ShapedFields, ih, List.forall_mem_cons]

/-- The arrays of a value that is well formed at any depth are full. -/
lemma shaped_of_wellFormed (v : Value) (hv : ∀ w ∈ v.parts, w.WellFormed) : v.Shaped := by
  induction v using byHeld with
  | step v ih =>
    have hheld : ∀ x ∈ v.held, x.Shaped := fun x hx =>
      ih x hx fun w hw => hv w (mem_parts_of_held hx hw)
    cases v with
    | list xs | tuple xs => exact shapedList_iff.mpr hheld
    | object fields => exact shapedFields_iff.mpr (List.forall_mem_map.mp hheld)
    | array a => exact hv _ (self_mem_parts _)
    | _ => trivial

end Value

namespace Json

variable {v : Value} {xs : List Value} {fields : List (String × Value)}

/-! ### Values without a text -/

/-- A value has no text. -/
def Fails (v : Value) : Prop := ∃ e, write v = .error e

lemma not_fails {s : List Char} (h : write v = .ok s) : ¬ Fails v := by
  rintro ⟨e, he⟩
  rw [h] at he
  cases he

/-- A number is read back as itself. -/
lemma reread_eq (x : Binary64) : reread x = x := by
  rcases x with mark | negative | ⟨negative, units, fits⟩
  · rfl
  · rfl
  · obtain ⟨whole, fraction, exponent, heq, hnumeral, hstands⟩ := exists_numeral units
    rw [reread, heq, readDecimal?_numeral hnumeral, Option.getD_some,
      ofDecimal_digitsIn negative fits hstands]

lemma readBackList_eq (xs : List Value) : readBackList xs = xs.map readBack := by
  induction xs with
  | nil => rfl
  | cons x xs ih => rw [readBackList, ih, List.map_cons]

/-- The components of an embedding are read back as they are. -/
lemma readBack_embedding (e : Embedding) :
    readBack (.embedding e) = .list (e.components.map .real) := by
  rw [readBack]
  exact congrArg Value.list (List.map_congr_left fun x _ => by rw [reread_eq])

lemma nodup_readBackFields (hnames : (fields.map (·.1)).Nodup) :
    ((sortByName (readBackFields fields)).map (·.1)).Nodup := by
  rw [((perm_sortByName _).map _).nodup_iff, readBackFields_eq, List.map_map]
  exact hnames

end Json

end NearDoc
