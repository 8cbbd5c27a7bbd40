import NearDoc.Proofs.Json.Paths
import NearDoc.Proofs.Number.Single
import NearDoc.Proofs.Text.Trim
import NearDoc.Proofs.Value.Equivalence

/-!
Carriers of embeddings. The same numbers may come as a list, a tuple, a bracketed text or an array.
Main statement: whatever they come as, they are cast to the same embedding or refused for the same
reason, and the numbers that an embedding gives out are cast to it again.
-/

namespace NearDoc

open Text Number

namespace Number

/-- A number as a value. -/
def value : Number → Value
  | .int i => .int i
  | .real x => .real x

/-- What a number is written as between brackets; those that are not finite have names. -/
def spelled : Number → List Char
  | .int i => writeInt i
  | .real (.nan _) => "NaN".toList
  | .real (.infinite negative) => (if negative then "-Infinity" else "Infinity").toList
  | .real x => writeReal x

/-- The component that a number is cast to, which need not be finite. -/
def rounded (n : Number) : Binary64 := n.toReal.toSingle

/-- A number is read back from what it is written as, but for the mark of what is no number. -/
lemma reads_spelled {n : Number} (hshort : n.value.IsShort) :
    Json.Reads 0 n.spelled n.unmarked.value := by
  have hfinite {n : Number} (h : Json.writeNumber n = .ok n.spelled)
      (hvalue : Json.rereadNumber n = n.unmarked.value) :
      Json.Reads 0 n.spelled n.unmarked.value := hvalue ▸ Json.reads_number h
  rcases n with i | (mark | (_ | _) | ⟨negative, units, fits⟩)
  · exact hfinite (if_neg (Nat.not_lt.mpr hshort)) rfl
  · exact Json.reads_plain ⟨'N', _, rfl, by decide⟩ fun _ _ => rfl
  · exact Json.reads_plain ⟨'I', _, rfl, by decide⟩ fun _ _ => rfl
  · exact Json.reads_plain ⟨'-', _, rfl, by decide⟩ fun _ _ => rfl
  · exact hfinite rfl (by rw [Json.rereadNumber, Json.reread_eq]; rfl)

lemma rounded_unmarked {n : Number} (h : n.toReal.InSingleRange) :
    n.unmarked.rounded = n.rounded := by
  rcases n with i | mark | negative | ⟨negative, units, fits⟩
  · rfl
  · cases h
  · rfl
  · rfl

lemma inSingleRange_unmarked (n : Number) :
    n.unmarked.toReal.InSingleRange ↔ n.toReal.InSingleRange := by
  rcases n with i | mark | negative | ⟨negative, units, fits⟩ <;> rfl

end Number

namespace Embedding

variable {xs : List Number} {o o' : Except Error Embedding}

/-- What numbers may come as. -/
inductive Carries : List Number → Value → Prop where
  | list (xs : List Number) : Carries xs (.list (xs.map value))
  | tuple (xs : List Number) : Carries xs (.tuple (xs.map value))
  | text (xs : List Number) {before after : List Char} (hbefore : ∀ c ∈ before, isBlank c)
      (hafter : ∀ c ∈ after, isBlank c) :
      Carries xs (.text (String.ofList (before ++ (Json.bracket (xs.map spelled) ++ after))))
  | array (reals : List Binary64) (mark : Nat) :
      Carries (reals.map .real) (.array ⟨.float 64, [reals.length], reals.map .real, mark⟩)

/-- What comes of a cast of numbers: their embedding, or a failure for lack of any or for one that
is out of range. -/
def Casts (xs : List Number) : Except Error Embedding → Prop :=
  Meets
    (fun e => e.errorClass = .dimension ∧ xs = [] ∨
      e.errorClass = .vectorType ∧ ∃ n ∈ xs, ¬ n.toReal.InSingleRange)
    (fun v => xs ≠ [] ∧ (∀ n ∈ xs, n.toReal.InSingleRange) ∧ v.components = xs.map rounded)

/-- Outcomes that are the same embedding, or failures of one class. -/
inductive Alike : Except Error Embedding → Except Error Embedding → Prop where
  | ok (v : Embedding) : Alike (.ok v) (.ok v)
  | error {e e' : Error} (h : e.errorClass = e'.errorClass) : Alike (.error e) (.error e')

namespace Casts

/-- An outcome fails in a class exactly if the numbers are to be refused in it. -/
lemma error_iff (h : Casts xs o) :
    ((∃ e, o = .error e ∧ e.errorClass = .dimension) ↔ xs = []) ∧
      ((∃ e, o = .error e ∧ e.errorClass = .vectorType) ↔
        ∃ n ∈ xs, ¬ n.toReal.InSingleRange) := by
  rcases o with e | v
  · rcases h with ⟨hclass, rfl⟩ | ⟨hclass, hout⟩
    · simp [hclass]
    · have hne : xs ≠ [] := by
        rintro rfl
        simp at hout
      simpa [hclass, hne] using hout
  · obtain ⟨hne, hin, -⟩ := h
    simpa [hne] using hin

/-- Numbers leave no choice of an outcome, but for the text of a failure. -/
lemma alike (h : Casts xs o) (h' : Casts xs o') : Alike o o' := by
  rcases o with e | v <;> rcases o' with e' | w
  · obtain ⟨hdimension, hvector⟩ := h'.error_iff
    rcases h with ⟨hclass, hnone⟩ | ⟨hclass, hout⟩
    · obtain ⟨_, he, hclass'⟩ := hdimension.mpr hnone
      cases he
      exact .error (hclass.trans hclass'.symm)
    · obtain ⟨_, he, hclass'⟩ := hvector.mpr hout
      cases he
      exact .error (hclass.trans hclass'.symm)
  · obtain ⟨hne, hin, -⟩ := h'
    rcases h with ⟨-, hnone⟩ | ⟨-, n, hn, hout⟩
    · exact absurd hnone hne
    · exact absurd (hin n hn) hout
  · obtain ⟨hne, hin, -⟩ := h
    rcases h' with ⟨-, hnone⟩ | ⟨-, n, hn, hout⟩
    · exact absurd hnone hne
    · exact absurd (hin n hn) hout
  · obtain ⟨-, -, hv⟩ := h
    obtain ⟨-, -, hw⟩ := h'
    obtain ⟨vs, _, _⟩ := v
    obtain ⟨ws, _, _⟩ := w
    obtain rfl : vs = ws := hv.trans hw.symm
    exact .ok _

/-- Marks make no difference. -/
lemma of_unmarked (h : Casts (xs.map unmarked) o) : Casts xs o := by
  rcases o with e | v
  · rcases h with ⟨hclass, hnone⟩ | ⟨hclass, n, hn, hout⟩
    · exact .inl ⟨hclass, List.map_eq_nil_iff.mp hnone⟩
    · obtain ⟨m, hm, rfl⟩ := List.mem_map.mp hn
      exact .inr ⟨hclass, m, hm, fun hin => hout ((inSingleRange_unmarked m).mpr hin)⟩
  · obtain ⟨hne, hin, hv⟩ := h
    have hin' : ∀ n ∈ xs, n.toReal.InSingleRange := fun n hn =>
      (inSingleRange_unmarked n).mp (hin _ (List.mem_map_of_mem hn))
    refine ⟨fun hnone => hne (by rw [hnone, List.map_nil]), hin', hv.trans ?_⟩
    rw [List.map_map]
    exact List.map_congr_left fun n hn => rounded_unmarked (hin' n hn)

end Casts

/-! ### Casts of numbers -/

/-- Rounded numbers are components just as they are in range. -/
lemma isComponent_rounded (n : Number) : IsComponent n.rounded ↔ n.toReal.InSingleRange := by
  rw [← Binary64.toSingle_isFinite_iff]
  exact and_iff_left (Binary64.toSingle_toSingle _)

lemma casts_ofRounded (xs : List Number) : Casts xs (ofRounded (xs.map rounded)) := by
  by_cases hne : xs = []
  · subst hne
    exact .inl ⟨rfl, rfl⟩
  by_cases hin : ∀ n ∈ xs, n.toReal.InSingleRange
  · have hall : xs.map rounded ≠ [] ∧ ∀ x ∈ xs.map rounded, IsComponent x :=
      ⟨by simpa using hne, List.forall_mem_map.mpr fun n hn =>
        (isComponent_rounded n).mpr (hin n hn)⟩
    rw [ofRounded, ofComponents?, dif_pos hall]
    exact ⟨hne, hin, rfl⟩
  · have hall : ¬ (xs.map rounded ≠ [] ∧ ∀ x ∈ xs.map rounded, IsComponent x) := fun h =>
      hin fun n hn => (isComponent_rounded n).mp (h.2 _ (List.mem_map_of_mem hn))
    rw [ofRounded, ofComponents?, dif_neg hall, if_neg (by simpa using hne)]
    push Not at hin
    exact .inr ⟨rfl, hin⟩

/-- A number is rounded, unless it is an integer without a place among the numbers to round. -/
lemma componentOf_value (n : Number) :
    Meets (fun e => e = .notSingle ∧ ¬ n.toReal.InSingleRange) (· = n.rounded)
      (componentOf n.value) := by
  cases n with
  | int i =>
    rw [rounded, toReal, value, componentOf]
    generalize Binary64.ofInt i = x
    cases x with
    | finite => exact rfl
    | _ => exact ⟨rfl, id⟩
  | real x => exact rfl

lemma numbersFrom_map_value (i : Nat) (xs : List Number) :
    numbersFrom i (xs.map value) = .ok (xs.map value) := by
  induction xs generalizing i with
  | nil => rfl
  | cons n xs ih => cases n <;> rw [List.map_cons, value, numbersFrom, ih] <;> rfl

lemma casts_ofValues (xs : List Number) : Casts xs (ofValues (xs.map value)) := by
  rw [ofValues, numbersFrom_map_value]
  change Casts xs (do
    if (xs.map value).isEmpty then throw Error.emptyVector
    ofRounded (← (xs.map value).mapM componentOf))
  by_cases hne : xs = []
  · subst hne
    exact .inl ⟨rfl, rfl⟩
  rw [if_neg (by simpa using hne), List.mapM_map]
  rcases hround : xs.mapM (componentOf ∘ value) with e | rs
  · obtain ⟨n, hn, he⟩ := exists_mem_of_mapM_error hround
    obtain ⟨rfl, hout⟩ := (componentOf_value n).error he
    exact .inr ⟨rfl, n, hn, hout⟩
  · obtain rfl : rs = xs.map rounded := by
      rw [← List.forall₂_eq_eq_eq, List.forall₂_map_right_iff]
      exact (forall₂_of_mapM hround).flip.imp fun _ n h => (componentOf_value n).ok h
    exact casts_ofRounded xs

/-! ### Carriers -/

/-- A bracketed text is read as the list it writes, whatever blanks there are around it. -/
lemma parseBracketed_bracket {before after : List Char} (hbefore : ∀ c ∈ before, isBlank c)
    (hafter : ∀ c ∈ after, isBlank c) {ss : List (List Char)} {vs : List Value}
    (h : List.Forall₂ (Json.Reads 0) ss vs) :
    parseBracketed (String.ofList (before ++ (Json.bracket ss ++ after))) = .ok vs := by
  have hfirst : (Json.bracket ss).head? = some '[' := rfl
  have hlast : (Json.bracket ss).getLast? = some ']' := List.getLast?_concat
  have htrim : trim (before ++ (Json.bracket ss ++ after)) = Json.bracket ss := by
    rw [trim_append hbefore hafter, trim_of_first_last hfirst hlast (by decide) (by decide)]
  rw [parseBracketed, String.toList_ofList, htrim, if_pos (by simp [hfirst, hlast]),
    (Json.reads_bracket h).readWithin_eq (by decide)]

/-- **One carrier**: what it comes to is a cast of the numbers that it carries. -/
theorem Carries.casts {v : Value} (h : Carries xs v) (hshort : ∀ n ∈ xs, n.value.IsShort) :
    Casts xs (ofValue v) := by
  cases h with
  | list => exact casts_ofValues xs
  | tuple => exact casts_ofValues xs
  | text _ hbefore hafter =>
    have hreads : List.Forall₂ (Json.Reads 0) (xs.map spelled) ((xs.map unmarked).map value) := by
      rw [List.map_map, List.forall₂_map_left_iff, List.forall₂_map_right_iff, List.forall₂_same]
      exact fun n hn => reads_spelled (hshort n hn)
    rw [ofValue, parseBracketed_bracket hbefore hafter hreads]
    exact (casts_ofValues _).of_unmarked
  | array reals mark =>
    have hround : (reals.map Number.real).map rounded = reals.map Binary64.toSingle := by
      rw [List.map_map]
      rfl
    rw [ofValue, ofArray, if_neg (by simp), if_neg (by simp [ElementType.isReal]), List.map_map]
    exact hround ▸ casts_ofRounded (reals.map .real)

/-- **Carriers**: numbers that come as two different values are cast alike. They are refused for
lack of a dimension just as there are none, and for their type just as one of them is not finite or
out of range; otherwise they are rounded. An embedding is cast to itself, and so are its components
as a list. -/
theorem cast_carriers {v w : Value} (hv : Carries xs v) (hw : Carries xs w)
    (hshort : ∀ n ∈ xs, n.value.IsShort) :
    Alike (ofValue v) (ofValue w) ∧
      ((∃ e, ofValue v = .error e ∧ e.errorClass = .dimension) ↔ xs = []) ∧
      ((∃ e, ofValue v = .error e ∧ e.errorClass = .vectorType) ↔
        ∃ n ∈ xs, ¬ n.toReal.InSingleRange) ∧
      (∀ e, ofValue v = .ok e → e.components = xs.map rounded) ∧
      ∀ u e, ofValue u = .ok e →
        ofValue (.list (e.components.map .real)) = .ok e ∧ e.same e ∧
          ofValue (.embedding e) = .ok e := by
  have hcasts := hv.casts hshort
  obtain ⟨hdimension, hvector⟩ := hcasts.error_iff
  refine ⟨hcasts.alike (hw.casts hshort), hdimension, hvector, fun e he => ?_, fun u e _ => ?_⟩
  · exact (hcasts.ok he).2.2
  · exact ⟨ofValues_components e, same_refl e, rfl⟩

/-- An integer and a real number, as a list and as a text with blanks around it. -/
theorem cast_carriers_padded :
    let xs : List Number := [.int 3, .real (.ofInt 2)]
    let v : Value := .list [.int 3, .real (.ofInt 2)]
    let w : Value := .text " [3, 2.0]\n"
    Carries xs v ∧ Carries xs w ∧ (∀ n ∈ xs, n.value.IsShort) ∧ Alike (ofValue v) (ofValue w) ∧
      (ofValue v).isOk = true := by
  intro xs v w
  have htext : String.ofList ([' '] ++ (Json.bracket (xs.map spelled) ++ ['\n'])) =
      " [3, 2.0]\n" := by decide +kernel
  have hv : Carries xs v := .list xs
  have hw : Carries xs w := by
    change Carries xs (.text " [3, 2.0]\n")
    rw [← htext]
    exact .text xs (List.forall_mem_singleton.mpr rfl) (List.forall_mem_singleton.mpr rfl)
  have hshort : ∀ n ∈ xs, n.value.IsShort := by
    have hlength : (digitsOf 3).length ≤ longestInteger := by decide
    simpa [xs, value, Value.IsShort] using hlength
  obtain ⟨halike, -⟩ := cast_carriers hv hw hshort
  have hok : (ofValue v).isOk = true := by decide +kernel
  exact ⟨hv, hw, hshort, halike, hok⟩

end Embedding

end NearDoc
