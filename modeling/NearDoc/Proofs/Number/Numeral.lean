import Mathlib.Data.List.Induction
import Mathlib.Tactic.Common
import Mathlib.Tactic.Ring
import NearDoc.Number.Decimal
import NearDoc.Number.Numeral

/-!
Decimal numerals: the digits of a number read back to it.
-/

namespace NearDoc

namespace Text

lemma digitsOf_of_lt {n : Nat} (hn : n < 10) : digitsOf n = [n] := by
  have hchar : ∀ d < 10, (Nat.digitChar d).toNat - '0'.toNat = d := by decide
  rw [digitsOf, Nat.toDigits_of_lt_base hn, List.map_singleton, hchar n hn]

lemma digitsOf_of_le {n : Nat} (hn : 10 ≤ n) : digitsOf n = digitsOf (n / 10) ++ [n % 10] := by
  have hchar : ∀ d < 10, (Nat.digitChar d).toNat - '0'.toNat = d := by decide
  rw [digitsOf, Nat.toDigits_of_base_le (by decide) hn, List.map_append, List.map_singleton,
    hchar _ (Nat.mod_lt n (by decide)), digitsOf]

/-- A number has a digit, its digits are below ten, and they write the number. -/
lemma digitsOf_spec (n : Nat) :
    digitsOf n ≠ [] ∧ (∀ d ∈ digitsOf n, d < 10) ∧ ofDigits (digitsOf n) = n := by
  induction n using Nat.strongRecOn with
  | _ n ih =>
  by_cases hn : n < 10
  · rw [digitsOf_of_lt hn]
    simp [hn, ofDigits]
  · obtain ⟨-, hlt, hof⟩ := ih (n / 10) (by omega)
    rw [digitsOf_of_le (by omega)]
    refine ⟨by simp, fun d hd => ?_, ?_⟩
    · rcases List.mem_append.mp hd with hd | hd
      · exact hlt d hd
      · rw [List.mem_singleton.mp hd]
        exact Nat.mod_lt n (by decide)
    · simp only [ofDigits, List.foldl_append, List.foldl_cons, List.foldl_nil] at hof ⊢
      rw [hof]
      omega

lemma ofDigits_append (ds es : List Nat) :
    ofDigits (ds ++ es) = ofDigits ds * 10 ^ es.length + ofDigits es := by
  induction es using List.reverseRecOn with
  | nil => simp [ofDigits]
  | append_singleton es e ih =>
    have hlast : ∀ l : List Nat, ofDigits (l ++ [e]) = 10 * ofDigits l + e := fun l => by
      simp [ofDigits]
    rw [← List.append_assoc, hlast, hlast, ih, List.length_append, List.length_singleton,
      Nat.pow_succ]
    ring

lemma ofDigits_zeros (n : Nat) : ofDigits (List.replicate n 0) = 0 := by
  induction n with
  | zero => rfl
  | succ n ih => rw [List.replicate_succ', ofDigits_append, ih]; rfl

lemma length_digitsOf_pow (k : Nat) : (digitsOf (10 ^ k)).length = k + 1 := by
  induction k with
  | zero => rw [Nat.pow_zero, digitsOf_of_lt (by decide), List.length_singleton]
  | succ k ih =>
    have hpos : 0 < 10 ^ k := Nat.pow_pos (by decide)
    rw [digitsOf_of_le (by omega), Nat.pow_succ, Nat.mul_div_cancel _ (by decide),
      List.length_append, ih, List.length_singleton]

lemma digitValue?_digitChar : ∀ d < 10, digitValue? (digitChar d) = some d := by decide

end Text

namespace Number

open Text

lemma readNat?_digits {ds : List Nat} (hne : ds ≠ []) (hlt : ∀ d ∈ ds, d < 10) :
    readNat? (ds.map digitChar) = some (ofDigits ds) := by
  have hread : (ds.map digitChar).mapM digitValue? = some ds := by
    clear hne
    induction ds with
    | nil => rfl
    | cons d ds ih =>
      rw [List.forall_mem_cons] at hlt
      rw [List.map_cons, List.mapM_cons, digitValue?_digitChar d hlt.1, ih hlt.2]
      rfl
  simp [readNat?, hne, hread]

/-- The digits of an integer, after the sign if it is negative. -/
lemma writeInt_eq (i : Int) :
    ∃ ds, ds ≠ [] ∧ (∀ d ∈ ds, d < 10) ∧ ofDigits ds = i.natAbs ∧ ds = digitsOf i.natAbs ∧
      writeInt i = if i < 0 then '-' :: ds.map digitChar else ds.map digitChar := by
  obtain ⟨hne, hlt, hof⟩ := digitsOf_spec i.natAbs
  refine ⟨_, hne, hlt, hof, rfl, ?_⟩
  unfold writeInt
  split <;> rfl

end Number

end NearDoc
