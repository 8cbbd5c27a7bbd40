import Mathlib.Algebra.Order.Field.Rat
import Mathlib.Algebra.Order.Ring.Cast
import Mathlib.Order.WithBot
import NearDoc.Proofs.Value.Threshold

/-!
Numbers by the rational number that each of them is exactly, or the end of the number line. Main
statement: numbers stand in a relation just when these do, so that nothing is rounded on the way.
-/

namespace NearDoc

/-- The rational number that a number of the format is, or an end of the number line. -/
def Binary64.rational? : Binary64 → Option (WithBot (WithTop ℚ))
  | .nan _ => none
  | .infinite negative => some (if negative then ⊥ else ⊤)
  | .finite negative units _ => some (((signed negative units / 2 ^ 1074 : ℚ) : WithTop ℚ))

/-- The rational number that a number is, or an end of the number line. -/
def Number.rational? : Number → Option (WithBot (WithTop ℚ))
  | .int i => some (((i : ℚ) : WithTop ℚ))
  | .real x => x.rational?

namespace Place

/-- The rational number at a place. -/
def value : Place → WithBot (WithTop ℚ)
  | .bottom => ⊥
  | .units i => (((i / 2 ^ 1074 : ℚ) : WithTop ℚ))
  | .top => ⊤

lemma lt_iff {p q : Place} : p.lt q = true ↔ p.value < q.value := by
  have hunit : (0 : ℚ) < 2 ^ 1074 := pow_pos two_pos 1074
  generalize hu : (2 : ℚ) ^ 1074 = u at hunit
  have htop : ∀ i : ℚ, ((i : WithTop ℚ) : WithBot (WithTop ℚ)) < ⊤ := fun i =>
    WithBot.coe_lt_coe.mpr (WithTop.coe_lt_top i)
  cases p <;> cases q <;> simp [lt, value, hu, div_lt_div_iff_of_pos_right hunit, htop]

lemma compare_value (p q : Place) :
    compare p.value q.value = if p.lt q then .lt else if q.lt p then .gt else .eq := by
  split_ifs with hpq hqp
  · exact compare_lt_iff_lt.mpr (lt_iff.mp hpq)
  · exact compare_gt_iff_gt.mpr (lt_iff.mp hqp)
  · exact compare_eq_iff_eq.mpr
      (le_antisymm (not_lt.mp (mt lt_iff.mpr hqp)) (not_lt.mp (mt lt_iff.mpr hpq)))

end Place

namespace Number

variable {m n : Number} {p q : WithBot (WithTop ℚ)}

lemma rational?_eq (n : Number) : n.rational? = n.place?.map Place.value := by
  cases n with
  | int i =>
    have hunit : (2 : ℚ) ^ 1074 ≠ 0 := pow_ne_zero 1074 two_ne_zero
    rw [rational?, place?, Option.map_some, Place.value, Int.cast_mul, Int.cast_pow, Int.cast_ofNat,
      mul_div_cancel_right₀ _ hunit]
  | real x =>
    cases x with
    | nan => rfl
    | infinite negative => cases negative <;> rfl
    | finite => rfl

lemma exists_rational (h : n.HasPlace) : ∃ p, n.rational? = some p := by
  obtain ⟨p, hp⟩ := h
  rw [rational?_eq, hp]
  exact ⟨_, rfl⟩

lemma eq_of_rational (hm : m.rational? = some p) (hn : n.rational? = some q) :
    m.eq n = (compare p q == .eq) := by
  rw [rational?_eq] at hm hn
  obtain ⟨p, hp, rfl⟩ := Option.map_eq_some_iff.mp hm
  obtain ⟨q, hq, rfl⟩ := Option.map_eq_some_iff.mp hn
  simp only [Number.eq, hp, hq, Place.compare_value, Place.eq_iff (p := p)]
  cases p.lt q <;> cases q.lt p <;> rfl

end Number

/-- **Exact comparison**: a relation holds of two numbers as it holds of what they are exactly. -/
theorem OrderRelation.ofNumbers_of_rational {m n : Number} {p q : WithBot (WithTop ℚ)}
    (hm : m.rational? = some p) (hn : n.rational? = some q) (r : OrderRelation) :
    r.ofNumbers m n = r.ofOrdering (compare p q) := by
  have heq := Number.eq_of_rational hm hn
  rw [Number.rational?_eq] at hm hn
  obtain ⟨p, hp, rfl⟩ := Option.map_eq_some_iff.mp hm
  obtain ⟨q, hq, rfl⟩ := Option.map_eq_some_iff.mp hn
  have hlt : m.lt n = p.lt q ∧ n.lt m = q.lt p := by simp [Number.lt, hp, hq]
  have hasymm : p.lt q = true → q.lt p = false := Place.lt_asymm
  cases r <;> simp only [ofNumbers, ofOrdering, heq, hlt, Place.compare_value] <;>
    cases hpq : p.lt q <;> cases hqp : q.lt p <;> simp_all

end NearDoc
