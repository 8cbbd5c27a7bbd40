import NearDoc.Proofs.Number.RoundTrip

/-!
Rounding to a narrower format. What is rounded has as many significant bits as the format has, so
it is a number of the wide format as well, and rounding it again leaves it as it is. Main
statements: a rounded number is kept, and a number stays in the range of single precision exactly
if it is nearer to some number in it than to the first power of two behind it.
-/

namespace NearDoc

namespace Number

lemma bitLength_le {n k : Nat} : bitLength n ≤ k ↔ n < 2 ^ k := by
  unfold bitLength
  split
  · rename_i h
    simp [h]
  · rename_i h
    exact Nat.succ_le_iff.trans (Nat.log2_lt h)

lemma lt_bitLength {n k : Nat} : k < bitLength n ↔ 2 ^ k ≤ n := by
  rw [← not_le, bitLength_le, not_lt]

variable {f : Format} {units num den : Nat}

/-! ### Significant bits -/

/-- Multiples of a power of two with so many bits beside it. -/
structure HasBits (f : Format) (units : Nat) : Prop where
  shape : ∃ q e, f.least ≤ e ∧ q < 2 ^ f.precision ∧ units = q * 2 ^ e

/-- One bit more is a power of two, which one bit is enough for. -/
lemma hasBits_of_le (hf : 0 < f.precision) {q e : Nat} (he : f.least ≤ e)
    (hq : q ≤ 2 ^ f.precision) : HasBits f (q * 2 ^ e) := by
  rcases hq.eq_or_lt with rfl | hlt
  · obtain ⟨p, hp⟩ := Nat.exists_eq_succ_of_ne_zero hf.ne'
    refine ⟨2 ^ p, e + 1, by omega, ?_, by rw [hp, Nat.pow_succ, Nat.pow_succ]; ring⟩
    rw [hp]
    exact Nat.pow_lt_pow_right (by decide) (Nat.lt_succ_self p)
  · exact ⟨q, e, he, hlt, rfl⟩

/-- What is rounded has no more bits than the format. -/
lemma hasBits_round (hf : 0 < f.precision) (num : Nat) (hden : 0 < den) :
    HasBits f (f.round num den) := by
  rw [Format.round]
  have hbits : bitLength (num / den) - f.precision ≤
      max f.least (bitLength (num / den) - f.precision) := le_max_right ..
  have hleast : f.least ≤ max f.least (bitLength (num / den) - f.precision) := le_max_left ..
  generalize max f.least (bitLength (num / den) - f.precision) = e at hbits hleast ⊢
  refine hasBits_of_le hf hleast ?_
  have hstep : 0 < den * 2 ^ e := Nat.mul_pos hden (Nat.two_pow_pos e)
  have hnum : num < 2 ^ f.precision * (den * 2 ^ e) := calc
    num < 2 ^ (f.precision + e) * den :=
      (Nat.div_lt_iff_lt_mul hden).mp (bitLength_le.mp (by omega))
    _ = 2 ^ f.precision * (den * 2 ^ e) := by rw [Nat.pow_add]; ring
  obtain ⟨-, hnear⟩ := roundDiv_near num hstep
  by_contra hmore
  have hover : (2 ^ f.precision + 1) * (den * 2 ^ e) ≤ roundDiv num (den * 2 ^ e) * (den * 2 ^ e) :=
    Nat.mul_le_mul_right _ (Nat.lt_of_not_le hmore)
  rw [Nat.add_mul, Nat.one_mul] at hover
  omega

/-- What has no more bits than the format is kept. -/
lemma HasBits.round (h : HasBits f units) : f.round units 1 = units := by
  obtain ⟨q, e, hleast, hq, rfl⟩ := h.shape
  have hbits : bitLength (q * 2 ^ e) ≤ f.precision + e := by
    rw [bitLength_le, Nat.pow_add]
    exact Nat.mul_lt_mul_of_pos_right hq (Nat.two_pow_pos e)
  rw [Format.round, Nat.div_one, Nat.one_mul]
  have hle : max f.least (bitLength (q * 2 ^ e) - f.precision) ≤ e := by omega
  generalize max f.least (bitLength (q * 2 ^ e) - f.precision) = l at hle ⊢
  have hsplit : q * 2 ^ e = q * 2 ^ (e - l) * 2 ^ l := by
    rw [Nat.mul_assoc, ← Nat.pow_add, Nat.sub_add_cancel hle]
  rw [hsplit, roundDiv_mul _ (Nat.two_pow_pos l)]

/-- It is a number of the wide format if that has room for it. -/
lemma HasBits.fits (h : HasBits f units) (hp : f.precision ≤ 53) (htop : f.top ≤ Format.double.top)
    (hunits : units < 2 ^ f.top) : Fits units := by
  obtain ⟨q, e, -, hq, rfl⟩ := h.shape
  change f.top ≤ 2098 at htop
  unfold Fits
  generalize 2098 = top at htop ⊢
  refine ⟨hunits.trans_le (Nat.pow_le_pow_right (by decide) htop), Nat.mod_eq_zero_of_dvd ?_⟩
  have hbits : bitLength (q * 2 ^ e) ≤ f.precision + e := by
    rw [bitLength_le, Nat.pow_add]
    exact Nat.mul_lt_mul_of_pos_right hq (Nat.two_pow_pos e)
  exact (Nat.pow_dvd_pow 2 (by omega)).mul_left q

/-! ### The range of a format -/

/-- The power of two behind them all has a place at any number of bits, so that nothing behind it
is rounded below it. -/
lemma le_round (hp : 0 < f.precision) (hf : f.least < f.top) (h : 2 ^ f.top ≤ units) :
    2 ^ f.top ≤ f.round units 1 := by
  have hbits := lt_bitLength.mpr h
  have hfirst : 2 ^ (bitLength units - 1) ≤ units := lt_bitLength.mp (by omega)
  rw [Format.round, Nat.div_one, Nat.one_mul]
  generalize hl : max f.least (bitLength units - f.precision) = l
  have hsplit : 2 ^ (bitLength units - 1) = 2 ^ (bitLength units - 1 - l) * 2 ^ l := by
    rw [← Nat.pow_add]
    congr 1
    omega
  have hdiv : 2 ^ (bitLength units - 1 - l) ≤ units / 2 ^ l := by
    rw [Nat.le_div_iff_mul_le (Nat.two_pow_pos l), ← hsplit]
    exact hfirst
  have hround : units / 2 ^ l ≤ roundDiv units (2 ^ l) := by
    simp only [roundDiv]
    split <;> omega
  calc 2 ^ f.top
    _ ≤ 2 ^ (bitLength units - 1) := Nat.pow_le_pow_right (by decide) (by omega)
    _ = 2 ^ (bitLength units - 1 - l) * 2 ^ l := hsplit
    _ ≤ roundDiv units (2 ^ l) * 2 ^ l := Nat.mul_le_mul_right _ (hdiv.trans hround)

/-- The last number of the format is odd, so that the middle between it and the power of two is
rounded up, and so is all from there on. -/
lemma round_of_middle (hp : 0 < f.precision) {e : Nat} (he : f.top = f.precision + (e + 1))
    (hleast : f.least ≤ e + 1) (hmiddle : 2 ^ f.top - 2 ^ e ≤ units) (h : units < 2 ^ f.top) :
    f.round units 1 = 2 ^ f.top := by
  have htop : 2 ^ f.top = 2 ^ f.precision * 2 ^ (e + 1) := by rw [he, Nat.pow_add]
  have hdouble : 2 ^ (e + 1) = 2 * 2 ^ e := Nat.pow_succ' ..
  have hone : 1 ≤ 2 ^ f.precision := Nat.one_le_two_pow
  have hroom : 2 ^ (e + 1) ≤ 2 ^ f.top := Nat.pow_le_pow_right (by decide) (by omega)
  have hbits : bitLength units = f.top := by
    refine le_antisymm (bitLength_le.mpr h) ?_
    obtain ⟨t, ht⟩ : ∃ t, f.top = t + 1 := ⟨f.top - 1, by omega⟩
    rw [ht] at hmiddle hroom ⊢
    rw [Nat.pow_succ] at hmiddle hroom
    exact lt_bitLength.mpr (by omega)
  have hplace : max f.least (bitLength units - f.precision) = e + 1 := by omega
  have hquot : units / 2 ^ (e + 1) = 2 ^ f.precision - 1 := by
    refine Nat.div_eq_of_lt_le ?_ ?_
    · rw [Nat.sub_mul, Nat.one_mul, ← htop]
      omega
    · rw [Nat.sub_add_cancel hone, ← htop]
      exact h
  have hrest : 2 ^ (e + 1) ≤ 2 * (units % 2 ^ (e + 1)) := by
    have hdiv := Nat.div_add_mod' units (2 ^ (e + 1))
    rw [hquot, Nat.sub_mul, Nat.one_mul, ← htop] at hdiv
    omega
  have hodd : units / 2 ^ (e + 1) % 2 = 1 := by
    obtain ⟨p, hp⟩ := Nat.exists_eq_succ_of_ne_zero hp.ne'
    rw [hquot, hp, Nat.pow_succ]
    have := Nat.two_pow_pos p
    omega
  have hround : roundDiv units (2 ^ (e + 1)) = 2 ^ f.precision := by
    simp only [roundDiv]
    rw [if_pos (by omega), hquot]
    omega
  rw [Format.round, Nat.div_one, Nat.one_mul, hplace, hround, htop]

/-- Short of the middle, what is rounded stays below the power of two. -/
lemma round_lt {e : Nat} (he : f.top = f.precision + (e + 1)) (hleast : f.least ≤ e + 1)
    (h : units < 2 ^ f.top - 2 ^ e) : f.round units 1 < 2 ^ f.top := by
  have hbits : bitLength units ≤ f.top := bitLength_le.mpr (h.trans_le (Nat.sub_le ..))
  have hdouble : 2 ^ (e + 1) = 2 * 2 ^ e := Nat.pow_succ' ..
  rw [Format.round, Nat.div_one, Nat.one_mul]
  generalize hl : max f.least (bitLength units - f.precision) = l
  obtain ⟨-, hnear⟩ := roundDiv_near units (Nat.two_pow_pos l)
  have hstep : 2 ^ l ≤ 2 ^ (e + 1) := Nat.pow_le_pow_right (by decide) (by omega)
  omega

/-- What is nearer to a number of the format than to the first power of two behind them all is
rounded to one of them; the middle is rounded to the power. -/
theorem round_lt_iff (hp : 0 < f.precision) (hf : f.least + f.precision < f.top) :
    f.round units 1 < 2 ^ f.top ↔ units < 2 ^ f.top - 2 ^ (f.top - f.precision - 1) := by
  generalize he : f.top - f.precision - 1 = e
  have htop : f.top = f.precision + (e + 1) := by omega
  constructor
  · intro hlt
    by_contra hmore
    rcases Nat.lt_or_ge units (2 ^ f.top) with hbelow | hover
    · exact hlt.ne (round_of_middle hp htop (by omega) (Nat.le_of_not_lt hmore) hbelow)
    · exact (le_round hp (by omega) hover).not_gt hlt
  · exact round_lt htop (by omega)

end Number

open Number

namespace Binary64

section

variable {f : Format} (hp : 0 < f.precision) (hp' : f.precision ≤ 53)
variable (htop : f.top ≤ Format.double.top)
include hp hp' htop

/-- What is rounded stays in the range of the format, or becomes infinite. -/
lemma roundTo_round (negative : Bool) (num : Nat) {den : Nat} (hden : 0 < den) :
    (f.round num den < 2 ^ f.top ∧
      ∃ fits, roundTo f negative num den = .finite negative (f.round num den) fits) ∨
    (¬ f.round num den < 2 ^ f.top ∧ roundTo f negative num den = .infinite negative) := by
  rcases Nat.lt_or_ge (f.round num den) (2 ^ f.top) with hlt | hover
  · have hfits := (hasBits_round hp num hden).fits hp' htop hlt
    refine .inl ⟨hlt, hfits, ?_⟩
    rw [roundTo, dif_pos ⟨hlt, hfits⟩]
  · refine .inr ⟨hover.not_gt, ?_⟩
    rw [roundTo, dif_neg fun h => hover.not_gt h.1]

/-- A narrowed number is finite exactly if it is in the range of the format. -/
lemma narrow_isFinite_iff (negative : Bool) {units : Nat} (fits : Fits units) :
    ((Binary64.finite negative units fits).narrow f).isFinite = true ↔
      f.round units 1 < 2 ^ f.top := by
  rw [narrow]
  rcases roundTo_round hp hp' htop negative units Nat.one_pos with ⟨hlt, _, heq⟩ | ⟨hover, heq⟩
  · rw [heq]
    exact iff_of_true rfl hlt
  · rw [heq]
    exact iff_of_false Bool.false_ne_true hover

/-- **Narrowing twice** is narrowing once. -/
theorem narrow_narrow (x : Binary64) : (x.narrow f).narrow f = x.narrow f := by
  rcases x with mark | negative | ⟨negative, units, fits⟩
  · rfl
  · rfl
  · rw [narrow]
    rcases roundTo_round hp hp' htop negative units Nat.one_pos with ⟨hlt, _, heq⟩ | ⟨-, heq⟩
    · have hagain := roundTo_round hp hp' htop negative (f.round units 1) Nat.one_pos
      rw [(hasBits_round hp units Nat.one_pos).round] at hagain
      rcases hagain with ⟨-, _, heq'⟩ | ⟨hover, -⟩
      · rw [heq, narrow, heq']
      · exact absurd hlt hover
    · rw [heq]
      rfl

end

/-- Below the middle between the last single-precision number and `2 ^ 128`, in units. -/
def InSingleRange : Binary64 → Prop
  | .finite _ units _ => units < 2 ^ 1202 - 2 ^ 1177
  | _ => False

/-- **Range**: a number is finite in single precision exactly if it is in its range. -/
theorem toSingle_isFinite_iff (x : Binary64) : x.toSingle.isFinite = true ↔ x.InSingleRange := by
  rcases x with mark | negative | ⟨negative, units, fits⟩
  · exact iff_of_false nofun id
  · exact iff_of_false nofun id
  · have htop : Format.single.top = 1202 := rfl
    have hmiddle : Format.single.top - Format.single.precision - 1 = 1177 := rfl
    rw [toSingle, narrow_isFinite_iff (by decide) (by decide) (by decide),
      round_lt_iff (by decide) (by decide), hmiddle, htop, InSingleRange]

/-- **Rounding twice** is rounding once. -/
theorem toSingle_toSingle (x : Binary64) : x.toSingle.toSingle = x.toSingle :=
  narrow_narrow (by decide) (by decide) (by decide) x

end Binary64

end NearDoc
