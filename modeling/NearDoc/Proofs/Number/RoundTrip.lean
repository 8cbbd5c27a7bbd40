import NearDoc.Proofs.Number.Shortest

/-!
Numbers and their digits. Rounding looks at a quotient only, so a decimal keeps its number when
zeros are moved between its digits and its exponent. Main statement: the digits that a number is
written with, and any zeros after them, stand for the number.
-/

namespace NearDoc

namespace Number

open Text

/-! ### Rounding -/

lemma roundDiv_scale (num den : Nat) {k : Nat} (hk : 0 < k) :
    roundDiv (num * k) (den * k) = roundDiv num den := by
  have hless : ∀ r, den * k < 2 * (r * k) ↔ den < 2 * r := fun r => by
    rw [← Nat.mul_assoc, Nat.mul_lt_mul_right hk]
  have hsame : ∀ r, 2 * (r * k) = den * k ↔ 2 * r = den := fun r => by
    rw [← Nat.mul_assoc, Nat.mul_left_inj hk.ne']
  simp only [roundDiv, Nat.mul_div_mul_right _ _ hk, Nat.mul_mod_mul_right, hless, hsame]

/-- A quotient is rounded, not its parts. -/
lemma round_scale (f : Format) (num den : Nat) {k : Nat} (hk : 0 < k) :
    f.round (num * k) (den * k) = f.round num den := by
  simp only [Format.round, Nat.mul_div_mul_right _ _ hk, Nat.mul_right_comm den k,
    roundDiv_scale num _ hk]

/-- A number of the format is kept. -/
lemma round_of_fits {units : Nat} (h : Fits units) : Format.double.round units 1 = units := by
  have he : max Format.double.least (bitLength (units / 1) - Format.double.precision) =
      bitLength units - 53 := by
    simp [Format.double]
  have hwhole := h.2
  rw [Format.round, he, Nat.one_mul]
  generalize bitLength units - 53 = e at hwhole ⊢
  obtain ⟨count, rfl⟩ := Nat.dvd_of_mod_eq_zero hwhole
  rw [Nat.mul_comm (2 ^ e) count, roundDiv_mul _ (Nat.pow_pos (by decide))]

/-- What does not round to zero is half a unit at least, and not much more than it is rounded to. -/
lemma round_bounds {f : Format} {num den : Nat} (hden : 0 < den) (h : f.round num den ≠ 0) :
    den ≤ 2 * num ∧ 2 * num ≤ 3 * (f.round num den * den) := by
  unfold Format.round at h ⊢
  dsimp only at h ⊢
  generalize max f.least (bitLength (num / den) - f.precision) = e at h ⊢
  have hpow : 0 < 2 ^ e := Nat.pow_pos (by decide)
  obtain ⟨habove, hbelow⟩ := roundDiv_near num (Nat.mul_pos hden hpow)
  have hone : 1 ≤ roundDiv num (den * 2 ^ e) := by
    rcases Nat.eq_zero_or_pos (roundDiv num (den * 2 ^ e)) with hzero | hpos
    · simp [hzero] at h
    · exact hpos
  have hstep : den * 2 ^ e ≤ roundDiv num (den * 2 ^ e) * (den * 2 ^ e) :=
    Nat.le_mul_of_pos_left _ hone
  have hunit : den ≤ den * 2 ^ e := Nat.le_mul_of_pos_right _ hpow
  have hgroup : roundDiv num (den * 2 ^ e) * 2 ^ e * den =
      roundDiv num (den * 2 ^ e) * (den * 2 ^ e) := by ring
  rw [hgroup]
  omega

/-! ### Decimals -/

/-- The length of a number is that of the powers of ten around it. -/
lemma length_digitsOf_bounds {n : Nat} (hn : n ≠ 0) :
    10 ^ ((digitsOf n).length - 1) ≤ n ∧ n < 10 ^ (digitsOf n).length := by
  induction n using Nat.strongRecOn with
  | _ n ih =>
  by_cases hlt : n < 10
  · rw [digitsOf_of_lt hlt]
    simp
    omega
  · obtain ⟨hlow, hhigh⟩ := ih (n / 10) (by omega) (by omega)
    rw [digitsOf_of_le (by omega), List.length_append, List.length_singleton, Nat.add_sub_cancel]
    obtain ⟨m, hm⟩ : ∃ m, (digitsOf (n / 10)).length = m + 1 :=
      Nat.exists_eq_add_one.mpr (List.length_pos_iff.mpr (digitsOf_spec _).1)
    rw [hm] at hlow hhigh ⊢
    rw [Nat.add_sub_cancel] at hlow
    rw [Nat.pow_succ] at hhigh ⊢
    rw [Nat.pow_succ 10 (m + 1), Nat.pow_succ]
    omega

/-- Zeros behind a number are behind its digits. -/
lemma digitsOf_mul_pow {n : Nat} (hn : n ≠ 0) (k : Nat) :
    digitsOf (n * 10 ^ k) = digitsOf n ++ List.replicate k 0 := by
  induction k with
  | zero => simp
  | succ k ih =>
    have hpos : 0 < n * 10 ^ k := Nat.mul_pos (Nat.pos_of_ne_zero hn) (Nat.pow_pos (by decide))
    have hsplit : n * 10 ^ (k + 1) = 10 * (n * 10 ^ k) := by ring
    rw [digitsOf_of_le (by omega), hsplit, Nat.mul_div_cancel_left _ (by decide),
      Nat.mul_mod_right, ih, List.append_assoc, ← List.replicate_succ']

/-- Zeros moved from the digits to the exponent scale both sides of the fraction. -/
lemma exists_decimalFraction_scale (n k : Nat) (e : Int) :
    ∃ c, 0 < c ∧ decimalFraction (n * 10 ^ k) (e - k) =
      ((decimalFraction n e).1 * c, (decimalFraction n e).2 * c) := by
  unfold decimalFraction
  by_cases hek : 0 ≤ e - k
  · have he : 0 ≤ e := by omega
    have hpow : e.toNat = k + (e - k).toNat := by omega
    refine ⟨1, by decide, ?_⟩
    simp only [hek, he, if_true, hpow, Nat.pow_add, Nat.mul_one, Nat.mul_assoc]
  · by_cases he : 0 ≤ e
    · have hpow : k = e.toNat + (-(e - k)).toNat := by omega
      refine ⟨10 ^ (-(e - k)).toNat, Nat.pow_pos (by decide), ?_⟩
      simp only [hek, he, if_true, if_false, Nat.one_mul]
      generalize (-(e - k)).toNat = j at hpow ⊢
      rw [hpow, Nat.pow_add, ← Nat.mul_assoc, Nat.mul_right_comm]
    · have hpow : (-(e - k)).toNat = (-e).toNat + k := by omega
      refine ⟨10 ^ k, Nat.pow_pos (by decide), ?_⟩
      simp only [hek, he, if_false, hpow, Nat.pow_add]
      rw [Nat.mul_right_comm]

/-- Zeros may be moved between the digits and the exponent of a decimal. -/
lemma ofDecimal_mul_pow (negative : Bool) {n : Nat} (hn : n ≠ 0) (k : Nat) (e : Int) :
    ofDecimal negative (n * 10 ^ k) (e - k) = ofDecimal negative n e := by
  have hne : n * 10 ^ k ≠ 0 := Nat.mul_ne_zero hn (Nat.pow_pos (by decide)).ne'
  have hsize : ((digitsOf (n * 10 ^ k)).length : Int) + (e - k) = (digitsOf n).length + e := by
    rw [digitsOf_mul_pow hn, List.length_append, List.length_replicate]
    omega
  obtain ⟨c, hc, hscale⟩ := exists_decimalFraction_scale n k e
  simp only [ofDecimal, hsize, hn, hne, false_or, hscale, Binary64.ofUnits, Binary64.roundTo,
    round_scale _ _ _ hc]

/-! ### The digits of a number -/

/-- What is dropped from the end are zeros. -/
lemma exists_rdropWhile_append (ds : List Nat) :
    ∃ zeros, ds.rdropWhile (· == 0) ++ List.replicate zeros 0 = ds := by
  induction ds using List.reverseRecOn with
  | nil => exact ⟨0, rfl⟩
  | append_singleton ds d ih =>
    by_cases hd : d = 0
    · obtain ⟨zeros, hzeros⟩ := ih
      refine ⟨zeros + 1, ?_⟩
      rw [List.rdropWhile_concat_pos _ _ _ (by simp [hd]), List.replicate_succ',
        ← List.append_assoc, hzeros, hd]
    · refine ⟨0, ?_⟩
      rw [List.rdropWhile_concat_neg _ _ _ (by simp [hd]), List.replicate_zero, List.append_nil]

/-- The digits of a number and the zeros that were dropped are the number. -/
lemma exists_ofDigits_ofNat (n : Nat) (e : Int) :
    ∃ zeros : Nat, n = ofDigits (Digits.ofNat n e).digits * 10 ^ zeros ∧
      (Digits.ofNat n e).exponent + 1 - (Digits.ofNat n e).digits.length = e + zeros := by
  obtain ⟨zeros, hzeros⟩ := exists_rdropWhile_append (digitsOf n)
  replace hzeros : (Digits.ofNat n e).digits ++ List.replicate zeros 0 = digitsOf n := hzeros
  refine ⟨zeros, ?_, ?_⟩
  · have hvalue := (digitsOf_spec n).2.2
    rw [← hzeros, ofDigits_append, ofDigits_zeros, List.length_replicate, Nat.add_zero] at hvalue
    exact hvalue.symm
  · have hlen := congrArg List.length hzeros
    rw [List.length_append, List.length_replicate] at hlen
    have hexponent : (Digits.ofNat n e).exponent = e + (digitsOf n).length - 1 := rfl
    omega

/-- The digits of a number, with any zeros after them, stand for it. -/
lemma ofDecimal_of_standsFor {whole fraction : List Nat} {exponent : Option (Char × List Nat)}
    {n : Nat} (hn : n ≠ 0) {e : Int} (h : StandsFor whole fraction exponent (.ofNat n e))
    (negative : Bool) :
    ofDecimal negative (ofDigits (whole ++ fraction)) (exponentValue exponent - fraction.length) =
      ofDecimal negative n e := by
  obtain ⟨added, hdigits, hexponent⟩ := h
  obtain ⟨dropped, hwhole, hplace⟩ := exists_ofDigits_ofNat n e
  have hne : ofDigits (Digits.ofNat n e).digits ≠ 0 := by
    intro hzero
    rw [hzero, Nat.zero_mul] at hwhole
    exact hn hwhole
  generalize ofDigits (Digits.ofNat n e).digits = m at hdigits hwhole hne
  rw [hdigits, hexponent, hplace, ofDecimal_mul_pow negative hne, hwhole]
  have hmoved := ofDecimal_mul_pow negative hne dropped (e + dropped)
  rw [Int.add_sub_cancel] at hmoved
  exact hmoved.symm

/-! ### Size -/

lemma decimalFraction_snd_pos (n : Nat) (e : Int) : 0 < (decimalFraction n e).2 := by
  unfold decimalFraction
  split
  · exact Nat.one_pos
  · exact Nat.pow_pos (by decide)

/-- A decimal whose first digit is so many places after the point is below that power of ten. -/
lemma decimalFraction_lt {n : Nat} (hn : n ≠ 0) {e : Int} {m : Nat}
    (h : ((digitsOf n).length : Int) + e ≤ -m) :
    (decimalFraction n e).1 * 10 ^ m < 2 ^ 1074 * (decimalFraction n e).2 := by
  obtain ⟨-, hhigh⟩ := length_digitsOf_bounds hn
  have hlen : 0 < (digitsOf n).length := List.length_pos_iff.mpr (digitsOf_spec n).1
  have hpow : 10 ^ (digitsOf n).length * 10 ^ m ≤ 10 ^ (-e).toNat := by
    rw [← Nat.pow_add]
    exact Nat.pow_le_pow_right (by decide) (by omega)
  have hless : n * 10 ^ m < 10 ^ (-e).toNat :=
    (Nat.mul_lt_mul_of_pos_right hhigh (Nat.pow_pos (by decide))).trans_le hpow
  have hunit : 0 < 2 ^ 1074 := Nat.two_pow_pos 1074
  rw [decimalFraction, if_neg (by omega)]
  dsimp only
  generalize 2 ^ 1074 = u at hunit ⊢
  rw [Nat.mul_right_comm, Nat.mul_comm]
  exact Nat.mul_lt_mul_of_pos_left hless hunit

/-- A decimal of more places before the point is not below that power of ten. -/
lemma le_decimalFraction {n : Nat} (hn : n ≠ 0) {e : Int} {m : Nat}
    (h : m < ((digitsOf n).length : Int) + e) :
    10 ^ m * 2 ^ 1074 * (decimalFraction n e).2 ≤ (decimalFraction n e).1 := by
  obtain ⟨hlow, -⟩ := length_digitsOf_bounds hn
  have hlen : 0 < (digitsOf n).length := List.length_pos_iff.mpr (digitsOf_spec n).1
  unfold decimalFraction
  split
  · have hpow : 10 ^ m ≤ 10 ^ ((digitsOf n).length - 1) * 10 ^ e.toNat := by
      rw [← Nat.pow_add]
      exact Nat.pow_le_pow_right (by decide) (by omega)
    rw [Nat.mul_one]
    exact Nat.mul_le_mul_right _ (hpow.trans (Nat.mul_le_mul_right _ hlow))
  · have hpow : 10 ^ m * 10 ^ (-e).toNat ≤ 10 ^ ((digitsOf n).length - 1) := by
      rw [← Nat.pow_add]
      exact Nat.pow_le_pow_right (by decide) (by omega)
    rw [Nat.mul_right_comm]
    exact Nat.mul_le_mul_right _ (hpow.trans hlow)

/-- A decimal that reads back to a number is of a size that is looked at. -/
lemma size_of_readsBack {units n : Nat} {e : Int} (hunits : units ≠ 0) (hlt : units < 2 ^ 2098)
    (hn : n ≠ 0) (h : readsBack .double units n e = true) :
    -400 ≤ ((digitsOf n).length : Int) + e ∧ ((digitsOf n).length : Int) + e ≤ 400 := by
  have hround : Format.double.round (decimalFraction n e).1 (decimalFraction n e).2 = units :=
    beq_iff_eq.mp h
  have hden := decimalFraction_snd_pos n e
  obtain ⟨hhalf, habove⟩ := round_bounds hden (by rwa [hround])
  rw [hround] at habove
  have hsmall : 2 * 2 ^ 1074 < 10 ^ 401 := by decide +kernel
  have hlarge : 3 * 2 ^ 2098 < 2 * (10 ^ 400 * 2 ^ 1074) := by decide +kernel
  refine ⟨Int.not_lt.mp fun hless => ?_, Int.not_lt.mp fun hmore => ?_⟩
  · have hbelow := decimalFraction_lt hn (m := 401) (Int.le_sub_one_of_lt hless)
    generalize (decimalFraction n e).1 = num, (decimalFraction n e).2 = den,
      2 ^ 1074 = u, 10 ^ 401 = p at hbelow hhalf hsmall
    have hself : num * p < num * p := calc
      num * p < u * den := hbelow
      _ ≤ u * (2 * num) := Nat.mul_le_mul_left _ hhalf
      _ = 2 * u * num := by ring
      _ ≤ p * num := Nat.mul_le_mul_right _ hsmall.le
      _ = num * p := Nat.mul_comm ..
    exact lt_irrefl _ hself
  · have hbeyond := le_decimalFraction hn (m := 400) hmore
    generalize (decimalFraction n e).1 = num, (decimalFraction n e).2 = den,
      10 ^ 400 * 2 ^ 1074 = p, 2 ^ 2098 = top at hden hbeyond habove hlarge hlt
    have hself : 2 * p * den < 2 * p * den := calc
      2 * p * den = 2 * (p * den) := Nat.mul_assoc ..
      _ ≤ 2 * num := Nat.mul_le_mul_left _ hbeyond
      _ ≤ 3 * (units * den) := habove
      _ = 3 * units * den := (Nat.mul_assoc ..).symm
      _ ≤ 3 * top * den := Nat.mul_le_mul_right _ (Nat.mul_le_mul_left _ hlt.le)
      _ < 2 * p * den := Nat.mul_lt_mul_of_pos_right hlarge hden
    exact lt_irrefl _ hself

/-- A quotient that rounds to a number of the format is that number. -/
lemma ofUnits_of_round (negative : Bool) {num den units : Nat} (h : Fits units)
    (hround : Format.double.round num den = units) :
    Binary64.ofUnits negative num den = .finite negative units h := by
  subst hround
  have htop : Format.double.top = 2098 := rfl
  have hin : Format.double.round num den < 2 ^ Format.double.top := by
    rw [htop]
    exact h.1
  rw [Binary64.ofUnits, Binary64.roundTo, dif_pos ⟨hin, h⟩]

/-- A decimal that reads back to a number stands for it. -/
lemma ofDecimal_of_readsBack (negative : Bool) {units n : Nat} {e : Int} (h : Fits units)
    (hunits : units ≠ 0) (hn : n ≠ 0) (hback : readsBack .double units n e = true) :
    ofDecimal negative n e = .finite negative units h := by
  obtain ⟨hlow, hhigh⟩ := size_of_readsBack hunits h.1 hn hback
  have hround : Format.double.round (decimalFraction n e).1 (decimalFraction n e).2 = units :=
    beq_iff_eq.mp hback
  unfold ofDecimal
  dsimp only
  rw [if_neg (by simp [hn, hlow]), if_neg (by omega)]
  exact ofUnits_of_round negative h hround

lemma round_exact {units : Nat} (h : Fits units) (k : Nat) :
    Format.double.round (units * 5 ^ k * 2 ^ k) (10 ^ k) = units := by
  have hscale := round_scale .double units 1 (Nat.pow_pos (n := k) (show 0 < 10 by decide))
  rw [Nat.one_mul, round_of_fits h] at hscale
  rwa [Nat.mul_assoc, ← Nat.mul_pow]

/-- The exact value of a number reads back to it. -/
lemma readsBack_exact {units : Nat} (h : Fits units) :
    readsBack .double units (units * 5 ^ 1074) (-1074) = true := by
  have hneg : ¬ (0 : Int) ≤ -1074 := by decide
  have hpower : (-(-1074) : Int).toNat = 1074 := rfl
  rw [readsBack, decimalFraction, if_neg hneg, hpower]
  exact beq_iff_eq.mpr (round_exact h 1074)

/-- **Digits**: the digits that a number is written with, and any zeros after them, stand for it. -/
theorem ofDecimal_digitsIn (negative : Bool) {units : Nat} (h : Fits units)
    {whole fraction : List Nat} {exponent : Option (Char × List Nat)}
    (hstands : StandsFor whole fraction exponent (digitsIn .double units)) :
    ofDecimal negative (ofDigits (whole ++ fraction)) (exponentValue exponent - fraction.length) =
      .finite negative units h := by
  unfold digitsIn at hstands
  split at hstands
  · rename_i hzero
    subst hzero
    obtain ⟨zeros, hdigits, -⟩ := hstands
    have hnone : ofDigits (whole ++ fraction) = 0 := hdigits.trans (Nat.zero_mul _)
    rw [hnone, ofDecimal, if_pos (.inl rfl)]
    exact ofUnits_of_round negative h (round_of_fits h)
  · rename_i hunits
    obtain ⟨n, e, hn, hdigits, hback⟩ := exists_ofNat_of_shortestDigits .double hunits
    rw [hdigits] at hstands
    rw [ofDecimal_of_standsFor hn hstands]
    refine ofDecimal_of_readsBack negative h hunits hn ?_
    rcases hback with hback | ⟨hn', he⟩
    · exact hback
    · rw [hn', he]
      exact readsBack_exact h

end Number

end NearDoc
