import Mathlib.Data.List.DropRight
import NearDoc.Proofs.Number.Numeral

/-!
The shortest digits of a number. Main statement: they start with a digit other than zero, unless
they are those of zero, so that the text of a number is a numeral with a point or an exponent.
-/

namespace NearDoc

namespace Text

/-- The first digit of a positive number is not zero. -/
lemma exists_digitsOf_cons {n : Nat} (hn : n ≠ 0) : ∃ d ds, digitsOf n = d :: ds ∧ d ≠ 0 := by
  induction n using Nat.strongRecOn with
  | _ n ih =>
  by_cases hlt : n < 10
  · exact ⟨n, [], digitsOf_of_lt hlt, hn⟩
  · obtain ⟨d, ds, heq, hd⟩ := ih (n / 10) (by omega) (by omega)
    rw [digitsOf_of_le (by omega), heq]
    exact ⟨d, _, rfl, hd⟩

end Text

namespace Number

open Text

/-- Decimal digits without zeros in front, or the single digit zero. -/
def LeadsOff (ds : List Nat) : Prop :=
  (∀ d ∈ ds, d < 10) ∧ (ds = [0] ∨ ∃ d ds', ds = d :: ds' ∧ d ≠ 0)

lemma leadsOff_digitsOf (n : Nat) : LeadsOff (digitsOf n) := by
  refine ⟨(digitsOf_spec n).2.1, ?_⟩
  by_cases hn : n = 0
  · subst hn
    exact .inl (digitsOf_of_lt (by decide))
  · exact .inr (exists_digitsOf_cons hn)

/-- The digits of a number other than zero, which those at the end do not matter for. -/
lemma digits_ofNat {n : Nat} (hn : n ≠ 0) (exponent : Int) :
    (∀ d ∈ (Digits.ofNat n exponent).digits, d < 10) ∧
      ∃ d ds, (Digits.ofNat n exponent).digits = d :: ds ∧ d ≠ 0 := by
  obtain ⟨d, ds, heq, hd⟩ := exists_digitsOf_cons hn
  have hfront : (Digits.ofNat n exponent).digits <+: digitsOf n :=
    List.rdropWhile_prefix (· == 0) (digitsOf n)
  refine ⟨fun x hx => (digitsOf_spec n).2.1 x (hfront.subset hx), ?_⟩
  rcases hdigits : (Digits.ofNat n exponent).digits with _ | ⟨d', ds'⟩
  · have hall := List.rdropWhile_eq_nil_iff.mp hdigits d (by simp [heq])
    simp at hall
    exact absurd hall hd
  · rw [hdigits, heq, List.cons_prefix_cons] at hfront
    exact ⟨d', ds', rfl, hfront.1 ▸ hd⟩

lemma exists_ofNat_of_digitsOfLength? {f : Format} {units : Nat} (hu : units ≠ 0) {leading : Int}
    {length : Nat} {d : Digits} (h : digitsOfLength? f units leading length = some d) :
    ∃ n exponent, n ≠ 0 ∧ d = .ofNat n exponent ∧ readsBack f units n exponent = true := by
  obtain ⟨n, hfind, rfl⟩ := Option.map_eq_some_iff.mp h
  have hback := List.find?_some hfind
  refine ⟨n, _, ?_, rfl, hback⟩
  rintro rfl
  have hzero : ∀ den, f.round 0 den = 0 := fun den => by
    simp [Format.round, roundDiv]
  simp only [readsBack, decimalFraction] at hback
  split at hback <;> simp only [Nat.zero_mul, hzero, beq_iff_eq] at hback <;> exact hu hback.symm

/-- The shortest digits read back, unless they are those of the exact value. -/
lemma exists_ofNat_of_shortestDigits (f : Format) {units : Nat} (hu : units ≠ 0) :
    ∃ n exponent, n ≠ 0 ∧ shortestDigits f units = .ofNat n exponent ∧
      (readsBack f units n exponent = true ∨ n = units * 5 ^ 1074 ∧ exponent = -1074) := by
  unfold shortestDigits
  dsimp only
  split
  · rename_i d hd
    obtain ⟨length, -, hlength⟩ := List.exists_of_findSome?_eq_some hd
    obtain ⟨n, exponent, hn, hd, hback⟩ := exists_ofNat_of_digitsOfLength? hu hlength
    exact ⟨n, exponent, hn, hd, .inl hback⟩
  · exact ⟨_, _, Nat.mul_ne_zero hu (Nat.ne_of_gt (Nat.pow_pos (by decide))), rfl, .inr ⟨rfl, rfl⟩⟩

/-- The digits that a count of units is written with. -/
lemma digitsIn_spec (f : Format) (units : Nat) :
    (digitsIn f units).digits ≠ [] ∧ (∀ d ∈ (digitsIn f units).digits, d < 10) ∧
      (digitsIn f units = .zero ∨ ∃ d ds, (digitsIn f units).digits = d :: ds ∧ d ≠ 0) := by
  unfold digitsIn
  split
  · exact ⟨by simp [Digits.zero], by simp [Digits.zero], .inl rfl⟩
  · rename_i hu
    obtain ⟨n, exponent, hn, hd, -⟩ := exists_ofNat_of_shortestDigits f hu
    obtain ⟨hlt, d, ds, hcons, hne⟩ := digits_ofNat hn exponent
    rw [hd]
    exact ⟨by simp [hcons], hlt, .inr ⟨d, ds, hcons, hne⟩⟩

/-- A numeral with a point or an exponent, from its digits before and after the point and the sign
and the digits of its exponent. -/
def numeral (whole fraction : List Nat) (exponent : Option (Char × List Nat)) : List Char :=
  whole.map digitChar ++ (if fraction = [] then [] else '.' :: fraction.map digitChar) ++
    exponent.elim [] fun e => 'e' :: e.1 :: e.2.map digitChar

/-- The digits of a numeral: a point or an exponent is there. -/
structure IsNumeral (whole fraction : List Nat) (exponent : Option (Char × List Nat)) : Prop where
  leads : LeadsOff whole
  fraction_lt : ∀ d ∈ fraction, d < 10
  sign : ∀ e ∈ exponent, e.1 = '+' ∨ e.1 = '-'
  exponent_ne : ∀ e ∈ exponent, e.2 ≠ []
  exponent_lt : ∀ e ∈ exponent, ∀ d ∈ e.2, d < 10
  real : fraction ≠ [] ∨ exponent ≠ none

/-- The number that an exponent stands for. -/
def exponentValue (exponent : Option (Char × List Nat)) : Int :=
  exponent.elim 0 fun e => if e.1 = '-' then -(ofDigits e.2 : Int) else ofDigits e.2

/-- The digits of a numeral are some others and zeros after them, and stand where those do. -/
def StandsFor (whole fraction : List Nat) (exponent : Option (Char × List Nat)) (d : Digits) :
    Prop :=
  ∃ zeros : Nat, ofDigits (whole ++ fraction) = ofDigits d.digits * 10 ^ zeros ∧
    exponentValue exponent - fraction.length = d.exponent + 1 - d.digits.length - zeros

lemma writeExponent_eq (e : Int) : ∃ c ds, writeExponent e = 'e' :: c :: ds.map digitChar ∧
    (c = '+' ∨ c = '-') ∧ ds ≠ [] ∧ (∀ d ∈ ds, d < 10) ∧ exponentValue (some (c, ds)) = e := by
  obtain ⟨hne, hlt, hof⟩ := digitsOf_spec e.natAbs
  refine ⟨if e < 0 then '-' else '+',
    List.replicate (2 - (digitsOf e.natAbs).length) 0 ++ digitsOf e.natAbs, ?_, ?_, ?_, ?_, ?_⟩
  · simp [writeExponent, writeExponentIn, digitChar]
  · split <;> simp
  · simp [hne]
  · intro d hd
    rcases List.mem_append.mp hd with hd | hd
    · rw [List.eq_of_mem_replicate hd]
      decide
    · exact hlt d hd
  · have hvalue : ofDigits (List.replicate (2 - (digitsOf e.natAbs).length) 0 ++
        digitsOf e.natAbs) = e.natAbs := by
      rw [ofDigits_append, ofDigits_zeros, Nat.zero_mul, Nat.zero_add, hof]
    by_cases he : e < 0
    · simp only [exponentValue, Option.elim_some, he, if_true, hvalue]
      omega
    · simp only [exponentValue, Option.elim_some, he, if_false, hvalue]
      simp only [Char.reduceEq, if_false]
      omega

lemma numeral_writeScientific {d : Digits} (hne : d.digits ≠ []) (hlt : ∀ x ∈ d.digits, x < 10) :
    ∃ whole fraction exponent, d.writeScientific = numeral whole fraction exponent ∧
      IsNumeral whole fraction exponent ∧ StandsFor whole fraction exponent d := by
  obtain ⟨c, ds, hexp, hsign, hds, hdslt, hvalue⟩ := writeExponent_eq d.exponent
  obtain ⟨x, xs, hx⟩ := List.exists_cons_of_ne_nil hne
  rw [hx, List.forall_mem_cons] at hlt
  refine ⟨[x], xs, some (c, ds), ?_, ⟨⟨by simpa using hlt.1, ?_⟩, hlt.2, by simpa, by simpa,
    by simpa, by simp⟩, 0, ?_, ?_⟩
  · rcases xs with _ | ⟨y, ys⟩ <;> simp [Digits.writeScientific, hx, hexp, numeral]
  · by_cases h : x = 0
    · exact .inl (by rw [h])
    · exact .inr ⟨x, [], rfl, h⟩
  · simp [hx]
  · rw [hvalue, hx, List.length_cons]
    omega

lemma numeral_writePositional {d : Digits} (hne : d.digits ≠ []) (hlt : ∀ x ∈ d.digits, x < 10)
    (hfirst : d = .zero ∨ ∃ x xs, d.digits = x :: xs ∧ x ≠ 0) :
    ∃ whole fraction exponent, d.writePositional ['.', '0'] = numeral whole fraction exponent ∧
      IsNumeral whole fraction exponent ∧ StandsFor whole fraction exponent d := by
  by_cases hneg : d.exponent < 0
  · refine ⟨[0], List.replicate (-d.exponent - 1).toNat 0 ++ d.digits, none, ?_,
      ⟨⟨by simp, .inl rfl⟩, ?_, by simp, by simp, by simp, by simp [hne]⟩, 0, ?_, ?_⟩
    · simp [Digits.writePositional, Digits.sides, hneg, numeral, hne, digitChar]
    · intro x hx
      rcases List.mem_append.mp hx with hx | hx
      · rw [List.eq_of_mem_replicate hx]
        decide
      · exact hlt x hx
    · rw [ofDigits_append, ofDigits_append, ofDigits_zeros]
      simp [ofDigits]
    · simp only [exponentValue, Option.elim_none, List.length_append, List.length_replicate]
      omega
  · obtain ⟨w, hw⟩ : ∃ w, (d.exponent + 1).toNat = w + 1 := ⟨d.exponent.toNat, by omega⟩
    have hleads : LeadsOff (d.digits.take (w + 1) ++
        List.replicate (w + 1 - d.digits.length) 0) := by
      refine ⟨fun x hx => ?_, ?_⟩
      · rcases List.mem_append.mp hx with hx | hx
        · exact hlt x (List.mem_of_mem_take hx)
        · rw [List.eq_of_mem_replicate hx]
          decide
      · rcases hfirst with rfl | ⟨x, xs, hx, hx0⟩
        · obtain rfl : w = 0 := by simpa [Digits.zero] using hw.symm
          exact .inl rfl
        · exact .inr ⟨x, xs.take w ++ List.replicate (w - xs.length) 0, by simp [hx], hx0⟩
    by_cases hdrop : d.digits.drop (w + 1) = []
    · have hlen : d.digits.length ≤ w + 1 := List.drop_eq_nil_iff.mp hdrop
      refine ⟨_, [0], none, ?_, ⟨hleads, by simp, by simp, by simp, by simp, by simp⟩,
        w + 1 - d.digits.length + 1, ?_, ?_⟩
      · simp [Digits.writePositional, Digits.sides, hneg, hw, numeral, hdrop, digitChar,
          ← List.map_drop, ← List.map_take]
      · rw [List.take_of_length_le hlen, List.append_assoc, ← List.replicate_succ',
          ofDigits_append, ofDigits_zeros, List.length_replicate, Nat.add_zero]
      · simp only [exponentValue, Option.elim_none, List.length_singleton]
        omega
    · have hlen : w + 1 < d.digits.length := by simpa using hdrop
      refine ⟨_, d.digits.drop (w + 1), none, ?_, ⟨hleads,
        fun x hx => hlt x (List.mem_of_mem_drop hx), by simp, by simp, by simp, .inl hdrop⟩,
        0, ?_, ?_⟩
      · simp [Digits.writePositional, Digits.sides, hneg, hw, numeral, hdrop, digitChar,
          ← List.map_drop, ← List.map_take]
      · simp [Nat.sub_eq_zero_of_le hlen.le]
      · simp only [exponentValue, Option.elim_none, List.length_drop]
        omega

/-- The text of a count of units is a numeral, and has its digits. -/
theorem exists_numeral (units : Nat) :
    ∃ whole fraction exponent,
      fullLayout.write (digitsIn .double units) = numeral whole fraction exponent ∧
        IsNumeral whole fraction exponent ∧
        StandsFor whole fraction exponent (digitsIn .double units) := by
  obtain ⟨hne, hlt, hfirst⟩ := digitsIn_spec .double units
  unfold Layout.write
  split
  · exact numeral_writeScientific hne hlt
  · exact numeral_writePositional hne hlt hfirst

end Number

end NearDoc
