/-!
Rounding a quotient to the nearest integer and to the nearest number of a binary format. Ties go
to the even neighbour.
-/

namespace NearDoc

-- A power of integers is the same term in every module, whichever instances its imports add.
attribute [scoped instance (2000), default_instance 10001] instPowNat

end NearDoc

namespace NearDoc.Number

/-- The integer nearest to `num / den`; a half goes to the even neighbour. -/
def roundDiv (num den : Nat) : Nat :=
  let q := num / den
  let r := num % den
  if den < 2 * r ∨ (2 * r = den ∧ q % 2 = 1) then q + 1 else q

/-- A quotient that is a whole number is kept. -/
theorem roundDiv_mul (n : Nat) {den : Nat} (h : 0 < den) : roundDiv (n * den) den = n := by
  simp [roundDiv, Nat.mul_div_cancel _ h]
  omega

/-- Rounding moves a quotient by half at most. -/
theorem roundDiv_near (num : Nat) {den : Nat} (h : 0 < den) :
    2 * num ≤ 2 * (roundDiv num den * den) + den ∧
      2 * (roundDiv num den * den) ≤ 2 * num + den := by
  have hm := Nat.div_add_mod' num den
  have hl := Nat.mod_lt num h
  simp only [roundDiv]
  split
  · rw [Nat.add_mul, Nat.one_mul]
    omega
  · omega

/-- How many binary digits a number has; zero has none. -/
def bitLength (n : Nat) : Nat := if n = 0 then 0 else n.log2 + 1

theorem lt_two_pow_bitLength (n : Nat) : n < 2 ^ bitLength n := by
  unfold bitLength
  split
  · omega
  · exact Nat.lt_log2_self

/-- The integer square root, by one binary digit at a time below `2 ^ bits`. -/
def sqrtBelow (n : Nat) : Nat → Nat → Nat
  | 0, root => root
  | bits + 1, root =>
    let next := root + 2 ^ bits
    sqrtBelow n bits (if next * next ≤ n then next else root)

def sqrtFloor (n : Nat) : Nat := sqrtBelow n (bitLength n / 2 + 1) 0

theorem sqrtBelow_bounds (n : Nat) : ∀ (bits root : Nat), root * root ≤ n →
    n < (root + 2 ^ bits) * (root + 2 ^ bits) →
    sqrtBelow n bits root * sqrtBelow n bits root ≤ n ∧
      n < (sqrtBelow n bits root + 1) * (sqrtBelow n bits root + 1)
  | 0, root, hl, hu => ⟨hl, by simpa [sqrtBelow] using hu⟩
  | bits + 1, root, hl, hu => by
    simp only [sqrtBelow]
    split
    case isTrue h =>
      refine sqrtBelow_bounds n bits _ h ?_
      rwa [Nat.add_assoc, ← Nat.two_mul, ← Nat.pow_succ']
    case isFalse h => exact sqrtBelow_bounds n bits _ hl (by omega)

theorem sqrtFloor_bounds (n : Nat) :
    sqrtFloor n * sqrtFloor n ≤ n ∧ n < (sqrtFloor n + 1) * (sqrtFloor n + 1) := by
  refine sqrtBelow_bounds n _ 0 (by simp) ?_
  have h : n < 2 ^ bitLength n := lt_two_pow_bitLength n
  have hp : 2 ^ bitLength n ≤ 2 ^ (bitLength n / 2 + 1 + (bitLength n / 2 + 1)) :=
    Nat.pow_le_pow_right (by decide) (by omega)
  rw [Nat.pow_add] at hp
  simpa using Nat.lt_of_lt_of_le h hp

/-- A binary format counts in units of `2 ^ -1074`: its numbers are the multiples of `2 ^ least`
with at most `precision` significant bits that stay below `2 ^ top`. -/
structure Format where
  precision : Nat
  least : Nat
  top : Nat
  deriving DecidableEq

/-- How many decimal digits every number of the format can hold. -/
def Format.decimals (f : Format) : Nat := (f.precision - 1) * 30103 / 100000

def Format.double : Format := ⟨53, 0, 2098⟩

def Format.single : Format := ⟨24, 925, 1202⟩

def Format.half : Format := ⟨11, 1050, 1090⟩

/-- The number of the format nearest to `num / den` units, with no bound above. -/
def Format.round (f : Format) (num den : Nat) : Nat :=
  let e := max f.least (bitLength (num / den) - f.precision)
  roundDiv num (den * 2 ^ e) * 2 ^ e

end NearDoc.Number
