import NearDoc.Text.Digit
import NearDoc.Number.Binary64

/-!
Decimal text of binary64 numbers: the fewest digits that read back to the same number, a fixed
count of significant digits, and the layout of digits with a point or an exponent.
-/

namespace NearDoc.Number

open Text

/-- `digits * 10 ^ exponent` as a fraction of units. -/
def decimalFraction (digits : Nat) (exponent : Int) : Nat × Nat :=
  if 0 ≤ exponent then (digits * 10 ^ exponent.toNat * 2 ^ 1074, 1)
  else (digits * 2 ^ 1074, 10 ^ (-exponent).toNat)

/-- The number nearest to `digits * 10 ^ exponent`. Exponents far outside the range are answered
without computing the power. -/
def ofDecimal (negative : Bool) (digits : Nat) (exponent : Int) : Binary64 :=
  let size := (digitsOf digits).length + exponent
  if digits = 0 ∨ size < -400 then .ofUnits negative 0 1
  else if 400 < size then .infinite negative
  else
    let (num, den) := decimalFraction digits exponent
    .ofUnits negative num den

/-- Significant digits, the first of them not zero, and the power of ten of the first. -/
structure Digits where
  digits : List Nat
  exponent : Int
  deriving Repr

/-- Digits of `n * 10 ^ exponent` without the zeros at the end. -/
def Digits.ofNat (n : Nat) (exponent : Int) : Digits :=
  let ds := digitsOf n
  ⟨(ds.reverse.dropWhile (· == 0)).reverse, exponent + ds.length - 1⟩

/-- `10 ^ exponent` is at most the count of units. -/
def reaches (exponent : Int) (units : Nat) : Bool :=
  let (num, den) := decimalFraction 1 exponent
  num ≤ units * den

/-- The greatest power of ten that a count of units reaches, from one that it reaches and at most
so many steps up. -/
def climb (units : Nat) : Nat → Int → Int
  | 0, exponent => exponent
  | steps + 1, exponent =>
    if reaches (exponent + 1) units then climb units steps (exponent + 1) else exponent

/-- The power of ten of the leading digit of a positive count of units. The binary digits give it
but for three steps. -/
def leadingExponent (units : Nat) : Int :=
  climb units 3 (((bitLength units : Int) - 1075) * 30103 / 100000 - 1)

def inPowersOfTen (units : Nat) (exponent : Int) : Nat × Nat :=
  if 0 ≤ exponent then (units, 2 ^ 1074 * 10 ^ exponent.toNat)
  else (units * 10 ^ (-exponent).toNat, 2 ^ 1074)

def readsBack (f : Format) (units digits : Nat) (exponent : Int) : Bool :=
  let (num, den) := decimalFraction digits exponent
  f.round num den == units

/-- The digit string of the given length nearest to a count of units among those that read back;
of two at the same distance the even one. `leading` is the power of ten of the first digit. -/
def digitsOfLength? (f : Format) (units : Nat) (leading : Int) (length : Nat) : Option Digits :=
  let exponent := leading - length + 1
  let (num, den) := inPowersOfTen units exponent
  let below := num / den
  let above := below + 1
  let nearer := if roundDiv num den = below then [below, above] else [above, below]
  (nearer.find? (readsBack f units · exponent)).map (Digits.ofNat · exponent)

/-- The fewest digits that read back. Should none of up to seventeen do, the exact value is
written. -/
def shortestDigits (f : Format) (units : Nat) : Digits :=
  let leading := leadingExponent units
  match (List.range 17).findSome? fun n => digitsOfLength? f units leading (n + 1) with
  | some d => d
  | none => .ofNat (units * 5 ^ 1074) (-1074)

def roundedDigits (units length : Nat) : Digits :=
  let exponent := leadingExponent units - length + 1
  let (num, den) := inPowersOfTen units exponent
  .ofNat (roundDiv num den) exponent

/-- From which exponent on a number is written with an exponent, and whether a whole number keeps
its point. -/
structure Layout where
  positionalBelow : Int
  keepsPoint : Bool

/-- An exponent with a sign and at least so many digits. -/
def writeExponentIn (width : Nat) (e : Int) : List Char :=
  let ds := (digitsOf e.natAbs).map digitChar
  'e' :: (if e < 0 then '-' else '+') :: List.replicate (width - ds.length) '0' ++ ds

def writeExponent (e : Int) : List Char := writeExponentIn 2 e

/-- One digit before the point, which stands only before other digits, and an exponent. -/
def Digits.writeScientific (d : Digits) : List Char :=
  match d.digits.map digitChar with
  | [] => []
  | [c] => c :: writeExponent d.exponent
  | c :: cs => c :: '.' :: cs ++ writeExponent d.exponent

def Digits.sides (d : Digits) : List Char × List Char :=
  let ds := d.digits.map digitChar
  if d.exponent < 0 then (['0'], List.replicate (-d.exponent - 1).toNat '0' ++ ds)
  else
    let whole := (d.exponent + 1).toNat
    (ds.take whole ++ List.replicate (whole - ds.length) '0', ds.drop whole)

/-- No exponent; a whole number ends as given. -/
def Digits.writePositional (d : Digits) (wholeEnd : List Char) : List Char :=
  match d.sides with
  | (whole, []) => whole ++ wholeEnd
  | (whole, fraction) => whole ++ '.' :: fraction

def Layout.write (layout : Layout) (d : Digits) : List Char :=
  if d.exponent < -4 || layout.positionalBelow ≤ d.exponent then d.writeScientific
  else d.writePositional (if layout.keepsPoint then ['.', '0'] else [])

/-- Numbers in full: positional below `1e16`, and always recognisable as no integer. -/
def fullLayout : Layout := ⟨16, true⟩

/-- Six significant digits: positional below `1e6`, whole numbers without a point. -/
def shortLayout : Layout := ⟨6, false⟩

def Digits.zero : Digits := ⟨[0], 0⟩

def writeWith (magnitude : Nat → List Char) : Binary64 → List Char
  | .nan _ => ['n', 'a', 'n']
  | .infinite n => (if n then ['-'] else []) ++ ['i', 'n', 'f']
  | .finite n units _ => (if n then ['-'] else []) ++ magnitude units

/-- The fewest digits that read back to a count of units, which may be zero. -/
def digitsIn (f : Format) (units : Nat) : Digits :=
  if units = 0 then .zero else shortestDigits f units

def writeReal (x : Binary64) : List Char :=
  writeWith (fun units => fullLayout.write (digitsIn .double units)) x

/-- The power of ten from which on a number of a format has an exponent: binary64 has sixteen digits
before the point at most, a narrower format those it can hold. -/
def exponentFrom (f : Format) : Nat := if f = .double then 16 else f.decimals

/-- The shortest text that reads back to the number in a format: positional from `1e-4` on and below
`exponentFrom`. A whole number ends as given. -/
def writeIn (f : Format) (wholeEnd : List Char) (x : Binary64) : List Char :=
  writeWith (fun units =>
    let d := digitsIn f units
    if units = 0 || (reaches (-4) units && !reaches (exponentFrom f) units) then
      d.writePositional wholeEnd
    else d.writeScientific) x

def writeNarrow (f : Format) (x : Binary64) : List Char := writeIn f ['.', '0'] x

def writeShort (x : Binary64) : List Char :=
  writeWith (fun units =>
    shortLayout.write (if units = 0 then .zero else roundedDigits units 6)) x

def writeInt (i : Int) : List Char :=
  (if i < 0 then ['-'] else []) ++ (digitsOf i.natAbs).map digitChar

end NearDoc.Number
