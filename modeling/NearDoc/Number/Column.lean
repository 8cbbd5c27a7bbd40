import NearDoc.Number.Decimal

/-!
Columns of numbers: reals written in one notation, with their points under each other. At most
eight digits follow a point. A column has exponents when a number in it is very large or very
small, or when two of them differ by more than a factor of a thousand.
-/

namespace NearDoc.Number

open Text

namespace Column

/-- No more digits than this follow a point. -/
def mostPlaces : Nat := 8

/-- The shortest digits, rounded where more than `mostPlaces` would follow the point. -/
def positionalDigits (f : Format) (units : Nat) : Digits :=
  let d := digitsIn f units
  if d.sides.2.length ≤ mostPlaces then d
  else roundedDigits units (leadingExponent units + 1 + mostPlaces).toNat

/-- The shortest digits, rounded where more than `mostPlaces` would follow the first. -/
def scientificDigits (f : Format) (units : Nat) : Digits :=
  let d := digitsIn f units
  if d.digits.length ≤ mostPlaces + 1 then d else roundedDigits units (mostPlaces + 1)

/-- So many digits after the first: the nearest that read back. Where none of that length do, the
number is rounded. -/
def filledDigits (f : Format) (places units : Nat) : Digits :=
  if units = 0 then .zero
  else
    let length := places + 1
    (digitsOfLength? f units (leadingExponent units) length).getD (roundedDigits units length)

/-- Whether magnitudes that are not zero ask for exponents. -/
def asksForExponents (f : Format) : List Nat → Bool
  | [] => false
  | m :: ms =>
    let largest := ms.foldl max m
    let smallest := ms.foldl min m
    let (num, den) := decimalFraction 1 (-4)
    reaches (min mostPlaces f.decimals : Nat) largest || smallest < f.round num den ||
      1000 * 2 ^ 1074 < f.round (largest * 2 ^ 1074) smallest

/-- A number of a column in parts: sign and digits before the point, digits after it, and an
exponent if the column has them. -/
structure Cell where
  whole : List Char
  fraction : List Char
  exponent? : Option Int

def Cell.positional (f : Format) (negative : Bool) (units : Nat) : Cell :=
  let (whole, fraction) := (positionalDigits f units).sides
  ⟨(if negative then ['-'] else []) ++ whole, fraction, none⟩

def Cell.scientific (negative : Bool) (d : Digits) : Cell :=
  let ds := d.digits.map digitChar
  ⟨(if negative then ['-'] else []) ++ ds.take 1, ds.drop 1, some d.exponent⟩

/-- The point and what follows it. All fractions before an exponent are filled up to one length,
and so are the exponents. -/
def Cell.fromPoint (places exponentDigits : Nat) (e : Cell) : List Char :=
  match e.exponent? with
  | none => '.' :: e.fraction
  | some x => '.' :: e.fraction ++ List.replicate (places - e.fraction.length) '0' ++
      writeExponentIn exponentDigits x

def widest (lengths : List Nat) : Nat := lengths.foldl max 0

/-- The units of a finite number that is not zero. -/
def magnitude? : Binary64 → Option Nat
  | .finite _ units _ => if units = 0 then none else some units
  | _ => none

/-- The parts of the finite numbers, given those of a sign and a count of units. -/
def cell? (cell : Bool → Nat → Cell) : Binary64 → Option Cell
  | .finite negative units _ => some (cell negative units)
  | _ => none

def isNegativeInfinity : Binary64 → Bool
  | .infinite negative => negative
  | _ => false

/-- The texts of numbers as they stand in one column, from their parts. Numbers that are not finite
take the width of the others. -/
def align (f : Format) (places exponentDigits : Nat) (cell : Bool → Nat → Cell)
    (xs : List Binary64) : List String :=
  let cells := xs.filterMap (cell? cell)
  let right := max 1 (widest (cells.map fun e => (e.fromPoint places exponentDigits).length))
  let left := widest (cells.map (·.whole.length))
  let left :=
    if xs.all Binary64.isFinite then left
    else max left ((if xs.any isNegativeInfinity then 4 else 3) - right)
  xs.map fun x =>
    match cell? cell x with
    | some e =>
      let point := e.fromPoint places exponentDigits
      String.ofList (List.replicate (left - e.whole.length) ' ' ++ e.whole ++ point ++
        List.replicate (right - point.length) ' ')
    | none =>
      let name := writeNarrow f x
      String.ofList (List.replicate (left + right - name.length) ' ' ++ name)

/-- Exponents have the digits of the longest, and at least two. -/
def exponentWidth (cells : List Cell) : Nat :=
  widest (2 :: cells.map fun e => (digitsOf (e.exponent?.getD 0).natAbs).length)

/-- The texts of numbers as they stand in one column. With exponents, the number with the most
digits tells how many all of them show. -/
def write (f : Format) (xs : List Binary64) : List String :=
  if asksForExponents f (xs.filterMap magnitude?) then
    let own := xs.filterMap
      (cell? fun negative units => .scientific negative (scientificDigits f units))
    let places := widest (own.map (·.fraction.length))
    align f places (exponentWidth own)
      (fun negative units => .scientific negative (filledDigits f places units)) xs
  else align f 0 0 (.positional f) xs

end Column

end NearDoc.Number
