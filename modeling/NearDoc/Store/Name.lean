import NearDoc.Error
import NearDoc.Text.Order
import NearDoc.Value.Typed.Memory
import NearDoc.Value.Conversion

/-!
The names of collections as a text column keeps them: numbers are kept as their text, and bytes,
which no text equals, as they are.
-/

namespace NearDoc

open Number Text

inductive CollectionName where
  | text (s : String)
  | bytes (bs : List UInt8)
  deriving DecidableEq

namespace CollectionName

def keptDigits : Nat := 15

/-- A finite number in a text column always has a digit after the point. -/
def writeKept (units : Nat) : List Char :=
  let d := if units = 0 then Digits.zero else roundedDigits units keptDigits
  if d.exponent < -4 || (keptDigits : Int) ≤ d.exponent then
    let padded := d.digits ++ List.replicate (2 - d.digits.length) 0
    { d with digits := padded }.writeScientific
  else d.writePositional ['.', '0']

/-- A number as a text column keeps it. What is not a number is kept as nothing. -/
def ofReal : Binary64 → Option CollectionName
  | .nan _ => none
  | .infinite negative => some (.text (if negative then "-Inf" else "Inf"))
  | .finite negative units _ =>
    let sign := if negative && units ≠ 0 then ['-'] else []
    some (.text (String.ofList (sign ++ writeKept units)))

/-- The name that a value is kept as, if it is kept as one; of numbers with a declared type only
those in binary64 count as numbers, the others are bytes. -/
def ofValue (v : Value) : Except Error (Option CollectionName) :=
  match v with
  | .null => .ok none
  | .text s => .ok (some (.text s))
  | .bytes bs => .ok (some (.bytes bs))
  | .bool b => .ok (some (.text (if b then "1" else "0")))
  | .int i =>
    if -(2 ^ 63) ≤ i ∧ i < 2 ^ 63 then .ok (some (.text (toString i)))
    else .error .integerPastColumn
  | .real x => .ok (ofReal x)
  | .scalar s =>
    .ok (if s.element = .float 64 then ofReal s.number.toReal else some (.bytes s.memory))
  | .array a => .ok (some (.bytes a.memory))
  | v => .error (.storage (.notStorable v.typeName))

def toValue : CollectionName → Value
  | .text s => .text s
  | .bytes bs => .bytes bs

def compare : CollectionName → CollectionName → Ordering
  | .text s, .text t => compareText s t
  | .text _, .bytes _ => .lt
  | .bytes _, .text _ => .gt
  | .bytes as, .bytes bs => compareCodes (as.map UInt8.toNat) (bs.map UInt8.toNat)

end CollectionName

end NearDoc
