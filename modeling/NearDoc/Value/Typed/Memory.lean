import NearDoc.Number.Bytes
import NearDoc.Value.Typed

/-!
Scalars and arrays of a declared type as they lie in memory: item after item, the least significant
byte of each first.
-/

namespace NearDoc

open Number

namespace Number.Format

/-- The exponent field of infinities, which is greater than that of any finite number. -/
def topField (f : Format) : Nat := f.top - f.least - f.precision + 2

/-- The exponent field and the digits after the leading one of a count of units. Numbers below the
least power of two with a field of its own have field zero and no leading digit. -/
def magnitudeBits (f : Format) (units : Nat) : Nat :=
  let n := units / 2 ^ f.least
  let length := bitLength n
  if length < f.precision then n
  else
    let field := length - f.precision + 1
    field * 2 ^ (f.precision - 1) + (n / 2 ^ (length - f.precision) - 2 ^ (f.precision - 1))

/-- The bits of a number of the format: sign, exponent field and digits. -/
def bits (f : Format) : Binary64 → Nat
  | .nan _ => f.topField * 2 ^ (f.precision - 1) + 2 ^ (f.precision - 2)
  | .infinite negative => sign negative + f.topField * 2 ^ (f.precision - 1)
  | .finite negative units _ => sign negative + f.magnitudeBits units
where
  sign (negative : Bool) : Nat :=
    if negative then (f.topField + 1) * 2 ^ (f.precision - 1) else 0

end Number.Format

namespace ElementType

def size : ElementType → Nat
  | .int bits | .uint bits | .float bits | .complex bits => bits / 8
  | _ => 1

/-- The bytes of an item. Integers below zero count back from the first power of two that has no
room; an imaginary part, which is zero, follows the real one. -/
def memory (t : ElementType) : Number → List UInt8
  | .int i => littleEndian t.size (i % 2 ^ (8 * t.size)).toNat
  | .real x => littleEndian t.size (t.format.bits x)

end ElementType

def TypedScalar.memory (s : TypedScalar) : List UInt8 := s.element.memory s.number

def TypedArray.memory (a : TypedArray) : List UInt8 := a.items.flatMap a.element.memory

end NearDoc
