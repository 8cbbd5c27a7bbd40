import NearDoc.Number.Decimal
import NearDoc.Shape.Basic

/-!
Numeric arrays and scalars with a declared element type, as numeric software hands them over.
-/

namespace NearDoc

inductive ElementType where
  | bool
  | int (bits : Nat)
  | uint (bits : Nat)
  | float (bits : Nat)
  | complex (bits : Nat)
  | other (name : String)
  deriving DecidableEq

namespace ElementType

def name : ElementType → String
  | .bool => "bool"
  | .int bits => "int" ++ toString bits
  | .uint bits => "uint" ++ toString bits
  | .float bits => "float" ++ toString bits
  | .complex bits => "complex" ++ toString bits
  | .other name => name

/-- Integers and floating-point numbers, signed or not. -/
def isReal : ElementType → Bool
  | .int _ | .uint _ | .float _ => true
  | _ => false

/-- Floating-point numbers, and those that have a second, imaginary part, which is always zero. -/
def isFloating : ElementType → Bool
  | .float _ | .complex _ => true
  | _ => false

/-- Types whose items are handed over as truth values, integers or binary64 numbers. Complex and
longer numbers, points and spans of time and raw memory are handed over as something else. -/
def isPlain : ElementType → Bool
  | .bool | .int _ | .uint _ => true
  | .float bits => bits ≤ 64
  | .complex _ | .other _ => false

def format : ElementType → Number.Format
  | .float 16 => .half
  | .float 32 | .complex 64 => .single
  | _ => .double

end ElementType

structure TypedScalar where
  element : ElementType
  number : Number

/-- An array of a declared element type: its items in row order along its axes. Two occurrences
with one mark are the same array; mark zero is none. -/
structure TypedArray where
  element : ElementType
  shape : Shape
  items : List Number
  mark : Nat := 0

end NearDoc
