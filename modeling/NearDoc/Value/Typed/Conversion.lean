import NearDoc.Value.Operand

/-!
From values to scalars and arrays of a declared type. Lists become axes, which must be even; an
integer type takes an integer only if it has room for it.
-/

namespace NearDoc

namespace ElementType

def named : List ElementType :=
  [.bool, .int 8, .int 16, .int 32, .int 64, .uint 8, .uint 16, .uint 32, .uint 64, .float 16,
    .float 32, .float 64, .complex 64, .complex 128, .other "object"]

def otherNames : List (String × ElementType) :=
  [("int", .int 64), ("uint", .uint 64), ("half", .float 16), ("single", .float 32),
    ("double", .float 64), ("float", .float 64), ("complex", .complex 128)]

def ofName (name : String) : Except Error ElementType :=
  match (named.find? (·.name = name)).or (otherNames.lookup name) with
  | some t => .ok t
  | none => .error (.unknownElement name)

/-- The least integer of an integer type, and the first that is past the greatest. -/
def bounds? : ElementType → Option (Int × Int)
  | .int bits => some (-(2 ^ (bits - 1)), 2 ^ (bits - 1))
  | .uint bits => some (0, 2 ^ bits)
  | _ => none

/-- The integer that a real number stands for, without its fraction. -/
def integerPart (x : Binary64) : Except Error Int :=
  match x with
  | .nan _ => .error (.notNumeral "nan")
  | .infinite _ => .error .integerTooLarge
  | .finite negative units _ => .ok (Binary64.signed negative (units / 2 ^ 1074))

/-- The integer part of a real number as an element between bounds. One of 64 bits is counted on
from the bounds, as often as it takes. -/
def wrapped (t : ElementType) (low high : Int) (x : Binary64) : Except Error Int := do
  let i ← integerPart x
  let top : Int := if t = .uint 32 ∨ t = .uint 64 then 2 ^ 64 else 2 ^ 63
  if -(2 ^ 63) ≤ i ∧ i < top then return low + (i - low) % (high - low)
  throw .integerPastWord

def hold (t : ElementType) (n : Number) : Except Error Number :=
  match t, n with
  | .bool, n => .ok (.int (if n.eq (.int 0) then 0 else 1))
  | .float _, n | .complex _, n => do
    if let .int i := n then
      if !(Binary64.ofInt i).isFinite then throw .integerTooLarge
    return .real (n.toReal.narrow t.format)
  | _, n => .ok n

/-- A number as an element of a type. An integer type must have room for an integer. -/
def element (t : ElementType) (n : Number) : Except Error Number :=
  match t.bounds?, n with
  | none, n => t.hold n
  | some (low, high), .int i =>
    if low ≤ i ∧ i < high then .ok (.int i) else .error .integerPastWord
  | some (low, high), .real x => (t.wrapped low high x).map .int

end ElementType

def Operand.elements (t : ElementType) (o : Operand) : Except Error (List Number) :=
  o.items.mapM fun item =>
    match item.number? with
    | some n => t.element n
    | none => .error (if o.held = .text then .notNumeral "" else .notRealNumber t.name)

def TypedScalar.ofValue (type : String) (v : Value) : Except Error TypedScalar := do
  let t ← ElementType.ofName type
  match ← (Operand.ofItem v).elements t with
  | [n] => return ⟨t, n⟩
  | _ => throw .notSingleItem

def TypedArray.ofValue (type : String) (v : Value) : Except Error TypedArray := do
  let t ← ElementType.ofName type
  let shape ← Operand.listShape v
  let items ← (Operand.leaves v).mapM (·.elements t)
  return { element := t, shape, items := items.flatten.map Number.unmarked }

end NearDoc
