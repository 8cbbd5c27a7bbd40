import NearDoc.Number.Numeral
import NearDoc.Value.Written
import NearDoc.Error

/-!
What a value counts as: its truth, the binary64 number it converts to, the whole number it may
stand for as a count, and the elements it is made of.
-/

namespace NearDoc.Value

open Number

/-- Zero, the empty text and the empty collections are not true; neither are null and undefined.
An array has a truth value only if it has one item. -/
def truthy : Value → Except Error Bool
  | .null | .undefined => .ok false
  | .bool b => .ok b
  | .int i => .ok (i ≠ 0)
  | .real x => .ok (!x.eq .zero)
  | .text s => .ok !s.isEmpty
  | .bytes bs => .ok !bs.isEmpty
  | .list xs | .tuple xs => .ok !xs.isEmpty
  | .object fields => .ok !fields.isEmpty
  | .embedding _ => .ok true
  | .array a =>
    match a.items with
    | [] => .error .emptyTruth
    | [n] => .ok (!n.eq (.int 0))
    | _ => .error .ambiguousTruth
  | .scalar s => .ok (!s.number.eq (.int 0))

/-- The nearest binary64 number to an integer, unless the integer is out of range. -/
def realOfInt (i : Int) : Except Error Binary64 :=
  let x := Binary64.ofInt i
  if x.isFinite then .ok x else .error .integerTooLarge

/-- The binary64 number of an item of declared type, which is a new occurrence. -/
def realOfNumber : Number → Except Error Binary64
  | .int i => realOfInt i
  | .real x => .ok x.unmarked

/-- Numbers and truth values convert, and so does the item of an array without axes; a text
converts if it is a numeral, bytes if they are one in ASCII. -/
def toReal (v : Value) : Except Error Binary64 :=
  match v with
  | .bool b => realOfInt (if b then 1 else 0)
  | .int i => realOfInt i
  | .real x => .ok x
  | .scalar s => realOfNumber s.number
  | .text s => (readReal? s.toList).elim (.error (.notNumeral v.written)) .ok
  | .bytes bs =>
    if bs.all (· < 128) then
      (readReal? (bs.map fun b => Char.ofNat b.toNat)).elim (.error (.notNumeral v.written)) .ok
    else .error (.notNumeral v.written)
  | .array a =>
    match a.shape, a.element, a.items with
    | _ :: _, _, _ => .error .notSingleItem
    | [], .complex _, _ => .error (.notRealNumber "complex")
    | [], _, items => realOfNumber (items.headD (.int 0))
  | _ => .error (.notRealNumber v.typeName)

def ofElement (t : ElementType) : Number → Value
  | .int i => if t = .bool then .bool (i ≠ 0) else .int i
  | .real x => .real x

/-- The integer that a value stands for where only integers count: integers of any type, truth
values without a declared one, and arrays of one integer without axes. -/
def index? : Value → Option Int
  | .bool b => some (if b then 1 else 0)
  | .int i => some i
  | .scalar ⟨.int _, .int i⟩ | .scalar ⟨.uint _, .int i⟩ => some i
  | .array ⟨.int _, [], [.int i], _⟩ | .array ⟨.uint _, [], [.int i], _⟩ => some i
  | _ => none

/-- The rows along the first axis of an array; the rows of a single axis are scalars. -/
def arrayRows (a : TypedArray) : Option (List Value) :=
  match a.shape with
  | [] => none
  | [_] => some (a.items.map fun n => .scalar ⟨a.element, n⟩)
  | n :: rest => some ((Shape.rows n a.items).map fun items =>
      .array { element := a.element, shape := rest, items })

/-- What a value is made of: the items of a sequence, the names of an object, the characters of a
text, the numbers of bytes and of an embedding, the rows of an array. -/
def elements (v : Value) : Except Error (List Value) :=
  match v with
  | .list xs | .tuple xs => .ok xs
  | .object fields => .ok (fields.map fun f => .text f.1)
  | .text s => .ok (s.toList.map fun c => .text (String.singleton c))
  | .bytes bs => .ok (bs.map fun b => .int b.toNat)
  | .embedding e => .ok (e.components.map .real)
  | .array a => (arrayRows a).elim (.error (.notIterable v.typeName)) .ok
  | v => .error (.notIterable v.typeName)

end NearDoc.Value
