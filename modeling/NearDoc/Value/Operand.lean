import NearDoc.Shape.Basic
import NearDoc.Value.Basic
import NearDoc.Value.Relation
import NearDoc.Error

/-!
Comparison with a value of declared type, item by item. Both sides become items along axes, the
axes must fit together, and the outcome is a truth value only if the items meet in a single pair.
Before two items are compared they are brought to one type.
-/

namespace NearDoc

inductive Held where
  /-- A number by itself, which takes the type of the other side. -/
  | plain
  | typed (t : ElementType)
  | text
  /-- Values of any kind. -/
  | any
  deriving DecidableEq

/-- How the items of a declared type are held; those of no numeric type are values of any kind. -/
def Held.ofType : ElementType → Held
  | .other _ => .any
  | t => .typed t

/-- The type in which items of two kinds are held together. Of several types of numbers the first
is named: several items are never compared by value. -/
def Held.join : Held → Held → Held
  | .any, _ | _, .any => .any
  | .text, _ | _, .text => .text
  | h, _ => h

inductive Item where
  | number (n : Number)
  /-- A number with an imaginary part, which is zero. -/
  | complex (n : Number)
  /-- What is no number. -/
  | other

namespace Item

def number? : Item → Option Number
  | .number n | .complex n => some n
  | .other => none

def ofElement (t : ElementType) (n : Number) : Item :=
  match t with
  | .complex _ => .complex n
  | _ => .number n

/-- Whether an item has an order. Numbers of two parts have one only in arrays of their own type. -/
def isOrdered (exact : Bool) : Item → Bool
  | .number _ => true
  | .complex _ => !exact
  | .other => false

end Item

structure Operand where
  held : Held
  shape : Shape
  items : List Item

namespace Operand

def heldInteger (i : Int) : Held :=
  if -(2 ^ 63) ≤ i ∧ i < 2 ^ 63 then .typed (.int 64)
  else if 0 ≤ i ∧ i < 2 ^ 64 then .typed (.uint 64)
  else .any

def ofItem (v : Value) : Operand :=
  match v with
  | .bool b => ⟨.typed .bool, [], [.number (.int (if b then 1 else 0))]⟩
  | .int i => ⟨heldInteger i, [], [.number (.int i)]⟩
  | .real x => ⟨.typed (.float 64), [], [.number (.real x)]⟩
  | .scalar s => ⟨.ofType s.element, [], [.ofElement s.element s.number]⟩
  | .array a => ⟨.ofType a.element, a.shape, a.items.map (.ofElement a.element)⟩
  | .text _ | .bytes _ => ⟨.text, [], [.other]⟩
  | _ => ⟨.any, [], [.other]⟩

/-- The axes that the entries of a list have in common, and whether they have no others. -/
def entryAxes : List (Shape × Bool) → Shape × Bool
  | [] => ([], true)
  | (shape, even) :: rest => rest.foldl (fun (common, even) (shape, evenToo) =>
      (Shape.commonAxes common shape, even && evenToo && decide (common = shape))) (shape, even)

mutual

/-- The axes of a value, up to where its lists are uneven, and whether they are even. -/
def axes (v : Value) : Shape × Bool :=
  match v with
  | .list xs | .tuple xs =>
    let (shape, even) := entryAxes (axesEach xs)
    (xs.length :: shape, even)
  | .array a => (a.shape, true)
  | _ => ([], true)
termination_by structural v

def axesEach (xs : List Value) : List (Shape × Bool) :=
  match xs with
  | [] => []
  | x :: xs => axes x :: axesEach xs
termination_by structural xs

end

mutual

/-- The items of a value, however deep in lists. -/
def leaves (v : Value) : List Operand :=
  match v with
  | .list xs | .tuple xs => leavesEach xs
  | v => [ofItem v]
termination_by structural v

def leavesEach (xs : List Value) : List Operand :=
  match xs with
  | [] => []
  | x :: xs => leaves x ++ leavesEach xs
termination_by structural xs

end

/-- The type in which all items of a list are held; without items it is the widest. -/
def heldTogether : List Operand → Held
  | [] => .typed (.float 64)
  | o :: rest => rest.foldl (fun h p => h.join p.held) o.held

/-- The axes of a list, which must be even and no more than an array can have. -/
def listShape (v : Value) : Except Error Shape :=
  let (shape, even) := axes v
  if Shape.mostAxes < shape.length then .error .tooManyAxes
  else if even then .ok shape
  else if shape.length = Shape.mostAxes then .error .tooManyAxes
  else .error (.unevenList shape)

/-- What a value brings to a comparison. A number alone is plain. -/
def ofValue (v : Value) : Except Error Operand :=
  match v with
  | .int _ | .real _ => .ok { ofItem v with held := .plain }
  | .list _ | .tuple _ => do
    let shape ← listShape v
    let os := leaves v
    return ⟨heldTogether os, shape, os.flatMap items⟩
  | v => .ok (ofItem v)

/-! ### Pairs of items -/

/-- An integer beside a real number is rounded first. -/
def besideReal (a b : Number) : Number :=
  match b with
  | .real _ => .real a.toReal
  | .int _ => a

/-- A plain number brought to a declared type. A floating-point type takes it into its format, if
it has a place there; a truth value takes integers of 64 bits. -/
def toType (t : ElementType) (n : Number) : Except Error Number :=
  match n with
  | .real x => .ok (.real (if t.isFloating then x.narrow t.format else x))
  | .int i =>
    if t.isFloating then
      if (Binary64.ofInt i).isFinite then .ok (.real ((Binary64.ofInt i).narrow t.format))
      else .error .integerTooLarge
    else if t = .bool ∧ ¬(-(2 ^ 63) ≤ i ∧ i < 2 ^ 63) then .error .integerPastWord
    else .ok n

/-- The items of an operand in the type of the other side. -/
def align (o other : Operand) : Except Error (List Item) :=
  match o.held, other.held with
  | .plain, .typed t => o.items.mapM fun
    | .number n => (toType t n).map .number
    | item => .ok item
  | _, _ => .ok o.items

/-- A relation of two items. Items of any kind are compared by exact value; what is no number is
equal to none. -/
def relateItems (r : Relation) (exact : Bool) (a b : Item) : Bool :=
  match a.number?, b.number? with
  | some m, some n =>
    if exact then r.ofNumbers m n else r.ofNumbers (besideReal m n) (besideReal n m)
  | _, _ => false

/-- Whether two operands stand in a relation: each check is made for all items before the next. -/
def relate (r : Relation) (a b : Operand) (refusal : Error) : Except Error Bool := do
  if r.isOrder && (a.held = .text || b.held = .text) then throw refusal
  let m ← align a b
  let n ← align b a
  let exact := a.held = .any || b.held = .any
  match a.shape.meet? b.shape with
  | none => throw (.shapesDoNotMeet a.shape b.shape)
  | some shape =>
    if shape.size = 0 then throw .emptyTruth
    if r.isOrder && !(m ++ n).all (·.isOrdered exact) then throw refusal
    match m, n with
    | [x], [y] => return relateItems r exact x y
    | _, _ => throw .ambiguousTruth

end Operand

namespace Value

def isDeclared : Value → Bool
  | .array _ | .scalar _ => true
  | _ => false

/-- A relation in which a declared type takes part. A value of declared type stands first. -/
def relateDeclared (r : Relation) (a b : Value) : Except Error Bool := do
  let refusal := Error.incomparable r.symbol a.typeName b.typeName
  let x ← Operand.ofValue a
  let y ← Operand.ofValue b
  if a.isDeclared then x.relate r y refusal else y.relate r.converse x refusal

end Value

end NearDoc
