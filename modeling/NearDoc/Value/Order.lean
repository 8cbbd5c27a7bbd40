import NearDoc.Text.Order
import NearDoc.Value.Operand

/-!
Equality and order of values. Numbers compare by exact value, text and bytes element by element,
sequences by their first unequal elements; everything else has equality only. Where a declared
type takes part, items are compared along their axes. Inside a sequence or an object, one and the
same occurrence of a value counts as equal without being compared.
-/

namespace NearDoc.Value

open Text

def compareBytes (s t : List UInt8) : Ordering :=
  compareCodes (s.map UInt8.toNat) (t.map UInt8.toNat)

/-- Two occurrences are known to be one. Only what may differ from itself is ever marked. -/
def isSame : Value → Value → Bool
  | .real x, .real y => x.isSame y
  | .scalar ⟨t, .real x⟩, .scalar ⟨u, .real y⟩ => t = u && x.isSame y
  | .array a, .array b => a.mark ≠ 0 && a.mark = b.mark
  | _, _ => false

def eqFlat (a b : Value) : Except Error Bool :=
  if a.isDeclared || b.isDeclared then relateDeclared .equal a b
  else match a, b with
    | .null, .null => .ok true
    | .undefined, .undefined => .ok true
    | .text s, .text t => .ok (s = t)
    | .bytes s, .bytes t => .ok (s = t)
    | .embedding v, .embedding w => .ok (v.same w)
    | a, b =>
      match a.number?, b.number? with
      | some m, some n => .ok (m.eq n)
      | _, _ => .ok false

mutual

/-- Equality of values. Objects are equal when they have the same names with equal values, in
any order. -/
def eqv (a b : Value) : Except Error Bool :=
  match a, b with
  | .list xs, .list ys => if xs.length = ys.length then eqvList xs ys else .ok false
  | .tuple xs, .tuple ys => eqvList xs ys
  | .object fs, .object gs => if fs.length = gs.length then eqvFields fs gs else .ok false
  | a, b => eqFlat a b
termination_by structural a

/-- Elements are compared up to the first unequal ones, then the lengths. -/
def eqvList (xs ys : List Value) : Except Error Bool :=
  match xs, ys with
  | x :: xs, y :: ys =>
    if isSame x y then eqvList xs ys
    else match eqv x y with
      | .ok true => eqvList xs ys
      | r => r
  | [], [] => .ok true
  | _, _ => .ok false
termination_by structural xs

def eqvFields (fs gs : List (String × Value)) : Except Error Bool :=
  match fs with
  | [] => .ok true
  | (name, x) :: fs =>
    match gs.lookup name with
    | none => .ok false
    | some y =>
      if isSame x y then eqvFields fs gs
      else match eqv x y with
        | .ok true => eqvFields fs gs
        | r => r
termination_by structural fs

end

def relateFlat (r : OrderRelation) (a b : Value) : Except Error Bool :=
  let refuse := .error (.incomparable r.symbol a.typeName b.typeName)
  if a.isDeclared || b.isDeclared then relateDeclared (.order r) a b
  else match a, b with
    | .text s, .text t => .ok (r.ofOrdering (compareText s t))
    | .bytes s, .bytes t => .ok (r.ofOrdering (compareBytes s t))
    | a, b =>
      match a.number?, b.number? with
      | some m, some n => .ok (r.ofNumbers m n)
      | _, _ => refuse

mutual

def relate (r : OrderRelation) (a b : Value) : Except Error Bool :=
  match a, b with
  | .list xs, .list ys => relateList r xs ys
  | .tuple xs, .tuple ys => relateList r xs ys
  | a, b => relateFlat r a b
termination_by structural a

/-- The first unequal elements decide; if there are none, the lengths do. -/
def relateList (r : OrderRelation) (xs ys : List Value) : Except Error Bool :=
  match xs, ys with
  | x :: xs, y :: ys =>
    if isSame x y then relateList r xs ys
    else match eqv x y with
      | .ok true => relateList r xs ys
      | .ok false => relate r x y
      | .error e => .error e
  | xs, ys => .ok (r.ofOrdering (compare xs.length ys.length))
termination_by structural xs

end

def lt (a b : Value) : Except Error Bool := relate .lt a b

end NearDoc.Value
