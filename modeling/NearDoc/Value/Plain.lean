import NearDoc.Value.Conversion

/-!
The plain form of a value: tuples, embeddings and arrays as lists, numbers without a declared
type. It is what the stored text of a value reads back as.
-/

namespace NearDoc.Value

def nest : Shape → List Value → Value
  | [], items => items.headD .null
  | axis :: axes, items => .list ((Shape.rows axis items).map (nest axes))

mutual

def plain (v : Value) : Value :=
  match v with
  | .list xs | .tuple xs => .list (plainList xs)
  | .object fields => .object (plainFields fields)
  | .embedding e => .list (e.components.map .real)
  | .array a => nest a.shape (a.items.map (ofElement a.element))
  | .scalar s => ofElement s.element s.number
  | v => v
termination_by structural v

def plainList (xs : List Value) : List Value :=
  match xs with
  | [] => []
  | x :: xs => plain x :: plainList xs
termination_by structural xs

def plainFields (fields : List (String × Value)) : List (String × Value) :=
  match fields with
  | [] => []
  | (name, x) :: fields => (name, plain x) :: plainFields fields
termination_by structural fields

end

end NearDoc.Value
