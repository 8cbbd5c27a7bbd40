import NearDoc.Number.Decimal
import NearDoc.Vector.Basic

/-!
How an embedding is written: in full up to eight components, by its first four and its dimension
beyond.
-/

namespace NearDoc.Embedding

open Number

def written (v : Embedding) : String :=
  if v.dimension ≤ 8 then
    "Vector([" ++ ", ".intercalate (v.components.map fun x => String.ofList (writeReal x)) ++ "])"
  else
    let first := (v.components.take 4).map fun x => String.ofList (writeShort x)
    "Vector([" ++ ", ".intercalate first ++ ", ...], dimension=" ++ toString v.dimension ++ ")"

end NearDoc.Embedding
