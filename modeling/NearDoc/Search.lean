import NearDoc.Near.Retrieval
import NearDoc.Log

/-!
Semantic search: the nearest documents of a collection as results ready for display.
-/

namespace NearDoc.Search

structure Result where
  id : Value
  distance : Value
  document : Value

def resultOf (hit : Hit) : Except Error Result := do
  return { id := ← hit.id, distance := hit.distance, document := hit.document }

def results (hits : List Hit) : Except Error (List Result) := hits.mapM resultOf

def record (collection field k : Value) (found : Nat) : Record :=
  .vector "search" collection
    [("field", field), ("top_k", k), ("results", .int found)] "success"

end NearDoc.Search
