import NearDoc.Vector.Cast
import NearDoc.Vector.Metric

/-!
The distance of a document to a fixed target. Target and metric are settled once; the field is
looked up in each document.
-/

namespace NearDoc

/-- What is measured: the vector at a field against a target, by a metric. -/
structure DistanceKey where
  field : String
  target : Embedding
  metric : Metric

namespace DistanceKey

/-- Casts the target, then settles the metric. -/
def make (env : Environment) (field : String) (target : Value) (metric : MetricRef) :
    Except Error DistanceKey := do
  let target ← Embedding.ofValue target
  let metric ← env.resolve metric
  return { field, target, metric }

/-- The distance of a document, undefined when it holds no vector at the field. -/
def ofDocument (key : DistanceKey) (document : Value) : Except Error Value := do
  match ← Embedding.extract document key.field with
  | none => return .undefined
  | some stored => return .real (← key.metric.distance stored key.target)

end DistanceKey

end NearDoc
