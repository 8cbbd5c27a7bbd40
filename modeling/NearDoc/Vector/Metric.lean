import NearDoc.Text.LetterCase
import NearDoc.Text.Order
import NearDoc.Settings
import NearDoc.Value.Conversion

/-!
Distances between embeddings. A metric is one of the three built in or any function a caller
supplies; metrics are known by name in a registry. The lower the distance, the closer.
-/

namespace NearDoc

open Text

namespace Embedding

def dot (v w : Embedding) : Binary64 :=
  (v.components.zip w.components).foldl (fun sum p => sum + p.1 * p.2) Binary64.zero

def difference (v w : Embedding) : List Binary64 :=
  (v.components.zip w.components).map fun p => p.1 - p.2

end Embedding

inductive Metric where
  | cosine
  | euclidean
  | dot
  | custom (distance : Embedding → Embedding → Except Error Value)

namespace Metric

def constant (v : Value) : Metric := .custom fun _ _ => .ok v

/-- The number one below the cosine of the angle, kept between zero and two. A vector of length
zero is as far as can be. -/
def cosineDistance (v w : Embedding) : Binary64 :=
  let vv := v.dot v
  let ww := w.dot w
  if vv.eq .zero || ww.eq .zero then .ofInt 2
  else
    let d := Binary64.ofInt 1 - v.dot w / (vv * ww).sqrt
    let d := if d.lt .zero then .zero else d
    if (Binary64.ofInt 2).lt d then .ofInt 2 else d

def euclideanDistance (v w : Embedding) : Binary64 :=
  ((v.difference w).foldl (fun sum x => sum + x * x) Binary64.zero).sqrt

def dotDistance (v w : Embedding) : Binary64 := -v.dot w

def apply (m : Metric) (v w : Embedding) : Except Error Value :=
  match m with
  | .cosine => .ok (.real (cosineDistance v w))
  | .euclidean => .ok (.real (euclideanDistance v w))
  | .dot => .ok (.real (dotDistance v w))
  | .custom f => f v w

def distance (m : Metric) (stored target : Embedding) : Except Error Binary64 :=
  if stored.dimension = target.dimension then (m.apply stored target).bind Value.toReal
  else .error (.dimensionMismatch target.dimension stored.dimension)

def normalName (name : String) : String := lower (trimmed name)

end Metric

/-- The name of a metric, trimmed and in lower case: a text, or bytes that are read as ASCII. -/
inductive MetricName where
  | text (s : String)
  | bytes (bs : List UInt8)
  deriving DecidableEq

namespace MetricName

def isBlankByte (b : UInt8) : Bool := (9 ≤ b && b ≤ 13) || b = 32

def trimBytes (bs : List UInt8) : List UInt8 :=
  ((bs.dropWhile isBlankByte).reverse.dropWhile isBlankByte).reverse

def lowerByte (b : UInt8) : UInt8 := if 65 ≤ b && b ≤ 90 then b + 32 else b

def ofValue? : Value → Option MetricName
  | .text s => some (.text (Metric.normalName s))
  | .bytes bs => some (.bytes ((trimBytes bs).map lowerByte))
  | _ => none

def isEmpty : MetricName → Bool
  | .text s => s.isEmpty
  | .bytes bs => bs.isEmpty

def text? : MetricName → Option String
  | .text s => some s
  | .bytes _ => none

end MetricName

structure Metrics where
  entries : List (MetricName × Metric)

namespace Metrics

def builtin : Metrics :=
  ⟨[(.text "cosine", .cosine), (.text "euclidean", .euclidean), (.text "dot", .dot)]⟩

/-- The names of all metrics, in order. There is no order once bytes are among them. -/
def names (ms : Metrics) : Except Error (List String) :=
  let texts := ms.entries.filterMap (·.1.text?)
  if texts.length < ms.entries.length then .error (.incomparable "<" "bytes" "str")
  else .ok (sortTexts texts)

def find? (ms : Metrics) (name : Value) : Option Metric :=
  (MetricName.ofValue? name).bind fun n => ms.entries.lookup n

/-- Adds a metric under a name, or replaces the one of that name. -/
def insert (ms : Metrics) (name : MetricName) (m : Metric) : Metrics :=
  ⟨(ms.entries.filter (·.1 ≠ name)) ++ [(name, m)]⟩

/-- Registers a function under a name. The name must not be blank; `none` stands for something
that is no function. -/
def register (ms : Metrics) (name : Value) (m : Option Metric) : Except Error Metrics := do
  if !(← name.truthy) then throw .emptyMetricName
  match MetricName.ofValue? name, m with
  | none, _ => throw (.metricNameNotText name.typeName)
  | some name, m =>
    if name.isEmpty then throw .emptyMetricName
    match m with
    | none => throw .metricNotCallable
    | some m => return ms.insert name m

/-- The metric of a name; values that give no name have none. -/
def get (ms : Metrics) (name : Value) : Except Error Metric :=
  match ms.find? name with
  | some m => .ok m
  | none => ms.names.bind fun names => .error (.unknownMetric name.written names)

end Metrics

/-- How a caller says which metric to use: by a value, of which null stands for the default, or by
a function. -/
inductive MetricRef where
  | named (name : Value)
  | function (m : Metric)

def MetricRef.byDefault : MetricRef := .named .null

structure Environment where
  settings : Settings := {}
  metrics : Metrics := .builtin

namespace Environment

def resolve (env : Environment) : MetricRef → Except Error Metric
  | .function m => .ok m
  | .named .null => env.metrics.get (.text env.settings.defaultMetric)
  | .named name => env.metrics.get name

def distance (env : Environment) (metric : MetricRef) (stored target : Embedding) :
    Except Error Binary64 :=
  (env.resolve metric).bind (·.distance stored target)

def issues (env : Environment) : Except Error (List String) :=
  env.metrics.names.map env.settings.issues

end Environment

end NearDoc
