import NearDoc.Near.Distance
import NearDoc.Value.Hash

/-!
Expressions of predicates, sort keys and projections, and the operators that may be called in
them.
-/

namespace NearDoc

/-- The signs of comparison; two of them have two spellings. -/
inductive Comparator where
  | equal (doubled : Bool)
  | unequal (angled : Bool)
  | order (r : OrderRelation)
  deriving DecidableEq

namespace Comparator

def symbol : Comparator → String
  | .equal false => "="
  | .equal true => "=="
  | .unequal false => "!="
  | .unequal true => "<>"
  | .order r => r.symbol

def all : List Comparator :=
  [.equal false, .equal true, .unequal false, .unequal true, .order .lt, .order .le, .order .gt,
    .order .ge]

def ofSymbol? (s : String) : Option Comparator := all.find? (·.symbol = s)

/-- Every comparator is found by its sign. -/
theorem ofSymbol?_symbol (c : Comparator) : ofSymbol? c.symbol = some c := by
  cases c with
  | equal doubled => cases doubled <;> decide
  | unequal angled => cases angled <;> decide
  | order r => cases r <;> decide

def apply (c : Comparator) (a b : Value) : Except Error Bool :=
  match c with
  | .equal _ => a.eqv b
  | .unequal _ => (a.eqv b).map (!·)
  | .order r => a.relate r b

end Comparator

def distanceName : String := "VECTOR_DISTANCE"

/-- A function callable from expressions: the distance between vectors, with or without the name
of a metric, or any function of values. Its arity is a value, which a number of arguments may be
equal to. -/
inductive Operator where
  | distance (namesMetric : Bool) (arity : Value)
  | custom (name : String) (arity : Value) (apply : List Value → Except Error Value)

namespace Operator

def name : Operator → String
  | .distance .. => distanceName
  | .custom name _ _ => name

def arity : Operator → Value
  | .distance _ arity => arity
  | .custom _ arity _ => arity

def echo (name : String) (arity : Value) : Operator := .custom name arity fun vs => .ok (.list vs)

def distanceOf (arity : Value) : Except Error Operator := do
  if ← arity.eqv (.int 2) then return .distance false arity
  if ← arity.eqv (.int 3) then return .distance true arity
  throw .distanceArity

def metricRef (namesMetric : Bool) (values : List Value) : Except Error MetricRef :=
  if !namesMetric then .ok .byDefault
  else match values with
    | [] => .error .missingArgument
    | .text s :: _ => .ok (.named (.text s))
    | v :: _ => .error (.metricNotText v.typeName)

/-- The distance of a stored value to a target value, undefined if no vector is stored. -/
def applyDistance (env : Environment) (namesMetric : Bool) (values : List Value) :
    Except Error Value :=
  match values with
  | stored :: target :: rest => do
    let stored ← Embedding.ofStored stored
    let target ← Embedding.ofValue target
    let metric ← metricRef namesMetric rest
    match stored with
    | none => return .undefined
    | some stored => return .real (← env.distance metric stored target)
  | _ => .error .missingArgument

def apply (env : Environment) : Operator → List Value → Except Error Value
  | .distance namesMetric _, values => applyDistance env namesMetric values
  | .custom _ _ f, values => f values

end Operator

inductive Prepared where
  /-- Every argument is evaluated for every document. -/
  | perDocument
  /-- A field is measured against a fixed target. -/
  | ofField (key : DistanceKey)
  /-- The first argument is measured against a fixed target. -/
  | ofTarget (target : Embedding) (metric : Metric)

inductive Expr where
  | field (path : String)
  | literal (v : Value)
  | param (name : Value)
  | compare (op : Comparator) (left right : Expr)
  | all (operands : List Expr)
  | any (operands : List Expr)
  | not (operand : Expr)
  | call (operator : Operator) (arguments : List Expr) (prepared : Option Prepared)

namespace Expr

instance : Inhabited Expr := ⟨.literal .null⟩

/-- A reference to a field, by a path that must be well formed. -/
def field? (path : Value) : Except Error Expr :=
  match path with
  | .text path => (Path.segments path).map fun _ => .field path
  | _ => .error .emptyPath

/-- The comparator of a sign, which is looked up by its hash. -/
def comparator? (sign : Value) : Except Error Comparator :=
  match sign with
  | .text s => (Comparator.ofSymbol? s).elim (.error (.unknownComparison s)) .ok
  | v =>
    if v.hashKey?.isSome then .error (.unknownComparison v.inserted)
    else .error (.unhashable v.typeName)

def compare? (sign : Value) (left right : Expr) : Except Error Expr :=
  (comparator? sign).map fun op => .compare op left right

/-- A conjunction of at least two operands. -/
def all? (operands : List Expr) : Except Error Expr :=
  if operands.length < 2 then .error (.tooFewOperands "AND") else .ok (.all operands)

/-- A disjunction of at least two operands. -/
def any? (operands : List Expr) : Except Error Expr :=
  if operands.length < 2 then .error (.tooFewOperands "OR") else .ok (.any operands)

def literal? : Expr → Option Value
  | .literal v => some v
  | _ => none

end Expr

end NearDoc
