import NearDoc.Query.Parser
import NearDoc.Validation.Near
import NearDoc.Log
import NearDoc.Signature

/-!
Building a plan call by call. A call that fails leaves the builder as it was; asking for the
nearest documents settles order and limit for good.
-/

namespace NearDoc

/-- An expression, or a value that has to be the text of one. -/
inductive Clause where
  | expr (e : Expr)
  | value (v : Value)

def Clause.resolve (ops : Operators) : Clause → Except Error Expr
  | .expr e => .ok e
  | .value (.text s) => Expr.parse ops s
  | .value v => .error (.notExpression v.typeName)

structure Builder where
  operators : Operators
  collection : Value := .null
  conditions : List Expr := []
  order : List SortKey := []
  limit : Option Int := none
  columns : Option (List Column) := none
  /-- The nearest documents were asked for. -/
  nearest : Bool := false

inductive BuilderCall where
  | filter (condition : Clause)
  | within (arguments : NearArguments)
  | nearest (arguments : NearArguments)
  | orderBy (key : Clause) (descending : Value)
  | limit (n : Value)
  | select (fields : List Value) (computed : List (String × Clause))

def BuilderCall.signatures : Signatures :=
  [("where_near", 3, 4), ("top_k_near", 3, 4), ("order_by", 1, 2), ("limit", 1, 1)]

namespace Builder

def distance (b : Builder) (spec : NearSpec β) : Except Error Expr :=
  b.operators.distanceCall (.text spec.field) (.embedding spec.target) spec.metric

def filter (b : Builder) (condition : Clause) : Except Error Builder := do
  return { b with conditions := b.conditions ++ [← condition.resolve b.operators] }

def within (env : Environment) (b : Builder) (a : NearArguments) : Except Error Builder := do
  let spec ← NearSpec.within env.metrics a
  let condition := Expr.compare (.order .le) (← b.distance spec) (.literal (.real spec.bound))
  return { b with conditions := b.conditions ++ [condition] }

def takeNearest (env : Environment) (b : Builder) (a : NearArguments) : Except Error Builder := do
  let spec ← NearSpec.nearest env.metrics a
  if !b.order.isEmpty then throw .nearestAfterOrdering
  if b.limit.isSome then throw .nearestAfterLimit
  let key ← b.distance spec
  return { b with order := [{ expr := key }], limit := some spec.bound, nearest := true }

def orderBy (b : Builder) (key : Clause) (descending : Value) : Except Error Builder := do
  if b.nearest then throw .nearestOrders
  return { b with order := b.order ++ [⟨← key.resolve b.operators, descending⟩] }

def limitTo (b : Builder) (n : Value) : Except Error Builder :=
  if b.nearest then .error .nearestLimits
  else match n with
    | .int i => .ok { b with limit := some i }
    | v => .error (.limitNotInteger v.typeName)

/-- The name that stands for the builder itself; no computed column can have it. -/
def ownName : String := "self"

/-- Shows fields, then computed columns under their names. -/
def select (b : Builder) (fields : List Value) (computed : List (String × Clause)) :
    Except Error Builder := do
  if computed.any (·.1 = ownName) then throw .wrongArguments
  let plain ← fields.mapM fun f => return ({ expr := ← Expr.field? f } : Column)
  let named ← computed.mapM fun (name, clause) =>
    return (⟨← clause.resolve b.operators, .text name⟩ : Column)
  return { b with columns := some (plain ++ named) }

def call (env : Environment) (b : Builder) : BuilderCall → Except Error Builder
  | .filter condition => b.filter condition
  | .within a => b.within env a
  | .nearest a => b.takeNearest env a
  | .orderBy key descending => b.orderBy key descending
  | .limit n => b.limitTo n
  | .select fields computed => b.select fields computed

/-- No conditions are no predicate, one is the predicate, several are joined. -/
def predicate (b : Builder) : Option Expr :=
  match b.conditions with
  | [] => none
  | [e] => some e
  | es => some (.all es)

def build (b : Builder) : Plan :=
  { collection := b.collection, predicate := b.predicate, order := b.order,
    limit := b.limit.elim .null .int,
    columns := b.columns }

end Builder

/-- The records that a failed call leaves: one if its arguments were refused. -/
def BuilderCall.records (c : BuilderCall) (e : Error) : List Record :=
  let refusal (name : String) (a : NearArguments) :=
    match e with
    | .invalid issues =>
      [Record.refusal (.text name) (issues.map (·.toValue .null)) [("field", a.field)]]
    | _ => []
  match c with
  | .within a => refusal "query.where_near" a
  | .nearest a => refusal "query.top_k_near" a
  | _ => []

end NearDoc
