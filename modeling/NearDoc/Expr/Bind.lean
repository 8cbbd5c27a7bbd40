import NearDoc.Expr.Eval

/-!
Preparing an expression for one execution: parameters become literals, and every call settles what
does not depend on the document.
-/

namespace NearDoc

abbrev Params := List (String × Value)

namespace Operator

/-- A distance call whose target and metric are literals measures against a fixed target, and
looks up a plain field by itself. -/
def prepareDistance (env : Environment) (namesMetric : Bool) (arguments : List Expr) :
    Except Error Prepared :=
  match arguments with
  | first :: target :: rest =>
    match target.literal?, rest.mapM Expr.literal? with
    | some target, some values => do
      let target ← Embedding.ofValue target
      let metric ← env.resolve (← metricRef namesMetric values)
      match first with
      | .field path => return .ofField ⟨path, target, metric⟩
      | _ => return .ofTarget target metric
    | _, _ => .ok .perDocument
  | _ => .error .missingArgument

def prepare (env : Environment) : Operator → List Expr → Except Error Prepared
  | .distance namesMetric _, arguments => prepareDistance env namesMetric arguments
  | .custom .., _ => .ok .perDocument

end Operator

/-- The value of a parameter. Only a text names one, and what has no hash cannot be looked up. -/
def Params.find (params : Params) (name : Value) : Except Error Value :=
  match name with
  | .text s => (params.lookup s).elim (.error (.parameterMissing s)) .ok
  | v =>
    .error (if v.hashKey?.isSome then .parameterMissing v.inserted else .unhashable v.typeName)

namespace Expr

mutual

def bind (env : Environment) (params : Params) (e : Expr) : Except Error Expr :=
  match e with
  | .field path => .ok (.field path)
  | .literal v => .ok (.literal v)
  | .param name => (params.find name).map .literal
  | .compare op left right =>
    match bind env params left with
    | .error err => .error err
    | .ok left => (bind env params right).map (.compare op left)
  | .all operands => (bindEach env params operands).map .all
  | .any operands => (bindEach env params operands).map .any
  | .not operand => (bind env params operand).map .not
  | .call operator arguments _ =>
    (bindEach env params arguments).bind fun arguments =>
      (operator.prepare env arguments).map fun p => .call operator arguments (some p)
termination_by structural e

def bindEach (env : Environment) (params : Params) (es : List Expr) : Except Error (List Expr) :=
  match es with
  | [] => .ok []
  | e :: es =>
    match bind env params e with
    | .error err => .error err
    | .ok e => (bindEach env params es).map (e :: ·)
termination_by structural es

end

end Expr

end NearDoc
