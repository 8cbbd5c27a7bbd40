import NearDoc.Expr.Basic

/-!
Evaluation of an expression on one document. Truth has three values: true, false and undefined;
an undefined value, and null in a comparison, decide nothing.
-/

namespace NearDoc

/-- What a comparison says of two values: nothing of undefined values, of null, and of values that
cannot be compared or have no truth value together. Any other failure stays one. -/
def Comparator.decide (c : Comparator) (a b : Value) : Except Error Value :=
  match a, b with
  | .undefined, _ | _, .undefined | .null, _ | _, .null => .ok .undefined
  | a, b =>
    match c.apply a b with
    | .ok r => .ok (.bool r)
    | .error e =>
      if e.errorClass.isA .typeError || e.errorClass.isA .valueError then .ok .undefined
      else .error e

namespace Expr

def negate (v : Value) : Value :=
  match v with
  | .bool b => .bool !b
  | _ => .undefined

mutual

def eval (env : Environment) (document : Value) (e : Expr) : Except Error Value :=
  match e with
  | .field path => document.atPath path
  | .literal v => .ok v
  | .param name => .error (.parameterNotBound name.inserted)
  | .compare op left right =>
    match eval env document left with
    | .error err => .error err
    | .ok .undefined => .ok .undefined
    | .ok a => (eval env document right).bind (op.decide a)
  | .all operands => evalAll env document false operands
  | .any operands => evalAny env document false operands
  | .not operand => (eval env document operand).map negate
  | .call operator _ none => .error (.callNotBound operator.name)
  | .call operator arguments (some .perDocument) =>
    (evalEach env document arguments).bind (operator.apply env)
  | .call _ _ (some (.ofField key)) => key.ofDocument document
  | .call _ arguments (some (.ofTarget target metric)) =>
    match arguments with
    | [] => .error .missingArgument
    | first :: _ =>
      (eval env document first).bind fun v =>
        (Embedding.ofStored v).bind fun stored =>
          match stored with
          | none => .ok .undefined
          | some stored => (metric.distance stored target).map .real
termination_by structural e

/-- A conjunction: false at the first false operand, and otherwise undefined if an operand was
neither true nor false. -/
def evalAll (env : Environment) (document : Value) (undecided : Bool) (es : List Expr) :
    Except Error Value :=
  match es with
  | [] => .ok (if undecided then .undefined else .bool true)
  | e :: es =>
    match eval env document e with
    | .error err => .error err
    | .ok v => if v.isFalse then .ok (.bool false)
      else evalAll env document (undecided || !v.isTrue) es
termination_by structural es

/-- A disjunction: true at the first true operand, and otherwise undefined if an operand was
neither true nor false. -/
def evalAny (env : Environment) (document : Value) (undecided : Bool) (es : List Expr) :
    Except Error Value :=
  match es with
  | [] => .ok (if undecided then .undefined else .bool false)
  | e :: es =>
    match eval env document e with
    | .error err => .error err
    | .ok v => if v.isTrue then .ok (.bool true)
      else evalAny env document (undecided || !v.isFalse) es
termination_by structural es

def evalEach (env : Environment) (document : Value) (es : List Expr) :
    Except Error (List Value) :=
  match es with
  | [] => .ok []
  | e :: es =>
    match eval env document e with
    | .error err => .error err
    | .ok v => (evalEach env document es).map (v :: ·)
termination_by structural es

end

/-- A document is admitted only by the exact value true. -/
def admits (env : Environment) (e : Expr) (document : Value) : Except Error Bool :=
  (e.eval env document).map Value.isTrue

end Expr

end NearDoc
