import NearDoc.Sort.Basic
import NearDoc.Text.LetterCase
import NearDoc.Text.Order
import NearDoc.Expr.Basic

/-!
The registry of operators, which finds them by name in any case and by number of arguments.
-/

namespace NearDoc

open Text

structure OperatorKey where
  name : String
  arity : Value

/-- Operators by upper-case name and arity, each pair once. -/
structure Operators where
  entries : List (OperatorKey × Operator)

/-- What an operator is registered under. -/
def Operator.key (op : Operator) : OperatorKey := ⟨upper op.name, op.arity⟩

/-- Whether two keys have one name and arities that count as one. -/
def OperatorKey.same (k l : OperatorKey) : Bool :=
  k.name = l.name && (k.arity.isOneName l.arity).toOption.getD false

namespace Operators

def empty : Operators := ⟨[]⟩

def find? (ops : Operators) (key : OperatorKey) : Option Operator :=
  (ops.entries.find? (·.1.same key)).map (·.2)

/-- Adds an operator, or replaces the one of its name and arity. -/
def insert (ops : Operators) (op : Operator) : Operators :=
  if (ops.find? op.key).isSome then
    ⟨ops.entries.map fun e => if e.1.same op.key then (e.1, op) else e⟩
  else ⟨ops.entries ++ [(op.key, op)]⟩

/-- Adds an operator. Its arity must have a hash, and one of its name and arity must not be there
unless it may be replaced. -/
def register (ops : Operators) (op : Operator) (replace : Bool) : Except Error Operators :=
  if op.arity.hashKey?.isNone then .error (.unhashable op.arity.typeName)
  else if (ops.find? op.key).isSome && !replace then
    .error (.operatorTaken op.key.name op.arity.inserted)
  else .ok (ops.insert op)

def withDistance (ops : Operators) : Operators :=
  (ops.insert (.distance false (.int 2))).insert (.distance true (.int 3))

/-- The operators that are known unless others are given. -/
def standard : Operators := empty.withDistance

/-- The arities known for an upper-case name, in increasing order. -/
def arities (ops : Operators) (name : String) : Except Error (List Value) :=
  Sort.sort Value.lt
    (ops.entries.filterMap fun e => if e.1.name = name then some e.1.arity else none)

/-- Why no operator is found: the name is unknown, or it is known with other arities than the one
that was given, or these cannot be put in order or written. -/
def refusal (ops : Operators) (name : String) (given : Value) : Error :=
  match ops.arities (upper name) with
  | .error e => e
  | .ok [] => .unknownFunction name
  | .ok known =>
    if known.all Value.isWritable then
      .wrongArity (upper name) (known.map Value.toText) given.inserted
    else .integerTooLong

/-- The operator of a name and an arity, which must have a hash. -/
def resolve (ops : Operators) (name : String) (arity : Value) : Except Error Operator :=
  if arity.hashKey?.isNone then .error (.unhashable arity.typeName)
  else (ops.find? ⟨upper name, arity⟩).elim (.error (ops.refusal name arity)) .ok

def names (ops : Operators) : List String :=
  sortTexts (ops.entries.map (·.1.name)).eraseDups

def contains (ops : Operators) (name : String) : Bool := ops.names.contains (upper name)

/-! ### Names of any kind -/

/-- A name that has an upper case: a text, or bytes, which name no operator and are none. -/
def nameOf : Value → Except Error (Option String)
  | .text s => .ok (some s)
  | .bytes _ => .ok none
  | _ => .error (.unknownCall "upper")

def resolveValue (ops : Operators) (name arity : Value) : Except Error Operator := do
  match ← nameOf name with
  | some s => ops.resolve s arity
  | none =>
    throw (if arity.hashKey?.isSome then .unknownFunction name.inserted
      else .unhashable arity.typeName)

def containsValue (ops : Operators) (name : Value) : Except Error Bool :=
  (nameOf name).map fun text => text.elim false ops.contains

/-! ### Calls -/

def call (ops : Operators) (name : String) (arguments : List Expr) : Except Error Expr :=
  (ops.resolve name (.int arguments.length)).map fun op => .call op arguments none

def callNamed (ops : Operators) (name : Value) (arguments : List Expr) : Except Error Expr :=
  (ops.resolveValue name (.int arguments.length)).map fun op => .call op arguments none

/-- The distance of a field to a target: path, target and operator are checked in this order. -/
def distanceCall (ops : Operators) (field target metric : Value) : Except Error Expr := do
  let field ← Expr.field? field
  let target ← Embedding.ofValue target
  let metric := if metric.isNull then [] else [Expr.literal metric]
  ops.call distanceName ([field, .literal (.embedding target)] ++ metric)

end Operators

end NearDoc
