import NearDoc.Text.LetterCase
import NearDoc.Value.Written
import NearDoc.Expr.Basic

/-!
The column name of an expression, its text for messages, and when two expressions count as the
same.
-/

namespace NearDoc.Expr

open Text

/-- The column name of an expression that is given no other. -/
def label : Expr → Value
  | .field path => .text path
  | .literal _ => .text "literal"
  | .param name => name
  | .compare op left right =>
    .text ((label left).inserted ++ " " ++ op.symbol ++ " " ++ (label right).inserted)
  | .all _ | .any _ | .not _ => .text "expr"
  | .call operator _ _ => .text (lower operator.name)

mutual

def written (e : Expr) : String :=
  match e with
  | .field path => "Field(" ++ quoted path ++ ")"
  | .literal v => "Literal(" ++ v.written ++ ")"
  | .param name => "Parameter(" ++ name.written ++ ")"
  | .compare op left right =>
    "Comparison(" ++ quoted op.symbol ++ ", " ++ written left ++ ", " ++ written right ++ ")"
  | .all operands => "And" ++ Value.encloseTuple (writtenEach operands)
  | .any operands => "Or" ++ Value.encloseTuple (writtenEach operands)
  | .not operand => "Not(" ++ written operand ++ ")"
  | .call operator arguments _ =>
    "Call(" ++ quoted operator.name ++ ", " ++ Value.enclose "[" "]" (writtenEach arguments) ++ ")"
termination_by structural e

def writtenEach (es : List Expr) : List String :=
  match es with
  | [] => []
  | e :: es => written e :: writtenEach es
termination_by structural es

end

def sameType (v w : Value) : Bool := v.isDeclared = w.isDeclared && v.typeName = w.typeName

/-- Fields are the same by path, literals by type and value; any other two expressions differ. -/
def same (a b : Expr) : Except Error Bool :=
  match a, b with
  | .field p, .field q => .ok (p = q)
  | .literal v, .literal w => if sameType v w then v.eqv w else .ok false
  | _, _ => .ok false

/-- What the hash of an expression is taken of: of a literal it is the value as it is written, if
it can be. Expressions with no key have a hash of their own. -/
def hashKey? : Expr → Except Error (Option HashKey)
  | .field path => .ok (some (.tuple [.ofText "field", .ofText path]))
  | .literal v =>
    if v.isWritable then .ok (some (.tuple [.ofText "literal", .ofText v.written]))
    else .error .integerTooLong
  | _ => .ok none

def sameHash (a b : Expr) : Except Error Bool := do
  match ← a.hashKey?, ← b.hashKey? with
  | some k, some l => return k.same l
  | _, _ => return false

end NearDoc.Expr
