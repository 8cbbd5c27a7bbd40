import NearDoc.Expr.Bind
import NearDoc.Expr.Written

/-!
Query plans: which documents to scan, which to admit, their order, how many and what to show of
them.
-/

namespace NearDoc

/-- A sort key and its direction, which is descending if it counts as true. -/
structure SortKey where
  expr : Expr
  descending : Value := .bool false

/-- The direction that a sort takes: it must be an integer of 32 bits. -/
def SortKey.isDescending (k : SortKey) : Except Error Bool :=
  match k.descending.index? with
  | none => .error (.notIndex k.descending.typeName)
  | some i => if -(2 ^ 31) ≤ i ∧ i < 2 ^ 31 then .ok (i ≠ 0) else .error .integerPastHalfWord

/-- A column of the answer and the name it is given, which may be null. -/
structure Column where
  expr : Expr
  givenName : Value := .null

/-- The given name of a column, if that counts as true, and the label of its expression
otherwise. -/
def Column.name (c : Column) : Except Error Value := do
  return if ← c.givenName.truthy then c.givenName else c.expr.label

/-- A plan. Its collection may be null, and so may its limit, which is a count. -/
structure Plan where
  collection : Value := .null
  predicate : Option Expr := none
  order : List SortKey := []
  limit : Value := .null
  columns : Option (List Column) := none

inductive Strategy where
  | empty
  | topK
  | sort
  | stream
  deriving DecidableEq

def Strategy.name : Strategy → String
  | .empty => "empty"
  | .topK => "top_k"
  | .sort => "sort"
  | .stream => "stream"

namespace Plan

/-- The greatest number of rows that a scan or a sort can be cut at. -/
def greatestCount : Int := 2 ^ 63 - 1

/-- The number of rows that a count asks for; null asks for all. -/
def rowCount (count : Value) : Except Error (Option Nat) :=
  if count.isNull then .ok none
  else match count.index? with
    | some i => if i < 0 ∨ greatestCount < i then .error .countOutOfRange else .ok (some i.toNat)
    | none => .error .countOutOfRange

/-- With no room for a row nothing is done; one ascending key and a limit need only the smallest
keys; any other order is a sort. -/
def strategy (p : Plan) : Except Error Strategy := do
  if !p.limit.isNull then
    if ← p.limit.relate .le (.int 0) then return .empty
  match p.order with
  | [] => return .stream
  | [key] =>
    if ← key.descending.truthy then return .sort
    return if p.limit.isNull then .sort else .topK
  | _ => return .sort

/-- The names of all columns, if only some are shown. -/
def columnNames (p : Plan) : Except Error (Option (List Value)) :=
  p.columns.mapM fun cs => cs.mapM Column.name

/-- Applies a function to every expression of the plan, predicate first, then sort keys, then
columns, up to the first failure. -/
def mapExprs (p : Plan) (f : Expr → Except Error Expr) : Except Error Plan := do
  let predicate ← p.predicate.mapM f
  let order ← p.order.mapM fun k => return { k with expr := ← f k.expr }
  let columns ← p.columns.mapM fun cs => cs.mapM fun c => return { c with expr := ← f c.expr }
  return { p with predicate, order, columns }

def bind (p : Plan) (env : Environment) (params : Params) : Except Error Plan :=
  p.mapExprs (Expr.bind env params)

/-- What a plan scans unless it is given documents: the collection it names. -/
def defaultSource (p : Plan) : Except Error Value := do
  if ← p.collection.truthy then return p.collection
  throw .noSource

end Plan

end NearDoc
