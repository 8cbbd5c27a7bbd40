import NearDoc.Proofs.Value.Fields
import NearDoc.Proofs.Value.Ordered
import NearDoc.Query.Cursor

/-!
What a bound plan should answer, said without its strategy: the admitted documents, those with all
sort keys in the order of the keys, cut at the limit, each shown in the columns. Main statement: a
projection shows a document with every column name once, in the order of the first appearance, and
with the last value of that name.
-/

namespace NearDoc

open NearDoc.Sort

/-- The value of an expression that has one. -/
def Expr.valueOn (env : Environment) (e : Expr) (d : Value) : Value :=
  match e.eval env d with
  | .ok v => v
  | .error _ => .undefined

/-- Whether a document may stand in front of another by one key, in its direction. -/
def SortKey.orders (env : Environment) (k : SortKey) (a b : Value) : Bool :=
  if k.descending.isTrue then (k.expr.valueOn env b).atMost (k.expr.valueOn env a)
  else (k.expr.valueOn env a).atMost (k.expr.valueOn env b)

/-- The name of a column: the one it is given, or the label of its expression. -/
def Column.shownName (c : Column) : String :=
  match c.givenName with
  | .text s => if s.isEmpty then c.expr.label.toText else s
  | _ => c.expr.label.toText

namespace Fields

/-- The last value of a name. -/
def last (pairs : Fields) (name : String) : Value := (pairs.reverse.lookup name).getD .undefined

/-- Every name once, in the order of the first appearance, with its last value. -/
def lastOfEach (pairs : Fields) : Fields :=
  (pairs.map (·.1)).eraseDups.map fun name => (name, last pairs name)

end Fields

namespace Plan

variable (env : Environment) (p : Plan)

/-- The value of the predicate is exactly true. -/
def passes (d : Value) : Bool := p.predicate.all fun e => (e.valueOn env d).isTrue

/-- No sort key is undefined or null. -/
def hasKeys (d : Value) : Bool :=
  p.order.all fun k => !((k.expr.valueOn env d).isUndefined || (k.expr.valueOn env d).isNull)

/-- Whether a document may stand in front of another by several keys, the first ones first. -/
def ordersBy : List SortKey → Value → Value → Bool
  | [] => fun _ _ => true
  | k :: keys => lexicographic (k.orders env) (ordersBy keys)

/-- The documents in the order of the plan; without sort keys they stay in scan order. -/
def arranged (ds : List Value) : List Value :=
  match p.order with
  | [] => ds
  | keys => (ds.filter (p.hasKeys env)).mergeSort (ordersBy env keys)

/-- As many documents as the limit says, none for a limit below zero. -/
def limited (ds : List Value) : List Value :=
  match p.limit with
  | .int n => ds.take (max n 0).toNat
  | _ => ds

/-- The names and values of the columns that have a value. -/
def cells (columns : List Column) (d : Value) : Fields :=
  columns.filterMap fun c =>
    match c.expr.valueOn env d with
    | .undefined => none
    | v => some (c.shownName, v)

/-- A document, or what the columns show of it. -/
def shownRow (d : Value) : Value :=
  match p.columns with
  | none => d
  | some columns => .object (cells env columns d).lastOfEach

/-- What a bound plan answers on documents. -/
def answer (ds : List Value) : List Value :=
  (p.limited (p.arranged env (ds.filter (p.passes env)))).map (p.shownRow env)

end Plan

/-! ### Rows -/

namespace Fields

/-- Fields set one after the other stand in the order of the first appearance, each with its last
value. -/
theorem ofList_eq_lastOfEach (pairs : Fields) : ofList pairs = lastOfEach pairs := by
  rw [eq_map_get? (nodup_ofList pairs), map_fst_ofList, lastOfEach]
  refine List.map_congr_left fun name _ => ?_
  rw [get?_ofList, last]

end Fields

end NearDoc
