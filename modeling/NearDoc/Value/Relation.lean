import NearDoc.Number.Binary64

/-!
The relations in which values may stand: equality and four relations of order.
-/

namespace NearDoc

inductive OrderRelation where
  | lt
  | le
  | gt
  | ge
  deriving DecidableEq

namespace OrderRelation

def symbol : OrderRelation → String
  | .lt => "<"
  | .le => "<="
  | .gt => ">"
  | .ge => ">="

/-- The relation on numbers; what is not a number stands in none. -/
def ofNumbers : OrderRelation → Number → Number → Bool
  | .lt, a, b => a.lt b
  | .le, a, b => a.lt b || a.eq b
  | .gt, a, b => b.lt a
  | .ge, a, b => b.lt a || a.eq b

def ofOrdering : OrderRelation → Ordering → Bool
  | .lt, o => o.isLT
  | .le, o => o.isLE
  | .gt, o => o.isGT
  | .ge, o => o.isGE

def converse : OrderRelation → OrderRelation
  | .lt => .gt
  | .le => .ge
  | .gt => .lt
  | .ge => .le

end OrderRelation

inductive Relation where
  | equal
  | order (r : OrderRelation)
  deriving DecidableEq

namespace Relation

def symbol : Relation → String
  | .equal => "=="
  | .order r => r.symbol

def isOrder : Relation → Bool
  | .equal => false
  | .order _ => true

def ofNumbers : Relation → Number → Number → Bool
  | .equal, a, b => a.eq b
  | .order r, a, b => r.ofNumbers a b

def converse : Relation → Relation
  | .equal => .equal
  | .order r => .order r.converse

end Relation

end NearDoc
