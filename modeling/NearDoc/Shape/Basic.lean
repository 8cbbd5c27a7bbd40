/-!
Shapes: the sizes of the axes along which items are laid out, the outermost first. Items stand in
row order.
-/

namespace NearDoc

abbrev Shape := List Nat

namespace Shape

def mostAxes : Nat := 64

/-- How many items a shape has room for; no axes hold one. -/
def size (shape : Shape) : Nat := shape.foldr (· * ·) 1

def rows (count : Nat) (items : List α) : List (List α) :=
  let width := items.length / count
  (List.range count).map fun i => (items.drop (i * width)).take width

/-- Two lists of sizes, innermost first, brought to one: an axis that is missing or has size one
is stretched. -/
def stretch? : List Nat → List Nat → Option (List Nat)
  | [], ns => some ns
  | ms, [] => some ms
  | m :: ms, n :: ns =>
    if m = n ∨ n = 1 then (stretch? ms ns).map (m :: ·)
    else if m = 1 then (stretch? ms ns).map (n :: ·)
    else none

def meet? (a b : Shape) : Option Shape := (stretch? a.reverse b.reverse).map List.reverse

def commonAxes : Shape → Shape → Shape
  | m :: ms, n :: ns => if m = n then m :: commonAxes ms ns else []
  | _, _ => []

theorem stretch?_self (ns : List Nat) : stretch? ns ns = some ns := by
  induction ns with
  | nil => rfl
  | cons n ns ih => simp [stretch?, ih]

/-- A shape meets itself in itself. -/
theorem meet?_self (a : Shape) : meet? a a = some a := by simp [meet?, stretch?_self]

/-- A single item meets every shape. -/
theorem meet?_nil_left (a : Shape) : meet? [] a = some a := by simp [meet?, stretch?]

end Shape

end NearDoc
