import NearDoc.Sort.Search

/-!
Merging two neighbouring runs, the entries of the left one before their equals in the right one.
A merge takes entries from the front on or from the back, entry by entry as long as neither run
has many in a row, by leaps otherwise. How many in a row are many is learnt: leaps that pay make
the next ones easier to come by, leaps that do not make them harder.
-/

namespace NearDoc.Sort

variable {α : Type}

/-- A leap over so many entries has paid. -/
def goodLeap : Nat := 7

/-- How a merge goes on. A new measure of how many entries in a row are many holds from there
on. -/
inductive Pace where
  /-- Entry by entry, after so many in a row from the left run or from the right one. -/
  | walking (many lefts rights : Nat)
  /-- By a leap in the left run. -/
  | leapingLeft (many : Nat)
  /-- By a leap in the right run, after one over `lefts` entries in the left run. -/
  | leapingRight (many lefts : Nat)

/-- Goes on entry by entry until one run has had many in a row. -/
def Pace.walkOn (many lefts rights : Nat) : Pace :=
  if many ≤ max lefts rights then .leapingLeft many else .walking many lefts rights

/-- Goes on by leaps while one of the last two has paid. -/
def Pace.leapOn (many lefts rights : Nat) : Pace :=
  if goodLeap ≤ max lefts rights then .leapingLeft (max (many - 1) 1)
  else .walking (many + 1) 0 0

/-- What follows in a merge without another comparison, if that is clear: a run has come to its
end, or one entry is left of the run that the merge ends with. -/
def settled? : Direction → List α → List α → Option (List α)
  | _, [], right => some right
  | _, left, [] => some left
  | .forward, [l], right => some (right ++ [l])
  | .backward, left, [r] => some (left ++ [r])
  | _, _, _ => none

variable (before : α → α → Except Error Bool) (d : Direction)

/-- Whether an entry of the right run is taken before one of the left run. -/
def rightNext (l r : α) : Except Error Bool :=
  (before r l).map (· == (d == .forward))

/-- How many entries of the left run are taken before one of the right run. -/
def leapLeft (left : List α) (r : α) : Except Error Nat :=
  leap (fun l => (rightNext before d l r).map (!·)) d left

/-- How many entries of the right run are taken before one of the left run. -/
def leapRight (l : α) (right : List α) : Except Error Nat :=
  leap (rightNext before d l) d right

/-- The entries of both runs in the order in which they are taken, and how many in a row are
many in the end. Both runs are given in the order in which they are taken. -/
def takeMerged (many : Nat) (pace : Pace) (left right : List α) : Except Error (List α × Nat) :=
  match settled? d left right, left, right with
  | some rest, _, _ => .ok (rest, many)
  | none, l :: ls, r :: rs =>
    match pace with
    | .walking many lefts rights =>
      match rightNext before d l r with
      | .error e => .error e
      | .ok true =>
        (takeMerged many (.walkOn many 0 (rights + 1)) (l :: ls) rs).map fun m => (r :: m.1, m.2)
      | .ok false =>
        (takeMerged many (.walkOn many (lefts + 1) 0) ls (r :: rs)).map fun m => (l :: m.1, m.2)
    | .leapingLeft many =>
      match leapLeft before d (l :: ls) r with
      | .error e => .error e
      | .ok k =>
        let leapt := (l :: ls).take k
        match settled? d ((l :: ls).drop k) (r :: rs) with
        | some rest => .ok (leapt ++ rest, many)
        | none =>
          (takeMerged many (.leapingRight many k) ((l :: ls).drop k) rs).map fun m =>
            (leapt ++ r :: m.1, m.2)
    | .leapingRight many lefts =>
      match leapRight before d l (r :: rs) with
      | .error e => .error e
      | .ok k =>
        let leapt := (r :: rs).take k
        match settled? d (l :: ls) ((r :: rs).drop k) with
        | some rest => .ok (leapt ++ rest, many)
        | none =>
          (takeMerged many (.leapOn many lefts k) ls ((r :: rs).drop k)).map fun m =>
            (leapt ++ l :: m.1, m.2)
  | none, left, right => .ok (left ++ right, many)
termination_by left.length + right.length
decreasing_by all_goals simp only [List.length_cons, List.length_drop]; omega

/-- Merges two runs of which the right one begins before the left one and the left one ends
after the right one: from the front if the left one is not longer, from the back otherwise. -/
def mergeCrossed (many : Nat) (left right : List α) : Except Error (List α × Nat) :=
  if left.length ≤ right.length then
    match right with
    | [] => .ok (left, many)
    | r :: rs =>
      (takeMerged before .forward many (.walking many 0 0) left rs).map fun m => (r :: m.1, m.2)
  else
    match left.reverse with
    | [] => .ok (right, many)
    | l :: ls =>
      (takeMerged before .backward many (.walking many 0 0) ls right.reverse).map fun m =>
        ((l :: m.1).reverse, m.2)

/-- Merges two neighbouring runs. What is in place already, in front of the left run and at the
back of the right one, is found by leaps. -/
def merge (many : Nat) (left right : List α) : Except Error (List α × Nat) :=
  match right with
  | [] => .ok (left, many)
  | r :: _ => do
    let front ← leapLeft before .forward left r
    match (left.drop front).getLast? with
    | none => return (left ++ right, many)
    | some l =>
      let back ← leapRight before .backward l right.reverse
      let within := right.length - back
      if within = 0 then return (left ++ right, many)
      let (merged, many) ← mergeCrossed before many (left.drop front) (right.take within)
      return (left.take front ++ merged ++ right.drop within, many)

end NearDoc.Sort
