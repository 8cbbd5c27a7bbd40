import NearDoc.Number.Rounding
import NearDoc.Sort.Merge
import NearDoc.Sort.Run

/-!
Stable sorting by a comparison that may fail. The entries are cut into runs; a run is piled on
those before it, and neighbours in the pile are merged so that merges stay balanced: a boundary
between two runs is as deep as the first binary place in which the middles of the runs, as parts
of the whole, differ, and deeper boundaries are merged first.
-/

namespace NearDoc.Sort

variable {α : Type}

/-- How long runs are made among `total` entries: fewer than 64 are one run, otherwise the total
over a power of two, rounded up, from 32 to 64. -/
def leastRun (total : Nat) : Nat :=
  let parts := 2 ^ (total.log2 - 5)
  (total + parts - 1) / parts

/-- How deep the boundary of two neighbouring runs is among `total` entries, from where the left
one starts and how long both are. -/
def boundaryDepth (total start left right : Nat) : Nat :=
  let middle := 2 * start + left
  ((List.range (total.log2 + 1)).find? fun place =>
    middle * 2 ^ place / total != (middle + left + right) * 2 ^ place / total).elim 0 (· + 1)

/-- A run in the pile, with its place among the entries and the depth of the boundary under
it. -/
structure PiledRun (α : Type) where
  entries : List α
  start : Nat
  depth : Nat

/-- The runs so far, the last one on top, and how many entries in a row are many in a merge. -/
structure Pile (α : Type) where
  top : PiledRun α
  under : List (PiledRun α)
  many : Nat

variable (before : α → α → Except Error Bool)

/-- Merges the run on top with those under it while the boundary is deeper than `depth`. -/
def settle (depth many : Nat) (top : PiledRun α) : List (PiledRun α) → Except Error (Pile α)
  | [] => .ok ⟨top, [], many⟩
  | run :: under =>
    if depth < top.depth then
      match merge before many run.entries top.entries with
      | .error e => .error e
      | .ok (merged, many) => settle depth many { run with entries := merged } under
    else .ok ⟨top, run :: under, many⟩

def Pile.push (total : Nat) (pile : Pile α) (run : List α) : Except Error (Pile α) := do
  let last := pile.top
  let depth := boundaryDepth total last.start last.entries.length run.length
  let pile ← settle before depth pile.many last pile.under
  return ⟨⟨run, last.start + last.entries.length, depth⟩, pile.top :: pile.under, pile.many⟩

def pileUp (total : Nat) (pile : Pile α) (entries : List α) : Except Error (Pile α) :=
  match entries with
  | [] => .ok pile
  | a :: rest =>
    match _h : nextRun before (leastRun total) (a :: rest) with
    | .error e => .error e
    | .ok (run, rest') =>
      match pile.push before total run with
      | .error e => .error e
      | .ok pile => pileUp total pile rest'
termination_by entries.length
decreasing_by exact length_nextRun _h

/-- Merges all runs of a pile from its top. A run between two others goes to the shorter one. -/
def finish (many : Nat) (top : List α) : List (List α) → Except Error (List α)
  | [] => .ok top
  | [run] => (merge before many run top).map (·.1)
  | run :: under :: rest =>
    if under.length < top.length then
      match merge before many under run with
      | .error e => .error e
      | .ok (merged, many) => finish many top (merged :: rest)
    else
      match merge before many run top with
      | .error e => .error e
      | .ok (merged, many) => finish many merged (under :: rest)
termination_by runs => runs.length

/-- The entries in ascending order, equal ones in the order they have. -/
def sort (entries : List α) : Except Error (List α) := do
  let (run, rest) ← nextRun before (leastRun entries.length) entries
  let pile ← pileUp before entries.length ⟨⟨run, 0, 0⟩, [], goodLeap⟩ rest
  finish before pile.many pile.top.entries (pile.under.map (·.entries))

/-- The entries in descending order, equal ones in the order they have. -/
def sortDescending (entries : List α) : Except Error (List α) :=
  (sort before entries.reverse).map List.reverse

end NearDoc.Sort
