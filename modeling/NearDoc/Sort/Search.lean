import NearDoc.Error

/-!
Counting the entries that pass a test when those that pass stand in front, by a test that may
fail: by halving between two bounds, or by leaps that grow until one goes too far. Sorted
entries are counted from their first one on or from their last one back.
-/

namespace NearDoc.Sort

variable {α : Type}

/-- Whether sorted entries are taken from the first one on or from the last one back. -/
inductive Direction where
  | forward
  | backward
deriving DecidableEq, Repr

def Direction.view : Direction → List α → List α
  | .forward, entries => entries
  | .backward, entries => entries.reverse

@[simp] theorem Direction.view_view (d : Direction) (entries : List α) :
    d.view (d.view entries) = entries := by
  cases d <;> simp [Direction.view]

/-- The entry that halves a gap: of two in the middle the one that is later when sorted. -/
def Direction.middle : Direction → Nat → Nat → Nat
  | .forward, low, high => (low + high) / 2
  | .backward, low, high => (low + high - 1) / 2

theorem Direction.middle_bounds (d : Direction) {low high : Nat} (h : low < high) :
    low ≤ d.middle low high ∧ d.middle low high < high := by
  cases d <;> simp only [Direction.middle] <;> omega

variable (passes : α → Except Error Bool) (d : Direction)

/-- How many entries pass, when that is between `low` and `high`, by halving. -/
def countBetween (entries : List α) (low high : Nat) : Except Error Nat :=
  if _h : low < high then
    match entries[d.middle low high]? with
    | none => .ok low
    | some a =>
      match passes a with
      | .error e => .error e
      | .ok true => countBetween entries (d.middle low high + 1) high
      | .ok false => countBetween entries low (d.middle low high)
  else .ok low
termination_by high - low
decreasing_by all_goals have := d.middle_bounds ‹_›; omega

/-- How many entries pass, at least `low`: the entry `probe` is asked, then ones about twice as
far on, until one does not pass; the gap before that one is halved. -/
def countFrom (entries : List α) (low probe : Nat) : Except Error Nat :=
  if h : probe < entries.length then
    match passes entries[probe] with
    | .error e => .error e
    | .ok true => countFrom entries (probe + 1) (2 * probe + 1)
    | .ok false => countBetween passes d entries low probe
  else countBetween passes d entries low entries.length
termination_by entries.length - probe

/-- How many entries pass, by leaps over the entries 0, 1, 3, 7 and so on. -/
def leap (entries : List α) : Except Error Nat :=
  countFrom passes d entries 0 0

end NearDoc.Sort
