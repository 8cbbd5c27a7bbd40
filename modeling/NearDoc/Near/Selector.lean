import NearDoc.Value.Order
import NearDoc.Sort.Basic

/-!
Keeping the `k` entries with the smallest keys. The entries form a binary heap with the largest
key at the root and, of equal keys, the later entry nearer to it. An entry that cannot be compared
makes the offer fail.
-/

namespace NearDoc

/-- A key, the number of offers before it, and the item it belongs to. -/
structure Entry (α : Type) where
  key : Value
  arrival : Nat
  item : α

namespace Entry

variable {α : Type}

/-- `a` belongs nearer to the root than `b`: its key is larger, or the same and it came later. -/
def above (a b : Entry α) : Except Error Bool := do
  if ← a.key.eqv b.key then return decide (b.arrival < a.arrival)
  b.key.lt a.key

/-- `a` comes before `b` in ascending order: by key, then by arrival. -/
def before (a b : Entry α) : Except Error Bool := do
  if a.key.isSame b.key then return decide (a.arrival < b.arrival)
  if ← a.key.eqv b.key then return decide (a.arrival < b.arrival)
  a.key.lt b.key

end Entry

/-- A heap and whether the last change to it was carried through or failed on the way. -/
abbrev HeapResult (α : Type) := Array (Entry α) × Option Error

namespace Heap

variable {α : Type}

/-- Moves the entry at a place towards the root while it belongs above its parent. -/
def rise (heap : Array (Entry α)) (place : Nat) : HeapResult α :=
  if 0 < place then
    let parent := (place - 1) / 2
    match heap[place]?, heap[parent]? with
    | some e, some p =>
      match e.above p with
      | .error err => (heap, some err)
      | .ok false => (heap, none)
      | .ok true => rise (heap.swapIfInBounds place parent) parent
    | _, _ => (heap, none)
  else (heap, none)
termination_by place

theorem size_rise (heap : Array (Entry α)) (place : Nat) :
    (rise heap place).1.size = heap.size := by
  fun_induction rise heap place with
  | case3 => simp_all
  | _ => rfl

/-- The child of a place that belongs nearer to the root, when it has two; the left one when it
has one. -/
def upperChild (heap : Array (Entry α)) (place : Nat) : Except Error Nat :=
  let left := 2 * place + 1
  match heap[left]?, heap[left + 1]? with
  | some l, some r => do return if ← l.above r then left else left + 1
  | _, _ => .ok left

/-- Moves the entry at a place down to a leaf, its upper child taking its place each time, and
then up again to where it belongs. -/
def sink (heap : Array (Entry α)) (place : Nat) : HeapResult α :=
  if 2 * place + 1 < heap.size then
    match upperChild heap place with
    | .error err => (heap, some err)
    | .ok child =>
      if place < child ∧ child < heap.size then
        sink (heap.swapIfInBounds place child) child
      else (heap, none)
  else rise heap place
termination_by heap.size - place
decreasing_by simp; omega

theorem size_sink (heap : Array (Entry α)) (place : Nat) :
    (sink heap place).1.size = heap.size := by
  fun_induction sink heap place with
  | case2 => simp_all
  | case4 => exact size_rise ..
  | _ => rfl

end Heap

inductive Room where
  | upTo (n : Nat)
  | unbounded
  /-- Entries are asked for, but no number of them is less than the count. -/
  | closed
  deriving DecidableEq

namespace Room

def admits : Room → Nat → Bool
  | .upTo n, size => size < n
  | .unbounded, _ => true
  | .closed, _ => false

def isNone : Room → Bool
  | .upTo 0 => true
  | _ => false

/-- As many entries as a number says, a fraction rounded up; nothing for a number below zero. -/
def ofNumber : Number → Room
  | .int i => .upTo i.toNat
  | .real (.finite negative units _) =>
    .upTo (if negative then 0 else (units + 2 ^ 1074 - 1) / 2 ^ 1074)
  | .real (.infinite negative) => if negative then .upTo 0 else .unbounded
  | .real (.nan _) => .closed

def ofValue (k : Value) : Except Error Room := do
  if ← k.relate .le (.int 0) then return .upTo 0
  match k.number?, k with
  | some n, _ => return ofNumber n
  | none, .scalar s => return ofNumber s.number
  | none, .array a => return ofNumber (a.items.headD (.int 0))
  | none, k => throw (.incomparable "<=" k.typeName "int")

end Room

/-- The entries kept so far, never more than there is room for. -/
structure Selector (α : Type) where
  room : Room
  heap : Array (Entry α) := #[]
  arrivals : Nat := 0

namespace Selector

variable {α : Type}

def empty (room : Room) : Selector α := { room }

def size (s : Selector α) : Nat := s.heap.size

def capacity (k : Value) : Except Error Value := do
  return if ← (Value.int 0).relate .gt k then .int 0 else k

def largest (s : Selector α) : Value := (s.heap[0]?).elim .undefined (·.key)

/-- Offers an item. It is kept while there is room, and then in place of the largest key if its
own is smaller; without a largest key the offer fails. The state after a failed offer is the one
the failure left. -/
def offer (s : Selector α) (key : Value) (item : α) : Selector α × Except Error Bool :=
  if s.room.isNone then (s, .ok false)
  else
    let entry : Entry α := ⟨key, s.arrivals, item⟩
    let s := { s with arrivals := s.arrivals + 1 }
    if s.room.admits s.size then
      let (heap, failure) := Heap.rise (s.heap.push entry) s.size
      ({ s with heap }, failure.elim (.ok true) .error)
    else
      match s.heap[0]? with
      | none => (s, .error .emptySelector)
      | some root =>
        match key.lt root.key with
        | .error e => (s, .error e)
        | .ok false => (s, .ok false)
        | .ok true =>
          let (heap, failure) := Heap.sink (s.heap.setIfInBounds 0 entry) 0
          ({ s with heap }, failure.elim (.ok true) .error)

/-- Empties the selector and answers what it kept, in ascending order. -/
def drain (s : Selector α) : Selector α × Except Error (List (Value × α)) :=
  match Sort.sort Entry.before s.heap.toList with
  | .error e => (s, .error e)
  | .ok entries => ({ s with heap := #[] }, .ok (entries.map fun e => (e.key, e.item)))

end Selector

end NearDoc
