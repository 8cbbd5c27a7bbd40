import NearDoc.Number.Bytes
import NearDoc.Value.Order
import NearDoc.Value.Written

/-!
Hashing of values. Numbers hash to their residue modulo `2 ^ 61 - 1`, so that equal numbers of any
type share a hash; what is not a number hashes by its occurrence; text and bytes hash by their
bytes, and embeddings as tuples of their components.
-/

namespace NearDoc

namespace Number

def hashModulus : Nat := 2 ^ 61 - 1

/-- The residue of a signed magnitude; minus one shares the hash of minus two. -/
def residue (negative : Bool) (magnitude : Nat) : Int :=
  let r : Int := (magnitude % hashModulus : Nat)
  let h := if negative then -r else r
  if h = -1 then -2 else h

/-- The hash of a number. A unit of `2 ^ -1074` counts as `2 ^ 24`, its residue. -/
def hash : Number → Int
  | .int i => residue (i < 0) i.natAbs
  | .real (.finite negative units _) => residue negative (units * 2 ^ 24)
  | .real (.infinite negative) => if negative then -314159 else 314159
  | .real (.nan _) => 0

end Number

inductive HashKey where
  | number (h : Int)
  /-- One occurrence of what is not a number. -/
  | occurrence (mark : Nat)
  | bytes (bs : List UInt8)
  | tuple (keys : List HashKey)
  | constant (name : String)

namespace HashKey

mutual

def same (k l : HashKey) : Bool :=
  match k, l with
  | .number m, .number n => m = n
  | .occurrence m, .occurrence n => m ≠ 0 && m = n
  | .bytes s, .bytes t => s = t
  | .tuple ks, .tuple ls => sameEach ks ls
  | .constant m, .constant n => m = n
  | _, _ => false
termination_by structural k

def sameEach (ks ls : List HashKey) : Bool :=
  match ks, ls with
  | [], [] => true
  | k :: ks, l :: ls => same k l && sameEach ks ls
  | _, _ => false
termination_by structural ks

end

def ofNumber : Number → HashKey
  | .real (.nan mark) => .occurrence mark
  | n => .number n.hash

/-- Bytes are hashed as they are; none have the hash of zero. -/
def ofBytes : List UInt8 → HashKey
  | [] => .number 0
  | bs => .bytes bs

/-- How many bytes hold each code point of a text: one, two or four for all of them. -/
def codeWidth (codes : List Nat) : Nat :=
  if codes.all (· < 0x100) then 1 else if codes.all (· < 0x10000) then 2 else 4

def ofText (s : String) : HashKey :=
  let codes := s.toList.map Char.toNat
  ofBytes (codes.flatMap (Number.littleEndian (codeWidth codes)))

end HashKey

namespace Value

mutual

/-- What the hash of a value is taken of; lists, objects and arrays have none. -/
def hashKey? (v : Value) : Option HashKey :=
  match v with
  | .bool b => some (.ofNumber (.int (if b then 1 else 0)))
  | .int i => some (.ofNumber (.int i))
  | .real x => some (.ofNumber (.real x))
  | .scalar s => some (.ofNumber s.number)
  | .text s => some (.ofText s)
  | .bytes bs => some (.ofBytes bs)
  | .embedding v => some (.tuple (v.components.map fun x => .ofNumber (.real x)))
  | .tuple xs => (hashKeys? xs).map .tuple
  | .list _ | .object _ | .array _ => none
  | .null | .undefined => some (.constant v.typeName)
termination_by structural v

def hashKeys? (vs : List Value) : Option (List HashKey) :=
  match vs with
  | [] => some []
  | v :: vs =>
    match hashKey? v, hashKeys? vs with
    | some k, some ks => some (k :: ks)
    | _, _ => none
termination_by structural vs

end

structure Identity where
  equal : Bool
  sameHash : Bool

/-- Whether two values are equal and whether they share a hash. They are compared first; then
both must have a hash. -/
def identity (v w : Value) : Except Error Identity := do
  let equal ← v.eqv w
  match v.hashKey?, w.hashKey? with
  | some k, some l => return ⟨equal, k.same l⟩
  | none, _ => throw (.unhashable v.typeName)
  | _, none => throw (.unhashable w.typeName)

def Identity.members (i : Identity) : Nat := if i.equal && i.sameHash then 1 else 2

/-- Whether a collection takes a name for one that it holds: both share a hash, and they are one
occurrence or equal. -/
def isOneName (v w : Value) : Except Error Bool :=
  match v.hashKey?, w.hashKey? with
  | some k, some l => if !k.same l then .ok false else if isSame v w then .ok true else v.eqv w
  | _, _ => .ok false

/-- Gives a value to a name of any kind that has a hash: in its place if a name is there that it is
taken for, at the end otherwise. -/
def setNamed (name value : Value) : List (Value × Value) → Except Error (List (Value × Value))
  | [] => .ok [(name, value)]
  | (n, v) :: rest => do
    if ← n.isOneName name then return (n, value) :: rest
    return (n, v) :: (← setNamed name value rest)

end Value

end NearDoc
