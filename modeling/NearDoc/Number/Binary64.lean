import NearDoc.Number.Rounding

/-!
Binary floating point with 53 significant bits. Every finite value is a whole number of units of
`2 ^ -1074`, so comparison is comparison of integers and each operation is the exact result
rounded once.
-/

namespace NearDoc

open Number

/-- A count of units that has at most 53 significant bits and is in range. -/
def Fits (units : Nat) : Prop :=
  units < 2 ^ 2098 ∧ units % 2 ^ (bitLength units - 53) = 0

instance (units : Nat) : Decidable (Fits units) := inferInstanceAs (Decidable (_ ∧ _))

/-- A number of the binary64 format. What is not a number may be marked: two occurrences with one
mark are the same occurrence, and mark zero is none. -/
inductive Binary64 where
  | nan (mark : Nat)
  | infinite (negative : Bool)
  | finite (negative : Bool) (units : Nat) (fits : Fits units)
  deriving DecidableEq

namespace Binary64

/-- `num / den` units, rounded to the format; beyond the range stands an infinity. -/
def roundTo (f : Format) (negative : Bool) (num den : Nat) : Binary64 :=
  let units := f.round num den
  if h : units < 2 ^ f.top ∧ Fits units then .finite negative units h.2 else .infinite negative

def ofUnits (negative : Bool) (num den : Nat) : Binary64 := roundTo .double negative num den

def zero : Binary64 := ofUnits false 0 1

def ofInt (i : Int) : Binary64 := ofUnits (i < 0) (i.natAbs * 2 ^ 1074) 1

/-- What is not a number, as operations answer it. -/
def notANumber : Binary64 := .nan 0

/-- Two occurrences of what is not a number are one. -/
def isSame : Binary64 → Binary64 → Bool
  | .nan m, .nan n => m ≠ 0 && m = n
  | _, _ => false

def unmarked : Binary64 → Binary64
  | .nan _ => .notANumber
  | x => x

def isFinite : Binary64 → Bool
  | .finite .. => true
  | _ => false

def narrow (f : Format) : Binary64 → Binary64
  | .finite negative units _ => roundTo f negative units 1
  | x => x

def toSingle : Binary64 → Binary64 := narrow .single

def neg : Binary64 → Binary64
  | .nan _ => .notANumber
  | .infinite n => .infinite !n
  | .finite n units h => .finite (!n) units h

def signed (negative : Bool) (units : Nat) : Int := if negative then -(units : Int) else units

def add : Binary64 → Binary64 → Binary64
  | .nan _, _ => .notANumber
  | _, .nan _ => .notANumber
  | .infinite m, .infinite n => if m = n then .infinite m else .notANumber
  | .infinite m, _ => .infinite m
  | _, .infinite n => .infinite n
  | .finite m a _, .finite n b _ =>
    let s := signed m a + signed n b
    ofUnits (if s = 0 then m && n else s < 0) s.natAbs 1

def sub (x y : Binary64) : Binary64 := add x (neg y)

def mul : Binary64 → Binary64 → Binary64
  | .nan _, _ => .notANumber
  | _, .nan _ => .notANumber
  | .infinite m, .infinite n => .infinite (m ^^ n)
  | .infinite m, .finite n b _ => if b = 0 then .notANumber else .infinite (m ^^ n)
  | .finite m a _, .infinite n => if a = 0 then .notANumber else .infinite (m ^^ n)
  | .finite m a _, .finite n b _ => ofUnits (m ^^ n) (a * b) (2 ^ 1074)

def div : Binary64 → Binary64 → Binary64
  | .nan _, _ => .notANumber
  | _, .nan _ => .notANumber
  | .infinite _, .infinite _ => .notANumber
  | .infinite m, .finite n _ _ => .infinite (m ^^ n)
  | .finite m _ _, .infinite n => ofUnits (m ^^ n) 0 1
  | .finite m a _, .finite n b _ =>
    if b = 0 then (if a = 0 then .notANumber else .infinite (m ^^ n))
    else ofUnits (m ^^ n) (a * 2 ^ 1074) b

/-- The square root, from the integer root and one more bit that tells whether it is exact. -/
def sqrt : Binary64 → Binary64
  | .nan _ => .notANumber
  | .infinite n => if n then .notANumber else .infinite false
  | .finite n a h =>
    if a = 0 then .finite n a h
    else if n then .notANumber
    else
      let square := a * 2 ^ 1074
      let root := sqrtFloor square
      ofUnits false (2 * root + if root * root = square then 0 else 1) 2

instance : Neg Binary64 := ⟨neg⟩
instance : Add Binary64 := ⟨add⟩
instance : Sub Binary64 := ⟨sub⟩
instance : Mul Binary64 := ⟨mul⟩
instance : Div Binary64 := ⟨div⟩
instance : Inhabited Binary64 := ⟨zero⟩

end Binary64

/-- A place on the number line that has both ends. -/
inductive Place where
  | bottom
  | units (i : Int)
  | top
  deriving DecidableEq

namespace Place

def lt : Place → Place → Bool
  | .bottom, .bottom => false
  | .bottom, _ => true
  | .units i, .units j => i < j
  | .units _, .top => true
  | _, _ => false

end Place

def Binary64.place? : Binary64 → Option Place
  | .nan _ => none
  | .infinite n => some (if n then .bottom else .top)
  | .finite n units _ => some (.units (signed n units))

inductive Number where
  | int (i : Int)
  | real (x : Binary64)

namespace Number

def place? : Number → Option Place
  | .int i => some (.units (i * 2 ^ 1074))
  | .real x => x.place?

/-- Numbers are compared by exact value; nothing compares with what is not a number. -/
def lt (a b : Number) : Bool :=
  match a.place?, b.place? with
  | some p, some q => p.lt q
  | _, _ => false

def eq (a b : Number) : Bool :=
  match a.place?, b.place? with
  | some p, some q => p = q
  | _, _ => false

def unmarked : Number → Number
  | .real x => .real x.unmarked
  | n => n

def toReal : Number → Binary64
  | .int i => .ofInt i
  | .real x => x

end Number

namespace Binary64

def lt (x y : Binary64) : Bool := Number.lt (.real x) (.real y)

def eq (x y : Binary64) : Bool := Number.eq (.real x) (.real y)

end Binary64

end NearDoc
