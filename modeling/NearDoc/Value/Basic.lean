import NearDoc.Vector.Basic
import NearDoc.Value.Typed

/-!
The values that documents hold and expressions compute. An object keeps its fields in the order
of their first appearance, each name once.
-/

namespace NearDoc

inductive Value where
  | null
  | bool (b : Bool)
  | int (i : Int)
  | real (x : Binary64)
  | text (s : String)
  | bytes (bs : List UInt8)
  | list (xs : List Value)
  | tuple (xs : List Value)
  | object (fields : List (String × Value))
  | embedding (v : Embedding)
  | array (a : TypedArray)
  | scalar (s : TypedScalar)
  /-- What a missing field or an undecided comparison has for a value. -/
  | undefined

abbrev Fields := List (String × Value)

namespace Fields

def get? (fields : Fields) (name : String) : Option Value := fields.lookup name

/-- Sets a field: in its place if the name is there, at the end otherwise. -/
def set (fields : Fields) (name : String) (v : Value) : Fields :=
  match fields with
  | [] => [(name, v)]
  | (n, w) :: rest => if n = name then (n, v) :: rest else (n, w) :: set rest name v

/-- A field that was set has the value it was set to. -/
theorem get?_set_self (fields : Fields) (name : String) (v : Value) :
    get? (set fields name v) name = some v := by
  induction fields with
  | nil => simp [set, get?]
  | cons f rest ih =>
    obtain ⟨n, w⟩ := f
    by_cases h : n = name
    · simp [set, get?, h]
    · simp only [get?] at ih
      have h' : (name == n) = false := by simp [Ne.symm h]
      simp [set, get?, h, List.lookup_cons, h', ih]

/-- Setting a field leaves all others as they are. -/
theorem get?_set_other (fields : Fields) {name other : String} (v : Value) (h : other ≠ name) :
    get? (set fields name v) other = get? fields other := by
  have h' : (other == name) = false := by simp [h]
  induction fields with
  | nil => simp [set, get?, List.lookup_cons, h']
  | cons f rest ih =>
    obtain ⟨n, w⟩ := f
    simp only [get?] at ih
    by_cases hn : n = name
    · subst hn
      simp [set, get?, List.lookup_cons, h']
    · simp [set, get?, hn, List.lookup_cons, ih]

def without (fields : Fields) (name : String) : Fields := fields.filter (·.1 ≠ name)

/-- Fields in the order of their first appearance, each with its last value. -/
def ofList (fields : List (String × Value)) : Fields :=
  fields.foldl (fun acc f => set acc f.1 f.2) []

end Fields

namespace Value

instance : Inhabited Value := ⟨.null⟩

def isUndefined : Value → Bool
  | .undefined => true
  | _ => false

def isNull : Value → Bool
  | .null => true
  | _ => false

def isTrue : Value → Bool
  | .bool b => b
  | _ => false

def isFalse : Value → Bool
  | .bool b => !b
  | _ => false

def typeName : Value → String
  | .null => "NoneType"
  | .bool _ => "bool"
  | .int _ => "int"
  | .real _ => "float"
  | .text _ => "str"
  | .bytes _ => "bytes"
  | .list _ => "list"
  | .tuple _ => "tuple"
  | .object _ => "dict"
  | .embedding _ => "Vector"
  | .array _ => "ndarray"
  | .scalar s => s.element.name
  | .undefined => "_Undefined"

/-- Numbers without a declared element type; the truth values count as one and zero. -/
def number? : Value → Option Number
  | .bool b => some (.int (if b then 1 else 0))
  | .int i => some (.int i)
  | .real x => some (.real x)
  | _ => none

/-- A number that is no truth value, with a declared type or without. -/
def realNumber? : Value → Option Number
  | .int i => some (.int i)
  | .real x => some (.real x)
  | .scalar s => if s.element.isReal then some s.number else none
  | _ => none

end Value

end NearDoc
