import NearDoc.Text.Blank
import NearDoc.Json.Reader
import NearDoc.Value.Path

/-!
Casting values to embeddings. Lists, tuples, one-dimensional numeric arrays and bracketed text are
accepted; components are rounded to single precision and must stay finite.
-/

namespace NearDoc.Embedding

open Text Number

/-- How many brackets of a bracketed text may be open at once. The host allows 1000 calls in
progress, one for each open bracket; this many are left to the reader. -/
def nestingLimit : Nat := 970

/-- The list that a bracketed text writes. An integer too long to be read fails by itself, and so
does a bracket too many. -/
def parseBracketed (s : String) : Except Error (List Value) :=
  let body := trim s.toList
  if body.head? = some '[' && body.getLast? = some ']' then
    match Json.readWithin nestingLimit body with
    | .ok (.list xs) => .ok xs
    | .error (.tooManyDigits digits) => .error (.tooManyDigits digits)
    | .error (.nestedTooDeep what) => .error (.nestedTooDeep what)
    | _ => .error .malformedBracketed
  else .error (.notBracketed (String.ofList (s.toList.take 40)))

/-- Every item is a number and no truth value; otherwise the first that is not. -/
def numbersFrom (index : Nat) : List Value → Except Error (List Value)
  | [] => .ok []
  | x :: xs =>
    match x.realNumber? with
    | none => .error (.componentNotNumeric index x.typeName)
    | some _ => (numbersFrom (index + 1) xs).map (x :: ·)

/-- A plain integer passes through double precision and must have a place there; everything else
is rounded once. -/
def componentOf : Value → Except Error Binary64
  | .int i =>
    let x := Binary64.ofInt i
    if x.isFinite then .ok x.toSingle else .error .notSingle
  | .real x => .ok x.toSingle
  | .scalar ⟨_, .int i⟩ => .ok (Binary64.roundTo .single (i < 0) (i.natAbs * 2 ^ 1074) 1)
  | .scalar ⟨_, .real x⟩ => .ok x.toSingle
  | _ => .error .notSingle

def ofRounded (xs : List Binary64) : Except Error Embedding :=
  match ofComponents? xs with
  | some v => .ok v
  | none => .error (if xs.isEmpty then .emptyVector else .notFiniteVector)

def ofValues (xs : List Value) : Except Error Embedding := do
  let xs ← numbersFrom 0 xs
  if xs.isEmpty then throw .emptyVector
  ofRounded (← xs.mapM componentOf)

def ofArray (a : TypedArray) : Except Error Embedding :=
  if a.shape.length ≠ 1 then .error (.notOneDimensional a.shape)
  else if !a.element.isReal then .error (.notNumericArray a.element.name)
  else ofRounded (a.items.map fun n => match n with
    | .int i => Binary64.roundTo .single (i < 0) (i.natAbs * 2 ^ 1074) 1
    | .real x => x.toSingle)

def ofValue (v : Value) : Except Error Embedding :=
  match v with
  | .embedding e => .ok e
  | .text s => (parseBracketed s).bind ofValues
  | .array a => ofArray a
  | .list xs | .tuple xs => ofValues xs
  | v => .error (.notVectorShaped v.typeName)

def ofStored (v : Value) : Except Error (Option Embedding) :=
  match ofValue v with
  | .ok e => .ok (some e)
  | .error e => if e.errorClass.isA .vector then .ok none else .error e

def extract (document : Value) (path : String) : Except Error (Option Embedding) :=
  (document.atPath path).bind ofStored

end NearDoc.Embedding
