import NearDoc.Error
import NearDoc.Number.Numeral
import NearDoc.Text.Quoted
import NearDoc.Value.Basic
import NearDoc.Value.Typed.Written
import NearDoc.Vector.Written

/-!
How values are written inside messages, labels and log records.
-/

namespace NearDoc

open Number Text

namespace Value

def enclose (opening closing : String) (items : List String) : String :=
  opening ++ ", ".intercalate items ++ closing

/-- A tuple of one item keeps a comma. -/
def encloseTuple : List String → String
  | [s] => "(" ++ s ++ ",)"
  | items => enclose "(" ")" items

mutual

def written (v : Value) : String :=
  match v with
  | .null => "None"
  | .bool b => if b then "True" else "False"
  | .int i => toString i
  | .real x => String.ofList (writeReal x)
  | .text s => quoted s
  | .bytes bs => quotedBytes bs
  | .list xs => enclose "[" "]" (writtenList xs)
  | .tuple xs => encloseTuple (writtenList xs)
  | .object fields => enclose "\x7b" "\x7d" (writtenFields fields)
  | .embedding v => v.written
  | .array a => a.written
  | .scalar s => s.written
  | .undefined => "UNDEFINED"
termination_by structural v

def writtenList (xs : List Value) : List String :=
  match xs with
  | [] => []
  | x :: xs => written x :: writtenList xs
termination_by structural xs

def writtenFields (fields : List (String × Value)) : List String :=
  match fields with
  | [] => []
  | (name, x) :: fields => (quoted name ++ ": " ++ written x) :: writtenFields fields
termination_by structural fields

end

mutual

/-- Whether the integers in a value have few enough digits for it to be written. -/
def isWritable (v : Value) : Bool :=
  match v with
  | .int i => (digitsOf i.natAbs).length ≤ longestInteger
  | .list xs | .tuple xs => areWritable xs
  | .object fields => fieldsAreWritable fields
  | _ => true
termination_by structural v

def areWritable (xs : List Value) : Bool :=
  match xs with
  | [] => true
  | x :: xs => isWritable x && areWritable xs
termination_by structural xs

def fieldsAreWritable (fields : List (String × Value)) : Bool :=
  match fields with
  | [] => true
  | (_, x) :: fields => isWritable x && fieldsAreWritable fields
termination_by structural fields

end

/-- A value as text of its own: texts stand for themselves. -/
def toText : Value → String
  | .text s => s
  | .scalar s => s.plain
  | .array a => a.toText
  | v => v.written

/-- A value as text of its own, unless an integer in it has too many digits. -/
def asText (v : Value) : Except Error String :=
  if v.isWritable then .ok v.toText else .error .integerTooLong

/-- A value inserted into a text: as on its own, but a number of a declared type is written in the
digits that binary64 needs. -/
def inserted : Value → String
  | .scalar s => s.inserted
  | .array a => a.inserted
  | v => v.toText

end Value

end NearDoc
