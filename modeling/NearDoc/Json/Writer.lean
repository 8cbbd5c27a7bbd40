import NearDoc.Number.Numeral
import NearDoc.Text.Quoted
import NearDoc.Text.Order
import NearDoc.Value.Written
import NearDoc.Error

/-!
The stored text of a document: JSON with the names of every object in order, blanks after commas
and colons, and nothing but ASCII. Sequences and arrays of every kind become JSON arrays; bytes,
undefined values, numbers that are not finite, integers that are too long and items of an element
type without plain numbers have no such text.
-/

namespace NearDoc.Json

open Text Number

def escapeUnit (n : Nat) : List Char := '\\' :: 'u' :: hexPadded 4 n

/-- A code point beyond the first plane is written as two surrogates. -/
def escapeCode (n : Nat) : List Char :=
  if n < 0x10000 then escapeUnit n
  else escapeUnit (0xD800 + (n - 0x10000) / 0x400) ++ escapeUnit (0xDC00 + (n - 0x10000) % 0x400)

def writeChar (c : Char) : List Char :=
  if c = '"' then ['\\', '"']
  else if c = '\\' then ['\\', '\\']
  else if c = '\n' then ['\\', 'n']
  else if c = '\r' then ['\\', 'r']
  else if c = '\t' then ['\\', 't']
  else if c.toNat = 8 then ['\\', 'b']
  else if c.toNat = 12 then ['\\', 'f']
  else if 32 ≤ c.toNat && c.toNat < 127 then [c]
  else escapeCode c.toNat

def writeText (s : String) : List Char := '"' :: s.toList.flatMap writeChar ++ ['"']

/-- A number that is not finite and an integer of too many digits have no text. -/
def writeNumber : Number → Except Error (List Char)
  | .int i =>
    if longestInteger < (digitsOf i.natAbs).length then .error .integerTooLong
    else .ok (writeInt i)
  | .real x => if x.isFinite then .ok (writeReal x) else .error .notFiniteJson

def writeItems : List (List Char) → List Char
  | [] => []
  | [item] => item
  | item :: items => item ++ ',' :: ' ' :: writeItems items

/-- One item of an array or one scalar. -/
def writeElement (t : ElementType) (n : Number) : Except Error (List Char) :=
  match t with
  | .bool => .ok (if n.eq (.int 0) then "false".toList else "true".toList)
  | .complex _ => .error (.notJson "complex")
  | t => if t.isPlain then writeNumber n else .error (.notJson t.name)

/-- The texts of all items, or the first failure among them. -/
def allOf : List (Except Error α) → Except Error (List α)
  | [] => .ok []
  | .error e :: _ => .error e
  | .ok x :: rest => (allOf rest).map (x :: ·)

def bracket (items : List (List Char)) : List Char := '[' :: writeItems items ++ [']']

/-- Item texts in nested brackets, as the axes say. -/
def nestItems : Shape → List (List Char) → List Char
  | [], items => items.headD []
  | axis :: axes, items => bracket ((Shape.rows axis items).map (nestItems axes))

def writeField (field : String × List Char) : List Char :=
  writeText field.1 ++ ':' :: ' ' :: field.2

mutual

def write (v : Value) : Except Error (List Char) :=
  match v with
  | .null => .ok "null".toList
  | .bool b => .ok (if b then "true".toList else "false".toList)
  | .int i => writeNumber (.int i)
  | .real x => writeNumber (.real x)
  | .text s => .ok (writeText s)
  | .bytes _ => .error (.notJson v.typeName)
  | .list xs | .tuple xs => (allOf (writeList xs)).map bracket
  | .object fields =>
    (allOf ((sortByName (writeFields fields)).map fun f => f.2.map (f.1, ·))).map fun fs =>
      '\x7b' :: writeItems (fs.map writeField) ++ ['\x7d']
  | .embedding v => (allOf (v.components.map fun x => writeNumber (.real x))).map bracket
  | .array a => (allOf (a.items.map (writeElement a.element))).map (nestItems a.shape)
  | .scalar s => writeElement s.element s.number
  | .undefined => .error (.notJson v.typeName)
termination_by structural v

def writeList (xs : List Value) : List (Except Error (List Char)) :=
  match xs with
  | [] => []
  | x :: xs => write x :: writeList xs
termination_by structural xs

def writeFields (fields : List (String × Value)) : List (String × Except Error (List Char)) :=
  match fields with
  | [] => []
  | (name, x) :: fields => (name, write x) :: writeFields fields
termination_by structural fields

end

def encode (v : Value) : Except Error String := (write v).map String.ofList

end NearDoc.Json
