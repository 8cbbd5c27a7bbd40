import NearDoc.Number.Numeral
import NearDoc.Text.Hex
import NearDoc.Value.Basic
import NearDoc.Error

/-!
Reading JSON text. Beside the standard's values the three names of numbers that are not finite are
read; a numeral with a point or an exponent is a binary64 number and any other an integer, which
must not be too long; of two fields of one name the last one counts. A reader has room for so many
brackets and braces to be open at once, and is refused when one more is opened.
-/

namespace NearDoc.Json

open Number

def isSpace (c : Char) : Bool := c = ' ' || c = '\t' || c = '\n' || c = '\r'

def skipSpace (s : List Char) : List Char := s.dropWhile isSpace

def hexUnit? (a b c d : Char) : Option Nat := do
  let a ← Text.hexValue? a
  let b ← Text.hexValue? b
  let c ← Text.hexValue? c
  let d ← Text.hexValue? d
  return ((a * 16 + b) * 16 + c) * 16 + d

def isHigh (n : Nat) : Bool := 0xD800 ≤ n && n < 0xDC00

def isLow (n : Nat) : Bool := 0xDC00 ≤ n && n < 0xE000

/-- The character that a single unit stands for; half a pair becomes the replacement character. -/
def unitChar (n : Nat) : Char := if isHigh n || isLow n then Char.ofNat 0xFFFD else Char.ofNat n

def pairChar (high low : Nat) : Char :=
  Char.ofNat (0x10000 + (high - 0xD800) * 0x400 + (low - 0xDC00))

def simpleEscape? (c : Char) : Option Char :=
  match c with
  | '"' => some '"'
  | '\\' => some '\\'
  | '/' => some '/'
  | 'b' => some (Char.ofNat 8)
  | 'f' => some (Char.ofNat 12)
  | 'n' => some '\n'
  | 'r' => some '\r'
  | 't' => some '\t'
  | _ => none

/-- The characters up to the closing quote, and what follows it. -/
def readText? : List Char → Option (List Char × List Char)
  | [] => none
  | '"' :: rest => some ([], rest)
  | '\\' :: 'u' :: a :: b :: c :: d :: '\\' :: 'u' :: e :: f :: g :: h :: rest =>
    match hexUnit? a b c d, hexUnit? e f g h with
    | some m, some n =>
      if isHigh m && isLow n then (readText? rest).map fun r => (pairChar m n :: r.1, r.2)
      else (readText? ('\\' :: 'u' :: e :: f :: g :: h :: rest)).map fun r =>
        (unitChar m :: r.1, r.2)
    | some _, none => none
    | none, _ => none
  | '\\' :: 'u' :: a :: b :: c :: d :: rest =>
    match hexUnit? a b c d with
    | some m => (readText? rest).map fun r => (unitChar m :: r.1, r.2)
    | none => none
  | '\\' :: c :: rest =>
    match simpleEscape? c with
    | some e => (readText? rest).map fun r => (e :: r.1, r.2)
    | none => none
  | c :: rest =>
    if c.toNat < 32 || c = '\\' then none else (readText? rest).map fun r => (c :: r.1, r.2)

def isAsciiDigit (c : Char) : Bool := '0' ≤ c && c ≤ '9'

/-- The digits of a whole part: a single zero, or digits that start with another. -/
def takeWhole? (s : List Char) : Option (List Char × List Char) :=
  match s with
  | [] => none
  | c :: rest =>
    if c = '0' then some (['0'], rest)
    else if isAsciiDigit c then some (s.takeWhile isAsciiDigit, s.dropWhile isAsciiDigit)
    else none

/-- A point and at least one digit, if they come next. -/
def takeFraction (s : List Char) : List Char × List Char :=
  match s with
  | '.' :: rest =>
    match rest.takeWhile isAsciiDigit with
    | [] => ([], s)
    | ds => ('.' :: ds, rest.dropWhile isAsciiDigit)
  | _ => ([], s)

def takeExponentSign : List Char → List Char × List Char
  | '-' :: rest => (['-'], rest)
  | '+' :: rest => (['+'], rest)
  | rest => ([], rest)

/-- An exponent with at least one digit, if it comes next. -/
def takeExponent (s : List Char) : List Char × List Char :=
  match s with
  | c :: rest =>
    if c = 'e' || c = 'E' then
      let (sign, rest) := takeExponentSign rest
      match rest.takeWhile isAsciiDigit with
      | [] => ([], s)
      | ds => ('e' :: sign ++ ds, rest.dropWhile isAsciiDigit)
    else ([], s)
  | [] => ([], s)

/-- The integer of a run of digits, which must not be too long. -/
def readInteger (negative : Bool) (digits : List Char) : Except Error Value :=
  if longestInteger < digits.length then .error (.tooManyDigits digits.length)
  else match readNat? digits with
    | some n => .ok (.int (if negative then -(n : Int) else n))
    | none => .error .malformedJson

def readNumber (negative : Bool) (s : List Char) : Except Error (Value × List Char) :=
  match takeWhole? s with
  | none => .error .malformedJson
  | some (whole, rest) =>
    let (fraction, rest) := takeFraction rest
    let (exponent, rest) := takeExponent rest
    if fraction.isEmpty && exponent.isEmpty then (readInteger negative whole).map (·, rest)
    else match readDecimal? negative (whole ++ fraction ++ exponent) with
      | some x => .ok (.real x, rest)
      | none => .error .malformedJson

/-- What follows a word at the front of the text. -/
def afterWord? : List Char → List Char → Option (List Char)
  | [], s => some s
  | _ :: _, [] => none
  | w :: word, c :: s => if w = c then afterWord? word s else none

def words : List (String × Value) :=
  [("null", .null), ("true", .bool true), ("false", .bool false), ("NaN", .real .notANumber),
    ("Infinity", .real (.infinite false)), ("-Infinity", .real (.infinite true))]

def readPlain (s : List Char) : Except Error (Value × List Char) :=
  match words.findSome? fun w => (afterWord? w.1.toList s).map (w.2, ·) with
  | some r => .ok r
  | none =>
    match s with
    | '-' :: rest => readNumber true rest
    | s => readNumber false s

def readQuoted (s : List Char) : Except Error (String × List Char) :=
  match readText? s with
  | some (cs, rest) => .ok (String.ofList cs, rest)
  | none => .error .malformedJson

mutual

/-- A value at the front of the text, and what follows it. The first argument bounds the depth of
the recursion; no two steps in a row leave the text as it is. The second is the room. -/
def readValue : Nat → Nat → List Char → Except Error (Value × List Char)
  | 0, _, _ => .error .malformedJson
  | fuel + 1, room, s =>
    match s with
    | '"' :: rest => (readQuoted rest).map fun r => (.text r.1, r.2)
    | '[' :: rest =>
      if room = 0 then .error (.nestedTooDeep "array")
      else match skipSpace rest with
        | ']' :: rest => .ok (.list [], rest)
        | rest => (readItems fuel (room - 1) rest).map fun r => (.list r.1, r.2)
    | '\x7b' :: rest =>
      if room = 0 then .error (.nestedTooDeep "object")
      else match skipSpace rest with
        | '\x7d' :: rest => .ok (.object [], rest)
        | rest => (readFields fuel (room - 1) rest).map fun r => (.object (Fields.ofList r.1), r.2)
    | s => readPlain s

/-- The items up to the closing bracket. -/
def readItems : Nat → Nat → List Char → Except Error (List Value × List Char)
  | 0, _, _ => .error .malformedJson
  | fuel + 1, room, s =>
    match readValue fuel room s with
    | .error e => .error e
    | .ok (v, rest) =>
      match skipSpace rest with
      | ']' :: rest => .ok ([v], rest)
      | ',' :: rest => (readItems fuel room (skipSpace rest)).map fun r => (v :: r.1, r.2)
      | _ => .error .malformedJson

/-- The fields up to the closing brace. -/
def readFields : Nat → Nat → List Char → Except Error (List (String × Value) × List Char)
  | 0, _, _ => .error .malformedJson
  | fuel + 1, room, s =>
    match s with
    | '"' :: rest =>
      match readQuoted rest with
      | .error e => .error e
      | .ok (name, rest) =>
        match skipSpace rest with
        | ':' :: rest =>
          match readValue fuel room (skipSpace rest) with
          | .error e => .error e
          | .ok (v, rest) =>
            match skipSpace rest with
            | '\x7d' :: rest => .ok ([(name, v)], rest)
            | ',' :: rest =>
              (readFields fuel room (skipSpace rest)).map fun r => ((name, v) :: r.1, r.2)
            | _ => .error .malformedJson
        | _ => .error .malformedJson
    | _ => .error .malformedJson

end

/-- The value that a text writes, blanks around it apart, in so much room. -/
def readWithin (room : Nat) (s : List Char) : Except Error Value :=
  match readValue (2 * s.length + 2) room (skipSpace s) with
  | .error e => .error e
  | .ok (v, rest) => if (skipSpace rest).isEmpty then .ok v else .error .malformedJson

/-- The value that a text writes, however deep it is: as many brackets as the text has characters
are never open. -/
def read (s : List Char) : Except Error Value := readWithin s.length s

def decode (s : String) : Except Error Value := read s.toList

end NearDoc.Json
