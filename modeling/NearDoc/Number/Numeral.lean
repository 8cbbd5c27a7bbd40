import NearDoc.Text.Blank
import NearDoc.Text.Digit
import NearDoc.Number.Decimal

/-!
Reading numerals. Digits may come from any script, single underscores may stand between digits,
and blanks may surround the whole.
-/

namespace NearDoc.Number

open Text

/-- Blanks that may surround a numeral: all but the four separators below the space. -/
def isNumeralBlank (c : Char) : Bool := isBlank c && !(28 ≤ c.toNat && c.toNat ≤ 31)

def trimNumeral (s : List Char) : List Char :=
  ((s.dropWhile isNumeralBlank).reverse.dropWhile isNumeralBlank).reverse

def takeSign : List Char → Bool × List Char
  | '-' :: r => (true, r)
  | '+' :: r => (false, r)
  | r => (false, r)

/-- Drops each underscore that stands between two digits; any other underscore refuses the text. -/
def dropSeparators (afterDigit : Bool) : List Char → Option (List Char)
  | [] => some []
  | '_' :: c :: r =>
    if afterDigit && isDigit c then (dropSeparators true r).map (c :: ·) else none
  | '_' :: [] => none
  | c :: r => (dropSeparators (isDigit c) r).map (c :: ·)

/-- The value of a nonempty run of digits and nothing else. -/
def readNat? (s : List Char) : Option Nat :=
  if s.isEmpty then none else (s.mapM digitValue?).map ofDigits

/-- An integer of more digits than this is neither read nor written. -/
def longestInteger : Nat := 4300

def readInt? (s : List Char) : Option Int :=
  let (negative, body) := takeSign (trimNumeral s)
  (dropSeparators false body).bind fun body =>
    if longestInteger < body.length then none
    else (readNat? body).map fun n => if negative then -(n : Int) else n

def takeDigits (s : List Char) : List Nat × List Char :=
  ((s.takeWhile isDigit).filterMap digitValue?, s.dropWhile isDigit)

/-- The exponent after the digits: nothing, or a letter, a sign and digits. -/
def readExponent? : List Char → Option Int
  | [] => some 0
  | c :: r =>
    if c = 'e' || c = 'E' then
      let (negative, body) := takeSign r
      (readNat? body).map fun n => if negative then -(n : Int) else n
    else none

/-- Digits with an optional point and exponent; at least one digit stands before the exponent. -/
def readDecimal? (negative : Bool) (s : List Char) : Option Binary64 :=
  let (whole, r) := takeDigits s
  let (fraction, r) := match r with
    | '.' :: r => takeDigits r
    | r => ([], r)
  if whole.isEmpty && fraction.isEmpty then none
  else (readExponent? r).map fun e =>
    ofDecimal negative (ofDigits (whole ++ fraction)) (e - fraction.length)

def readSpecial? (negative : Bool) (s : List Char) : Option Binary64 :=
  let name := String.ofList (s.map Char.toLower)
  if name = "nan" then some .notANumber
  else if name = "inf" || name = "infinity" then some (.infinite negative)
  else none

def readReal? (s : List Char) : Option Binary64 :=
  let (negative, body) := takeSign (trimNumeral s)
  (readSpecial? negative body).or
    ((dropSeparators false body).bind (readDecimal? negative))

end NearDoc.Number
