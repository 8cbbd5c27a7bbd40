import NearDoc.Text.Blank
import NearDoc.Text.Digit
import NearDoc.Text.LetterCase
import NearDoc.Value.Basic
import NearDoc.Error

/-!
Tokens of the query language. At each place the first kind of lexeme that matches is taken, as long
as it reaches; blanks separate tokens and leave none.
-/

namespace NearDoc

open Text

inductive TokenKind where
  | number
  | text
  | param
  | name
  | op
  | punct
  | stop
  deriving DecidableEq

/-- A token, and how many characters stand before it. -/
structure Token where
  kind : TokenKind
  text : String
  position : Nat
  deriving DecidableEq

namespace Token

def keywords : List String :=
  ["SELECT", "FROM", "WHERE", "ORDER", "BY", "ASC", "DESC", "LIMIT", "AS", "AND", "OR", "NOT",
    "TRUE", "FALSE", "NULL"]

def keyword? (t : Token) : Option String :=
  if t.kind = .name && keywords.contains (upper t.text) then some (upper t.text) else none

end Token

/-! ### How far a lexeme of each kind reaches -/

namespace Lexeme

def blanks (s : List Char) : Nat := (s.takeWhile isBlank).length

def digits (s : List Char) : Nat := (s.takeWhile isDigit).length

def isNameStart (c : Char) : Bool :=
  c = '_' || ('a' ≤ c && c ≤ 'z') || ('A' ≤ c && c ≤ 'Z')

def isNameChar (c : Char) : Bool := isNameStart c || ('0' ≤ c && c ≤ '9')

/-- Digits with an optional point; a point in front needs digits after it. -/
def mantissa (s : List Char) : Nat :=
  match digits s with
  | 0 =>
    match s with
    | '.' :: r => if digits r = 0 then 0 else 1 + digits r
    | _ => 0
  | n + 1 =>
    match s.drop (n + 1) with
    | '.' :: r => n + 2 + digits r
    | _ => n + 1

def exponentSign : List Char → Nat
  | '-' :: _ | '+' :: _ => 1
  | _ => 0

/-- A letter, an optional sign and digits; nothing if there are no digits. -/
def exponent (s : List Char) : Nat :=
  match s with
  | c :: r =>
    if c = 'e' || c = 'E' then
      let sign := exponentSign r
      match digits (r.drop sign) with
      | 0 => 0
      | n + 1 => 1 + sign + (n + 1)
    else 0
  | [] => 0

def unsigned (s : List Char) : Nat :=
  match mantissa s with
  | 0 => 0
  | n + 1 => n + 1 + exponent (s.drop (n + 1))

def number : List Char → Nat
  | '-' :: r =>
    match unsigned r with
    | 0 => 0
    | n + 1 => n + 2
  | s => unsigned s

/-- How far the text after an opening quote reaches, its closing quote included. A quote written
twice stands for one, unless the text would otherwise not end. -/
def closing? : List Char → Option Nat
  | [] => none
  | '\'' :: '\'' :: r =>
    match closing? r with
    | some n => some (n + 2)
    | none => some 1
  | c :: r => if c = '\'' then some 1 else (closing? r).map (· + 1)

def quotedText : List Char → Nat
  | '\'' :: r => (closing? r).elim 0 (· + 1)
  | _ => 0

def param : List Char → Nat
  | '@' :: c :: r => if isNameStart c then 2 + (r.takeWhile isNameChar).length else 0
  | _ => 0

/-- The rest of a name, within a segment of digits or one that starts with a letter. A point goes
on with another segment. -/
def nameRest (inDigits : Bool) : List Char → Nat
  | [] => 0
  | '.' :: c :: r =>
    if isNameStart c then 2 + nameRest false r else if isDigit c then 2 + nameRest true r else 0
  | c :: r => if (if inDigits then isDigit c else isNameChar c) then 1 + nameRest inDigits r else 0

def name : List Char → Nat
  | c :: r => if isNameStart c then 1 + nameRest false r else 0
  | [] => 0

def op : List Char → Nat
  | '<' :: '=' :: _ | '>' :: '=' :: _ | '<' :: '>' :: _ | '!' :: '=' :: _ | '=' :: '=' :: _ => 2
  | '=' :: _ | '<' :: _ | '>' :: _ => 1
  | _ => 0

def punct : List Char → Nat
  | '(' :: _ | ')' :: _ | '[' :: _ | ']' :: _ | ',' :: _ | '*' :: _ => 1
  | _ => 0

/-- The kinds in the order in which they are tried. -/
def kinds : List (Option TokenKind × (List Char → Nat)) :=
  [(none, blanks), (some .number, number), (some .text, quotedText), (some .param, param),
    (some .name, name), (some .op, op), (some .punct, punct)]

/-- The first kind that matches and how far it reaches; blanks have no token kind. -/
def next? (s : List Char) : Option (Option TokenKind × Nat) :=
  kinds.findSome? fun k => if k.2 s = 0 then none else some (k.1, k.2 s)

end Lexeme

namespace Token

/-- The tokens of a text whose first `skip` characters belong to the token before. -/
def scan (position skip : Nat) : List Char → Except Error (List Token)
  | [] => .ok []
  | c :: rest =>
    match skip with
    | skip + 1 => scan (position + 1) skip rest
    | 0 =>
      match Lexeme.next? (c :: rest) with
      | none => .error (.malformedQuery (.unexpectedCharacter c) position)
      | some (none, length) => scan (position + 1) (length - 1) rest
      | some (some kind, length) =>
        (scan (position + 1) (length - 1) rest).map
          (⟨kind, String.ofList ((c :: rest).take length), position⟩ :: ·)

/-- The text that a value writes. Of what is no text, only that which has no elements is let pass,
as the empty text. -/
def sourceText (v : Value) : Except Error String :=
  match v with
  | .text s => .ok s
  | .list [] | .tuple [] | .object [] | .bytes [] => .ok ""
  | .array a => if a.shape.head? = some 0 then .ok "" else .error (.notText v.typeName)
  | v => .error (.notText v.typeName)

def tokens (s : String) : Except Error (List Token) := scan 0 0 s.toList

def stop (position : Nat) : Token := ⟨.stop, "", position⟩

def tokenize (s : String) : Except Error (List Token) :=
  (tokens s).map (· ++ [stop s.length])

end Token

end NearDoc
