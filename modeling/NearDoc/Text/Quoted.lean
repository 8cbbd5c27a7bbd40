import NearDoc.Text.Hex
import NearDoc.Text.CharClass

/-!
Text as it stands inside a message: quoted, with an escape for the quote, the backslash and every
character that does not print.
-/

namespace NearDoc.Text

/-- Single quotes, unless the text holds a single quote and no double one. -/
def quoteFor (s : List Char) : Char :=
  if s.contains '\'' && !s.contains '"' then '"' else '\''

/-- The shortest of the two-, four- and eight-digit escapes that holds the code point. -/
def escapeCode (n : Nat) : List Char :=
  if n < 0x100 then ['\\', 'x'] ++ hexPadded 2 n
  else if n < 0x10000 then ['\\', 'u'] ++ hexPadded 4 n
  else ['\\', 'U'] ++ hexPadded 8 n

def quoteChar (quote c : Char) : List Char :=
  if c = quote || c = '\\' then ['\\', c]
  else if c = '\n' then ['\\', 'n']
  else if c = '\r' then ['\\', 'r']
  else if c = '\t' then ['\\', 't']
  else if isPrintable c then [c]
  else escapeCode c.toNat

def quoted (s : String) : String :=
  let cs := s.toList
  let q := quoteFor cs
  String.ofList (q :: cs.flatMap (quoteChar q) ++ [q])

/-- One byte inside the given quotes; only printable ASCII stands for itself. -/
def quoteByte (quote : Char) (b : UInt8) : List Char :=
  let c := Char.ofNat b.toNat
  if c = quote || c = '\\' then ['\\', c]
  else if c = '\n' then ['\\', 'n']
  else if c = '\r' then ['\\', 'r']
  else if c = '\t' then ['\\', 't']
  else if 32 ≤ b.toNat && b.toNat < 127 then [c]
  else ['\\', 'x'] ++ hexPadded 2 b.toNat

def quotedBytes (bs : List UInt8) : String :=
  let q := quoteFor (bs.map fun b => Char.ofNat b.toNat)
  String.ofList ('b' :: q :: bs.flatMap (quoteByte q) ++ [q])

end NearDoc.Text
