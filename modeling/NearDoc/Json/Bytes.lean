import NearDoc.Number.Bytes
import NearDoc.Json.Reader
import NearDoc.Value.Conversion

/-!
Reading JSON text from bytes. A mark in front tells how the bytes encode characters; without one
the places of the zero bytes do, for the first characters of a JSON text are ASCII.
-/

namespace NearDoc.Json

open Number

inductive Encoding where
  | utf8
  | utf16 (bigEndian : Bool)
  | utf32 (bigEndian : Bool)
  deriving DecidableEq

namespace Encoding

/-- The marks that may stand in front, the longest first. -/
def marks : List (List UInt8 × Encoding) :=
  [([0, 0, 0xFE, 0xFF], .utf32 true), ([0xFF, 0xFE, 0, 0], .utf32 false),
    ([0xFE, 0xFF], .utf16 true), ([0xFF, 0xFE], .utf16 false), ([0xEF, 0xBB, 0xBF], .utf8)]

def ofZeros : List UInt8 → Encoding
  | [0, _] => .utf16 true
  | [_, 0] => .utf16 false
  | 0 :: 0 :: _ :: _ :: _ => .utf32 true
  | 0 :: _ :: _ :: _ :: _ => .utf16 true
  | _ :: 0 :: 0 :: 0 :: _ => .utf32 false
  | _ :: 0 :: _ :: _ :: _ => .utf16 false
  | _ => .utf8

def detect (bs : List UInt8) : Encoding × List UInt8 :=
  match marks.find? fun m => m.1.isPrefixOf bs with
  | some (mark, encoding) => (encoding, bs.drop mark.length)
  | none => (ofZeros bs, bs)

def number (bigEndian : Bool) (bs : List UInt8) : Nat :=
  ofLittleEndian (if bigEndian then bs.reverse else bs)

/-- Numbers of two bytes; a byte left over is none. -/
def pairs? (bigEndian : Bool) : List UInt8 → Option (List Nat)
  | [] => some []
  | a :: b :: rest => (pairs? bigEndian rest).map (number bigEndian [a, b] :: ·)
  | _ => none

def quadruples? (bigEndian : Bool) : List UInt8 → Option (List Nat)
  | [] => some []
  | a :: b :: c :: d :: rest =>
    (quadruples? bigEndian rest).map (number bigEndian [a, b, c, d] :: ·)
  | _ => none

def ofUnits : List Nat → List Char
  | [] => []
  | [n] => [unitChar n]
  | m :: n :: rest =>
    if isHigh m && isLow n then pairChar m n :: ofUnits rest else unitChar m :: ofUnits (n :: rest)

def codeChar? (n : Nat) : Option Char := if n < 0x110000 then some (unitChar n) else none

def decode? (encoding : Encoding) (bs : List UInt8) : Option (List Char) :=
  match encoding with
  | .utf8 => (String.fromUTF8? ⟨bs.toArray⟩).map String.toList
  | .utf16 bigEndian => (pairs? bigEndian bs).map ofUnits
  | .utf32 bigEndian => (quadruples? bigEndian bs).bind (·.mapM codeChar?)

end Encoding

def decodeBytes (bs : List UInt8) : Except Error Value :=
  let (encoding, rest) := Encoding.detect bs
  match encoding.decode? rest with
  | some s => read s
  | none => .error .notEncodedText

/-- The document that a stored value holds: a text, or the bytes of one. -/
def decodeStored : Value → Except Error Value
  | .text s => decode s
  | .bytes bs => decodeBytes bs
  | v => .error (.notJsonText v.typeName)

end NearDoc.Json
