import NearDoc.Text.CaseTable
import NearDoc.Text.CharClass

/-!
Full case conversion: a character may become several, and a capital sigma that ends a word becomes
the final form of the small one.
-/

namespace NearDoc.Text

/-- Where a table of runs sends a code point; code points in no run stay. -/
def shiftBy (runs : List CaseRun) (n : Nat) : Nat :=
  match runs.find? fun r => r.first ≤ n && n ≤ r.last && (n - r.first) % r.step == 0 with
  | some r => (n + r.shift).toNat
  | none => n

/-- One character in another case, by its expansion if it has one and by its run otherwise. -/
def mapCase (expansions : List (Nat × List Nat)) (runs : List CaseRun) (c : Char) : List Char :=
  match expansions.lookup c.toNat with
  | some ns => ns.map Char.ofNat
  | none => [Char.ofNat (shiftBy runs c.toNat)]

def upperChar (c : Char) : List Char :=
  if c.toNat < 128 then [c.toUpper] else mapCase upperExpansions upperRuns c

def lowerChar (c : Char) : List Char :=
  if c.toNat < 128 then [c.toLower] else mapCase lowerExpansions lowerRuns c

def isCaseIgnorable (c : Char) : Bool := inRanges caseIgnorableRanges c.toNat

def isCased (c : Char) : Bool := inRanges casedRanges c.toNat

/-- The nearest character that matters for case is a cased letter. -/
def nextIsCased (s : List Char) : Bool :=
  match s.dropWhile isCaseIgnorable with
  | c :: _ => isCased c
  | [] => false

/-- Lower case of the text `s` that stands after the reversed text `before`. -/
def lowerAfter (before : List Char) : List Char → List Char
  | [] => []
  | c :: rest =>
    let small :=
      if c = 'Σ' then (if nextIsCased before && !nextIsCased rest then ['ς'] else ['σ'])
      else lowerChar c
    small ++ lowerAfter (c :: before) rest

def toUpper (s : List Char) : List Char := s.flatMap upperChar

def toLower (s : List Char) : List Char := lowerAfter [] s

def upper (s : String) : String := String.ofList (toUpper s.toList)

def lower (s : String) : String := String.ofList (toLower s.toList)

end NearDoc.Text
