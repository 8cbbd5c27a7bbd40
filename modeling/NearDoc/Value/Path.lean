import NearDoc.Number.Numeral
import NearDoc.Value.Basic
import NearDoc.Error

/-!
Dotted paths into a document. A segment names a field of an object, or an item of a list or tuple
by its index; whatever does not resolve is undefined.
-/

namespace NearDoc

open Text

namespace Path

def splitDots : List Char → List (List Char)
  | [] => [[]]
  | c :: rest =>
    match splitDots rest with
    | [] => [[]]
    | segment :: segments =>
      if c = '.' then [] :: segment :: segments else (c :: segment) :: segments

theorem splitDots_ne_nil (cs : List Char) : splitDots cs ≠ [] := by
  cases cs with
  | nil => simp [splitDots]
  | cons c rest =>
    unfold splitDots
    split
    · simp
    · split <;> simp

/-- The stretches between the dots, joined by dots, are the text again. -/
theorem intercalate_splitDots (cs : List Char) : ['.'].intercalate (splitDots cs) = cs := by
  induction cs with
  | nil => rfl
  | cons c rest ih =>
    unfold splitDots
    split
    · rename_i h
      exact absurd h (splitDots_ne_nil rest)
    · rename_i segment segments h
      rw [h] at ih
      split
      · simp_all [List.intercalate]
      · cases segments <;> simp_all [List.intercalate]

/-- The segments of a path. Blanks around the whole path do not count; a path has a segment, and
no segment is empty. -/
def segments (path : String) : Except Error (List (List Char)) :=
  let cs := trim path.toList
  if cs.isEmpty then .error .emptyPath
  else
    let parts := splitDots cs
    if parts.any List.isEmpty then .error (.malformedPath path) else .ok parts

def index? (segment : List Char) : Option Nat :=
  match Number.readInt? segment with
  | some (.ofNat n) => some n
  | _ => none

end Path

namespace Value

/-- The path that a value writes; a value that is no text writes an empty one. -/
def pathText : Value → String
  | .text s => s
  | _ => ""

/-- One step into a value. -/
def step (v : Value) (segment : List Char) : Value :=
  match v with
  | .object fields => (fields.lookup (String.ofList segment)).getD .undefined
  | .list xs | .tuple xs => ((Path.index? segment).bind (xs[·]?)).getD .undefined
  | _ => .undefined

def follow (v : Value) (segments : List (List Char)) : Value := segments.foldl step v

def atPath (v : Value) (path : String) : Except Error Value :=
  (Path.segments path).map v.follow

end Value

end NearDoc
