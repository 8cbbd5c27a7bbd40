import NearDoc.Number.Column
import NearDoc.Shape.Written
import NearDoc.Value.Typed

/-!
How scalars and arrays of a declared type are written. The items of an array are written in
columns of one width, in nested brackets on lines of limited width.
-/

namespace NearDoc

open Number

namespace TypedScalar

/-- A number with an imaginary part, which is zero. A real part that is zero, too, is left out
unless it has a sign. -/
def writeComplex (f : Format) (x : Binary64) : String :=
  match x with
  | .finite false 0 _ => "0j"
  | x => String.ofList (writeIn f [] x) ++ "+0j"

def encloseComplex (f : Format) (x : Binary64) : String :=
  match x with
  | .finite false 0 _ => writeComplex f x
  | x => "(" ++ writeComplex f x ++ ")"

def writeNumber (t : ElementType) : Number → String
  | .int i => if t = .bool then (if i = 0 then "False" else "True") else toString i
  | .real x =>
    match t with
    | .complex _ => encloseComplex t.format x
    | _ => String.ofList (if t.format = .double then writeReal x else writeNarrow t.format x)

/-- A number in the digits that binary64 needs, whatever its type. -/
def writeWidened (t : ElementType) (n : Number) : String :=
  match t, n with
  | .complex _, n => encloseComplex .double n.toReal
  | _, .real x => String.ofList (writeReal x)
  | t, n => writeNumber t n

def plain (s : TypedScalar) : String := writeNumber s.element s.number

def written (s : TypedScalar) : String :=
  match s.element with
  | .bool => "np." ++ s.plain ++ "_"
  | .complex bits =>
    "np.complex" ++ toString bits ++ "(" ++ writeComplex s.element.format s.number.toReal ++ ")"
  | t => "np." ++ t.name ++ "(" ++ s.plain ++ ")"

def inserted (s : TypedScalar) : String := writeWidened s.element s.number

end TypedScalar

namespace TypedArray

/-- Truth values in a row are padded to one width. -/
def writeTruth (padded : Bool) (n : Number) : String :=
  if n.eq (.int 0) then "False" else if padded then " True" else "True"

def alignRight (texts : List String) : List String :=
  let width := Column.widest (texts.map String.length)
  texts.map fun s => String.ofList (List.replicate (width - s.length) ' ' ++ s.toList)

/-- The texts of items, all of one width; an imaginary part follows the real one. -/
def itemTexts (t : ElementType) (inRow : Bool) (items : List Number) : List String :=
  match t with
  | .bool => items.map (writeTruth inRow)
  | .float _ => Column.write t.format (items.map Number.toReal)
  | .complex _ => (Column.write t.format (items.map Number.toReal)).map (· ++ "+0.j")
  | .other _ => items.map (TypedScalar.writeNumber t)
  | t => alignRight (items.map (TypedScalar.writeNumber t))

/-- The items in nested brackets; without items, one pair of brackets. -/
def body (separator : String) (indent width : Nat) (a : TypedArray) : String :=
  if a.items.isEmpty then "[]"
  else
    let axes := a.shape.axes
    let texts := itemTexts a.element (!axes.isEmpty) (Shape.shownItems axes a.items)
    String.ofList (Shape.nest separator.toList (List.replicate indent ' ') width axes
      (texts.map String.toList))

def lineWidth : Nat := 75

/-- Element types that the items show by themselves. -/
def isImplied : ElementType → Bool
  | .bool | .int 64 | .float 64 | .complex 128 => true
  | _ => false

/-- What the items do not show: the shape, if they are none or not all shown, and the type. -/
def notShown (a : TypedArray) : List String :=
  (if (a.items.isEmpty && a.shape ≠ [0]) || Shape.mostShown < a.items.length then
    ["shape=" ++ a.shape.written] else []) ++
  (if a.items.isEmpty || !isImplied a.element then ["dtype=" ++ a.element.name] else [])

def lastLine (s : String) : Nat := (s.toList.reverse.takeWhile (· ≠ '\n')).length

def written (a : TypedArray) : String :=
  let opening := "array("
  let items := opening ++ a.body ", " (opening.length + 1) (lineWidth - 1)
  match a.notShown with
  | [] => items ++ ")"
  | notShown =>
    let items := items ++ ","
    let rest := ", ".intercalate notShown ++ ")"
    let gap := if lineWidth < lastLine items + rest.length + 1 then
      '\n' :: List.replicate opening.length ' ' else [' ']
    items ++ String.ofList gap ++ rest

/-- An array as text of its own; one without axes is written as its only item. -/
def toText (a : TypedArray) : String :=
  match a.shape, a.items with
  | [], n :: _ => TypedScalar.writeNumber a.element n
  | _, _ => a.body " " 1 lineWidth

def inserted (a : TypedArray) : String :=
  match a.shape, a.items with
  | [], n :: _ => TypedScalar.writeWidened a.element n
  | _, _ => a.toText

end TypedArray

end NearDoc
