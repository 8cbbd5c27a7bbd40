import NearDoc.Shape.Basic

/-!
How shapes are written, and how items are written along them: in brackets nested as the axes are,
broken into lines of limited width. Of many items only those at both ends of each axis are shown.
-/

namespace NearDoc.Shape

/-- Sizes in parentheses; a single one keeps a comma. -/
def enclose (separator : String) : Shape → String
  | [n] => "(" ++ toString n ++ ",)"
  | ns => "(" ++ separator.intercalate (ns.map toString) ++ ")"

def written (shape : Shape) : String := enclose ", " shape

def writtenTight (shape : Shape) : String := enclose "," shape

/-! ### What is shown -/

def mostShown : Nat := 1000

/-- How many are shown at each end of an axis that is cut. -/
def shownAtEnd : Nat := 3

structure Axis where
  size : Nat
  cut : Bool

def axes (shape : Shape) : List Axis :=
  let long := mostShown < shape.size
  shape.map fun n => ⟨n, long && 2 * shownAtEnd < n⟩

def ends (items : List α) : List α × List α :=
  (items.take shownAtEnd, items.drop (items.length - shownAtEnd))

def Axis.shown (axis : Axis) (items : List α) : List α :=
  if axis.cut then (ends items).1 ++ (ends items).2 else items

def shownItems : List Axis → List α → List α
  | [], items => items
  | axis :: rest, items => (axis.shown (rows axis.size items)).flatMap (shownItems rest)

def Axis.shownSize (axis : Axis) : Nat := if axis.cut then 2 * shownAtEnd else axis.size

/-- The texts along an axis, with dots where it is cut. -/
def Axis.withDots (axis : Axis) (texts : List (List Char)) : List (List Char) :=
  if axis.cut then (ends texts).1 ++ ['.', '.', '.'] :: (ends texts).2 else texts

/-! ### Lines -/

def endLine (line : List Char) : List Char := (line.reverse.dropWhile (· = ' ')).reverse

/-- Words on lines of a width, each line after an indent. A word goes to a new line when it would
pass the width, unless the line holds none. `line` is the line begun, backwards. -/
def fill (separator indent : List Char) (width : Nat) (line : List Char) :
    List (List Char) → List Char
  | [] => line.reverse
  | word :: words =>
    let after := if words.isEmpty then word else word ++ separator
    if width < line.length + word.length ∧ indent.length < line.length then
      endLine line.reverse ++
        '\n' :: fill separator indent width (after.reverse ++ indent.reverse) words
    else fill separator indent width (after.reverse ++ line) words

/-- Item texts in nested brackets, after an indent that counts into the width. -/
def nest (separator : List Char) (indent : List Char) (width : Nat) :
    List Axis → List (List Char) → List Char
  | [], texts => texts.headD []
  | [axis], texts =>
    '[' :: (fill separator indent (width - 1) indent.reverse (axis.withDots texts)).drop
      indent.length ++ [']']
  | axis :: rest, texts =>
    let entries := (rows axis.shownSize texts).map
      (nest separator (' ' :: indent) (width - 1) rest)
    let between := endLine separator ++ List.replicate rest.length '\n' ++ indent
    '[' :: between.intercalate (axis.withDots entries) ++ [']']

end NearDoc.Shape
