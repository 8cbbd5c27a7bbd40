/-!
White space and trimming. A blank is any character that Unicode counts as white space or as a
paragraph, segment or unit separator.
-/

namespace NearDoc.Text

def isBlank (c : Char) : Bool :=
  let n := c.toNat
  (9 ≤ n && n ≤ 13) || (28 ≤ n && n ≤ 32) || n == 0x85 || n == 0xA0 || n == 0x1680 ||
    (0x2000 ≤ n && n ≤ 0x200A) || n == 0x2028 || n == 0x2029 || n == 0x202F || n == 0x205F ||
    n == 0x3000

/-- Blanks at both ends are dropped. -/
def trim (s : List Char) : List Char :=
  ((s.dropWhile isBlank).reverse.dropWhile isBlank).reverse

def trimmed (s : String) : String := String.ofList (trim s.toList)

/-- Nothing but blanks, or nothing at all. -/
def isAllBlank (s : String) : Bool := s.toList.all isBlank

end NearDoc.Text
