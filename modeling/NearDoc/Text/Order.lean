/-!
The order of texts by code point.
-/

namespace NearDoc.Text

/-- The lexicographic order of lists of numbers, such as code points. -/
def compareCodes : List Nat → List Nat → Ordering
  | [], [] => .eq
  | [], _ :: _ => .lt
  | _ :: _, [] => .gt
  | a :: as, b :: bs => (compare a b).then (compareCodes as bs)

def compareText (s t : String) : Ordering :=
  compareCodes (s.toList.map Char.toNat) (t.toList.map Char.toNat)

/-- Inserts an entry by the order of its name, before entries of the same name. -/
def insertByName (entry : String × α) : List (String × α) → List (String × α)
  | [] => [entry]
  | e :: entries =>
    if (compareText entry.1 e.1).isLE then entry :: e :: entries
    else e :: insertByName entry entries

def sortByName (entries : List (String × α)) : List (String × α) :=
  entries.foldr insertByName []

def sortTexts (texts : List String) : List String :=
  (sortByName (texts.map (·, ()))).map (·.1)

end NearDoc.Text
