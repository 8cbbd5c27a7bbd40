import NearDoc.Text.PrintableTable
import NearDoc.Text.AlphanumericTable

/-!
Character classes read off the range tables.
-/

namespace NearDoc.Text

def inRanges (ranges : List (Nat × Nat)) (n : Nat) : Bool :=
  ranges.any fun r => r.1 ≤ n && n ≤ r.2

/-- Characters that stand for themselves when text is quoted. -/
def isPrintable (c : Char) : Bool :=
  if c.toNat < 128 then 32 ≤ c.toNat && c.toNat < 127 else !inRanges unprintableRanges c.toNat

/-- Letters, decimal digits and other characters with a numeric value. -/
def isAlphanumeric (c : Char) : Bool :=
  if c.toNat < 128 then c.isAlphanum else inRanges alphanumericRanges c.toNat

end NearDoc.Text
