/-!
Hexadecimal digits: numbers of a fixed width, and bytes as pairs of digits, which read back.
-/

namespace NearDoc.Text

def hexPadded (width n : Nat) : List Char :=
  let ds := Nat.toDigits 16 n
  List.replicate (width - ds.length) '0' ++ ds

def hexValue? (c : Char) : Option Nat :=
  if '0' ≤ c ∧ c ≤ '9' then some (c.toNat - 48)
  else if 'a' ≤ c ∧ c ≤ 'f' then some (c.toNat - 87)
  else if 'A' ≤ c ∧ c ≤ 'F' then some (c.toNat - 55)
  else none

def hexText (bs : List UInt8) : List Char := bs.flatMap fun b => hexPadded 2 b.toNat

/-- The bytes that pairs of digits write, with blanks before the pairs or without. -/
def hexBytes? : List Char → Option (List UInt8)
  | [] => some []
  | [c] => if c.isWhitespace then some [] else none
  | a :: b :: rest =>
    if a.isWhitespace then hexBytes? (b :: rest)
    else do
      let high ← hexValue? a
      let low ← hexValue? b
      return UInt8.ofNat (high * 16 + low) :: (← hexBytes? rest)

/-- A byte has two digits, and neither is a blank. -/
theorem hexPadded_byte (n : Fin 256) :
    (hexPadded 2 n.val).map hexValue? = [some (n.val / 16), some (n.val % 16)] ∧
      (hexPadded 2 n.val).all (!·.isWhitespace) := by
  revert n
  decide +kernel

/-- Bytes that are written read back. -/
theorem hexBytes?_hexText (bs : List UInt8) : hexBytes? (hexText bs) = some bs := by
  induction bs with
  | nil => rfl
  | cons b bs ih =>
    obtain ⟨digits, blanks⟩ := hexPadded_byte ⟨b.toNat, b.toNat_lt⟩
    simp only [List.map_eq_cons_iff, List.map_eq_nil_iff] at digits
    obtain ⟨x, rest, hxy, hx, y, _, rfl, hy, rfl⟩ := digits
    have hb : UInt8.ofNat (b.toNat / 16 * 16 + b.toNat % 16) = b := by
      rw [Nat.div_add_mod']
      exact UInt8.ofNat_toNat
    simp only [hexText, List.flatMap_cons, hxy] at ih blanks ⊢
    simp only [List.all_cons, Bool.and_eq_true, Bool.not_eq_true'] at blanks
    simp only [List.cons_append, List.nil_append, hexBytes?, blanks.1, hx, hy, ih, bind,
      Option.bind, pure, hb, Bool.false_eq_true, if_false]

end NearDoc.Text
