import NearDoc.Proofs.Number.Numeral
import NearDoc.Proofs.Query.Lexing
import NearDoc.Query.Parser

/-!
Constants as a text writes them. The numeral of an integer is one word, and it is read back as the
integer unless it has too many digits; so is a text between quotes, and it is read back always.
-/

namespace NearDoc

open Text Number

namespace Lexeme

lemma digits_eq_length {s : List Char} (hs : ∀ c ∈ s, isDigit c) : digits s = s.length := by
  rw [digits, List.takeWhile_eq_self_iff.mpr hs]

lemma unsigned_eq_length {s : List Char} (hne : s ≠ []) (hs : ∀ c ∈ s, isDigit c) :
    unsigned s = s.length := by
  obtain ⟨n, hn⟩ := Nat.exists_eq_succ_of_ne_zero (mt List.length_eq_zero_iff.mp hne)
  have hmantissa : mantissa s = s.length := by
    have hdrop : s.drop (n + 1) = [] := List.drop_eq_nil_of_le (by omega)
    unfold mantissa
    rw [digits_eq_length hs, hn]
    dsimp only
    rw [hdrop]
  rw [unsigned, hmantissa, hn]
  have hdrop : s.drop (n + 1) = [] := List.drop_eq_nil_of_le (by omega)
  simp [hdrop, exponent]

lemma number_digits {s : List Char} (hne : s ≠ []) (hs : ∀ c ∈ s, isDigit c) :
    number s = s.length := by
  unfold number
  split
  · exact absurd (hs '-' (by simp)) (by decide)
  · exact unsigned_eq_length hne hs

lemma number_minus {s : List Char} (hne : s ≠ []) (hs : ∀ c ∈ s, isDigit c) :
    number ('-' :: s) = s.length + 1 := by
  have hlen := unsigned_eq_length hne hs
  obtain ⟨n, hn⟩ := Nat.exists_eq_succ_of_ne_zero (mt List.length_eq_zero_iff.mp hne)
  simp [number, hlen, hn]

/-- What begins like a numeral and is one as a whole is one lexeme. -/
lemma next?_number {c : Char} {s : List Char} (hc : isBlank c = false)
    (hn : number (c :: s) = (c :: s).length) :
    next? (c :: s) = some (some .number, (c :: s).length) := by
  have hblanks : blanks (c :: s) = 0 := by simp [blanks, hc]
  simp [next?, kinds, hblanks, hn]

end Lexeme

lemma isDigit_digitChar :
    ∀ d < 10, isDigit (digitChar d) = true ∧ isBlank (digitChar d) = false := by
  decide

/-- **Numerals**: the numeral of an integer is one word. -/
theorem lexes_writeInt (i : Int) :
    Lexes (writeInt i) [⟨.number, String.ofList (writeInt i)⟩] := by
  obtain ⟨ds, hne, hlt, -, -, hi⟩ := writeInt_eq i
  have hdigits : ∀ c ∈ ds.map digitChar, isDigit c := by
    intro c hc
    obtain ⟨d, hd, rfl⟩ := List.mem_map.mp hc
    exact (isDigit_digitChar d (hlt d hd)).1
  have hnext : Lexeme.next? (writeInt i) = some (some .number, (writeInt i).length) := by
    rw [hi]
    split
    · exact Lexeme.next?_number (by decide) (by
        rw [Lexeme.number_minus (by simpa using hne) hdigits, List.length_cons])
    · obtain ⟨d, ds, rfl⟩ := List.exists_cons_of_ne_nil hne
      exact Lexeme.next?_number (isDigit_digitChar d (hlt d (by simp))).2
        (Lexeme.number_digits (by simp) hdigits)
  have h := Lexes.word hnext (by rw [List.drop_length]; exact .nil)
  rwa [List.take_length] at h

namespace Parser

/-- The sign of an integer's numeral is taken from its digits. -/
lemma takeMinus_writeInt (i : Int) :
    takeMinus (writeInt i) = (decide (i < 0), (digitsOf i.natAbs).map digitChar) := by
  obtain ⟨ds, hne, hlt, -, rfl, heq⟩ := writeInt_eq i
  rw [heq]
  split
  · rename_i hneg
    simp [takeMinus, hneg]
  · rename_i hneg
    obtain ⟨d, ds, hds⟩ := List.exists_cons_of_ne_nil hne
    have hd : digitChar d ≠ '-' := by
      intro h
      have := (isDigit_digitChar d (hlt d (by simp [hds]))).1
      rw [h] at this
      exact absurd this (by decide)
    rw [hds, List.map_cons]
    unfold takeMinus
    split
    · rename_i h
      exact absurd (List.cons.inj h).1 hd
    · simp [hneg]

/-- The digits of an integer's numeral write the integer. -/
lemma readNat?_writeInt (i : Int) :
    (readNat? (takeMinus (writeInt i)).2).map
      (fun n : Nat => if (takeMinus (writeInt i)).1 then -(n : Int) else n) = some i := by
  obtain ⟨ds, hne, hlt, hof, hds, -⟩ := writeInt_eq i
  rw [takeMinus_writeInt, ← hds, readNat?_digits hne hlt, hof, Option.map_some, Option.some.injEq]
  by_cases h : i < 0
  · simp only [h, decide_true, if_true]
    omega
  · simp only [h, decide_false, Bool.false_eq_true, if_false]
    omega

/-- **Read back**: a numeral of few enough digits is read as its integer, a longer one is not. -/
theorem integer?_writeInt (i : Int) :
    integer? (writeInt i) = some (
      if longestInteger < (digitsOf i.natAbs).length
      then .error (.tooManyDigits (digitsOf i.natAbs).length) else .ok i) := by
  obtain ⟨n, hn, hi⟩ := Option.map_eq_some_iff.mp (readNat?_writeInt i)
  have hlength : (takeMinus (writeInt i)).2.length = (digitsOf i.natAbs).length := by
    rw [takeMinus_writeInt, List.length_map]
  rw [← hlength]
  simp [integer?, hn, hi]

end Parser

/-! ### Quotes -/

/-- A character as it stands between quotes. -/
def doubled (c : Char) : List Char := if c = '\'' then ['\'', '\''] else [c]

/-- A text between quotes, every quote in it written twice. -/
def quote (s : String) : String := String.ofList ('\'' :: (s.toList.flatMap doubled ++ ['\'']))

namespace Lexeme

lemma closing?_doubled (s : List Char) :
    closing? (s.flatMap doubled ++ ['\'']) = some ((s.flatMap doubled).length + 1) := by
  induction s with
  | nil => rfl
  | cons c s ih =>
    by_cases hc : c = '\''
    · subst hc
      simp [doubled, closing?, ih]
    · simp [doubled, hc, closing?, ih]

end Lexeme

namespace Parser

lemma unescape_of_ne {c : Char} (hc : c ≠ '\'') (s : List Char) :
    unescape (c :: s) = c :: unescape s :=
  unescape.eq_2 c s fun _ h _ => hc h

/-- Doubled quotes become single ones again. -/
lemma unescape_doubled (s : List Char) : unescape (s.flatMap doubled) = s := by
  induction s with
  | nil => rfl
  | cons c s ih =>
    rw [List.flatMap_cons]
    rcases eq_or_ne c '\'' with rfl | hc
    · exact congrArg ('\'' :: ·) ih
    · rw [doubled, if_neg hc, List.singleton_append, unescape_of_ne hc, ih]

/-- **Quoted texts** are read back. -/
theorem textValue_quote (s : String) : textValue (quote s) = .text s := by
  simp [textValue, quote, unescape_doubled]

end Parser

/-- A quoted text is one word. -/
theorem lexes_quote (s : String) : Lexes (quote s).toList [⟨.text, quote s⟩] := by
  have hnext : Lexeme.next? (quote s).toList = some (some .text, (quote s).toList.length) := by
    rw [quote, String.toList_ofList, Lexeme.next?_quote, Lexeme.closing?_doubled]
    simp
  have h := Lexes.word hnext (by rw [List.drop_length]; exact .nil)
  rwa [List.take_length, String.ofList_toList] at h

end NearDoc
