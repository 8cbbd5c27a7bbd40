import Mathlib.Data.List.Basic
import Mathlib.Tactic.Common
import NearDoc.Json.Reader
import NearDoc.Json.Writer

/-!
Texts in JSON. Each character stands for itself or as an escape. Main statement: a text that is
written is read back, up to its closing quote.
-/

namespace NearDoc

namespace Text

/-- The last digit apart, a number is padded like its quotient. -/
lemma hexPadded_succ {w : Nat} (hw : 1 ≤ w) (n : Nat) :
    hexPadded (w + 1) n = hexPadded w (n / 16) ++ [Nat.digitChar (n % 16)] := by
  unfold hexPadded
  by_cases h : n < 16
  · have hdiv : n / 16 = 0 := by omega
    obtain ⟨w, rfl⟩ := Nat.exists_eq_add_of_le hw
    rw [Nat.toDigits_of_lt_base h, hdiv, Nat.toDigits_of_lt_base (by decide), Nat.mod_eq_of_lt h]
    simp [Nat.add_comm 1 w, List.replicate_succ', Nat.digitChar]
  · rw [Nat.toDigits_of_base_le (by decide) (by omega)]
    simp

lemma hexPadded_one {n : Nat} (hn : n < 16) : hexPadded 1 n = [Nat.digitChar n] := by
  simp [hexPadded, Nat.toDigits_of_lt_base hn]

lemma hexValue?_digitChar : ∀ n < 16, hexValue? (Nat.digitChar n) = some n := by decide

/-- Four digits hold a number of sixteen bits. -/
lemma hexPadded_four {n : Nat} (hn : n < 0x10000) :
    hexPadded 4 n = [Nat.digitChar (n / 4096), Nat.digitChar (n / 256 % 16),
      Nat.digitChar (n / 16 % 16), Nat.digitChar (n % 16)] := by
  rw [hexPadded_succ (by decide), hexPadded_succ (by decide), hexPadded_succ (by decide),
    hexPadded_one (by omega)]
  simp [Nat.div_div_eq_div_mul]

end Text

namespace Json

open Text

variable {rest : List Char}

/-! ### Escapes -/

/-- An escape of four digits reads as its number. -/
lemma escapeUnit_eq {n : Nat} (hn : n < 0x10000) :
    ∃ a b c d, escapeUnit n = ['\\', 'u', a, b, c, d] ∧ hexUnit? a b c d = some n := by
  refine ⟨_, _, _, _, by rw [escapeUnit, hexPadded_four hn], ?_⟩
  have h1 := hexValue?_digitChar (n / 4096) (by omega)
  have h2 := hexValue?_digitChar (n / 256 % 16) (by omega)
  have h3 := hexValue?_digitChar (n / 16 % 16) (by omega)
  have h4 := hexValue?_digitChar (n % 16) (by omega)
  simp only [hexUnit?, h1, h2, h3, h4, bind, Option.bind, pure, Option.some.injEq]
  omega

/-- An escape without a number is no escape. -/
lemma readText?_of_none {a b c d : Char} (h : hexUnit? a b c d = none) (rest : List Char) :
    readText? ('\\' :: 'u' :: a :: b :: c :: d :: rest) = none := by
  by_cases hpair : ∃ e f g h rest', rest = '\\' :: 'u' :: e :: f :: g :: h :: rest'
  · obtain ⟨e, f, g, h', rest', rfl⟩ := hpair
    rw [readText?, h]
  · push Not at hpair
    rw [readText?, h]
    exact fun e f g h rest' => hpair e f g h rest'

/-- An escape that is no first half of a pair stands for one character, whatever follows. -/
lemma readText?_escapeUnit {n : Nat} (hn : n < 0x10000) (hhigh : isHigh n = false)
    (rest : List Char) :
    readText? (escapeUnit n ++ rest) = (readText? rest).map fun r => (unitChar n :: r.1, r.2) := by
  obtain ⟨a, b, c, d, heq, hunit⟩ := escapeUnit_eq hn
  rw [heq]
  by_cases hpair : ∃ e f g h rest', rest = '\\' :: 'u' :: e :: f :: g :: h :: rest'
  · obtain ⟨e, f, g, h, rest', rfl⟩ := hpair
    -- another escape follows, which must be one of four digits as well
    cases hnext : hexUnit? e f g h with
    | none =>
      rw [readText?_of_none hnext]
      simp [readText?, hunit, hnext]
    | some m => simp [readText?, hunit, hnext, hhigh]
  · push Not at hpair
    simp only [List.cons_append, List.nil_append]
    rw [readText?, hunit]
    exact fun e f g h rest' => hpair e f g h rest'

/-- The two halves of a pair stand for one character. -/
lemma readText?_pair {m n : Nat} (hm : m < 0x10000) (hn : n < 0x10000) (hhigh : isHigh m = true)
    (hlow : isLow n = true) (rest : List Char) :
    readText? (escapeUnit m ++ escapeUnit n ++ rest) =
      (readText? rest).map fun r => (pairChar m n :: r.1, r.2) := by
  obtain ⟨a, b, c, d, heq, hunit⟩ := escapeUnit_eq hm
  obtain ⟨e, f, g, h, heq', hunit'⟩ := escapeUnit_eq hn
  rw [heq, heq']
  simp [readText?, hunit, hunit', hhigh, hlow]

lemma toNat_lt_or (c : Char) : c.toNat < 0xD800 ∨ 0xDFFF < c.toNat ∧ c.toNat < 0x110000 :=
  c.valid

lemma readText?_escapeCode (c : Char) (rest : List Char) :
    readText? (escapeCode c.toNat ++ rest) = (readText? rest).map fun r => (c :: r.1, r.2) := by
  have hc := toNat_lt_or c
  unfold escapeCode
  split
  · rename_i hn
    have hhigh : isHigh c.toNat = false := by
      simp only [isHigh, Bool.and_eq_false_iff, decide_eq_false_iff_not]
      omega
    have hlow : isLow c.toNat = false := by
      simp only [isLow, Bool.and_eq_false_iff, decide_eq_false_iff_not]
      omega
    rw [readText?_escapeUnit hn hhigh]
    simp [unitChar, hhigh, hlow]
  · rename_i hn
    have hhigh : isHigh (0xD800 + (c.toNat - 0x10000) / 0x400) = true := by
      simp only [isHigh, Bool.and_eq_true, decide_eq_true_eq]
      omega
    have hlow : isLow (0xDC00 + (c.toNat - 0x10000) % 0x400) = true := by
      simp only [isLow, Bool.and_eq_true, decide_eq_true_eq]
      omega
    have hpair : pairChar (0xD800 + (c.toNat - 0x10000) / 0x400)
        (0xDC00 + (c.toNat - 0x10000) % 0x400) = c := by
      have hcode : 0x10000 + (0xD800 + (c.toNat - 0x10000) / 0x400 - 0xD800) * 0x400 +
          (0xDC00 + (c.toNat - 0x10000) % 0x400 - 0xDC00) = c.toNat := by omega
      rw [pairChar, hcode, Char.ofNat_toNat]
    rw [readText?_pair (by omega) (by omega) hhigh hlow, hpair]

/-! ### Texts -/

/-- A character that is written is read. -/
lemma readText?_writeChar (c : Char) (rest : List Char) :
    readText? (writeChar c ++ rest) = (readText? rest).map fun r => (c :: r.1, r.2) := by
  have hescape : ∀ e, simpleEscape? e = some c → e ≠ 'u' →
      readText? ('\\' :: e :: rest) = (readText? rest).map fun r => (c :: r.1, r.2) :=
    fun e he hu => by
      rw [readText?, he]
      · exact fun _ _ _ _ _ _ _ _ _ h => absurd h hu
      · exact fun _ _ _ _ _ h => absurd h hu
  unfold writeChar
  split
  · subst_vars
    exact hescape _ rfl (by decide)
  split
  · subst_vars
    exact hescape _ rfl (by decide)
  split
  · subst_vars
    exact hescape _ rfl (by decide)
  split
  · subst_vars
    exact hescape _ rfl (by decide)
  split
  · subst_vars
    exact hescape _ rfl (by decide)
  split
  · rename_i h
    refine hescape 'b' ?_ (by decide)
    rw [simpleEscape?, ← h, Char.ofNat_toNat]
  split
  · rename_i h
    refine hescape 'f' ?_ (by decide)
    rw [simpleEscape?, ← h, Char.ofNat_toNat]
  split
  · rename_i hquote hslash _ _ _ _ _ h
    simp only [Bool.and_eq_true, decide_eq_true_eq] at h
    have hplain : (c.toNat < 32 || c = '\\') = false := by
      simp only [hslash, decide_false, Bool.or_false, decide_eq_false_iff_not]
      omega
    rw [List.singleton_append, readText?, hplain]
    · rfl
    · exact hquote
    all_goals simp [hslash]
  · exact readText?_escapeCode c rest

lemma readText?_writeChars (cs rest : List Char) :
    readText? (cs.flatMap writeChar ++ '"' :: rest) = some (cs, rest) := by
  induction cs with
  | nil => rfl
  | cons c cs ih =>
    rw [List.flatMap_cons, List.append_assoc, readText?_writeChar, ih]
    rfl

/-- **Texts**: a text that is written is read back up to its closing quote. -/
theorem readQuoted_writeText (s : String) (rest : List Char) :
    ∃ cs, writeText s ++ rest = '"' :: cs ∧ readQuoted cs = .ok (s, rest) := by
  refine ⟨s.toList.flatMap writeChar ++ '"' :: rest, by simp [writeText], ?_⟩
  rw [readQuoted, readText?_writeChars]
  simp

end Json

end NearDoc
