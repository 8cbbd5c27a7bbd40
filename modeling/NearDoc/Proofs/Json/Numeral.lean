import NearDoc.Json.Reader
import NearDoc.Json.Writer
import NearDoc.Proofs.Number.Shortest

/-!
Numerals in JSON. A numeral reaches as far as its digits go, so what a number is written as is read
as one numeral in front of a comma, a closing bracket or the end. Main statement: a number that has
a text is read back, an integer as itself and a real number as the one that its digits stand for.
-/

namespace NearDoc

namespace Json

open Text Number

/-- What may follow a value: a comma, a closing bracket or nothing. -/
def Closes (rest : List Char) : Prop := ∀ c ∈ rest.head?, c = ',' ∨ c = ']' ∨ c = '\x7d'

/-- What follows starts with none of the characters of a numeral. -/
def Leaves (p : Char → Bool) (rest : List Char) : Prop := ∀ c ∈ rest.head?, p c = false

variable {ds fs : List Nat} {rest : List Char}

lemma Closes.leaves (h : Closes rest) {p : Char → Bool} (hcomma : p ',' = false)
    (hbracket : p ']' = false) (hbrace : p '\x7d' = false) : Leaves p rest := by
  intro c hc
  rcases h c hc with rfl | rfl | rfl
  exacts [hcomma, hbracket, hbrace]

lemma isAsciiDigit_digitChar : ∀ d < 10, isAsciiDigit (digitChar d) = true := by decide

lemma isAsciiDigit_digits (hlt : ∀ d ∈ ds, d < 10) : ∀ c ∈ ds.map digitChar, isAsciiDigit c := by
  intro c hc
  obtain ⟨d, hd, rfl⟩ := List.mem_map.mp hc
  exact isAsciiDigit_digitChar d (hlt d hd)

/-! ### Digits in front -/

lemma takeWhile_digits {p : Char → Bool} {s : List Char} (hs : ∀ c ∈ s, p c) (h : Leaves p rest) :
    (s ++ rest).takeWhile p = s ∧ (s ++ rest).dropWhile p = rest := by
  have hrest : rest.takeWhile p = [] ∧ rest.dropWhile p = rest := by
    cases rest with
    | nil => exact ⟨rfl, rfl⟩
    | cons c rest => simp [h c (by simp)]
  rw [List.takeWhile_append_of_pos hs, List.dropWhile_append_of_pos hs, hrest.1, hrest.2]
  simp

lemma takeWhole?_digits (hds : LeadsOff ds) (h : Leaves isAsciiDigit rest) :
    takeWhole? (ds.map digitChar ++ rest) = some (ds.map digitChar, rest) := by
  obtain ⟨hlt, rfl | ⟨d, ds', rfl, hd⟩⟩ := hds
  · rfl
  · have hzero : ∀ d < 10, digitChar d = '0' → d = 0 := by decide
    have hdigit := isAsciiDigit_digitChar d (hlt d (by simp))
    obtain ⟨htake, hdrop⟩ := takeWhile_digits (isAsciiDigit_digits hlt) h
    rw [List.map_cons, List.cons_append] at htake hdrop ⊢
    rw [takeWhole?, if_neg (fun h0 => hd (hzero d (hlt d (by simp)) h0)), if_pos hdigit, htake,
      hdrop]

/-- The digits after a point as they stand in a numeral. -/
def afterPoint (fs : List Nat) : List Char := if fs = [] then [] else '.' :: fs.map digitChar

lemma takeFraction_digits (hlt : ∀ d ∈ fs, d < 10) (h : Leaves isAsciiDigit rest)
    (hpoint : Leaves (· = '.') rest) :
    takeFraction (afterPoint fs ++ rest) = (afterPoint fs, rest) := by
  unfold afterPoint
  split
  · rw [List.nil_append]
    unfold takeFraction
    split
    · simpa using hpoint '.' (by simp)
    · rfl
  · rename_i hne
    obtain ⟨htake, hdrop⟩ := takeWhile_digits (isAsciiDigit_digits hlt) h
    obtain ⟨d, ds, rfl⟩ := List.exists_cons_of_ne_nil hne
    simp only [List.cons_append, takeFraction, htake, hdrop]
    rfl

/-- An exponent as it stands in a numeral. -/
def afterLetter (exponent : Option (Char × List Nat)) : List Char :=
  exponent.elim [] fun e => 'e' :: e.1 :: e.2.map digitChar

lemma numeral_eq (whole fraction : List Nat) (exponent : Option (Char × List Nat)) :
    numeral whole fraction exponent =
      whole.map digitChar ++ afterPoint fraction ++ afterLetter exponent := rfl

lemma takeExponent_digits {exponent : Option (Char × List Nat)}
    (hsign : ∀ e ∈ exponent, e.1 = '+' ∨ e.1 = '-') (hne : ∀ e ∈ exponent, e.2 ≠ [])
    (hlt : ∀ e ∈ exponent, ∀ d ∈ e.2, d < 10) (h : Leaves isAsciiDigit rest)
    (hletter : Leaves (fun c => c = 'e' || c = 'E') rest) :
    takeExponent (afterLetter exponent ++ rest) = (afterLetter exponent, rest) := by
  rcases exponent with _ | ⟨c, ds⟩
  · cases rest with
    | nil => rfl
    | cons c rest =>
      have hc := hletter c (by simp)
      simp only [afterLetter, Option.elim_none, List.nil_append, takeExponent, hc]
      rfl
  · obtain ⟨htake, hdrop⟩ := takeWhile_digits (isAsciiDigit_digits (hlt _ rfl)) h
    obtain ⟨d, ds, rfl⟩ := List.exists_cons_of_ne_nil (hne _ rfl)
    rcases hsign _ rfl with rfl | rfl
    · simp only [afterLetter, Option.elim_some, List.cons_append, takeExponent, takeExponentSign,
        htake, hdrop]
      rfl
    · simp only [afterLetter, Option.elim_some, List.cons_append, takeExponent, takeExponentSign,
        htake, hdrop]
      rfl

/-! ### Numerals in front -/

variable {whole fraction : List Nat} {exponent : Option (Char × List Nat)}

lemma leaves_afterLetter {p : Char → Bool} (he : p 'e' = false) (h : Leaves p rest) :
    Leaves p (afterLetter exponent ++ rest) := by
  rcases exponent with _ | e
  · exact h
  · rintro c ⟨⟩
    exact he

lemma leaves_afterPoint {p : Char → Bool} (hpoint : p '.' = false) (h : Leaves p rest) :
    Leaves p (afterPoint fs ++ rest) := by
  unfold afterPoint
  split
  · exact h
  · rintro c ⟨⟩
    exact hpoint

/-- A numeral with a point or an exponent is read by its digits. -/
lemma readNumber_numeral (h : IsNumeral whole fraction exponent) (hrest : Closes rest)
    {negative : Bool} {x : Binary64}
    (hx : readDecimal? negative (numeral whole fraction exponent) = some x) :
    readNumber negative (numeral whole fraction exponent ++ rest) = .ok (.real x, rest) := by
  have hdigit : Leaves isAsciiDigit rest := hrest.leaves (by decide) (by decide) (by decide)
  have hpoint : Leaves (· = '.') rest := hrest.leaves (by decide) (by decide) (by decide)
  have hletter : Leaves (fun c => c = 'e' || c = 'E') rest :=
    hrest.leaves (by decide) (by decide) (by decide)
  have hexp : Leaves isAsciiDigit (afterLetter exponent ++ rest) :=
    leaves_afterLetter (by decide) hdigit
  have hfract : Leaves isAsciiDigit (afterPoint fraction ++ (afterLetter exponent ++ rest)) :=
    leaves_afterPoint (by decide) hexp
  have hwhole := takeWhole?_digits h.leads hfract
  have hfraction := takeFraction_digits h.fraction_lt hexp
    (leaves_afterLetter (by decide) hpoint)
  have hexponent := takeExponent_digits h.sign h.exponent_ne h.exponent_lt hdigit hletter
  have hreal : ((afterPoint fraction).isEmpty && (afterLetter exponent).isEmpty) = false := by
    rcases h.real with hf | he
    · simp [afterPoint, hf]
    · obtain ⟨e, rfl⟩ := Option.ne_none_iff_exists'.mp he
      simp [afterLetter]
  rw [numeral_eq] at hx
  simp only [readNumber, numeral_eq, List.append_assoc, hwhole, hfraction, hexponent, hreal,
    Bool.false_eq_true, if_false] at hx ⊢
  rw [hx]

/-- Digits alone are read as an integer. -/
lemma readNumber_digits (h : LeadsOff ds) (hrest : Closes rest) (negative : Bool) :
    readNumber negative (ds.map digitChar ++ rest) =
      (readInteger negative (ds.map digitChar)).map (·, rest) := by
  have hdigit : Leaves isAsciiDigit rest := hrest.leaves (by decide) (by decide) (by decide)
  have hpoint : Leaves (· = '.') rest := hrest.leaves (by decide) (by decide) (by decide)
  have hletter : Leaves (fun c => c = 'e' || c = 'E') rest :=
    hrest.leaves (by decide) (by decide) (by decide)
  have hfraction : takeFraction (afterPoint [] ++ rest) = (afterPoint [], rest) :=
    takeFraction_digits (by simp) hdigit hpoint
  have hexponent : takeExponent (afterLetter none ++ rest) = (afterLetter none, rest) :=
    takeExponent_digits (by simp) (by simp) (by simp) hdigit hletter
  have hempty : afterPoint [] = [] ∧ afterLetter none = [] := ⟨rfl, rfl⟩
  rw [hempty.1, List.nil_append] at hfraction
  rw [hempty.2, List.nil_append] at hexponent
  simp only [readNumber, takeWhole?_digits h hdigit, hfraction, hexponent, List.isEmpty_nil,
    Bool.and_self, if_true]

/-! ### The number of a numeral -/

lemma takeDigits_digits (hlt : ∀ d ∈ ds, d < 10) (h : Leaves isDigit rest) :
    takeDigits (ds.map digitChar ++ rest) = (ds, rest) := by
  have hdigits : ∀ c ∈ ds.map digitChar, isDigit c := by
    intro c hc
    obtain ⟨d, hd, rfl⟩ := List.mem_map.mp hc
    simp [isDigit, digitValue?_digitChar d (hlt d hd)]
  obtain ⟨htake, hdrop⟩ := takeWhile_digits hdigits h
  have hvalues : (ds.map digitChar).filterMap digitValue? = ds := by
    clear htake hdrop hdigits
    induction ds with
    | nil => rfl
    | cons d ds ih =>
      rw [List.forall_mem_cons] at hlt
      simp [digitValue?_digitChar d hlt.1, ih hlt.2]
  rw [takeDigits, htake, hdrop, hvalues]

lemma readExponent?_afterLetter (h : IsNumeral whole fraction exponent) :
    readExponent? (afterLetter exponent) = some (exponentValue exponent) := by
  rcases exponent with _ | ⟨c, ds⟩
  · rfl
  · have hnat := readNat?_digits (h.exponent_ne _ rfl) (h.exponent_lt _ rfl)
    rcases h.sign _ rfl with rfl | rfl <;>
      simp [afterLetter, readExponent?, takeSign, hnat, exponentValue]

/-- A numeral stands for the number of its digits. -/
lemma readDecimal?_numeral (h : IsNumeral whole fraction exponent) (negative : Bool) :
    readDecimal? negative (numeral whole fraction exponent) =
      some (ofDecimal negative (ofDigits (whole ++ fraction))
        (exponentValue exponent - fraction.length)) := by
  have hnil : Leaves isDigit [] := nofun
  have hexp : Leaves isDigit (afterLetter exponent ++ []) := leaves_afterLetter (by decide) hnil
  rw [List.append_nil] at hexp
  have hfract : Leaves isDigit (afterPoint fraction ++ afterLetter exponent) :=
    leaves_afterPoint (by decide) hexp
  have hwhole := takeDigits_digits h.leads.1 hfract
  have hne : whole.isEmpty = false := by
    obtain ⟨-, rfl | ⟨d, ds, rfl, -⟩⟩ := h.leads <;> rfl
  have hread := readExponent?_afterLetter h
  simp only [readDecimal?, numeral_eq, List.append_assoc, hwhole, hne, Bool.false_and,
    Bool.false_eq_true, if_false]
  by_cases hf : fraction = []
  · subst hf
    rcases exponent with _ | e
    · rfl
    · simp only [afterLetter, Option.elim_some] at hread ⊢
      simp [afterPoint, hread]
  · have hfraction := takeDigits_digits h.fraction_lt hexp
    simp [afterPoint, hf, hfraction, hread]

/-! ### Numbers -/

/-- The number that the text of a number is read as. -/
def reread (x : Binary64) : Binary64 :=
  match x with
  | .finite negative units _ =>
    (readDecimal? negative (fullLayout.write (digitsIn .double units))).getD x
  | x => x

/-- A number as it is read back. -/
def rereadNumber : Number → Value
  | .int i => .int i
  | .real x => .real (reread x)

lemma digitChar_ne : ∀ d < 10, digitChar d ≠ 'n' ∧ digitChar d ≠ 't' ∧ digitChar d ≠ 'f' ∧
    digitChar d ≠ 'N' ∧ digitChar d ≠ 'I' ∧ digitChar d ≠ '-' := by decide

/-- A word does not begin with a digit. -/
lemma readPlain_digit {d : Nat} (hd : d < 10) (s : List Char) :
    readPlain (digitChar d :: s) = readNumber false (digitChar d :: s) ∧
      readPlain ('-' :: digitChar d :: s) = readNumber true (digitChar d :: s) := by
  obtain ⟨hn, ht, hf, hN, hI, hminus⟩ := digitChar_ne d hd
  have hword : ∀ (w : Char) (word : List Char), w ≠ digitChar d →
      afterWord? (w :: word) (digitChar d :: s) = none := fun w word hw => by
    rw [afterWord?, if_neg hw]
  have hdash : ∀ (w : Char) (word : List Char), w ≠ '-' →
      afterWord? (w :: word) ('-' :: digitChar d :: s) = none := fun w word hw => by
    rw [afterWord?, if_neg hw]
  constructor
  · have hnone : (words.findSome? fun w =>
        (afterWord? w.1.toList (digitChar d :: s)).map (w.2, ·)) = none := by
      simp [words, hword _ _ hn.symm, hword _ _ ht.symm, hword _ _ hf.symm, hword _ _ hN.symm,
        hword _ _ hI.symm, hword _ _ hminus.symm]
    simp only [readPlain, hnone]
    split
    · rename_i h
      exact absurd (List.cons.inj h).1 hminus
    · rfl
  · have hnone : (words.findSome? fun w =>
        (afterWord? w.1.toList ('-' :: digitChar d :: s)).map (w.2, ·)) = none := by
      simp [words, hdash, afterWord?, hI.symm]
    simp only [readPlain, hnone]

lemma exists_digitChar_cons (h : LeadsOff ds) :
    ∃ d ds', d < 10 ∧ ds.map digitChar = digitChar d :: ds' := by
  obtain ⟨hlt, rfl | ⟨d, ds', rfl, -⟩⟩ := h
  · exact ⟨0, [], by decide, rfl⟩
  · exact ⟨d, _, hlt d (by simp), rfl⟩

/-- A sign in front of a numeral is read with it. -/
lemma readPlain_signed {s : List Char} (hs : ∃ d cs, d < 10 ∧ s = digitChar d :: cs)
    (negative : Bool) (rest : List Char) :
    readPlain ((if negative then ['-'] else []) ++ s ++ rest) =
      readNumber negative (s ++ rest) := by
  obtain ⟨d, cs, hd, rfl⟩ := hs
  cases negative
  · exact (readPlain_digit hd _).1
  · exact (readPlain_digit hd _).2

/-- **Numbers**: a number that has a text is read back. -/
theorem readPlain_writeNumber {n : Number} {s : List Char} (h : writeNumber n = .ok s)
    (hrest : Closes rest) : readPlain (s ++ rest) = .ok (rereadNumber n, rest) := by
  cases n with
  | int i =>
    simp only [writeNumber] at h
    split at h
    · cases h
    · rename_i hlong
      cases h
      have hleads := leadsOff_digitsOf i.natAbs
      obtain ⟨hne, hlt, hof⟩ := digitsOf_spec i.natAbs
      have hwrite : writeInt i = (if decide (i < 0) = true then ['-'] else []) ++
          (digitsOf i.natAbs).map digitChar := by
        simp [writeInt]
      rw [hwrite, readPlain_signed (exists_digitChar_cons hleads), readNumber_digits hleads hrest,
        readInteger, List.length_map, if_neg hlong, readNat?_digits hne hlt, hof]
      have hi : (if decide (i < 0) = true then -(i.natAbs : Int) else i.natAbs) = i := by
        by_cases hneg : i < 0
        · rw [if_pos (by simpa using hneg)]
          omega
        · rw [if_neg (by simpa using hneg)]
          omega
      simp only [hi]
      rfl
  | real x =>
    rcases x with mark | negative | ⟨negative, units, fits⟩
    · cases h
    · cases h
    · cases h
      obtain ⟨whole, fraction, exponent, heq, hnumeral, -⟩ := exists_numeral units
      obtain ⟨d, cs, hd, hfirst⟩ := exists_digitChar_cons hnumeral.leads
      have hx := readDecimal?_numeral hnumeral negative
      have hwrite : writeReal (.finite negative units fits) =
          (if negative then ['-'] else []) ++ numeral whole fraction exponent := by
        simp only [writeReal, writeWith, heq]
      have hreread : reread (.finite negative units fits) =
          ofDecimal negative (ofDigits (whole ++ fraction))
            (exponentValue exponent - fraction.length) := by
        simp only [reread, heq, hx, Option.getD_some]
      rw [hwrite, readPlain_signed ⟨d, _, hd, by rw [numeral, hfirst]; rfl⟩,
        readNumber_numeral hnumeral hrest hx, rereadNumber, hreread]

/-- The text of a number begins with a sign or a digit. -/
lemma exists_writeNumber_cons {n : Number} {s : List Char} (h : writeNumber n = .ok s) :
    ∃ c cs, s = c :: cs ∧ (c = '-' ∨ ∃ d < 10, c = digitChar d) := by
  have hsigned : ∀ (negative : Bool) {t : List Char}, (∃ d cs, d < 10 ∧ t = digitChar d :: cs) →
      ∃ c cs, (if negative then ['-'] else []) ++ t = c :: cs ∧
        (c = '-' ∨ ∃ d < 10, c = digitChar d) := by
    rintro negative t ⟨d, cs, hd, rfl⟩
    cases negative
    · exact ⟨_, _, rfl, .inr ⟨d, hd, rfl⟩⟩
    · exact ⟨_, _, rfl, .inl rfl⟩
  cases n with
  | int i =>
    simp only [writeNumber] at h
    split at h
    · cases h
    · cases h
      simpa [writeInt] using
        hsigned (decide (i < 0)) (exists_digitChar_cons (leadsOff_digitsOf i.natAbs))
  | real x =>
    rcases x with mark | negative | ⟨negative, units, fits⟩
    · cases h
    · cases h
    · cases h
      obtain ⟨whole, fraction, exponent, heq, hnumeral, -⟩ := exists_numeral units
      obtain ⟨d, cs, hd, hfirst⟩ := exists_digitChar_cons hnumeral.leads
      simpa only [writeReal, writeWith, heq] using
        hsigned negative ⟨d, _, hd, by rw [numeral, hfirst]; rfl⟩

end Json

end NearDoc
