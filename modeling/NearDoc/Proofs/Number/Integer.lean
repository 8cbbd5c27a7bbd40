import Mathlib.Tactic.Common
import NearDoc.Number.Numeral
import NearDoc.Proofs.Text.Trim

/-!
Integers as texts write them: decimal digits of any script with single underscores between them, a
sign in front, and blanks around the whole. Main statement: a text is read as an integer just when
it writes that integer, in no more digits than are read.
-/

namespace NearDoc.Number

open Text

/-! ### What writes an integer -/

/-- What may stand after a digit: digits, each by itself or behind an underscore. -/
inductive MoreDigits : List Char → List Nat → Prop where
  | done : MoreDigits [] []
  | digit {c : Char} {d : Nat} {cs : List Char} {ds : List Nat} (h : digitValue? c = some d)
      (rest : MoreDigits cs ds) : MoreDigits (c :: cs) (d :: ds)
  | separated {c : Char} {d : Nat} {cs : List Char} {ds : List Nat} (h : digitValue? c = some d)
      (rest : MoreDigits cs ds) : MoreDigits ('_' :: c :: cs) (d :: ds)

/-- Digits, of which there is at least one, with single underscores between them. -/
inductive SpellsDigits : List Char → List Nat → Prop where
  | intro {c : Char} {d : Nat} {cs : List Char} {ds : List Nat} (h : digitValue? c = some d)
      (rest : MoreDigits cs ds) : SpellsDigits (c :: cs) (d :: ds)

/-- The signs that may stand before the digits, none among them, and whether they are negative. -/
def signs : List (List Char × Bool) := [([], false), (['+'], false), (['-'], true)]

/-- Blanks, a sign, digits and blanks: a text that stands for an integer. -/
inductive WritesInt : List Char → Int → Prop where
  | intro {before sign body after : List Char} {negative : Bool} {ds : List Nat}
      (hbefore : ∀ c ∈ before, isNumeralBlank c) (hafter : ∀ c ∈ after, isNumeralBlank c)
      (hsign : (sign, negative) ∈ signs) (hbody : SpellsDigits body ds)
      (hlength : ds.length ≤ longestInteger) :
      WritesInt (before ++ (sign ++ body ++ after))
        (if negative then -(ofDigits ds : Int) else ofDigits ds)

/-! ### Digits and separators -/

variable {s cs body : List Char} {ds : List Nat} {c : Char} {d : Nat}

lemma mapM_digits_cons : (c :: cs).mapM digitValue? = some ds ↔
    ∃ d es, digitValue? c = some d ∧ cs.mapM digitValue? = some es ∧ ds = d :: es := by
  simp only [List.mapM_cons, Option.bind_eq_bind, Option.bind_eq_some_iff, Option.pure_def,
    Option.some.injEq]
  constructor
  · rintro ⟨d, hd, es, hes, rfl⟩
    exact ⟨d, es, hd, hes, rfl⟩
  · rintro ⟨d, es, hd, hes, rfl⟩
    exact ⟨d, hd, es, hes, rfl⟩

lemma ne_underscore (h : digitValue? c = some d) : c ≠ '_' := by
  rintro rfl
  cases h

lemma isDigit_of_value (h : digitValue? c = some d) : isDigit c = true := by
  rw [isDigit, h]
  rfl

lemma dropSeparators_digit (h : digitValue? c = some d) (afterDigit : Bool) (cs : List Char) :
    dropSeparators afterDigit (c :: cs) = (dropSeparators true cs).map (c :: ·) := by
  have hne := ne_underscore h
  rw [dropSeparators, isDigit_of_value h]
  · exact fun _ _ heq _ => hne heq
  · exact fun heq _ => hne heq

/-- Without the underscores, what stands after a digit is digits. -/
lemma MoreDigits.exists_digits (h : MoreDigits cs ds) :
    ∃ xs, dropSeparators true cs = some xs ∧ xs.mapM digitValue? = some ds := by
  induction h with
  | done => exact ⟨[], rfl, rfl⟩
  | @digit c d cs ds h _ ih =>
    obtain ⟨xs, hxs, hds⟩ := ih
    refine ⟨c :: xs, ?_, mapM_digits_cons.mpr ⟨d, ds, h, hds, rfl⟩⟩
    rw [dropSeparators_digit h, hxs, Option.map_some]
  | @separated c d cs ds h _ ih =>
    obtain ⟨xs, hxs, hds⟩ := ih
    refine ⟨c :: xs, ?_, mapM_digits_cons.mpr ⟨d, ds, h, hds, rfl⟩⟩
    rw [dropSeparators, isDigit_of_value h, hxs]
    rfl

/-- What is digits without the underscores may stand after a digit. -/
lemma moreDigits_of_dropSeparators {afterDigit : Bool} {xs : List Char}
    (hxs : dropSeparators afterDigit cs = some xs) (hds : xs.mapM digitValue? = some ds)
    (hafter : afterDigit = true) : MoreDigits cs ds := by
  induction afterDigit, cs using dropSeparators.induct generalizing xs ds with
  | case1 =>
    cases hxs
    cases hds
    exact .done
  | case2 afterDigit c cs hdigit ih =>
    rw [dropSeparators, if_pos hdigit, Option.map_eq_some_iff] at hxs
    obtain ⟨ys, hys, rfl⟩ := hxs
    obtain ⟨d, es, hd, hes, rfl⟩ := mapM_digits_cons.mp hds
    exact .separated hd (ih hys hes rfl)
  | case3 afterDigit c cs hdigit =>
    rw [dropSeparators, if_neg hdigit] at hxs
    cases hxs
  | case4 => cases hxs
  | case5 afterDigit c cs hpair hlast ih =>
    rw [dropSeparators, Option.map_eq_some_iff] at hxs
    · obtain ⟨ys, hys, rfl⟩ := hxs
      obtain ⟨d, es, hd, hes, rfl⟩ := mapM_digits_cons.mp hds
      exact .digit hd (ih hys hes (isDigit_of_value hd))
    · exact hpair
    · exact hlast

/-- **Digits**: a text spells digits just when these are left without the underscores. -/
theorem spellsDigits_iff : SpellsDigits body ds ↔
    ∃ xs, dropSeparators false body = some xs ∧ xs ≠ [] ∧ xs.mapM digitValue? = some ds := by
  constructor
  · rintro ⟨h, rest⟩
    obtain ⟨xs, hxs, hds⟩ := rest.exists_digits
    refine ⟨_, ?_, List.cons_ne_nil _ xs, mapM_digits_cons.mpr ⟨_, _, h, hds, rfl⟩⟩
    rw [dropSeparators_digit h, hxs, Option.map_some]
  · rintro ⟨xs, hxs, hne, hds⟩
    rcases body with _ | ⟨c, cs⟩
    · cases hxs
      contradiction
    · obtain ⟨x, ys, rfl⟩ := List.exists_cons_of_ne_nil hne
      obtain ⟨d, es, hd, hes, rfl⟩ := mapM_digits_cons.mp hds
      by_cases hc : c = '_'
      · -- an underscore in front stands after no digit
        subst hc
        rcases cs with _ | ⟨c, cs⟩ <;> cases hxs
      · rw [dropSeparators, Option.map_eq_some_iff] at hxs
        · obtain ⟨ys', hys, heq⟩ := hxs
          cases heq
          rw [isDigit_of_value hd] at hys
          exact .intro hd (moreDigits_of_dropSeparators hys hes rfl)
        · exact fun _ _ heq _ => hc heq
        · exact fun heq _ => hc heq

/-! ### Blanks and signs -/

/-- Digits and underscores are no blanks. -/
lemma not_blank_of_digit (h : digitValue? c = some d) : ¬ isNumeralBlank c := by
  intro hblank
  simp only [isNumeralBlank, Bool.and_eq_true] at hblank
  have hnone : digitValue? c = none :=
    of_isBlank (P := fun c => digitValue? c = none) (by decide) hblank.1
  rw [hnone] at h
  cases h

lemma MoreDigits.not_blank (h : MoreDigits cs ds) : ∀ c ∈ cs, ¬ isNumeralBlank c := by
  induction h with
  | done => exact nofun
  | digit h _ ih => exact List.forall_mem_cons.mpr ⟨not_blank_of_digit h, ih⟩
  | separated h _ ih =>
    rw [List.forall_mem_cons, List.forall_mem_cons]
    exact ⟨by decide, not_blank_of_digit h, ih⟩

lemma trimNumeral_eq (s : List Char) : trimNumeral s = strip isNumeralBlank s := rfl

/-- No blanks stand at the ends of signed digits. -/
lemma strip_signed {sign : List Char} {negative : Bool} (hsign : (sign, negative) ∈ signs)
    (hbody : SpellsDigits body ds) : trimNumeral (sign ++ body) = sign ++ body := by
  refine strip_of_forall fun c hc => ?_
  rcases List.mem_append.mp hc with hc | hc
  · simp only [signs, List.mem_cons, List.not_mem_nil, or_false, Prod.mk.injEq] at hsign
    rcases hsign with ⟨rfl, -⟩ | ⟨rfl, -⟩ | ⟨rfl, -⟩
    · cases hc
    · rw [List.mem_singleton.mp hc]
      decide
    · rw [List.mem_singleton.mp hc]
      decide
  · obtain ⟨h, rest⟩ := hbody
    rcases List.mem_cons.mp hc with rfl | hc
    · exact not_blank_of_digit h
    · exact rest.not_blank c hc

/-- A sign is told from the digits that it stands before. -/
lemma takeSign_signed {sign : List Char} {negative : Bool} (hsign : (sign, negative) ∈ signs)
    (hbody : SpellsDigits body ds) : takeSign (sign ++ body) = (negative, body) := by
  obtain ⟨h, rest⟩ := hbody
  simp only [signs, List.mem_cons, List.not_mem_nil, or_false, Prod.mk.injEq] at hsign
  rcases hsign with ⟨rfl, rfl⟩ | ⟨rfl, rfl⟩ | ⟨rfl, rfl⟩
  · rw [List.nil_append, takeSign]
    · rintro r heq
      cases heq
      cases h
    · rintro r heq
      cases heq
      cases h
  · rfl
  · rfl

lemma exists_sign (s : List Char) : ∃ sign, (sign, (takeSign s).1) ∈ signs ∧
    s = sign ++ (takeSign s).2 := by
  unfold takeSign
  split
  · exact ⟨['-'], by simp [signs], rfl⟩
  · exact ⟨['+'], by simp [signs], rfl⟩
  · exact ⟨[], by simp [signs], rfl⟩

/-! ### Reading -/

lemma readNat?_eq_some {xs : List Char} {n : Nat} : readNat? xs = some n ↔
    ∃ ds, xs ≠ [] ∧ xs.mapM digitValue? = some ds ∧ n = ofDigits ds := by
  rcases xs with _ | ⟨x, xs⟩
  · simp [readNat?]
  · simp only [readNat?, List.isEmpty_cons, Bool.false_eq_true, if_false, Option.map_eq_some_iff,
      ne_eq, reduceCtorEq, not_false_eq_true, true_and, eq_comm (a := n)]

lemma length_of_mapM_digits {xs : List Char} (h : xs.mapM digitValue? = some ds) :
    ds.length = xs.length := by
  induction xs generalizing ds with
  | nil =>
    cases h
    rfl
  | cons x xs ih =>
    obtain ⟨d, es, -, hes, rfl⟩ := mapM_digits_cons.mp h
    rw [List.length_cons, List.length_cons, ih hes]

lemma readInt?_eq (s : List Char) : readInt? s =
    (dropSeparators false (takeSign (trimNumeral s)).2).bind fun xs =>
      if longestInteger < xs.length then none
      else (readNat? xs).map fun n : Nat =>
        if (takeSign (trimNumeral s)).1 then -(n : Int) else n := by
  change (dropSeparators false (takeSign (trimNumeral s)).2).bind _ = _
  congr 1
  funext xs
  split
  · rfl
  · cases readNat? xs <;> rfl

/-- **Integers**: a text is read as an integer just when it writes the integer. -/
theorem readInt?_eq_some_iff {i : Int} : readInt? s = some i ↔ WritesInt s i := by
  rw [readInt?_eq, Option.bind_eq_some_iff]
  constructor
  · rintro ⟨xs, hxs, h⟩
    obtain ⟨before, after, hs, hbefore, hafter⟩ := exists_strip isNumeralBlank s
    obtain ⟨sign, hsign, hsigned⟩ := exists_sign (trimNumeral s)
    split at h
    · cases h
    · rename_i hlength
      obtain ⟨n, hn, rfl⟩ := Option.map_eq_some_iff.mp h
      obtain ⟨ds, hne, hds, rfl⟩ := readNat?_eq_some.mp hn
      have hbody : SpellsDigits (takeSign (trimNumeral s)).2 ds :=
        spellsDigits_iff.mpr ⟨xs, hxs, hne, hds⟩
      have hwrites := WritesInt.intro hbefore hafter hsign hbody
        (length_of_mapM_digits hds ▸ Nat.le_of_not_lt hlength)
      rw [← hsigned, trimNumeral_eq, ← hs] at hwrites
      exact hwrites
  · rintro @⟨before, sign, body, after, negative, ds, hbefore, hafter, hsign, hbody, hlength⟩
    have htrim : trimNumeral (before ++ (sign ++ body ++ after)) = sign ++ body := by
      rw [trimNumeral_eq, strip_append hbefore hafter, ← trimNumeral_eq, strip_signed hsign hbody]
    obtain ⟨xs, hxs, hne, hds⟩ := spellsDigits_iff.mp hbody
    have hlong : ¬ longestInteger < xs.length :=
      Nat.not_lt.mpr (length_of_mapM_digits hds ▸ hlength)
    rw [htrim, takeSign_signed hsign hbody]
    refine ⟨xs, hxs, ?_⟩
    rw [if_neg hlong, readNat?_eq_some.mpr ⟨ds, hne, hds, rfl⟩, Option.map_some]

end NearDoc.Number
