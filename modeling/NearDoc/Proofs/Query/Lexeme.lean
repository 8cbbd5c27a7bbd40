import Mathlib.Data.List.Basic
import Mathlib.Data.List.TakeWhile
import Mathlib.Tactic.Common
import NearDoc.Query.Token

/-!
How far lexemes reach. No lexeme reaches over a separator: what is matched at the front of a text is
matched there too when a separator and anything else follow the text. Quotes are the exception, as
a text may end in a quote that waits for another one; it has no lexeme at that quote then.
-/

namespace NearDoc

open Text

/-- Characters in lexemes that are neither digits nor of names. -/
def reached : List Char := ['.', '-', '+', 'e', 'E', '\'', '@', '<', '>', '=', '!']

/-- Characters that no lexeme reaches over. -/
structure Separates (c : Char) : Prop where
  isDigit : isDigit c = false
  isNameChar : Lexeme.isNameChar c = false
  notMember : c ∉ reached

lemma separates_of_mem : ∀ c ∈ [' ', '(', ')', '[', ']', ',', '*'], Separates c := by
  intro c hc
  simp only [List.mem_cons, List.not_mem_nil, or_false] at hc
  rcases hc with rfl | rfl | rfl | rfl | rfl | rfl | rfl <;>
  exact ⟨by decide, by decide, by decide⟩

namespace Lexeme

/-! ### Bounds -/

lemma digits_le (s : List Char) : digits s ≤ s.length := (List.takeWhile_prefix _).length_le

lemma mantissa_le (s : List Char) : mantissa s ≤ s.length := by
  unfold mantissa
  have hd := digits_le s
  split
  · split
    · split
      · omega
      · rename_i r _ _
        have := digits_le r
        simp only [List.length_cons]
        omega
    · omega
  · rename_i n hn
    split
    · rename_i r hr
      have h := congrArg List.length hr
      have := digits_le r
      simp only [List.length_drop, List.length_cons] at h
      omega
    · omega

lemma exponentSign_le (s : List Char) : exponentSign s ≤ s.length := by
  unfold exponentSign
  split <;> simp

lemma exponent_le (s : List Char) : exponent s ≤ s.length := by
  unfold exponent
  split
  · rename_i c r
    have hs := exponentSign_le r
    have hd := digits_le (r.drop (exponentSign r))
    simp only [List.length_drop] at hd
    split
    · dsimp only
      split <;> simp only [List.length_cons] <;> omega
    · omega
  · omega

lemma unsigned_le (s : List Char) : unsigned s ≤ s.length := by
  unfold unsigned
  have hm := mantissa_le s
  split
  · omega
  · rename_i n hn
    have := exponent_le (s.drop (n + 1))
    simp only [List.length_drop] at this
    omega

lemma number_le (s : List Char) : number s ≤ s.length := by
  unfold number
  split
  · rename_i r
    have := unsigned_le r
    split <;> simp only [List.length_cons] <;> omega
  · exact unsigned_le s

lemma closing?_le {s : List Char} {n : Nat} (h : closing? s = some n) : n ≤ s.length := by
  induction s using closing?.induct generalizing n with
  | case1 => cases h
  | case2 r m hm ih =>
    simp only [closing?, hm, Option.some.injEq] at h
    have := ih hm
    simp only [List.length_cons]
    omega
  | case3 r hr ih =>
    simp only [closing?, hr, Option.some.injEq] at h
    simp only [List.length_cons]
    omega
  | case4 r hr => 
    simp [closing?] at h
    simp only [List.length_cons]
    omega
  | case5 c r hcr hc ih =>
    simp only [closing?, hc, if_false, Option.map_eq_some_iff] at h
    obtain ⟨m, hm, rfl⟩ := h
    have := ih hm
    simp only [List.length_cons]
    omega

lemma quotedText_le (s : List Char) : quotedText s ≤ s.length := by
  unfold quotedText
  split
  · rename_i r
    rcases h : closing? r with _ | n
    · simp
    · have := closing?_le h
      simpa using this
  · omega

lemma param_le (s : List Char) : param s ≤ s.length := by
  unfold param
  split
  · rename_i c r
    have := (List.takeWhile_prefix (l := r) isNameChar).length_le
    split <;> simp only [List.length_cons] <;> omega
  · omega

lemma nameRest_le (inDigits : Bool) (s : List Char) : nameRest inDigits s ≤ s.length := by
  induction inDigits, s using nameRest.induct with
  | case1 => simp [nameRest]
  | case2 _ x r hx ih =>
    simp only [nameRest, hx, if_true, List.length_cons]
    omega
  | case3 _ x r hx hd ih =>
    simp only [nameRest, if_neg hx, if_pos hd, List.length_cons]
    omega
  | case4 _ x r hx hd => simp [nameRest, hx, hd]
  | case5 d x r hx hd ih => 
    rw [nameRest.eq_3 _ _ _ hx, if_pos hd]
    simp only [List.length_cons]
    omega
  | case6 d x r hx hd => 
    rw [nameRest.eq_3 _ _ _ hx, if_neg hd]
    omega

lemma name_le (s : List Char) : name s ≤ s.length := by
  unfold name
  split
  · rename_i c r
    have := nameRest_le false r
    split <;> simp only [List.length_cons] <;> omega
  · omega

lemma op_le (s : List Char) : op s ≤ s.length := by
  unfold op
  split <;> simp

lemma punct_le (s : List Char) : punct s ≤ s.length := by
  unfold punct
  split <;> simp
/-! ### The lexeme at the front -/

lemma next?_of_isBlank {c : Char} (hc : isBlank c) (s : List Char) :
    next? (c :: s) = some (none, (s.takeWhile isBlank).length + 1) := by
  have hblanks : blanks (c :: s) = (s.takeWhile isBlank).length + 1 := by
    simp [blanks, hc]
  simp [next?, kinds, hblanks]

lemma not_isBlank_of_next? {c : Char} {s : List Char} {kind : TokenKind} {n : Nat}
    (h : next? (c :: s) = some (some kind, n)) : isBlank c = false := by
  by_contra hc
  rw [next?_of_isBlank (by simpa using hc)] at h
  cases h

lemma next?_nil : next? [] = none := by decide

/-- What blanks match has only blanks. -/
lemma of_next?_none {c : Char} {s : List Char} {n : Nat} (h : next? (c :: s) = some (none, n)) :
    isBlank c ∧ n = (s.takeWhile isBlank).length + 1 := by
  obtain ⟨k, hk, hn⟩ := List.exists_of_findSome?_eq_some h
  split at hn
  · cases hn
  · rename_i hne
    simp only [Option.some.injEq, Prod.mk.injEq] at hn
    have hk : k = (none, blanks) := by
      simp only [kinds, List.mem_cons, List.not_mem_nil, or_false] at hk
      rcases hk with rfl | rfl | rfl | rfl | rfl | rfl | rfl <;> simp_all
    subst hk
    have hc : isBlank c := by
      by_contra hc
      exact hne (by simp [blanks, hc])
    exact ⟨hc, by simp [← hn.2, blanks, hc]⟩

lemma pos_of_next? {s : List Char} {kind : Option TokenKind} {n : Nat}
    (h : next? s = some (kind, n)) : 0 < n := by
  obtain ⟨k, -, hk⟩ := List.exists_of_findSome?_eq_some h
  split at hk
  · cases hk
  · rename_i hne
    cases hk
    omega

lemma next?_quote (r : List Char) :
    next? ('\'' :: r) = (closing? r).map fun n => (some .text, n + 1) := by
  have hblanks : blanks ('\'' :: r) = 0 := rfl
  have hnumber : number ('\'' :: r) = 0 := by
    have hd : digits ('\'' :: r) = 0 := rfl
    simp [number, unsigned, mantissa, hd]
  have hop : op ('\'' :: r) = 0 := by simp [op]
  rcases h : closing? r with _ | n <;>
    simp [next?, kinds, hblanks, hnumber, hop, quotedText, h, param, name, isNameStart, punct]

lemma quotedText_of_ne {x : Char} (hx : x ≠ '\'') (s : List Char) : quotedText (x :: s) = 0 := by
  simp [quotedText, hx]

lemma punct_cons (x : Char) (s t : List Char) : punct (x :: s) = punct (x :: t) := by
  unfold punct
  split
  case h_7 => split <;> simp_all
  all_goals
    rename_i heq
    cases heq
    rfl

lemma next?_punct : ∀ x ∈ ['(', ')', '[', ']', ',', '*'], ∀ s,
    next? (x :: s) = some (some .punct, 1) := by
  intro x hx s
  simp only [List.mem_cons, List.not_mem_nil, or_false] at hx
  have hfree : isBlank x = false ∧ isDigit x = false ∧ isNameStart x = false := by
    rcases hx with rfl | rfl | rfl | rfl | rfl | rfl <;> decide
  have hd : digits (x :: s) = 0 := by simp [digits, hfree]
  rcases hx with rfl | rfl | rfl | rfl | rfl | rfl <;>
    simp [next?, kinds, blanks, hfree, number, unsigned, mantissa, hd, quotedText, param, name, op,
      punct]

lemma le_of_next? {s : List Char} {kind : Option TokenKind} {n : Nat}
    (h : next? s = some (kind, n)) : n ≤ s.length := by
  obtain ⟨k, hk, hn⟩ := List.exists_of_findSome?_eq_some h
  split at hn
  · cases hn
  · simp only [Option.some.injEq, Prod.mk.injEq] at hn
    rw [← hn.2]
    simp only [kinds, List.mem_cons, List.not_mem_nil, or_false] at hk
    rcases hk with rfl | rfl | rfl | rfl | rfl | rfl | rfl
    · exact (List.takeWhile_prefix _).length_le
    · exact number_le s
    · exact quotedText_le s
    · exact param_le s
    · exact name_le s
    · exact op_le s
    · exact punct_le s

/-! ### Before a separator -/

lemma nameRest_cons {x : Char} (hx : x ≠ '.') (inDigits : Bool) (r : List Char) :
    nameRest inDigits (x :: r) =
      if (if inDigits then isDigit x else isNameChar x) then 1 + nameRest inDigits r else 0 :=
  nameRest.eq_3 _ _ _ fun _ _ h _ => hx h

variable {c : Char} (hc : Separates c)
include hc

lemma ne {x : Char} (h : x ∈ reached) : c ≠ x := by
  rintro rfl
  exact hc.notMember h

lemma digits_append (s v : List Char) : digits (s ++ c :: v) = digits s := by
  induction s with
  | nil => simp [digits, hc.isDigit]
  | cons x s ih =>
    simp only [digits, List.cons_append, List.takeWhile_cons] at ih ⊢
    split
    · simp [ih]
    · rfl

lemma mantissa_append (s v : List Char) : mantissa (s ++ c :: v) = mantissa s := by
  have hd := digits_append hc s v
  have hle := digits_le s
  have hdot := ne hc (x := '.') (by simp [reached])
  unfold mantissa
  rw [hd]
  rcases h : digits s with _ | n
  · rcases s with _ | ⟨x, r⟩
    · simp [hdot]
    · by_cases hx : x = '.'
      · subst hx
        simp only [List.cons_append, digits_append hc]
      · simp [hx]
  · rw [h] at hle
    simp only [List.drop_append_of_le_length hle]
    rcases s.drop (n + 1) with _ | ⟨x, r⟩
    · simp [hdot]
    · by_cases hx : x = '.'
      · subst hx
        simp only [List.cons_append, digits_append hc]
      · simp [hx]

lemma exponentSign_append (s v : List Char) : exponentSign (s ++ c :: v) = exponentSign s := by
  have := ne hc (x := '-') (by simp [reached])
  have := ne hc (x := '+') (by simp [reached])
  rcases s with _ | ⟨x, r⟩
  · simp [exponentSign, *]
  · simp only [exponentSign, List.cons_append]
    split <;> split <;> simp_all

lemma exponent_append (s v : List Char) : exponent (s ++ c :: v) = exponent s := by
  have := ne hc (x := 'e') (by simp [reached])
  have := ne hc (x := 'E') (by simp [reached])
  rcases s with _ | ⟨x, r⟩
  · simp [exponent, *]
  · simp only [exponent, List.cons_append, exponentSign_append hc,
      List.drop_append_of_le_length (exponentSign_le r), digits_append hc]

lemma unsigned_append (s v : List Char) : unsigned (s ++ c :: v) = unsigned s := by
  have hle := mantissa_le s
  unfold unsigned
  rw [mantissa_append hc]
  rcases h : mantissa s with _ | n
  · rfl
  · rw [h] at hle
    simp only [List.drop_append_of_le_length hle, exponent_append hc]

lemma number_append (s v : List Char) : number (s ++ c :: v) = number s := by
  have hminus := ne hc (x := '-') (by simp [reached])
  rcases s with _ | ⟨x, r⟩
  · have := unsigned_append hc [] v
    simpa [number, hminus] using this
  · by_cases hx : x = '-'
    · subst hx
      simp only [number, List.cons_append, unsigned_append hc]
    · have := unsigned_append hc (x :: r) v
      simpa [number, hx] using this

lemma isNameStart_eq_false : isNameStart c = false := by
  have := hc.isNameChar
  simp only [isNameChar, Bool.or_eq_false_iff] at this
  exact this.1

lemma takeWhile_append (s v : List Char) :
    (s ++ c :: v).takeWhile isNameChar = s.takeWhile isNameChar := by
  induction s with
  | nil => simp [hc.isNameChar]
  | cons x s ih =>
    simp only [List.cons_append, List.takeWhile_cons, ih]

lemma param_append (s v : List Char) : param (s ++ c :: v) = param s := by
  have hstart := isNameStart_eq_false hc
  have hat := ne hc (x := '@') (by simp [reached])
  rcases s with _ | ⟨x, _ | ⟨y, r⟩⟩
  · simp [param, hat]
  · by_cases hx : x = '@'
    · subst hx
      simp [param, hstart]
    · simp [param, hx]
  · by_cases hx : x = '@'
    · subst hx
      simp [param, takeWhile_append hc]
    · simp [param, hx]

lemma nameRest_append (inDigits : Bool) (s v : List Char) :
    nameRest inDigits (s ++ c :: v) = nameRest inDigits s := by
  have hdot := ne hc (x := '.') (by simp [reached])
  induction inDigits, s using nameRest.induct with
  | case1 d => cases d <;> simp [nameRest, hdot, hc.isDigit, hc.isNameChar]
  | case2 _ x r hx ih => simp [nameRest, hx, ih]
  | case3 _ x r hx hd ih => simp [nameRest, hx, hd, ih]
  | case4 _ x r hx hd => simp [nameRest, hx, hd]
  | case5 d x r _ hd ih =>
    have hx : x ≠ '.' := by
      rintro rfl
      cases d <;> exact absurd hd (by decide)
    rw [List.cons_append, nameRest_cons hx, nameRest_cons hx, ih]
  | case6 d x r hr hd =>
    by_cases hx : x = '.'
    · subst hx
      cases r with
      | nil =>
        have := isNameStart_eq_false hc
        cases d <;> simp_all [nameRest, hc.isDigit]
      | cons y r => exact absurd rfl (hr y r rfl)
    · rw [List.cons_append, nameRest_cons hx, nameRest_cons hx, if_neg hd, if_neg hd]

lemma name_append (s v : List Char) : name (s ++ c :: v) = name s := by
  rcases s with _ | ⟨x, r⟩
  · simp [name, isNameStart_eq_false hc]
  · simp only [name, List.cons_append, nameRest_append hc]

lemma op_append (s v : List Char) : op (s ++ c :: v) = op s := by
  have heq := ne hc (x := '=') (by simp [reached])
  have hgt := ne hc (x := '>') (by simp [reached])
  have hlt := ne hc (x := '<') (by simp [reached])
  have hno := ne hc (x := '!') (by simp [reached])
  rcases s with _ | ⟨x, _ | ⟨y, r⟩⟩
  · simp [op, heq, hgt, hlt, hno]
  · by_cases hx : x ∈ ['<', '>', '=', '!']
    · simp at hx
      rcases hx with rfl | rfl | rfl | rfl <;> simp [op, heq, hgt]
    · simp at hx
      simp [op, hx]
  · by_cases hx : x ∈ ['<', '>', '=', '!']
    · simp at hx
      by_cases hy : y ∈ ['=', '>']
      · simp at hy
        rcases hx with rfl | rfl | rfl | rfl <;> rcases hy with rfl | rfl <;> simp [op]
      · simp at hy
        rcases hx with rfl | rfl | rfl | rfl <;> simp [op, hy]
    · simp at hx
      simp [op, hx]

/-- A text that ends does so before a separator too, unless what is left over is a quote that
does not end. -/
lemma closing?_append {s : List Char} {n : Nat} (h : closing? s = some n) (v : List Char) :
    closing? (s ++ c :: v) = some n ∨ ∃ r, s.drop n = '\'' :: r ∧ closing? r = none := by
  have hquote := ne hc (x := '\'') (by simp [reached])
  induction s using closing?.induct generalizing n with
  | case1 => cases h
  | case2 r m hm ih =>
    simp only [closing?, hm, Option.some.injEq] at h
    subst h
    rcases ih hm with hm' | ⟨r', hr', hnone⟩
    · left
      simp [closing?, hm']
    · exact .inr ⟨r', by simpa using hr', hnone⟩
  | case3 r hr ih =>
    simp only [closing?, hr, Option.some.injEq] at h
    subst h
    exact .inr ⟨r, rfl, hr⟩
  | case4 r hr =>
    simp only [closing?, if_true, Option.some.injEq] at h
    subst h
    left
    cases r with
    | nil => simp [closing?, hquote]
    | cons y r =>
      have hy : y ≠ '\'' := by
        rintro rfl
        exact hr r rfl rfl
      simp [closing?, hy]
  | case5 x r hr hx ih =>
    simp only [closing?, hx, if_false, Option.map_eq_some_iff] at h
    obtain ⟨m, hm, rfl⟩ := h
    rcases ih hm with hm' | ⟨r', hr', hnone⟩
    · left
      simp [closing?, hx, hm']
    · exact .inr ⟨r', by simpa using hr', hnone⟩

/-- The lexeme at the front of a text is there before a separator too. -/
theorem next?_append {s : List Char} {kind : TokenKind} {n : Nat}
    (h : next? s = some (some kind, n))
    (hleft : ∀ r, s.drop n = '\'' :: r → closing? r ≠ none) (v : List Char) :
    next? (s ++ c :: v) = some (some kind, n) := by
  cases s with
  | nil => simp [next?_nil] at h
  | cons x s =>
    by_cases hx : x = '\''
    · subst hx
      rw [next?_quote, Option.map_eq_some_iff] at h
      obtain ⟨m, hm, heq⟩ := h
      rw [List.cons_append, next?_quote]
      cases heq
      rcases closing?_append hc hm v with hm' | ⟨r, hr, hnone⟩
      · rw [hm']
        rfl
      · exact absurd hnone (hleft r (by simpa using hr))
    · have hblank := not_isBlank_of_next? h
      have hblanks (t : List Char) : blanks (x :: t) = 0 := by simp [blanks, hblank]
      have hnumber := number_append hc (x :: s) v
      have hparam := param_append hc (x :: s) v
      have hname := name_append hc (x :: s) v
      have hop := op_append hc (x :: s) v
      have hpunct := punct_cons x (s ++ c :: v) s
      rw [← h]
      simp only [List.cons_append] at *
      simp only [next?, kinds, List.findSome?_cons, hblanks, hnumber, quotedText_of_ne hx, hparam,
        hname, hop, hpunct, List.findSome?_nil]

end Lexeme

end NearDoc
