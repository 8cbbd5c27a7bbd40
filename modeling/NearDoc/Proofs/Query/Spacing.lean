import NearDoc.Proofs.Query.Constant
import NearDoc.Proofs.Query.Grammar
import NearDoc.Proofs.Query.Naming

/-!
Words that stand apart. What has the shape of a name or of a parameter is one word, and so is a
keyword in any letter case. Main statement: words that are words by themselves are the words of
every text that has them in order, with blanks between any two of them and around them.
-/

namespace NearDoc

open Text

/-! ### Shapes -/

/-- A letter or an underscore, and then letters, digits and underscores. -/
def IsIdentifier (s : List Char) : Prop :=
  ∃ c r, s = c :: r ∧ Lexeme.isNameStart c ∧ ∀ d ∈ r, Lexeme.isNameChar d

/-- Segments with a point before each: identifiers or digits. -/
inductive Dotted : List Char → Prop where
  | nil : Dotted []
  | identifier {segment s : List Char} (h : IsIdentifier segment) (hs : Dotted s) :
      Dotted ('.' :: (segment ++ s))
  | digits {segment s : List Char} (hne : segment ≠ []) (h : ∀ c ∈ segment, isDigit c)
      (hs : Dotted s) : Dotted ('.' :: (segment ++ s))

/-- An identifier with dotted segments after it. -/
def NameShaped (s : String) : Prop :=
  ∃ first rest, s.toList = first ++ rest ∧ IsIdentifier first ∧ Dotted rest

namespace Lexeme

/-- The code points that names start with. -/
def nameStartCodes : List Nat := List.range' 65 26 ++ [95] ++ List.range' 97 26

/-- What starts a name starts no lexeme of another kind. -/
lemma not_of_isNameStart {c : Char} (hc : isNameStart c) :
    isDigit c = false ∧ c ∉ ['.', '-', '\'', '@'] := by
  have h : ∀ n ∈ nameStartCodes,
      isDigit (Char.ofNat n) = false ∧ Char.ofNat n ∉ ['.', '-', '\'', '@'] := by
    decide
  have hmem : c.toNat ∈ nameStartCodes := by
    simp only [isNameStart, Bool.or_eq_true, Bool.and_eq_true, decide_eq_true_eq] at hc
    simp only [nameStartCodes, List.mem_append, List.mem_range'_1, List.mem_singleton]
    rcases hc with (rfl | ⟨h, h'⟩) | ⟨h, h'⟩
    · exact .inl (.inr rfl)
    · exact .inr ⟨h, Nat.lt_succ_of_le h'⟩
    · exact .inl (.inl ⟨h, Nat.lt_succ_of_le h'⟩)
  have := h _ hmem
  rwa [Char.ofNat_toNat] at this

lemma ne_dot_of_isNameChar {c : Char} (hc : isNameChar c) : c ≠ '.' := by
  rintro rfl
  exact absurd hc (by decide)

lemma ne_dot_of_isDigit {c : Char} (hc : isDigit c) : c ≠ '.' := by
  rintro rfl
  exact absurd hc (by decide)

lemma nameRest_nameChars {r : List Char} (hr : ∀ c ∈ r, isNameChar c) (s : List Char) :
    nameRest false (r ++ s) = r.length + nameRest false s := by
  induction r with
  | nil => simp
  | cons c r ih =>
    rw [List.forall_mem_cons] at hr
    rw [List.cons_append, nameRest_cons (ne_dot_of_isNameChar hr.1), ih hr.2]
    simp only [hr.1, Bool.false_eq_true, if_false, if_true, List.length_cons]
    omega

lemma nameRest_digits {r : List Char} (hr : ∀ c ∈ r, isDigit c) (s : List Char) :
    nameRest true (r ++ s) = r.length + nameRest true s := by
  induction r with
  | nil => simp
  | cons c r ih =>
    rw [List.forall_mem_cons] at hr
    rw [List.cons_append, nameRest_cons (ne_dot_of_isDigit hr.1), ih hr.2]
    simp only [hr.1, if_true, List.length_cons]
    omega

/-- A name goes on over all segments, whatever its last segment was. -/
lemma nameRest_dotted {s : List Char} (h : Dotted s) (inDigits : Bool) :
    nameRest inDigits s = s.length := by
  induction h generalizing inDigits with
  | nil => simp [nameRest]
  | @identifier segment s h hs ih =>
    obtain ⟨c, r, rfl, hc, hr⟩ := h
    rw [List.cons_append, nameRest, if_pos hc, nameRest_nameChars hr, ih]
    simp only [List.length_cons, List.length_append]
    omega
  | @digits segment s hne h hs ih =>
    obtain ⟨c, r, rfl⟩ := List.exists_cons_of_ne_nil hne
    rw [List.forall_mem_cons] at h
    rw [List.cons_append, nameRest]
    simp only [List.length_cons, List.length_append]
    have hstart : ¬ isNameStart c := fun hc => by
      rw [(not_of_isNameStart hc).1] at h
      exact absurd h.1 (by decide)
    rw [if_neg hstart, if_pos h.1, nameRest_digits h.2, ih]
    omega

/-- What starts like a name and is one as a whole is one lexeme. -/
lemma next?_name {c : Char} {s : List Char} (hc : isNameStart c)
    (hs : nameRest false s = s.length) :
    next? (c :: s) = some (some .name, (c :: s).length) := by
  obtain ⟨hdigit, hmem⟩ := not_of_isNameStart hc
  simp only [List.mem_cons, List.not_mem_nil, or_false, not_or] at hmem
  obtain ⟨hdot, hminus, hquote, hat⟩ := hmem
  have hblanks : blanks (c :: s) = 0 := by
    simp [blanks, isBlank_of_isNameChar (isNameChar_of_isNameStart hc)]
  have hnumber : number (c :: s) = 0 := by
    have hdigits : digits (c :: s) = 0 := by simp [digits, hdigit]
    simp [number, unsigned, mantissa, hdigits, hdot, hminus]
  simp [next?, kinds, hblanks, hnumber, quotedText_of_ne hquote, param, hat, name, hc, hs,
    Nat.add_comm]

lemma next?_param {s : List Char} (h : IsIdentifier s) :
    next? ('@' :: s) = some (some .param, ('@' :: s).length) := by
  obtain ⟨c, r, rfl, hc, hr⟩ := h
  have hblanks (t : List Char) : blanks ('@' :: t) = 0 := rfl
  have hnumber : number ('@' :: c :: r) = 0 := by
    have hdigits : digits ('@' :: c :: r) = 0 := rfl
    simp [number, unsigned, mantissa, hdigits]
  have hparam : param ('@' :: c :: r) = r.length + 2 := by
    rw [param, if_pos hc, List.takeWhile_eq_self_iff.mpr hr, Nat.add_comm]
  simp [next?, kinds, hblanks, hnumber, quotedText, hparam]

end Lexeme

/-! ### One word -/

lemma lexes_of_next? {kind : TokenKind} {s : String}
    (h : Lexeme.next? s.toList = some (some kind, s.toList.length)) :
    Lexes s.toList [⟨kind, s⟩] := by
  have h := Lexes.word h (by rw [List.drop_length]; exact .nil)
  rwa [List.take_length, String.ofList_toList] at h

/-- What has the shape of a name is one word. -/
theorem NameShaped.lexes {s : String} (h : NameShaped s) : Lexes s.toList [⟨.name, s⟩] := by
  obtain ⟨first, rest, hs, ⟨c, r, rfl, hc, hr⟩, hrest⟩ := h
  have hrest : Lexeme.nameRest false (r ++ rest) = (r ++ rest).length := by
    rw [Lexeme.nameRest_nameChars hr, Lexeme.nameRest_dotted hrest, List.length_append]
  refine lexes_of_next? ?_
  rw [hs]
  exact Lexeme.next?_name hc hrest

/-- So is an identifier as a parameter. -/
theorem lexes_param {s : String} (h : IsIdentifier s.toList) :
    Lexes ("@" ++ s).toList [⟨.param, "@" ++ s⟩] := by
  refine lexes_of_next? ?_
  rw [String.toList_append]
  exact Lexeme.next?_param h

/-- The sign of a comparator is one word. -/
lemma lexes_symbol (op : Comparator) : Lexes op.symbol.toList [⟨.op, op.symbol⟩] := by
  refine lexes_of_next? ?_
  cases op with
  | equal doubled => cases doubled <;> rfl
  | unequal angled => cases angled <;> rfl
  | order r => cases r <;> rfl

/-! ### Keywords in any letter case -/

/-- The same letters, in any case. -/
def SameLetters (s t : String) : Prop := s.toList.map Char.toUpper = t.toList.map Char.toUpper

/-- What a capital is in any case starts a name, and has that capital for its upper case. -/
lemma of_toUpper {c : Char} (h : 'A' ≤ c.toUpper) (h' : c.toUpper ≤ 'Z') :
    Lexeme.isNameStart c ∧ upperChar c = [c.toUpper] := by
  have hascii {d : Char} (hc : c ≤ d) (hd : d.toNat < 128) : upperChar c = [c.toUpper] :=
    if_pos (Nat.lt_of_le_of_lt hc hd)
  by_cases hlower : 'a' ≤ c ∧ c ≤ 'z'
  · exact ⟨by simp [Lexeme.isNameStart, hlower], hascii hlower.2 (by decide)⟩
  · have hsame : c.toUpper = c := dif_neg hlower
    rw [hsame] at h h'
    exact ⟨by simp [Lexeme.isNameStart, h, h'], hascii h' (by decide)⟩

lemma of_mem_keywords : ∀ k ∈ Token.keywords,
    k.toList ≠ [] ∧ k.toList.map Char.toUpper = k.toList ∧
      k.toList.all fun c => 'A' ≤ c ∧ c ≤ 'Z' := by
  decide

section

variable {s k : String} (hk : k ∈ Token.keywords) (hs : SameLetters s k)
include hk hs

lemma SameLetters.of_mem {c : Char} (hc : c ∈ s.toList) :
    Lexeme.isNameStart c ∧ upperChar c = [c.toUpper] := by
  obtain ⟨-, hupper, hletters⟩ := of_mem_keywords k hk
  have hmem : c.toUpper ∈ s.toList.map Char.toUpper := List.mem_map_of_mem hc
  rw [hs, hupper] at hmem
  have hletter := of_decide_eq_true (List.all_eq_true.mp hletters _ hmem)
  exact of_toUpper hletter.1 hletter.2

/-- A keyword in any case has the shape of a name. -/
lemma SameLetters.nameShaped : NameShaped s := by
  obtain ⟨hne, hupper, -⟩ := of_mem_keywords k hk
  have hs' : s.toList ≠ [] := by
    intro hnil
    rw [SameLetters, hnil, hupper] at hs
    exact hne hs.symm
  obtain ⟨c, r, hcr⟩ := List.exists_cons_of_ne_nil hs'
  refine ⟨c :: r, [], by simpa using hcr, ⟨c, r, rfl, ?_, ?_⟩, .nil⟩
  · exact (hs.of_mem hk (by simp [hcr])).1
  · intro d hd
    exact Lexeme.isNameChar_of_isNameStart (hs.of_mem hk (by simp [hcr, hd])).1

/-- A keyword is known in any case. -/
lemma SameLetters.keyword? : (Word.token ⟨.name, s⟩).keyword? = some k := by
  obtain ⟨-, hk', -⟩ := of_mem_keywords k hk
  have hupper : upper s = k := by
    calc upper s
      _ = String.ofList (s.toList.flatMap fun c => [c.toUpper]) :=
        congrArg String.ofList (List.flatMap_congr fun c hc => (hs.of_mem hk hc).2)
      _ = String.ofList (s.toList.map Char.toUpper) := by rw [List.map_eq_flatMap]
      _ = k := by rw [hs, hk', String.ofList_toList]
  simp [Token.keyword?, Word.token, hupper, hk]

end

/-! ### Blanks between words -/

/-- The words of a text, in order, with blanks around them: at least one between two words. -/
inductive Spaced : List Word → List Char → Prop where
  | nil : Spaced [] []
  | blank {c : Char} {ws : List Word} {s : List Char} (hc : isBlank c) (h : Spaced ws s) :
      Spaced ws (c :: s)
  | word {w : Word} {ws : List Word} {s : List Char} (h : Spaced ws s)
      (hs : ∀ c ∈ s.head?, isBlank c) : Spaced (w :: ws) (w.text.toList ++ s)

/-- A word that is the only word of its text. -/
def Word.Alone (w : Word) : Prop := Lexes w.text.toList [w]

lemma separates_of_isBlank {c : Char} (hc : isBlank c) : Separates c := by
  obtain ⟨hdigit, hname⟩ := Lexeme.not_of_isBlank hc
  have hreached : reached.any isBlank = false := by decide
  exact ⟨hdigit, hname, fun h => List.any_eq_false.mp hreached c h hc⟩

/-- **Spacing**: words that stand apart are the words of the text. -/
theorem Spaced.lexes {ws : List Word} {s : List Char} (h : Spaced ws s)
    (hws : ∀ w ∈ ws, w.Alone) : Lexes s ws := by
  induction h with
  | nil => exact .nil
  | blank hc h ih => exact .blank hc (ih hws)
  | @word w ws s h hs ih =>
    rw [List.forall_mem_cons] at hws
    have hrest := ih hws.2
    rcases s with _ | ⟨c, s⟩
    · cases hrest with
      | nil =>
        rw [List.append_nil]
        exact hws.1
      | word hnext => simp [Lexeme.next?_nil] at hnext
    · exact hws.1.append (separates_of_isBlank (hs c rfl)) hrest

lemma Spaced.blanks {gap : List Char} (hgap : ∀ c ∈ gap, isBlank c) {ws : List Word}
    {s : List Char} (h : Spaced ws s) : Spaced ws (gap ++ s) := by
  induction gap with
  | nil => exact h
  | cons c gap ih =>
    rw [List.forall_mem_cons] at hgap
    exact .blank hgap.1 (ih hgap.2)

/-- Words with blanks behind each one stand apart. -/
theorem spaced_of_gaps {pieces : List (Word × List Char)}
    (h : ∀ p ∈ pieces, p.2 ≠ [] ∧ p.2.all isBlank) :
    Spaced (pieces.map (·.1)) (pieces.flatMap fun p => p.1.text.toList ++ p.2) := by
  induction pieces with
  | nil => exact .nil
  | cons p pieces ih =>
    rw [List.forall_mem_cons] at h
    obtain ⟨⟨hne, hgap⟩, hrest⟩ := h
    rw [List.map_cons, List.flatMap_cons, List.append_assoc]
    have hgap := List.all_eq_true.mp hgap
    refine .word ((ih hrest).blanks hgap) fun c hc => hgap c ?_
    obtain ⟨d, gap, hd⟩ := List.exists_cons_of_ne_nil hne
    rw [hd, List.cons_append, List.head?_cons] at hc
    rw [hd, ← Option.some.inj hc]
    exact List.mem_cons_self

end NearDoc
