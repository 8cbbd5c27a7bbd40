import NearDoc.Proofs.Query.Lexeme

/-!
The words of a text: its tokens without their places. Blanks leave no word, and a text that has
words keeps them in front of a separator, which no lexeme reaches over. Main statements: a text has
the words that its tokens have, and the words of two texts with a separator between them are those
of both.
-/

namespace NearDoc

open Text

/-- A token without its place. -/
structure Word where
  kind : TokenKind
  text : String
  deriving DecidableEq

def Token.word (t : Token) : Word := ⟨t.kind, t.text⟩

/-- The words of a text. -/
inductive Lexes : List Char → List Word → Prop where
  | nil : Lexes [] []
  | blank {c : Char} {s : List Char} {ws : List Word} (hc : isBlank c) (h : Lexes s ws) :
      Lexes (c :: s) ws
  | word {s : List Char} {ws : List Word} {kind : TokenKind} {n : Nat}
      (hnext : Lexeme.next? s = some (some kind, n)) (h : Lexes (s.drop n) ws) :
      Lexes s (⟨kind, String.ofList (s.take n)⟩ :: ws)

/-! ### Words and tokens -/

namespace Token

lemma scan_cons (position : Nat) (c : Char) (s : List Char) :
    scan position 0 (c :: s) =
      match Lexeme.next? (c :: s) with
      | none => .error (.malformedQuery (.unexpectedCharacter c) position)
      | some (none, length) => scan (position + 1) (length - 1) s
      | some (some kind, length) =>
        (scan (position + 1) (length - 1) s).map
          (⟨kind, String.ofList ((c :: s).take length), position⟩ :: ·) :=
  -- by computation, as the scanner's own equation takes long to make
  (rfl)

lemma scan_drop (position skip : Nat) (s : List Char) :
    scan position skip s = scan (position + skip) 0 (s.drop skip) := by
  induction skip generalizing position s with
  | zero => rfl
  | succ skip ih =>
    cases s with
    | nil => rfl
    | cons c s =>
      have hplace : position + 1 + skip = position + (skip + 1) := by omega
      rw [List.drop_succ_cons, ← hplace]
      exact ih (position + 1) s

lemma exists_scan_drop (position skip : Nat) (s : List Char) :
    ∃ position', scan position skip s = scan position' 0 (s.drop skip) :=
  ⟨position + skip, scan_drop position skip s⟩

lemma drop_length_blanks (s : List Char) :
    s.drop (s.takeWhile isBlank).length = s.dropWhile isBlank := by
  induction s with
  | nil => rfl
  | cons c s ih => by_cases h : isBlank c <;> simp [h, ih]

/-- Blanks in front leave no token. -/
lemma exists_scan_dropWhile (position : Nat) (s : List Char) :
    ∃ position', scan position 0 s = scan position' 0 (s.dropWhile isBlank) := by
  cases s with
  | nil => exact ⟨position, rfl⟩
  | cons c s =>
    rcases hc : isBlank c with _ | _
    · exact ⟨position, by simp [hc]⟩
    · obtain ⟨position', h⟩ := exists_scan_drop (position + 1) (s.takeWhile isBlank).length s
      refine ⟨position', ?_⟩
      rw [scan_cons, Lexeme.next?_of_isBlank hc]
      simp only [Nat.add_sub_cancel, h, drop_length_blanks, List.dropWhile_cons, hc, if_true]

lemma scan_word (position : Nat) {s : List Char} {kind : TokenKind} {n : Nat}
    (h : Lexeme.next? s = some (some kind, n)) :
    ∃ position', scan position 0 s =
      (scan position' 0 (s.drop n)).map (⟨kind, String.ofList (s.take n), position⟩ :: ·) := by
  cases s with
  | nil => simp [Lexeme.next?_nil] at h
  | cons c s =>
    obtain ⟨n, rfl⟩ := Nat.exists_eq_succ_of_ne_zero (Nat.ne_of_gt (Lexeme.pos_of_next? h))
    obtain ⟨position', h'⟩ := exists_scan_drop (position + 1) n s
    exact ⟨position', by rw [scan_cons, h]; simp [h']⟩

end Token

namespace Lexes

open Token

variable {s u v : List Char} {us vs ws : List Word}

lemma blanks {l : List Char} (hl : ∀ c ∈ l, isBlank c) (h : Lexes s ws) : Lexes (l ++ s) ws := by
  induction l with
  | nil => exact h
  | cons c l ih =>
    rw [List.forall_mem_cons] at hl
    exact .blank hl.1 (ih hl.2)

/-- A text has the words of its tokens. -/
theorem of_scan {position : Nat} {ts : List Token} (h : scan position 0 s = .ok ts) :
    Lexes s (ts.map Token.word) := by
  generalize hn : s.length = n
  induction n using Nat.strongRecOn generalizing s position ts with
  | _ n ih =>
  cases s with
  | nil =>
    cases h
    exact .nil
  | cons c s =>
    rcases hnext : Lexeme.next? (c :: s) with _ | ⟨_ | kind, m⟩
    · simp [scan_cons, hnext] at h
    · -- a stretch of blanks
      obtain ⟨hc, rfl⟩ := Lexeme.of_next?_none hnext
      obtain ⟨position', h'⟩ := exists_scan_drop (position + 1) (s.takeWhile isBlank).length s
      rw [scan_cons, hnext] at h
      simp only [Nat.add_sub_cancel, h', drop_length_blanks] at h
      have hrest := ih _ (by
        have := (List.dropWhile_suffix (l := s) isBlank).length_le
        simp only [List.length_cons] at hn
        omega) h rfl
      rw [← List.takeWhile_append_dropWhile (p := isBlank) (l := s)]
      exact .blank hc (hrest.blanks fun _ hx => List.mem_takeWhile_imp hx)
    · obtain ⟨position', h'⟩ := scan_word position hnext
      rw [h'] at h
      have hpos := Lexeme.pos_of_next? hnext
      rcases hrest : scan position' 0 ((c :: s).drop m) with e | ts'
      · simp [hrest, Except.map] at h
      · simp only [hrest, Except.map, Except.ok.injEq] at h
        rw [← h]
        refine .word hnext (ih _ ?_ hrest rfl)
        simp only [List.length_drop, List.length_cons] at hn ⊢
        omega

lemma exists_scan_stripped (h : Lexes s ws) (position : Nat) :
    ∃ ts, scan position 0 (s.dropWhile isBlank) = .ok ts ∧ ts.map Token.word = ws := by
  induction h generalizing position with
  | nil => exact ⟨[], rfl, rfl⟩
  | @blank c s ws hc h ih =>
    rw [List.dropWhile_cons, if_pos hc]
    exact ih position
  | @word s ws kind n hnext h ih =>
    have hstrip : s.dropWhile isBlank = s := by
      cases s with
      | nil => rfl
      | cons c s => simp [Lexeme.not_isBlank_of_next? hnext]
    obtain ⟨position', h'⟩ := scan_word position hnext
    obtain ⟨position'', h''⟩ := exists_scan_dropWhile position' (s.drop n)
    obtain ⟨ts, hts, hws⟩ := ih position''
    refine ⟨⟨kind, String.ofList (s.take n), position⟩ :: ts, ?_, by simp [Token.word, hws]⟩
    rw [hstrip, h', h'', hts]
    rfl

/-- **Tokens**: a text with words has tokens with these words. -/
theorem exists_tokens {s : String} (h : Lexes s.toList ws) :
    ∃ ts, tokens s = .ok ts ∧ ts.map Token.word = ws := by
  obtain ⟨position, hp⟩ := exists_scan_dropWhile 0 s.toList
  obtain ⟨ts, hts, hws⟩ := h.exists_scan_stripped position
  exact ⟨ts, hp.trans hts, hws⟩

/-- A quote that does not end leaves a text without words. -/
lemma not_quote {r : List Char} (hr : Lexeme.closing? r = none) : ¬ Lexes ('\'' :: r) ws := by
  rintro (_ | ⟨hc, -⟩ | ⟨hnext, -⟩)
  · exact absurd hc (by decide)
  · rw [Lexeme.next?_quote, hr] at hnext
    cases hnext

/-- **Separators**: the words before a separator are those of the text that ends there. -/
theorem append {c : Char} (hc : Separates c) (hu : Lexes u us) (hv : Lexes (c :: v) vs) :
    Lexes (u ++ c :: v) (us ++ vs) := by
  induction hu with
  | nil => exact hv
  | blank hb h ih => exact .blank hb ih
  | @word s ws kind n hnext h ih =>
    have hn := Lexeme.le_of_next? hnext
    have hleft : ∀ r, s.drop n = '\'' :: r → Lexeme.closing? r ≠ none := by
      intro r hr hnone
      rw [hr] at h
      exact not_quote hnone h
    have hnext' := Lexeme.next?_append hc hnext hleft v
    have hdrop : (s ++ c :: v).drop n = s.drop n ++ c :: v := List.drop_append_of_le_length hn
    have htake : (s ++ c :: v).take n = s.take n := List.take_append_of_le_length hn
    rw [← htake]
    exact .word hnext' (hdrop ▸ ih)

lemma punct {c : Char} (hc : c ∈ ['(', ')', '[', ']', ',', '*']) (h : Lexes s ws) :
    Lexes (c :: s) (⟨.punct, String.ofList [c]⟩ :: ws) :=
  .word (Lexeme.next?_punct c hc s) h

lemma of_tokens {s : String} {ts : List Token} (h : tokens s = .ok ts) :
    Lexes s.toList (ts.map Token.word) := of_scan h

end Lexes

/-! ### Texts put together -/

/-- A text that goes on with some words behind any other. -/
def Appends (t : List Char) (ws : List Word) : Prop :=
  ∀ u us, Lexes u us → Lexes (u ++ t) (us ++ ws)

namespace Appends

variable {t t' v : List Char} {ws ws' vs : List Word}

lemma nil : Appends [] [] := fun u us hu => by simpa using hu

lemma of_separates {c : Char} (hc : Separates c) (h : Lexes (c :: v) vs) : Appends (c :: v) vs :=
  fun _ _ hu => hu.append hc h

lemma blank (h : Lexes v vs) : Appends (' ' :: v) vs :=
  .of_separates (separates_of_mem ' ' (by simp)) (.blank (by decide) h)

lemma append (h : Appends t ws) (h' : Appends t' ws') : Appends (t ++ t') (ws ++ ws') :=
  fun u us hu => by
    rw [← List.append_assoc, ← List.append_assoc]
    exact h' _ _ (h u us hu)

lemma comma (h : Lexes v vs) : Appends (',' :: ' ' :: v) (⟨.punct, ","⟩ :: vs) :=
  .of_separates (separates_of_mem ',' (by simp)) (.punct (by simp) (.blank (by decide) h))

lemma close : Appends [')'] [⟨.punct, ")"⟩] :=
  .of_separates (separates_of_mem ')' (by simp)) (.punct (by simp) .nil)

end Appends

namespace Lexes

lemma enclosed {s : List Char} {ws : List Word} (h : Lexes s ws) :
    Lexes ('(' :: (s ++ [')'])) (⟨.punct, "("⟩ :: (ws ++ [⟨.punct, ")"⟩])) :=
  .punct (by simp) (Appends.close _ _ h)

/-- Texts with a separator between them have their words with its words between them. -/
theorem intercalate {α : Type} {separator : List Char} {between : List Word}
    (hseparator : ∀ v vs, Lexes v vs → Appends (separator ++ v) (between ++ vs))
    {text : α → List Char} {words : α → List Word} {l : List α}
    (h : ∀ a ∈ l, Lexes (text a) (words a)) :
    Lexes (separator.intercalate (l.map text)) (between.intercalate (l.map words)) := by
  induction l with
  | nil => exact .nil
  | cons a l ih =>
    rw [List.forall_mem_cons] at h
    cases l with
    | nil => simpa using h.1
    | cons b l =>
      simp only [List.map_cons, List.intercalate_cons_cons, List.append_assoc] at ih ⊢
      exact hseparator _ _ (ih h.2) _ _ h.1

end Lexes

end NearDoc
