import NearDoc.Proofs.Query.ArrayTree

/-!
Where tokens stand. A text is read from its start, and every lexeme is followed by the next one.
Main statement: each token of a text is the lexeme at a place that is reached so, and a text without
tokens has a first place at which no lexeme matches.
-/

namespace NearDoc

open Text

/-- The places at which the lexemes of a text start or end. -/
inductive Reached (s : List Char) : Nat → Prop where
  | start : Reached s 0
  | next {n k : Nat} {kind : Option TokenKind} (h : Reached s n)
      (hnext : Lexeme.next? (s.drop n) = some (kind, k)) : Reached s (n + k)

/-- The token is the lexeme at its place. -/
structure Token.Stands (s : List Char) (t : Token) : Prop where
  reached : Reached s t.position
  lexeme : ∃ k, Lexeme.next? (s.drop t.position) = some (some t.kind, k) ∧
    t.text.toList = (s.drop t.position).take k

/-- No lexeme matches where this character stands, and all before it are read. -/
structure Unmatched (s : List Char) (c : Char) (n : Nat) : Prop where
  reached : Reached s n
  character : s[n]? = some c
  unmatched : Lexeme.next? (s.drop n) = none

/-- Digits stand together in no greater number than an integer may have. -/
def ShortRuns (s : List Char) : Prop :=
  ∀ run, run <:+: s → (∀ c ∈ run, isDigit c = true) → run.length ≤ Number.longestInteger

variable {s : List Char} {n : Nat} {t : Token}

lemma Unmatched.lt {c : Char} (h : Unmatched s c n) : n < s.length :=
  (List.getElem?_eq_some_iff.mp h.character).1

namespace Token

lemma Stands.lt (h : t.Stands s) : t.position < s.length := by
  obtain ⟨k, hnext, -⟩ := h.lexeme
  by_contra hle
  rw [List.drop_eq_nil_of_le (by omega), Lexeme.next?_nil] at hnext
  cases hnext

/-! ### Scanning -/

/-- One lexeme is read, and the rest after it. -/
lemma scan_next {kind : Option TokenKind} {k : Nat}
    (h : Lexeme.next? s = some (kind, k)) :
    scan n 0 s = (scan (n + k) 0 (s.drop k)).map
      (kind.toList.map (⟨·, String.ofList (s.take k), n⟩) ++ ·) := by
  cases s with
  | nil => simp [Lexeme.next?_nil] at h
  | cons c s =>
    have hpos := Lexeme.pos_of_next? h
    obtain ⟨k, rfl⟩ : ∃ m, k = m + 1 := ⟨k - 1, by omega⟩
    have hrest : scan (n + 1) k s = scan (n + (k + 1)) 0 ((c :: s).drop (k + 1)) := by
      rw [scan_drop, List.drop_succ_cons]
      congr 1
      omega
    rw [scan_cons, h, ← hrest]
    cases kind with
    | none =>
      dsimp only [Nat.add_one_sub_one]
      rcases scan (n + 1) k s with e | ts <;> rfl
    | some kind => rfl

/-- A scan from a reached place ends where no lexeme matches, or all of its tokens stand. -/
theorem scan_meets (h : Reached s n) :
    Meets (fun e => ∃ c m, e = .malformedQuery (.unexpectedCharacter c) m ∧ Unmatched s c m)
      (∀ t ∈ ·, Stands s t) (scan n 0 (s.drop n)) := by
  generalize hleft : s.length - n = left
  induction left using Nat.strongRecOn generalizing n with
  | _ left ih =>
  rcases hdrop : s.drop n with _ | ⟨c, rest⟩
  · exact .of_ok nofun
  rw [← hdrop]
  have hlength : s.length - n = rest.length + 1 := by rw [← List.length_drop, hdrop]; rfl
  rcases hnext : Lexeme.next? (s.drop n) with _ | ⟨kind, k⟩
  · have hc : s[n]? = some c := by rw [← List.head?_drop, hdrop]; rfl
    rw [hdrop] at hnext ⊢
    rw [scan_cons, hnext]
    exact ⟨c, n, rfl, h, hc, hdrop ▸ hnext⟩
  · have hpos := Lexeme.pos_of_next? hnext
    have hrest := ih (s.length - (n + k)) (by omega) (h.next hnext) rfl
    rw [← List.drop_drop] at hrest
    rw [scan_next hnext]
    refine (hrest.imp fun ts hts => ?_).map
    cases kind with
    | none => exact hts
    | some kind => exact List.forall_mem_cons.mpr ⟨⟨h, k, hnext, String.toList_ofList⟩, hts⟩

/-- **Places**: the tokens of a text stand in it, or there is a first place at which none does. -/
theorem tokens_meets (s : String) :
    Meets (fun e => ∃ c m, e = .malformedQuery (.unexpectedCharacter c) m ∧ Unmatched s.toList c m)
      (∀ t ∈ ·, Stands s.toList t) (tokens s) :=
  scan_meets .start

/-! ### Numerals -/

lemma isDigit_of_readNat? {ds : List Char} (h : Number.readNat? ds ≠ none) :
    ∀ c ∈ ds, isDigit c = true := by
  have hread : ds.mapM digitValue? ≠ none := by
    intro hnone
    simp [Number.readNat?, hnone] at h
  clear h
  induction ds with
  | nil => nofun
  | cons c ds ih =>
    rw [List.mapM_cons] at hread
    rcases hc : digitValue? c with _ | d
    · simp [hc] at hread
    · refine List.forall_mem_cons.mpr ⟨by simp [isDigit, hc], ih fun hnone => hread ?_⟩
      simp [hc, hnone]

lemma digits_within (h : t.Stands s) : t.word.digits <:+: s := by
  obtain ⟨k, -, htext⟩ := h.lexeme
  have hsuffix : t.word.digits <:+ t.text.toList := by
    rw [Word.digits, Token.word]
    rcases t.text.toList with _ | ⟨c, rest⟩
    · exact List.suffix_rfl
    · unfold Parser.takeMinus
      split
      · rename_i heq
        cases heq
        exact List.suffix_cons ..
      · exact List.suffix_rfl
  rw [htext] at hsuffix
  exact (hsuffix.isInfix.trans (List.take_prefix ..).isInfix).trans (List.drop_suffix ..).isInfix

/-- Where digits stand together in small numbers, every integer can be read. -/
lemma Stands.readable (h : t.Stands s) (hshort : ShortRuns s) : t.word.Readable := by
  intro _ hint
  refine hshort _ (digits_within h) (isDigit_of_readNat? fun hnone => hint ?_)
  rw [Word.integer?, hnone, Option.map_none]

end Token

end NearDoc
