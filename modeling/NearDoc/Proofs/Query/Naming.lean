import NearDoc.Expr.Basic
import NearDoc.Proofs.Query.Lexing
import NearDoc.Proofs.Text.Trim
import NearDoc.Value.Path

/-!
Names of collections, fields and columns: texts that are one name token and no keyword. Such a text
is a path, and it stands for itself wherever a sentence has a name.
-/

namespace NearDoc

open Text

/-- A name or keyword as a word. -/
def wordOf (s : String) : Word := ⟨.name, s⟩

lemma lexes_wordOf {s : String} (h : Token.tokens s = .ok [⟨.name, s, 0⟩]) :
    Lexes s.toList [wordOf s] := .of_tokens h

/-- Every keyword is a word. -/
lemma lexes_keyword : ∀ k ∈ Token.keywords, Lexes k.toList [wordOf k] := by
  intro k hk
  simp only [Token.keywords, List.mem_cons, List.not_mem_nil, or_false] at hk
  rcases hk with rfl | rfl | rfl | rfl | rfl | rfl | rfl | rfl | rfl | rfl | rfl | rfl | rfl | rfl |
    rfl <;> exact lexes_wordOf rfl

/-- A text that is a name as a whole. -/
structure IsName (s : String) : Prop where
  tokens : Token.tokens s = .ok [⟨.name, s, 0⟩]
  keyword? : (⟨.name, s, 0⟩ : Token).keyword? = none

namespace Lexeme

/-- Blanks are neither digits nor of names. -/
lemma not_of_isBlank {c : Char} (hc : isBlank c) : isDigit c = false ∧ isNameChar c = false :=
  of_isBlank (P := fun c => isDigit c = false ∧ isNameChar c = false) (by decide) hc

lemma isBlank_of_isDigit {c : Char} (hc : isDigit c) : isBlank c = false := by
  by_contra h
  have := (not_of_isBlank (by simpa using h)).1
  simp [hc] at this

lemma isBlank_of_isNameChar {c : Char} (hc : isNameChar c) : isBlank c = false := by
  by_contra h
  have := (not_of_isBlank (by simpa using h)).2
  simp [hc] at this

lemma isNameChar_of_isNameStart {c : Char} (hc : isNameStart c) : isNameChar c = true := by
  simp [isNameChar, hc]

lemma exists_splitDots_cons {c : Char} (hc : c ≠ '.') (s : List Char) :
    ∃ segment, segment ≠ [] ∧ Path.splitDots (c :: s) = segment :: (Path.splitDots s).tail := by
  obtain ⟨segment, segments, h⟩ := List.exists_cons_of_ne_nil (Path.splitDots_ne_nil s)
  exact ⟨c :: segment, by simp, by simp [Path.splitDots, h, hc]⟩

lemma splitDots_dot (s : List Char) : Path.splitDots ('.' :: s) = [] :: Path.splitDots s := by
  obtain ⟨segment, segments, h⟩ := List.exists_cons_of_ne_nil (Path.splitDots_ne_nil s)
  simp [Path.splitDots, h]

/-- What a name reaches over has no blanks, and no segment after the first is empty. -/
lemma of_nameRest {d : Bool} {s : List Char} (h : nameRest d s = s.length) :
    (∀ c ∈ s, isBlank c = false) ∧ ∀ segment ∈ (Path.splitDots s).tail, segment ≠ [] := by
  have hdot : isBlank '.' = false := by decide
  have hsegment {c : Char} {s : List Char} (hc : c ≠ '.')
      (hs : ∀ segment ∈ (Path.splitDots s).tail, segment ≠ []) :
      ∀ segment ∈ (Path.splitDots ('.' :: c :: s)).tail, segment ≠ [] := by
    obtain ⟨segment, hne, heq⟩ := exists_splitDots_cons hc s
    rw [splitDots_dot, List.tail_cons, heq, List.forall_mem_cons]
    exact ⟨hne, hs⟩
  induction d, s using nameRest.induct with
  | case1 => simp [Path.splitDots]
  | case2 _ c r hc ih =>
    simp only [nameRest, if_pos hc, List.length_cons] at h
    obtain ⟨hblank, htail⟩ := ih (by omega)
    refine ⟨?_, hsegment (by rintro rfl; exact absurd hc (by decide)) htail⟩
    simp only [List.forall_mem_cons]
    exact ⟨hdot, isBlank_of_isNameChar (isNameChar_of_isNameStart hc), hblank⟩
  | case3 _ c r hc hd ih =>
    simp only [nameRest, if_neg hc, if_pos hd, List.length_cons] at h
    obtain ⟨hblank, htail⟩ := ih (by omega)
    refine ⟨?_, hsegment (by rintro rfl; exact absurd hd (by decide)) htail⟩
    simp only [List.forall_mem_cons]
    exact ⟨hdot, isBlank_of_isDigit hd, hblank⟩
  | case4 _ c r hc hd => simp [nameRest, hc, hd] at h
  | case5 d c r _ hd ih =>
    have hc : c ≠ '.' := by
      rintro rfl
      cases d <;> exact absurd hd (by decide)
    rw [nameRest_cons hc, if_pos hd, List.length_cons] at h
    obtain ⟨hblank, htail⟩ := ih (by omega)
    obtain ⟨segment, -, heq⟩ := exists_splitDots_cons hc r
    rw [heq, List.forall_mem_cons]
    refine ⟨⟨?_, hblank⟩, htail⟩
    cases d
    · exact isBlank_of_isNameChar hd
    · exact isBlank_of_isDigit hd
  | case6 d c r hr hd =>
    rw [nameRest.eq_3 _ _ _ hr, if_neg hd] at h
    simp at h

/-- A text that is a name as a whole is a path. -/
lemma segments_of_name {s : String} (hpos : 0 < s.toList.length)
    (h : name s.toList = s.toList.length) : ∃ parts, Path.segments s = .ok parts := by
  generalize hl : s.toList = l at h hpos
  rcases l with _ | ⟨c, r⟩
  · simp at hpos
  rw [name] at h
  split at h
  · rename_i hc
    rw [List.length_cons] at h
    obtain ⟨hblank, htail⟩ := of_nameRest (d := false) (s := r) (by omega)
    have hblank' : ∀ x ∈ c :: r, isBlank x = false := by
      rw [List.forall_mem_cons]
      exact ⟨isBlank_of_isNameChar (isNameChar_of_isNameStart hc), hblank⟩
    have htrim : trim (c :: r) = c :: r := strip_of_forall fun x hx => by simp [hblank' x hx]
    obtain ⟨segment, hne, heq⟩ :=
      exists_splitDots_cons (c := c) (by rintro rfl; exact absurd hc (by decide)) r
    have hnone : (Path.splitDots (c :: r)).any List.isEmpty = false := by
      rw [heq, List.any_cons, List.isEmpty_eq_false_iff.mpr hne, Bool.false_or, List.any_eq_false]
      intro x hx
      simpa using htail x hx
    exact ⟨_, by simp [Path.segments, hl, htrim, hnone]; rfl⟩
  · simp at h

end Lexeme

/-- The words of a text are no longer than the text. -/
lemma Lexes.length_le {s : List Char} {ws : List Word} (h : Lexes s ws) :
    ∀ w ∈ ws, w.text.toList.length ≤ s.length := by
  induction h with
  | nil => simp
  | blank hc h ih => exact fun w hw => Nat.le_succ_of_le (ih w hw)
  | @word s ws kind n hnext h ih =>
    rw [List.forall_mem_cons]
    refine ⟨?_, fun w hw => Nat.le_trans (ih w hw) ?_⟩
    · rw [String.toList_ofList]
      exact List.length_take_le' n s
    · rw [List.length_drop]
      exact Nat.sub_le _ _

namespace IsName

variable {s : String}

lemma lexes (h : IsName s) : Lexes s.toList [wordOf s] := .of_tokens h.tokens

/-- The whole text is the first lexeme. -/
lemma next? (h : IsName s) :
    Lexeme.next? s.toList = some (some .name, s.toList.length) := by
  have hlexes := h.lexes
  unfold wordOf at hlexes
  generalize hl : s.toList = l at hlexes
  cases hlexes with
  | @blank c l _ hc h' =>
    have := h'.length_le ⟨.name, s⟩ (by simp)
    rw [hl, List.length_cons] at this
    omega
  | @word _ _ _ n hnext h' =>
    have htake : (l.take n).length = l.length := by
      rw [String.toList_ofList] at hl
      rw [hl]
    rw [List.length_take] at htake
    have := Lexeme.le_of_next? hnext
    rw [hnext, show n = l.length by omega]

lemma segments (h : IsName s) : ∃ parts, Path.segments s = .ok parts := by
  have hnext := h.next?
  have hpos := Lexeme.pos_of_next? hnext
  refine Lexeme.segments_of_name hpos ?_
  obtain ⟨k, hk, hn⟩ := List.exists_of_findSome?_eq_some hnext
  split at hn
  · cases hn
  · simp only [Option.some.injEq, Prod.mk.injEq] at hn
    simp only [Lexeme.kinds, List.mem_cons, List.not_mem_nil, or_false] at hk
    rcases hk with rfl | rfl | rfl | rfl | rfl | rfl | rfl <;> simp_all

lemma field? (h : IsName s) : Expr.field? (.text s) = .ok (.field s) := by
  obtain ⟨parts, hparts⟩ := h.segments
  rw [Expr.field?, hparts]
  rfl

end IsName

end NearDoc
