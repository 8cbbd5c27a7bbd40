import NearDoc.Proofs.Query.Spacing

/-!
What lexemes are written as. Every kind of lexeme has a form, which is told without a search. Main
statements: a lexeme matches at a place exactly if the text goes on with some form there, and what
it takes is of the form of its kind.
-/

namespace NearDoc

open Text

namespace Lexeme

/-! ### Forms -/

/-- Digits with an optional point behind or among them, or behind a point. -/
inductive IsMantissa : List Char → Prop where
  | whole {ds : List Char} (hne : ds ≠ []) (h : ∀ c ∈ ds, isDigit c) : IsMantissa ds
  | pointed {ds es : List Char} (hne : ds ≠ []) (h : ∀ c ∈ ds, isDigit c)
      (h' : ∀ c ∈ es, isDigit c) : IsMantissa (ds ++ '.' :: es)
  | fraction {es : List Char} (hne : es ≠ []) (h : ∀ c ∈ es, isDigit c) : IsMantissa ('.' :: es)

/-- Nothing, or a letter, an optional sign and digits. -/
inductive IsExponent : List Char → Prop where
  | none : IsExponent []
  | digits {letter : Char} {sign ds : List Char} (hletter : letter ∈ ['e', 'E'])
      (hsign : sign ∈ [[], ['-'], ['+']]) (hne : ds ≠ []) (h : ∀ c ∈ ds, isDigit c) :
      IsExponent (letter :: (sign ++ ds))

/-- Characters other than quotes, and quotes written twice. -/
inductive IsEnquoted : List Char → Prop where
  | nil : IsEnquoted []
  | other {c : Char} {s : List Char} (hc : c ≠ '\'') (h : IsEnquoted s) : IsEnquoted (c :: s)
  | doubled {s : List Char} (h : IsEnquoted s) : IsEnquoted ('\'' :: '\'' :: s)

/-- What the lexemes of each kind are written as; blanks have no token kind. -/
inductive Form : Option TokenKind → List Char → Prop where
  | blanks {s : List Char} (hne : s ≠ []) (h : ∀ c ∈ s, isBlank c) : Form none s
  | number {sign mantissa exponent : List Char} (hsign : sign ∈ [[], ['-']])
      (h : IsMantissa mantissa) (h' : IsExponent exponent) :
      Form (some .number) (sign ++ (mantissa ++ exponent))
  | text {s : List Char} (h : IsEnquoted s) : Form (some .text) ('\'' :: (s ++ ['\'']))
  | param {s : List Char} (h : IsIdentifier s) : Form (some .param) ('@' :: s)
  | name {first rest : List Char} (h : IsIdentifier first) (h' : Dotted rest) :
      Form (some .name) (first ++ rest)
  | op {s : List Char} (h : s ∈ [['<', '='], ['>', '='], ['<', '>'], ['!', '='], ['=', '='],
      ['='], ['<'], ['>']]) : Form (some .op) s
  | punct {c : Char} (h : c ∈ ['(', ')', '[', ']', ',', '*']) : Form (some .punct) [c]

/-! ### What is matched has its form -/

lemma take_digits (s : List Char) : s.take (digits s) = s.takeWhile isDigit :=
  (List.prefix_iff_eq_take.mp (List.takeWhile_prefix _)).symm

lemma isDigit_of_mem_take {s : List Char} {c : Char} (h : c ∈ s.take (digits s)) :
    isDigit c = true := by
  rw [take_digits] at h
  exact List.mem_takeWhile_imp h

lemma take_digits_ne_nil {s : List Char} (h : digits s ≠ 0) : s.take (digits s) ≠ [] := by
  rw [take_digits]
  exact fun hnil => h (congrArg List.length hnil)

lemma isMantissa_take {s : List Char} (h : mantissa s ≠ 0) : IsMantissa (s.take (mantissa s)) := by
  unfold mantissa at h ⊢
  split at h
  · split at h
    · rename_i r _
      split at h
      · contradiction
      · rename_i hne
        rw [if_neg hne, Nat.add_comm, List.take_succ_cons]
        exact .fraction (take_digits_ne_nil hne) fun _ => isDigit_of_mem_take
    · contradiction
  · rename_i n hn
    have hn : n + 1 = digits s := hn.symm
    have hwhole : ∀ c ∈ s.take (n + 1), isDigit c := fun c hc =>
      isDigit_of_mem_take (hn ▸ hc)
    have hne : s.take (n + 1) ≠ [] := hn ▸ take_digits_ne_nil (by omega)
    split
    · rename_i r hr
      have hlen : n + 2 + digits r = n + 1 + (digits r + 1) := by omega
      rw [hlen, List.take_add, hr, List.take_succ_cons]
      exact .pointed hne hwhole fun _ => isDigit_of_mem_take
    · exact .whole hne hwhole

lemma take_exponentSign (s : List Char) : s.take (exponentSign s) ∈ [[], ['-'], ['+']] := by
  unfold exponentSign
  split <;> simp

lemma isExponent_take (s : List Char) : IsExponent (s.take (exponent s)) := by
  unfold exponent
  split
  · rename_i c r
    split
    · rename_i hletter
      dsimp only
      split
      · exact .none
      · rename_i n hn
        have hn : n + 1 = digits (r.drop (exponentSign r)) := hn.symm
        have hlen : 1 + exponentSign r + (n + 1) = exponentSign r + (n + 1) + 1 := by omega
        rw [hlen, List.take_succ_cons, List.take_add, hn]
        exact .digits (by simpa using hletter) (take_exponentSign r)
          (take_digits_ne_nil (by omega)) fun _ => isDigit_of_mem_take
    · exact .none
  · exact .none

/-- What is matched of a numeral without a sign, in its two parts. -/
lemma exists_unsigned {s : List Char} (h : unsigned s ≠ 0) :
    ∃ m e, s.take (unsigned s) = m ++ e ∧ IsMantissa m ∧ IsExponent e := by
  unfold unsigned at h ⊢
  split at h
  · contradiction
  · rename_i n hn
    have hn : n + 1 = mantissa s := hn.symm
    exact ⟨_, _, List.take_add, hn ▸ isMantissa_take (by omega), isExponent_take _⟩

lemma form_number {s : List Char} (h : number s ≠ 0) :
    Form (some .number) (s.take (number s)) := by
  unfold number at h ⊢
  split at h
  · rename_i r
    split at h
    · contradiction
    · rename_i n hn
      have hn : n + 1 = unsigned r := hn.symm
      obtain ⟨m, e, heq, hm, he⟩ := exists_unsigned (s := r) (by omega)
      rw [List.take_succ_cons, hn, heq]
      have hsign : ['-'] ∈ [[], ['-']] := by simp
      exact .number hsign hm he
  · obtain ⟨m, e, heq, hm, he⟩ := exists_unsigned h
    rw [heq]
    have hsign : [] ∈ [[], ['-']] := by simp
    exact .number hsign hm he

lemma exists_closing {s : List Char} {n : Nat} (h : closing? s = some n) :
    ∃ t, s.take n = t ++ ['\''] ∧ IsEnquoted t := by
  induction s using closing?.induct generalizing n with
  | case1 => cases h
  | case2 r m hm ih =>
    simp only [closing?, hm, Option.some.injEq] at h
    subst h
    obtain ⟨t, heq, ht⟩ := ih hm
    exact ⟨'\'' :: '\'' :: t, by simp [heq], .doubled ht⟩
  | case3 r hr ih =>
    simp only [closing?, hr, Option.some.injEq] at h
    subst h
    exact ⟨[], by simp, .nil⟩
  | case4 r hr =>
    simp only [closing?, if_true, Option.some.injEq] at h
    subst h
    exact ⟨[], by simp, .nil⟩
  | case5 c r hr hc ih =>
    simp only [closing?, hc, if_false, Option.map_eq_some_iff] at h
    obtain ⟨m, hm, rfl⟩ := h
    obtain ⟨t, heq, ht⟩ := ih hm
    exact ⟨c :: t, by simp [heq], .other hc ht⟩

lemma form_text {s : List Char} (h : quotedText s ≠ 0) :
    Form (some .text) (s.take (quotedText s)) := by
  unfold quotedText at h ⊢
  split at h
  · rename_i r
    rcases hr : closing? r with _ | n
    · simp [hr] at h
    · obtain ⟨t, heq, ht⟩ := exists_closing hr
      simp only [Option.elim_some, List.take_succ_cons, heq]
      exact .text ht
  · contradiction

lemma form_param {s : List Char} (h : param s ≠ 0) : Form (some .param) (s.take (param s)) := by
  unfold param at h ⊢
  split at h
  · rename_i c r
    split at h
    · rename_i hc
      rw [if_pos hc, Nat.add_comm, List.take_succ_cons, List.take_succ_cons,
        ← List.prefix_iff_eq_take.mp (List.takeWhile_prefix isNameChar)]
      exact .param ⟨c, _, rfl, hc, fun _ => List.mem_takeWhile_imp⟩
    · contradiction
  · contradiction

/-- The rest of a name: of its first segment, and other segments behind it. -/
lemma exists_nameRest (inDigits : Bool) (s : List Char) :
    ∃ segment rest, s.take (nameRest inDigits s) = segment ++ rest ∧
      (∀ c ∈ segment, if inDigits then isDigit c else isNameChar c) ∧ Dotted rest := by
  induction inDigits, s using nameRest.induct with
  | case1 => exact ⟨[], [], rfl, List.forall_mem_nil _, .nil⟩
  | case2 _ c r hc ih =>
    obtain ⟨segment, rest, heq, hsegment, hrest⟩ := ih
    refine ⟨[], '.' :: ((c :: segment) ++ rest), ?_, List.forall_mem_nil _, ?_⟩
    · rw [nameRest, if_pos hc, Nat.add_comm, List.take_succ_cons, List.take_succ_cons, heq]
      rfl
    · exact .identifier ⟨c, segment, rfl, hc, hsegment⟩ hrest
  | case3 _ c r hc hd ih =>
    obtain ⟨segment, rest, heq, hsegment, hrest⟩ := ih
    refine ⟨[], '.' :: ((c :: segment) ++ rest), ?_, List.forall_mem_nil _, ?_⟩
    · rw [nameRest, if_neg hc, if_pos hd, Nat.add_comm, List.take_succ_cons, List.take_succ_cons,
        heq]
      rfl
    · exact .digits (by simp) (List.forall_mem_cons.mpr ⟨hd, hsegment⟩) hrest
  | case4 d c r hc hd =>
    rw [nameRest, if_neg hc, if_neg hd]
    exact ⟨[], [], rfl, List.forall_mem_nil _, .nil⟩
  | case5 d c r hr hc ih =>
    obtain ⟨segment, rest, heq, hsegment, hrest⟩ := ih
    refine ⟨c :: segment, rest, ?_, List.forall_mem_cons.mpr ⟨?_, hsegment⟩, hrest⟩
    · rw [nameRest.eq_3 _ _ _ hr, if_pos hc, Nat.add_comm, List.take_succ_cons, heq]
      rfl
    · cases d <;> exact hc
  | case6 d c r hr hc =>
    rw [nameRest.eq_3 _ _ _ hr, if_neg hc]
    exact ⟨[], [], rfl, List.forall_mem_nil _, .nil⟩

lemma form_name {s : List Char} (h : name s ≠ 0) : Form (some .name) (s.take (name s)) := by
  unfold name at h ⊢
  split at h
  · rename_i c r
    split at h
    · rename_i hc
      obtain ⟨segment, rest, heq, hsegment, hrest⟩ := exists_nameRest false r
      rw [if_pos hc, Nat.add_comm, List.take_succ_cons, heq, ← List.cons_append]
      exact .name ⟨c, segment, rfl, hc, hsegment⟩ hrest
    · contradiction
  · contradiction

lemma form_op {s : List Char} (h : op s ≠ 0) : Form (some .op) (s.take (op s)) := by
  refine .op ?_
  unfold op at h ⊢
  split at h
  all_goals first
    | contradiction
    | simp

lemma form_punct {s : List Char} (h : punct s ≠ 0) : Form (some .punct) (s.take (punct s)) := by
  unfold punct at h ⊢
  split at h
  all_goals first
    | contradiction
    | exact .punct (by simp)

lemma form_blanks {s : List Char} (h : blanks s ≠ 0) : Form none (s.take (blanks s)) := by
  rw [blanks, ← List.prefix_iff_eq_take.mp (List.takeWhile_prefix isBlank)]
  exact .blanks (fun hnil => h (congrArg List.length hnil)) fun _ => List.mem_takeWhile_imp

/-- What a lexeme takes is of the form of its kind. -/
theorem form_of_next? {s : List Char} {kind : Option TokenKind} {n : Nat}
    (h : next? s = some (kind, n)) : Form kind (s.take n) := by
  obtain ⟨k, hk, hn⟩ := List.exists_of_findSome?_eq_some h
  split at hn
  · cases hn
  · rename_i hne
    cases hn
    simp only [kinds, List.mem_cons, List.not_mem_nil, or_false] at hk
    rcases hk with rfl | rfl | rfl | rfl | rfl | rfl | rfl
    · exact form_blanks hne
    · exact form_number hne
    · exact form_text hne
    · exact form_param hne
    · exact form_name hne
    · exact form_op hne
    · exact form_punct hne

/-! ### What has a form is matched -/

lemma mantissa_digit {c : Char} (hc : isDigit c) (s : List Char) : mantissa (c :: s) ≠ 0 := by
  have hd : digits (c :: s) = (s.takeWhile isDigit).length + 1 := by simp [digits, hc]
  unfold mantissa
  rw [hd]
  dsimp only
  split <;> omega

lemma mantissa_point {c : Char} (hc : isDigit c) (s : List Char) :
    mantissa ('.' :: c :: s) ≠ 0 := by
  have hd : digits ('.' :: c :: s) = 0 := rfl
  have hd' : digits (c :: s) = (s.takeWhile isDigit).length + 1 := by simp [digits, hc]
  simp [mantissa, hd, hd']

lemma IsMantissa.matched {m : List Char} (h : IsMantissa m) (r : List Char) :
    unsigned (m ++ r) ≠ 0 ∧ ∃ c t, m = c :: t ∧ c ≠ '-' := by
  have hunsigned {s : List Char} (hs : mantissa s ≠ 0) : unsigned s ≠ 0 := by
    obtain ⟨n, hn⟩ := Nat.exists_eq_succ_of_ne_zero hs
    simp [unsigned, hn]
  have hminus {c : Char} (hc : isDigit c) : c ≠ '-' := by
    rintro rfl
    exact absurd hc (by decide)
  cases h with
  | whole hne h =>
    obtain ⟨c, t, rfl⟩ := List.exists_cons_of_ne_nil hne
    rw [List.forall_mem_cons] at h
    exact ⟨hunsigned (mantissa_digit h.1 _), c, t, rfl, hminus h.1⟩
  | pointed hne h =>
    obtain ⟨c, t, rfl⟩ := List.exists_cons_of_ne_nil hne
    rw [List.forall_mem_cons] at h
    exact ⟨hunsigned (mantissa_digit h.1 _), c, _, rfl, hminus h.1⟩
  | fraction hne h =>
    obtain ⟨c, t, rfl⟩ := List.exists_cons_of_ne_nil hne
    rw [List.forall_mem_cons] at h
    exact ⟨hunsigned (mantissa_point h.1 _), '.', _, rfl, by decide⟩

lemma op_sign {c : Char} (hc : c ∈ ['<', '>', '=']) (s : List Char) : op (c :: s) ≠ 0 := by
  simp only [List.mem_cons, List.not_mem_nil, or_false] at hc
  unfold op
  rcases hc with rfl | rfl | rfl <;> split <;> simp_all

/-- A text ends exactly if there is a quote in it. -/
lemma closing?_eq_none_iff {s : List Char} : closing? s = none ↔ '\'' ∉ s := by
  induction s using closing?.induct with
  | case1 => simp [closing?]
  | case2 r m hm ih => simp [closing?, hm]
  | case3 r hr ih => simp [closing?, hr]
  | case4 r hr => simp [closing?]
  | case5 c r hr hc ih => simp [closing?, hc, ih, Ne.symm hc]

/-- A text that goes on with a form is matched by the lexemes of its kind. -/
lemma Form.exists_measure {kind : Option TokenKind} {t : List Char} (h : Form kind t)
    (r : List Char) : ∃ measure, (kind, measure) ∈ kinds ∧ measure (t ++ r) ≠ 0 := by
  cases h with
  | blanks hne h =>
    obtain ⟨c, t, rfl⟩ := List.exists_cons_of_ne_nil hne
    exact ⟨Lexeme.blanks, by simp [kinds], by simp [Lexeme.blanks, h c (by simp)]⟩
  | @number sign m e hsign hm he =>
    refine ⟨Lexeme.number, by simp [kinds], ?_⟩
    obtain ⟨hne, c, t, rfl, hc⟩ := hm.matched (e ++ r)
    simp only [List.mem_cons, List.not_mem_nil, or_false] at hsign
    rcases hsign with rfl | rfl
    · simpa [Lexeme.number, hc] using hne
    · obtain ⟨n, hn⟩ := Nat.exists_eq_succ_of_ne_zero hne
      simp only [List.cons_append] at hn
      simp [Lexeme.number, hn]
  | @text s h =>
    refine ⟨quotedText, by simp [kinds], ?_⟩
    have hclosing : closing? (s ++ '\'' :: r) ≠ none := fun hnone =>
      closing?_eq_none_iff.mp hnone (by simp)
    obtain ⟨n, hn⟩ := Option.ne_none_iff_exists'.mp hclosing
    simp [quotedText, hn]
  | param h =>
    obtain ⟨c, s, rfl, hc, -⟩ := h
    exact ⟨Lexeme.param, by simp [kinds], by simp [Lexeme.param, hc]⟩
  | name h h' =>
    obtain ⟨c, s, rfl, hc, -⟩ := h
    exact ⟨Lexeme.name, by simp [kinds], by simp [Lexeme.name, hc]⟩
  | op h =>
    refine ⟨Lexeme.op, by simp [kinds], ?_⟩
    simp only [List.mem_cons, List.not_mem_nil, or_false] at h
    rcases h with rfl | rfl | rfl | rfl | rfl | rfl | rfl | rfl
    case inr.inr.inr.inl => simp [Lexeme.op]
    all_goals exact op_sign (by simp) _
  | punct h =>
    refine ⟨Lexeme.punct, by simp [kinds], ?_⟩
    simp only [List.mem_cons, List.not_mem_nil, or_false] at h
    rcases h with rfl | rfl | rfl | rfl | rfl | rfl <;> simp [Lexeme.punct]

/-- **Forms**: no lexeme matches a text exactly if it goes on with no form. -/
theorem next?_eq_none_iff {s : List Char} :
    next? s = none ↔ ∀ kind t, Form kind t → ¬ t <+: s := by
  constructor
  · rintro hnone kind t h ⟨r, rfl⟩
    obtain ⟨measure, hmem, hne⟩ := h.exists_measure r
    have := List.findSome?_eq_none_iff.mp hnone _ hmem
    simp [hne] at this
  · intro h
    rcases hnext : next? s with _ | ⟨kind, n⟩
    · rfl
    · exact absurd (List.take_prefix n s) (h kind _ (form_of_next? hnext))

end Lexeme

end NearDoc
