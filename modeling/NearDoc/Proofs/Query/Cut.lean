import NearDoc.Proofs.Query.Form

/-!
Texts that are cut off. Where a lexeme ends does not depend on what stands behind it, as each is
put together from parts of which this holds. Main statements: what is matched is matched as well
when the text is cut off anywhere behind it, and so it is the only lexeme of what it takes.
-/

namespace NearDoc

open Text

namespace Lexeme

/-- What is matched is matched as well when the text is cut off no earlier. -/
def Local (measure : List Char → Nat) : Prop :=
  ∀ s m, measure s ≤ m → measure (s.take m) = measure s

/-- How far the characters of a kind reach. -/
def run (p : Char → Bool) (s : List Char) : Nat := (s.takeWhile p).length

/-- A character of a kind and what is matched behind it, which is to be something if needed. -/
def headed (needed : Bool) (p : Char → Bool) (measure : List Char → Nat) : List Char → Nat
  | c :: r => if p c && !(needed && measure r == 0) then 1 + measure r else 0
  | [] => 0

namespace Local

variable {f g : List Char → Nat} {p : Char → Bool}

lemma run (p : Char → Bool) : Local (Lexeme.run p) := fun s m h => by
  rw [Lexeme.run, ← List.take_takeWhile, List.length_take]
  exact Nat.min_eq_right h

lemma headed (hf : Local f) (needed : Bool) (p : Char → Bool) :
    Local (Lexeme.headed needed p f) := by
  intro s m h
  rcases s with _ | ⟨c, r⟩
  · rw [List.take_nil]
  rcases m with _ | m
  · rw [Nat.le_zero.mp h]
    rfl
  rw [List.take_succ_cons]
  rcases hc : p c with _ | _
  · simp [Lexeme.headed, hc]
  · have hr : f r ≤ m := by
      by_contra hlt
      have hne : f r ≠ 0 := by omega
      simp only [Lexeme.headed, hc, beq_eq_false_iff_ne.mpr hne, Bool.true_and, Bool.and_false,
        Bool.not_false, if_true] at h
      omega
    simp only [Lexeme.headed, hf r m hr]

/-- One measure where another matches nothing, and one behind it where it matches. -/
lemma orElse (hf : Local f) {h : List Char → Nat} (hh : Local h) (hg : Local g) :
    Local fun s => if f s = 0 then h s else f s + g (s.drop (f s)) := by
  intro s m hle
  dsimp only at hle ⊢
  by_cases hs : f s = 0
  · rw [if_pos hs] at hle ⊢
    have hs' : f (s.take m) = 0 := by rw [hf s m (by omega), hs]
    rw [if_pos hs', hh s m hle]
  · rw [if_neg hs] at hle ⊢
    rw [hf s m (by omega), if_neg hs, List.drop_take, hg _ _ (by omega)]

end Local

/-! ### Numerals -/

lemma local_digits : Local digits := .run isDigit

lemma mantissa_eq : mantissa = fun s =>
    if digits s = 0 then headed true (· = '.') digits s
    else digits s + headed false (· = '.') digits (s.drop (digits s)) := by
  funext s
  unfold mantissa
  split
  · rename_i hs
    rw [if_pos hs]
    split
    · simp only [headed]
      split <;> simp_all
    · rename_i hdot
      unfold headed
      split
      · rename_i c r
        have hc : c ≠ '.' := fun hc => hdot r (by rw [hc])
        simp [hc]
      · rfl
  · rename_i n hs
    have hs : digits s = n + 1 := hs
    rw [if_neg (by omega), hs]
    split
    · rename_i r hr
      simp [hr, headed]
      omega
    · rename_i hdot
      unfold headed
      split
      · rename_i c r hr
        have hc : c ≠ '.' := fun hc => hdot r (by rw [hr, hc])
        simp [hc]
      · rfl

lemma local_mantissa : Local mantissa := by
  rw [mantissa_eq]
  exact local_digits.orElse (local_digits.headed true _) (local_digits.headed false _)

/-- The digits of an exponent and the sign before them; nothing if there are no digits. -/
def signedDigits (s : List Char) : Nat :=
  if digits (s.drop (exponentSign s)) = 0 then 0
  else exponentSign s + digits (s.drop (exponentSign s))

lemma exponent_eq : exponent = headed true (fun c => c = 'e' || c = 'E') signedDigits := by
  funext s
  rcases s with _ | ⟨c, r⟩
  · rfl
  · simp only [exponent, headed, signedDigits]
    split
    · split <;> simp_all
      omega
    · simp_all

lemma local_signedDigits : Local signedDigits := by
  intro s m h
  rcases m with _ | m
  · rw [Nat.le_zero.mp h]
    rfl
  rcases s with _ | ⟨c, r⟩
  · rw [List.take_nil]
  · have hsign : exponentSign ((c :: r).take (m + 1)) = exponentSign (c :: r) := by
      rw [List.take_succ_cons]
      unfold exponentSign
      split <;> split <;> simp_all
    have hone : exponentSign (c :: r) ≤ 1 := by
      unfold exponentSign
      split <;> simp
    unfold signedDigits at h ⊢
    rw [hsign, List.drop_take]
    generalize (c :: r).drop (exponentSign (c :: r)) = ds at h ⊢
    by_cases hds : digits ds = 0
    · rw [local_digits _ _ (by omega), if_pos hds]
    · rw [if_neg hds] at h
      rw [local_digits _ _ (by omega)]

lemma local_exponent : Local exponent := by
  rw [exponent_eq]
  exact local_signedDigits.headed true _

lemma unsigned_eq : unsigned = fun s =>
    if mantissa s = 0 then 0 else mantissa s + exponent (s.drop (mantissa s)) := by
  funext s
  unfold unsigned
  split <;> simp_all

lemma local_unsigned : Local unsigned := by
  rw [unsigned_eq]
  exact local_mantissa.orElse (fun _ _ _ => rfl) local_exponent

lemma local_number : Local number := by
  have hminus : ∀ r, number ('-' :: r) = headed true (· = '-') unsigned ('-' :: r) := by
    intro r
    simp only [number, headed]
    split <;> simp_all
    omega
  have hother : ∀ s, s.head? ≠ some '-' → number s = unsigned s := by
    intro s hs
    unfold number
    split
    · simp at hs
    · rfl
  intro s m h
  rcases s with _ | ⟨c, r⟩
  · rw [List.take_nil]
  by_cases hc : c = '-'
  · subst hc
    have hlocal := local_unsigned.headed true (· = '-') ('-' :: r) m
    rw [← hminus] at hlocal
    rw [← hlocal h]
    rcases m with _ | m
    · rfl
    · rw [List.take_succ_cons, hminus]
  · have htake : ((c :: r).take m).head? ≠ some '-' := by
      rcases m with _ | m <;> simp [hc]
    have hself : (c :: r).head? ≠ some '-' := by simpa using hc
    rw [hother _ hself] at h ⊢
    rw [hother _ htake]
    exact local_unsigned _ _ h

/-! ### The other kinds -/

lemma local_blanks : Local blanks := .run isBlank

lemma closing?_take {s : List Char} {n m : Nat} (h : closing? s = some n) (hm : n ≤ m) :
    closing? (s.take m) = some n := by
  induction s using closing?.induct generalizing n m with
  | case1 => cases h
  | case2 r k hk ih =>
    simp only [closing?, hk, Option.some.injEq] at h
    subst h
    obtain ⟨m, rfl⟩ : ∃ i, m = i + 2 := ⟨m - 2, by omega⟩
    simp [closing?, ih hk (Nat.le_of_add_le_add_right hm)]
  | case3 r hr ih =>
    simp only [closing?, hr, Option.some.injEq] at h
    subst h
    obtain ⟨m, rfl⟩ : ∃ i, m = i + 1 := ⟨m - 1, by omega⟩
    rcases m with _ | m
    · simp [closing?]
    · have hnone : closing? (r.take m) = none := closing?_eq_none_iff.mpr fun hmem =>
        closing?_eq_none_iff.mp hr (List.mem_of_mem_take hmem)
      simp [closing?, hnone]
  | case4 r hr =>
    simp only [closing?, if_true, Option.some.injEq] at h
    subst h
    obtain ⟨m, rfl⟩ : ∃ i, m = i + 1 := ⟨m - 1, by omega⟩
    rcases r with _ | ⟨c, r⟩
    · simp [closing?]
    · have hc : c ≠ '\'' := fun hc => hr r rfl (by rw [hc])
      rcases m with _ | m <;> simp [closing?, hc]
  | case5 c r hr hc ih =>
    simp only [closing?, hc, if_false, Option.map_eq_some_iff] at h
    obtain ⟨k, hk, rfl⟩ := h
    obtain ⟨m, rfl⟩ : ∃ i, m = i + 1 := ⟨m - 1, by omega⟩
    simp [closing?, hc, ih hk (Nat.le_of_add_le_add_right hm)]

lemma local_closing : Local fun s => (closing? s).getD 0 := by
  intro s m h
  dsimp only at h ⊢
  rcases hs : closing? s with _ | n
  · have hno : '\'' ∉ s.take m := fun hmem =>
      closing?_eq_none_iff.mp hs (List.mem_of_mem_take hmem)
    rw [closing?_eq_none_iff.mpr hno]
  · rw [hs] at h
    rw [closing?_take hs h]

lemma pos_of_closing? {s : List Char} {n : Nat} (h : closing? s = some n) : n ≠ 0 := by
  obtain ⟨t, ht, -⟩ := exists_closing h
  rintro rfl
  simp at ht

lemma quotedText_eq :
    quotedText = headed true (· = '\'') fun s => (closing? s).getD 0 := by
  funext s
  rcases s with _ | ⟨c, r⟩
  · rfl
  · by_cases hc : c = '\''
    · subst hc
      rcases hr : closing? r with _ | n
      · simp [quotedText, headed, hr]
      · simp [quotedText, headed, hr, pos_of_closing? hr, Nat.add_comm]
    · simp [quotedText, headed, hc]

lemma local_quotedText : Local quotedText := by
  rw [quotedText_eq]
  exact local_closing.headed true _

lemma param_eq :
    param = headed true (· = '@') (headed false isNameStart (run isNameChar)) := by
  funext s
  rcases s with _ | ⟨c, _ | ⟨d, r⟩⟩
  · rfl
  · simp [param, headed]
  · by_cases hc : c = '@'
    · subst hc
      by_cases hd : isNameStart d
      · simp [param, headed, hd, run]
        omega
      · simp [param, headed, hd]
    · simp [param, headed, hc]

lemma local_param : Local param := by
  rw [param_eq]
  exact ((Local.run isNameChar).headed false isNameStart).headed true _

lemma local_nameRest (inDigits : Bool) : Local (nameRest inDigits) := by
  intro s m h
  induction inDigits, s using nameRest.induct generalizing m with
  | case1 => rw [List.take_nil]
  | case2 _ c r hc ih =>
    rw [nameRest, if_pos hc] at h ⊢
    obtain ⟨m, rfl⟩ : ∃ i, m = i + 2 := ⟨m - 2, by omega⟩
    rw [List.take_succ_cons, List.take_succ_cons, nameRest, if_pos hc, ih m (by omega)]
  | case3 _ c r hc hd ih =>
    rw [nameRest, if_neg hc, if_pos hd] at h ⊢
    obtain ⟨m, rfl⟩ : ∃ i, m = i + 2 := ⟨m - 2, by omega⟩
    rw [List.take_succ_cons, List.take_succ_cons, nameRest, if_neg hc, if_pos hd, ih m (by omega)]
  | case4 d c r hc hd =>
    have hdot : isDigit '.' = false ∧ isNameChar '.' = false := by decide
    rcases m with _ | _ | m <;> cases d <;> simp [nameRest, hc, hd, hdot]
  | case5 d c r hr hc ih =>
    have hdot : c ≠ '.' := by
      rintro rfl
      cases d <;> exact absurd hc (by decide)
    rw [nameRest_cons hdot, if_pos hc] at h ⊢
    obtain ⟨m, rfl⟩ : ∃ i, m = i + 1 := ⟨m - 1, by omega⟩
    rw [List.take_succ_cons, nameRest_cons hdot, if_pos hc, ih m (by omega)]
  | case6 d c r hr hc =>
    rw [nameRest.eq_3 _ _ _ hr, if_neg hc]
    rcases m with _ | m
    · rfl
    · have hr' : ∀ x t, c = '.' → r.take m = x :: t → False := by
        intro x t hc ht
        rcases r with _ | ⟨y, r⟩
        · simp at ht
        · exact hr y r hc rfl
      rw [List.take_succ_cons, nameRest.eq_3 _ _ _ hr', if_neg hc]

lemma name_eq : name = headed false isNameStart (nameRest false) := by
  funext s
  rcases s with _ | ⟨c, r⟩ <;> simp [name, headed]

lemma local_name : Local name := by
  rw [name_eq]
  exact (local_nameRest false).headed false _

/-- A sign has at most two characters, and of one there is no more than that. -/
lemma op_pair (c d : Char) :
    (∀ s t, op (c :: d :: s) = op (c :: d :: t)) ∧
      ∀ s, op (c :: d :: s) = 2 ∨ op (c :: d :: s) = op [c] := by
  by_cases hc : c ∈ ['<', '>', '=', '!']
  · by_cases hd : d ∈ ['=', '>']
    · simp only [List.mem_cons, List.not_mem_nil, or_false] at hc hd
      rcases hc with rfl | rfl | rfl | rfl <;> rcases hd with rfl | rfl <;> simp [op]
    · simp only [List.mem_cons, List.not_mem_nil, or_false, not_or] at hc hd
      rcases hc with rfl | rfl | rfl | rfl <;> simp [op, hd]
  · simp only [List.mem_cons, List.not_mem_nil, or_false, not_or] at hc
    simp [op, hc]

lemma local_op : Local op := by
  intro s m h
  rcases m with _ | m
  · rw [Nat.le_zero.mp h]
    rfl
  rcases s with _ | ⟨c, _ | ⟨d, r⟩⟩
  · rw [List.take_nil]
  · rw [List.take_succ_cons, List.take_nil]
  · rcases m with _ | m
    · rcases (op_pair c d).2 r with htwo | hone
      · omega
      · exact hone.symm
    · exact (op_pair c d).1 _ _

lemma punct_eq :
    punct = headed false (fun c => c ∈ ['(', ')', '[', ']', ',', '*']) fun _ => 0 := by
  funext s
  unfold punct
  split
  all_goals first
    | rfl
    | unfold headed; split <;> simp_all

lemma local_punct : Local punct := by
  rw [punct_eq]
  exact Local.headed (fun _ _ _ => rfl) false _

/-! ### The lexeme at the front -/

lemma findSome?_take {ks : List (Option TokenKind × (List Char → Nat))}
    (hks : ∀ k ∈ ks, Local k.2) {s : List Char} {kind : Option TokenKind} {n m : Nat}
    (h : ks.findSome? (fun k => if k.2 s = 0 then none else some (k.1, k.2 s)) = some (kind, n))
    (hm : n ≤ m) :
    ks.findSome? (fun k => if k.2 (s.take m) = 0 then none else some (k.1, k.2 (s.take m))) =
      some (kind, n) := by
  induction ks with
  | nil => cases h
  | cons k ks ih =>
    rw [List.forall_mem_cons] at hks
    rw [List.findSome?_cons] at h ⊢
    by_cases hk : k.2 s = 0
    · rw [if_pos hk] at h
      rw [hks.1 s m (by omega), if_pos hk]
      exact ih hks.2 h
    · rw [if_neg hk] at h
      obtain ⟨rfl, rfl⟩ : k.1 = kind ∧ k.2 s = n := by simpa using h
      rw [hks.1 s m hm, if_neg hk]

/-- **Cutting off**: a lexeme is there as well when the text is cut off behind it. -/
theorem next?_take {s : List Char} {kind : Option TokenKind} {n m : Nat}
    (h : next? s = some (kind, n)) (hm : n ≤ m) : next? (s.take m) = some (kind, n) := by
  refine findSome?_take ?_ h hm
  simp only [kinds, List.forall_mem_cons, List.not_mem_nil, false_implies, implies_true, and_true]
  exact ⟨local_blanks, local_number, local_quotedText, local_param, local_name, local_op,
    local_punct⟩

/-- What a lexeme takes is one word by itself. -/
lemma alone_of_next? {s : List Char} {kind : TokenKind} {n : Nat}
    (h : next? s = some (some kind, n)) : Word.Alone ⟨kind, String.ofList (s.take n)⟩ := by
  have hlength : (s.take n).length = n := List.length_take_of_le (le_of_next? h)
  refine lexes_of_next? ?_
  rw [String.toList_ofList, hlength]
  exact next?_take h le_rfl

end Lexeme

end NearDoc
