import NearDoc.Expr.Eval
import NearDoc.Proofs.Value.Trichotomy

/-!
Comparisons of the values that JSON has, NaN left out. Main statement: the comparators are coherent.
They turn around, one negates the other, one and only one of before, equal and behind is true where
there is an order at all, and what the order is: of numbers that of their exact values, of texts that
of their code points, of lists that of the first unequal items.
-/

namespace NearDoc

open Value

namespace Comparator

/-- What a comparator says of two values, the first before, at or behind the second. -/
def ofOrdering (c : Comparator) (o : Ordering) : Bool :=
  match c with
  | .equal _ => o == .eq
  | .unequal _ => o != .eq
  | .order r => r.ofOrdering o

/-- A comparison is true. -/
def Says (c : Comparator) (a b : Value) : Prop := c.decide a b = .ok (.bool true)

variable {a b x y : Value} {o : Ordering} {xs ys : List Value}

lemma decide_of_null (h : a = .null ∨ b = .null) (c : Comparator) :
    c.decide a b = .ok .undefined := by
  rcases h with rfl | rfl
  · cases b <;> rfl
  · cases a <;> rfl

lemma decide_of_apply {c : Comparator} (ha : a.IsJson) (hb : b.IsJson)
    (h : ¬(a = .null ∨ b = .null)) :
    c.decide a b =
      match c.apply a b with
      | .ok r => .ok (.bool r)
      | .error e =>
        if e.errorClass.isA .typeError || e.errorClass.isA .valueError then .ok .undefined
        else .error e := by
  unfold decide
  split
  · exact ha.self.elim
  · exact hb.self.elim
  · exact absurd (.inl rfl) h
  · exact absurd (.inr rfl) h
  · rfl

lemma decide_of_ranked (ha : a.IsJson) (hb : b.IsJson) (h : ¬(a = .null ∨ b = .null))
    (hrank : Ranked a b o) (c : Comparator) : c.decide a b = .ok (.bool (c.ofOrdering o)) := by
  have happly : c.apply a b = .ok (c.ofOrdering o) := by
    cases c with
    | equal => exact hrank.equal
    | unequal =>
      rw [apply, hrank.equal]
      rfl
    | order r => exact hrank.relate r
  rw [decide_of_apply ha hb h, happly]

lemma says_of_ranked (ha : a.IsJson) (hb : b.IsJson) (h : ¬(a = .null ∨ b = .null))
    (hrank : Ranked a b o) (c : Comparator) : Says c a b ↔ c.ofOrdering o = true := by
  rw [Says, decide_of_ranked ha hb h hrank, Except.ok.injEq, Value.bool.injEq]

/-- A relation of order that does not hold of two values for want of an order decides nothing. -/
lemma decide_order (ha : a.IsJson) (hb : b.IsJson) (r : OrderRelation) :
    (order r).decide a b =
      match a.relate r b with
      | .ok holds => .ok (.bool holds)
      | .error _ => .ok .undefined := by
  by_cases h : a = .null ∨ b = .null
  · rw [decide_of_null h]
    rcases h with rfl | rfl
    · cases b <;> first | rfl | exact hb.self.elim
    · cases a <;> first | rfl | exact ha.self.elim
  · rw [decide_of_apply ha hb h, apply]
    rcases ranks_of_isJson ha hb with ⟨o, hab, -⟩ | ⟨hab, -⟩
    · rw [hab.relate r]
    · obtain ⟨s, t, hrelate⟩ := hab r
      rw [hrelate]
      rfl

/-- Where before is decided there is an order. -/
lemma exists_ranked (ha : a.IsJson) (hb : b.IsJson)
    (h : (order .lt).decide a b ≠ .ok .undefined) :
    ¬(a = .null ∨ b = .null) ∧ ∃ o, Ranked a b o := by
  refine ⟨fun hnull => h (decide_of_null hnull _), ?_⟩
  rcases ranks_of_isJson ha hb with ⟨o, hab, -⟩ | ⟨hab, -⟩
  · exact ⟨o, hab⟩
  · obtain ⟨s, t, hrelate⟩ := hab .lt
    rw [decide_order ha hb, hrelate] at h
    contradiction

lemma decide_converse (ha : a.IsJson) (hb : b.IsJson) (r : OrderRelation) :
    (order r).decide a b = (order r.converse).decide b a := by
  rw [decide_order ha hb, decide_order hb ha]
  rcases ranks_of_isJson ha hb with ⟨o, hab, hba⟩ | ⟨hab, hba⟩
  · have hswap : r.converse.ofOrdering o.swap = r.ofOrdering o := by cases r <;> cases o <;> rfl
    rw [hab.relate, hba.relate, hswap]
  · obtain ⟨s, t, hforth⟩ := hab r
    obtain ⟨u, v, hback⟩ := hba r.converse
    rw [hforth, hback]

lemma decide_unequal (ha : a.IsJson) (hb : b.IsJson) (angled doubled : Bool) :
    (unequal angled).decide a b = ((equal doubled).decide a b).map Expr.negate := by
  by_cases h : a = .null ∨ b = .null
  · rw [decide_of_null h, decide_of_null h]
    rfl
  · obtain ⟨r, hr⟩ := exists_eqv ha.settled hb.settled
    rw [decide_of_apply ha hb h, decide_of_apply ha hb h, apply, apply, hr]
    rfl

lemma decide_cases (ha : a.IsJson) (hb : b.IsJson) (c : Comparator) :
    c.decide a b = .ok .undefined ∨ ∃ r, c.decide a b = .ok (.bool r) := by
  by_cases h : a = .null ∨ b = .null
  · exact .inl (decide_of_null h c)
  · cases c with
    | order r =>
      rw [decide_order ha hb]
      rcases a.relate r b with _ | holds
      · exact .inl rfl
      · exact .inr ⟨holds, rfl⟩
    | equal | unequal =>
      obtain ⟨r, hr⟩ := exists_eqv ha.settled hb.settled
      rw [decide_of_apply ha hb h, apply, hr]
      exact .inr ⟨_, rfl⟩

/-! ### Numbers, texts and lists -/

lemma decide_number {m n : Number} (ha : a.IsJson) (hb : b.IsJson) (hm : a.number? = some m)
    (hn : b.number? = some n) : ∃ p q, m.rational? = some p ∧ n.rational? = some q ∧
      ∀ c : Comparator, c.decide a b = .ok (.bool (c.ofOrdering (compare p q))) := by
  obtain ⟨p, hp⟩ := Number.exists_rational (ha.hasPlace hm)
  obtain ⟨q, hq⟩ := Number.exists_rational (hb.hasPlace hn)
  have hnull : ¬(a = .null ∨ b = .null) := by
    rintro (rfl | rfl)
    · cases hm
    · cases hn
  exact ⟨p, q, hp, hq, decide_of_ranked ha hb hnull (ranked_number hm hn hp hq)⟩

lemma decide_text (s t : String) (c : Comparator) : c.decide (.text s) (.text t) =
    .ok (.bool (c.ofOrdering (compare (s.toList.map Char.toNat) (t.toList.map Char.toNat)))) := by
  have hjson : ∀ s, (Value.text s).IsJson := fun s => by simp [IsJson, parts, IsJsonNode]
  rw [← Text.compareCodes_eq]
  exact decide_of_ranked (hjson s) (hjson t) (by simp) (ranked_text s t) c

lemma decide_list (ha : (list xs).IsJson) (hb : (list ys).IsJson) :
    (∃ x y, Differ xs ys x y ∧
      (∀ r : OrderRelation, (order r).decide (.list xs) (.list ys) = (order r).decide x y) ∧
      ∀ doubled : Bool, (equal doubled).decide (.list xs) (.list ys) = .ok (.bool false)) ∨
    Agree xs ys ∧ ∀ c : Comparator,
      c.decide (.list xs) (.list ys) =
        .ok (.bool (c.ofOrdering (compare xs.length ys.length))) := by
  have hnull : ¬(list xs = .null ∨ list ys = .null) := by simp
  have hxs : ∀ x ∈ xs, x.Settled := fun x hx => ha.settled.held hx
  have hys : ∀ y ∈ ys, y.Settled := fun y hy => hb.settled.held hy
  rcases agree_or_differ hxs hys with hagree | ⟨x, y, hdiffer⟩
  · have hrank : Ranked (.list xs) (.list ys) (compare xs.length ys.length) :=
      ⟨hagree.relateList hxs, hagree.eqv_list ha.settled hb.settled⟩
    exact .inr ⟨hagree, decide_of_ranked ha hb hnull hrank⟩
  · refine .inl ⟨x, y, hdiffer, fun r => ?_, fun doubled => ?_⟩
    · rw [decide_order ha hb, hdiffer.relateList hxs,
        decide_order (ha.held hdiffer.mem.1) (hb.held hdiffer.mem.2)]
    · rw [decide_of_apply ha hb hnull, apply, hdiffer.eqv_list ha.settled hb.settled]

lemma says_lt_trans_number {d : Value} (ha : a.IsJson) (hb : b.IsJson) (hd : d.IsJson)
    (hnumber : ∀ v ∈ [a, b, d], v.number?.isSome) (hab : Says (order .lt) a b)
    (hbd : Says (order .lt) b d) : Says (order .lt) a d := by
  obtain ⟨k, hk⟩ := Option.isSome_iff_exists.mp (hnumber a (by simp))
  obtain ⟨m, hm⟩ := Option.isSome_iff_exists.mp (hnumber b (by simp))
  obtain ⟨n, hn⟩ := Option.isSome_iff_exists.mp (hnumber d (by simp))
  obtain ⟨p, q, hp, hq, hpq⟩ := decide_number ha hb hk hm
  obtain ⟨q', r, hq', hr, hqr⟩ := decide_number hb hd hm hn
  obtain ⟨p', r', hp', hr', hpr⟩ := decide_number ha hd hk hn
  obtain rfl : q = q' := Option.some.inj (hq.symm.trans hq')
  obtain rfl : p = p' := Option.some.inj (hp.symm.trans hp')
  obtain rfl : r = r' := Option.some.inj (hr.symm.trans hr')
  simp only [Says, hpq, hqr, hpr, ofOrdering, OrderRelation.ofOrdering, Except.ok.injEq,
    Value.bool.injEq, Ordering.isLT_iff_eq_lt, compare_lt_iff_lt] at hab hbd ⊢
  exact hab.trans hbd

lemma says_lt_trans_text {d : Value} (htext : ∀ v ∈ [a, b, d], v.IsText)
    (hab : Says (order .lt) a b) (hbd : Says (order .lt) b d) : Says (order .lt) a d := by
  obtain ⟨s, rfl⟩ := htext a (by simp)
  obtain ⟨t, rfl⟩ := htext b (by simp)
  obtain ⟨u, rfl⟩ := htext d (by simp)
  simp only [Says, decide_text, ofOrdering, OrderRelation.ofOrdering, Except.ok.injEq,
    Value.bool.injEq, Ordering.isLT_iff_eq_lt] at hab hbd ⊢
  exact Std.TransCmp.lt_trans hab hbd

/-! ### What the comparators say together -/

/-- What the comparators say of two values is of one piece. -/
structure Coherent (a b : Value) : Prop where
  /-- An expression that compares has for a value what its comparator says of its operands. -/
  evaluated : ∀ (env : Environment) (document : Value) (left right : Expr) (c : Comparator),
    left.eval env document = .ok a → right.eval env document = .ok b →
    (Expr.compare c left right).eval env document = c.decide a b
  /-- The outcome is true, false or undefined, never a failure. -/
  decided : ∀ c : Comparator, c.decide a b = .ok .undefined ∨ ∃ r, c.decide a b = .ok (.bool r)
  /-- Null decides nothing. -/
  null : a = .null ∨ b = .null → ∀ c : Comparator, c.decide a b = .ok .undefined
  /-- Before turns around into behind, at most into at least. -/
  turned : ∀ r : OrderRelation, (order r).decide a b = (order r.converse).decide b a
  /-- Unequal negates equal, in all their spellings. -/
  negated : ∀ angled doubled : Bool,
    (unequal angled).decide a b = ((equal doubled).decide a b).map Expr.negate
  /-- Where there is an order, one and only one of before, equal and behind is true. -/
  trichotomy : (order .lt).decide a b ≠ .ok .undefined → ∀ doubled : Bool,
    Says (order .lt) a b ∧ ¬Says (equal doubled) a b ∧ ¬Says (order .gt) a b ∨
    ¬Says (order .lt) a b ∧ Says (equal doubled) a b ∧ ¬Says (order .gt) a b ∨
    ¬Says (order .lt) a b ∧ ¬Says (equal doubled) a b ∧ Says (order .gt) a b
  /-- Where there is an order, at most is before or equal. -/
  atMost : (order .lt).decide a b ≠ .ok .undefined → ∀ doubled : Bool,
    (Says (order .le) a b ↔ Says (order .lt) a b ∨ Says (equal doubled) a b)
  /-- Where there is an order, at least is behind or equal. -/
  atLeast : (order .lt).decide a b ≠ .ok .undefined → ∀ doubled : Bool,
    (Says (order .ge) a b ↔ Says (order .gt) a b ∨ Says (equal doubled) a b)
  /-- Numbers compare as the rational numbers, or ends of the number line, that they are. -/
  numbers : ∀ m n, a.number? = some m → b.number? = some n →
    ∃ p q, m.rational? = some p ∧ n.rational? = some q ∧
      ∀ c : Comparator, c.decide a b = .ok (.bool (c.ofOrdering (compare p q)))
  /-- Texts compare as the lists of their code points. -/
  texts : ∀ s t, a = .text s → b = .text t → ∀ c : Comparator,
    c.decide a b =
      .ok (.bool (c.ofOrdering (compare (s.toList.map Char.toNat) (t.toList.map Char.toNat))))
  /-- Lists are ordered as their first unequal items are, if at all, and are not equal; without
  unequal items they compare as their lengths do. -/
  lists : ∀ xs ys, a = .list xs → b = .list ys →
    (∃ x y, Differ xs ys x y ∧
      (∀ r : OrderRelation, (order r).decide a b = (order r).decide x y) ∧
      ∀ doubled : Bool, (equal doubled).decide a b = .ok (.bool false)) ∨
    Agree xs ys ∧ ∀ c : Comparator,
      c.decide a b = .ok (.bool (c.ofOrdering (compare xs.length ys.length)))
  /-- Before is transitive among numbers and among texts. -/
  transitive : ∀ d : Value, d.IsJson →
    (∀ v ∈ [a, b, d], v.number?.isSome) ∨ (∀ v ∈ [a, b, d], v.IsText) →
    Says (order .lt) a b → Says (order .lt) b d → Says (order .lt) a d

/-- **Comparators** are coherent on values of JSON without NaN. -/
theorem coherent (ha : a.IsJson) (hb : b.IsJson) : Coherent a b where
  evaluated := by
    intro env document left right c hleft hright
    rw [Expr.eval, hleft, hright]
    cases a with
    | undefined => exact ha.self.elim
    | _ => rfl
  decided := decide_cases ha hb
  null := decide_of_null
  turned := decide_converse ha hb
  negated := decide_unequal ha hb
  trichotomy := by
    intro h doubled
    obtain ⟨hnull, o, hrank⟩ := exists_ranked ha hb h
    simp only [says_of_ranked ha hb hnull hrank]
    cases o <;> simp [ofOrdering, OrderRelation.ofOrdering]
  atMost := by
    intro h doubled
    obtain ⟨hnull, o, hrank⟩ := exists_ranked ha hb h
    simp only [says_of_ranked ha hb hnull hrank]
    cases o <;> simp [ofOrdering, OrderRelation.ofOrdering]
  atLeast := by
    intro h doubled
    obtain ⟨hnull, o, hrank⟩ := exists_ranked ha hb h
    simp only [says_of_ranked ha hb hnull hrank]
    cases o <;> simp [ofOrdering, OrderRelation.ofOrdering]
  numbers _ _ := decide_number ha hb
  texts := by
    rintro s t rfl rfl c
    exact decide_text s t c
  lists := by
    rintro xs ys rfl rfl
    exact decide_list ha hb
  transitive := by
    rintro d hd (hnumber | htext)
    · exact says_lt_trans_number ha hb hd hnumber
    · exact says_lt_trans_text htext

/-- Two lists of mixed values; the first unequal items are an integer and the real number that it
would be rounded to. -/
theorem coherent_mixed :
    let a : Value := .list [.null, .object [("k", .bool true)], .int (2 ^ 53 + 1), .text "b"]
    let b : Value := .list [.null, .object [("k", .int 1)], .real (.ofInt (2 ^ 53)), .int 7]
    a.IsJson ∧ b.IsJson ∧ Coherent a b := by
  intro a b
  have hplace : ∀ i, (Number.real (.ofInt i)).HasPlace := Binary64.exists_place_ofInt
  have ha : a.IsJson := by
    simp [a, IsJson, parts, partsList, partsFields, IsJsonNode]
  have hb : b.IsJson := by
    simp [b, IsJson, parts, partsList, partsFields, IsJsonNode, hplace]
  exact ⟨ha, hb, coherent ha hb⟩

end Comparator

end NearDoc
