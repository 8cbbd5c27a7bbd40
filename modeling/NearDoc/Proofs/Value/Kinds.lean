import NearDoc.Proofs.Outcome
import NearDoc.Proofs.Value.Threshold

/-!
Values of two kinds, texts and others. Main statements: a text has no order with anything but a text
and is equal to nothing else, whatever the other value is, and keys that are numbers or texts compare
if and only if they are of one kind, but for an integer that is too large beside a number of a
floating-point type.
-/

namespace NearDoc

/-! ### Texts -/

namespace Operand

/-- What a text brings to a comparison. -/
def ofText : Operand := ⟨.text, [], [.other]⟩

variable {x y : Operand}

/-- An operand of text has no order with another. -/
lemma relate_order_text (h : x = ofText ∨ y = ofText) (r : OrderRelation) (refusal : Error) :
    x.relate (.order r) y refusal = .error refusal := by
  have hheld : (x.held = .text || y.held = .text) = true := by
    rcases h with rfl | rfl <;> simp [ofText]
  simp only [relate, Relation.isOrder, hheld, Bool.and_self, if_true]
  rfl

lemma relateItems_other {a b : Item} (h : a = .other ∨ b = .other) (r : Relation) (exact : Bool) :
    relateItems r exact a b = false := by
  rcases h with rfl | rfl
  · rfl
  · cases a <;> rfl

/-- An operand of text is equal to nothing else. -/
lemma relate_equal_text (h : x = ofText ∨ y = ofText) (refusal : Error) :
    x.relate .equal y refusal ≠ .ok true := by
  intro hok
  simp only [relate, Relation.isOrder, Bool.false_and, Bool.false_eq_true, if_false] at hok
  obtain ⟨m, hm, hok⟩ := bind_eq_ok.mp hok
  obtain ⟨n, hn, hok⟩ := bind_eq_ok.mp hok
  have hitems : m = [.other] ∨ n = [.other] := by
    rcases h with rfl | rfl
    · cases hm
      exact .inl rfl
    · cases hn
      exact .inr rfl
  split at hok
  · cases hok
  · split at hok
    · cases hok
    · -- only single items meet
      rcases m with _ | ⟨a, _ | ⟨_, _⟩⟩ <;> rcases n with _ | ⟨b, _ | ⟨_, _⟩⟩ <;> try cases hok
      have hother : a = .other ∨ b = .other := by simpa using hitems
      simp only [relateItems_other hother] at hok
      cases hok

/-! ### Numbers -/

/-- What a number of a real type brings to a comparison. -/
def ofScalar (s : TypedScalar) : Operand := ⟨.typed s.element, [], [.number s.number]⟩

/-- Two operands of one number each compare, unless one of them cannot be brought to the type of the
other. -/
lemma relate_meets {Q : Error → Prop} (hheld : x.held ≠ .text ∧ y.held ≠ .text)
    (hshape : x.shape = [] ∧ y.shape = []) (hm : Meets Q (∃ m, · = [.number m]) (align x y))
    (hn : Meets Q (∃ n, · = [.number n]) (align y x)) (r : Relation) (refusal : Error) :
    Meets Q (fun _ => True) (x.relate r y refusal) := by
  have hplain : (r.isOrder && (x.held = .text || y.held = .text)) = false := by simp [hheld]
  have hmeet : Shape.meet? [] [] = some [] := rfl
  rw [relate, hplain, hshape.1, hshape.2, hmeet]
  refine hm.bind fun items hitems => hn.bind fun items' hitems' => ?_
  obtain ⟨m, rfl⟩ := hitems
  obtain ⟨n, rfl⟩ := hitems'
  cases r <;> exact trivial

end Operand

namespace Value

def isText : Value → Bool
  | .text _ => true
  | _ => false

variable {a b : Value}

lemma ofValue_of_isText (h : a.isText = true) : Operand.ofValue a = .ok .ofText := by
  cases a <;> first | rfl | cases h

/-- Of two values one is a text, if they are of two kinds. -/
lemma isText_or (h : a.isText ≠ b.isText) : a.isText = true ∨ b.isText = true := by
  rcases ha : a.isText with _ | _
  · exact .inr (by simpa [ha] using h)
  · exact .inl rfl

section

variable (h : a.isText = true ∨ b.isText = true)
include h

lemma operands_of_isText {x y : Operand} (hx : Operand.ofValue a = .ok x)
    (hy : Operand.ofValue b = .ok y) : x = .ofText ∨ y = .ofText := by
  refine h.imp (fun ha => ?_) fun hb => ?_
  · exact Except.ok.inj (hx.symm.trans (ofValue_of_isText ha))
  · exact Except.ok.inj (hy.symm.trans (ofValue_of_isText hb))

lemma relateDeclared_order_text (r : OrderRelation) (c : Bool) :
    relateDeclared (.order r) a b ≠ .ok c := by
  intro hok
  obtain ⟨x, hx, hok⟩ := bind_eq_ok.mp hok
  obtain ⟨y, hy, hok⟩ := bind_eq_ok.mp hok
  have htext := operands_of_isText h hx hy
  split at hok
  · rw [Operand.relate_order_text htext] at hok
    cases hok
  · rw [Relation.converse, Operand.relate_order_text htext.symm] at hok
    cases hok

lemma relateDeclared_equal_text : relateDeclared .equal a b ≠ .ok true := by
  intro hok
  obtain ⟨x, hx, hok⟩ := bind_eq_ok.mp hok
  obtain ⟨y, hy, hok⟩ := bind_eq_ok.mp hok
  have htext := operands_of_isText h hx hy
  split at hok
  · exact Operand.relate_equal_text htext _ hok
  · exact Operand.relate_equal_text htext.symm _ hok

end

/-- **Order**: where two values have an order, both are texts or none is. -/
theorem isText_of_lt {c : Bool} (h : a.lt b = .ok c) : a.isText = b.isText := by
  by_contra hne
  have hdeclared := relateDeclared_order_text (isText_or hne) .lt c
  cases a <;> cases b <;> first
    | exact hne rfl
    | cases h
    | exact hdeclared h

/-- **Equality**: of two equal values both are texts or none is. -/
theorem isText_of_eqv (h : a.eqv b = .ok true) : a.isText = b.isText := by
  by_contra hne
  have hdeclared := relateDeclared_equal_text (isText_or hne)
  cases a <;> cases b <;> first
    | exact hne rfl
    | cases h
    | exact hdeclared h

/-! ### Keys -/

/-- Numbers that have a place, of a declared type or of none. -/
def IsNumeral (v : Value) : Prop := ∃ n, v.numeral? = some n ∧ n.HasPlace

/-- Numbers that have a place, and texts. -/
def IsKey (v : Value) : Prop := v.IsNumeral ∨ v.IsText

/-- An integer that is too large beside a number of a floating-point type. -/
def Overflows (a b : Value) : Prop :=
  ∃ i s, a = .int i ∧ b = .scalar s ∧ s.element.isFloating = true ∧
    (Binary64.ofInt i).isFinite = false

/-- A comparison fails since one of two values is too large beside the other. -/
def TooLarge (a b : Value) (e : Error) : Prop :=
  e = .integerTooLarge ∧ (a.Overflows b ∨ b.Overflows a)

lemma IsText.isText (h : a.IsText) : a.isText = true := by
  obtain ⟨s, rfl⟩ := h
  rfl

lemma IsNumeral.isText (h : a.IsNumeral) : a.isText = false := by
  obtain ⟨n, hn, -⟩ := h
  cases a <;> first | rfl | cases hn

lemma isNumeral_int (i : Int) : (Value.int i).IsNumeral := ⟨.int i, rfl, _, rfl⟩

/-- A number is of no declared type, or of a real one. -/
lemma IsNumeral.cases (h : a.IsNumeral) :
    (∃ n, a.number? = some n) ∨ ∃ s, a = .scalar s ∧ s.element.isReal = true := by
  obtain ⟨n, hn, -⟩ := h
  cases a with
  | scalar s =>
    refine .inr ⟨s, rfl, ?_⟩
    by_contra hreal
    simp [numeral?, number?, realNumber?, hreal] at hn
  | bool | int | real => exact .inl ⟨_, rfl⟩
  | _ => cases hn

/-! ### Numbers beside numbers -/

section

variable {s : TypedScalar}

lemma lt_of_declared (h : (a.isDeclared || b.isDeclared) = true) :
    a.lt b = relateDeclared (.order .lt) a b := by
  unfold lt relate
  split
  · cases h
  · cases h
  · unfold relateFlat
    exact if_pos h

lemma eqv_of_declared (h : (a.isDeclared || b.isDeclared) = true) :
    a.eqv b = relateDeclared .equal a b := by
  unfold eqv
  split
  · cases h
  · cases h
  · cases h
  · unfold eqFlat
    exact if_pos h

lemma ofValue_scalar (hs : s.element.isReal = true) :
    Operand.ofValue (.scalar s) = .ok (.ofScalar s) := by
  obtain ⟨t, n⟩ := s
  cases t <;> first | rfl | cases hs

/-- A number is brought to a real type, but for an integer that is too large. -/
lemma toType_meets (hs : s.element.isReal = true) (i : Int) :
    Meets ((Value.int i).TooLarge (.scalar s)) (fun _ => True)
      (Operand.toType s.element (.int i)) := by
  have hbool : s.element ≠ .bool := fun h => by simp [h, ElementType.isReal] at hs
  rcases hfloat : s.element.isFloating with _ | _
  · simp [Operand.toType, hfloat, hbool, Meets]
  · rcases hfinite : (Binary64.ofInt i).isFinite with _ | _
    · simp only [Operand.toType, hfloat, hfinite, if_true, Bool.false_eq_true, if_false]
      exact ⟨rfl, .inl ⟨i, s, rfl, rfl, hfloat, hfinite⟩⟩
    · simp [Operand.toType, hfloat, hfinite, Meets]

/-- A number beside one of a declared type is a single number. -/
lemma exists_aligned (ha : a.IsNumeral) (hs : s.element.isReal = true) :
    ∃ x, Operand.ofValue a = .ok x ∧ x.held ≠ .text ∧ x.shape = [] ∧
      Meets (a.TooLarge (.scalar s)) (∃ m, · = [.number m])
        (x.align (.ofScalar s)) := by
  obtain ⟨m, hm⟩ | ⟨s', rfl, hs'⟩ := ha.cases
  · cases a with
    | bool b => exact ⟨_, rfl, by simp [Operand.ofItem], rfl, .of_ok ⟨_, rfl⟩⟩
    | real x => exact ⟨_, rfl, by simp, rfl, .of_ok ⟨_, rfl⟩⟩
    | int i =>
      refine ⟨_, rfl, by simp, rfl, ?_⟩
      have htype := toType_meets hs i
      simp only [Operand.align, Operand.ofItem, Operand.ofScalar, List.mapM_cons, List.mapM_nil]
      rcases hn : Operand.toType s.element (.int i) with e | n
      · exact htype.error hn
      · exact .of_ok ⟨n, rfl⟩
    | _ => cases hm
  · exact ⟨_, ofValue_scalar hs', by simp [Operand.ofScalar], rfl, .of_ok ⟨_, rfl⟩⟩

/-- A number compares with one of a declared type, on either side. -/
lemma relateDeclared_meets (ha : a.IsNumeral) (hs : s.element.isReal = true) (r : Relation) :
    Meets (a.TooLarge (.scalar s)) (fun _ => True) (relateDeclared r a (.scalar s)) ∧
      Meets (a.TooLarge (.scalar s)) (fun _ => True) (relateDeclared r (.scalar s) a) := by
  obtain ⟨x, hx, hheld, hshape, halign⟩ := exists_aligned ha hs
  have hscalar : (Operand.ofScalar s).held ≠ .text := by simp [Operand.ofScalar]
  have hback : Meets (a.TooLarge (.scalar s)) (∃ n, · = [.number n])
      ((Operand.ofScalar s).align x) := .of_ok ⟨_, rfl⟩
  have hfront (r : Relation) (refusal : Error) :
      Meets (a.TooLarge (.scalar s)) (fun _ => True) (x.relate r (.ofScalar s) refusal) :=
    Operand.relate_meets ⟨hheld, hscalar⟩ ⟨hshape, rfl⟩ halign hback r refusal
  have hbehind (r : Relation) (refusal : Error) :
      Meets (a.TooLarge (.scalar s)) (fun _ => True) ((Operand.ofScalar s).relate r x refusal) :=
    Operand.relate_meets ⟨hscalar, hheld⟩ ⟨rfl, hshape⟩ hback halign r refusal
  simp only [relateDeclared, hx, ofValue_scalar hs, Bind.bind, Except.bind]
  refine ⟨?_, hbehind r _⟩
  split
  · exact hfront r _
  · exact hbehind r.converse _

lemma TooLarge.symm {e : Error} (h : a.TooLarge b e) : b.TooLarge a e := ⟨h.1, h.2.symm⟩

/-- Numbers have an order and are equal or not, unless one is too large beside the other. -/
lemma IsNumeral.compares (ha : a.IsNumeral) (hb : b.IsNumeral) {e : Error}
    (h : a.eqv b = .error e ∨ a.lt b = .error e) : a.TooLarge b e := by
  obtain ⟨n, hn⟩ | ⟨s, rfl, hs⟩ := hb.cases
  · obtain ⟨m, hm⟩ | ⟨s, rfl, hs⟩ := ha.cases
    · rw [eqv_of_number? hm hn, lt_of_number? hm hn] at h
      rcases h with h | h <;> cases h
    · rw [eqv_of_declared rfl, lt_of_declared rfl] at h
      have hmeets := fun r => (relateDeclared_meets hb hs r).2
      exact .symm (h.elim (hmeets _).error (hmeets _).error)
  · have hscalar : (a.isDeclared || (Value.scalar s).isDeclared) = true := Bool.or_true _
    rw [eqv_of_declared hscalar, lt_of_declared hscalar] at h
    have hmeets := fun r => (relateDeclared_meets ha hs r).1
    exact h.elim (hmeets _).error (hmeets _).error

end

/-! ### Numbers beside texts -/

/-- A comparison of a number and a text fails as one that has no order. -/
lemma IsNumeral.beside_text (ha : a.IsNumeral) (t : String) {e : Error} :
    (a.eqv (.text t) = .error e ∨ a.lt (.text t) = .error e → ∃ u v, e = .incomparable "<" u v) ∧
      ((Value.text t).eqv a = .error e ∨ (Value.text t).lt a = .error e →
        ∃ u v, e = .incomparable "<" u v) := by
  have hfails {v w : Value} {u u' : String} (heqv : v.eqv w = .ok false)
      (hlt : v.lt w = .error (.incomparable "<" u u')) :
      v.eqv w = .error e ∨ v.lt w = .error e → ∃ u v, e = .incomparable "<" u v := by
    rw [heqv, hlt]
    rintro (h | h) <;> cases h
    exact ⟨_, _, rfl⟩
  obtain ⟨n, hn⟩ | ⟨⟨element, n⟩, rfl, hs⟩ := ha.cases
  · cases a with
    | bool | int | real => exact ⟨hfails rfl rfl, hfails rfl rfl⟩
    | _ => cases hn
  · cases element with
    | int | uint | float => exact ⟨hfails rfl rfl, hfails rfl rfl⟩
    | _ => cases hs

/-- A comparison of keys that fails is one of a number with a text, and it is told as such, or of an
integer with a number that it is too large for. -/
lemma error_of_isKey (ha : a.IsKey) (hb : b.IsKey) {e : Error}
    (h : a.eqv b = .error e ∨ a.lt b = .error e) :
    (a.isText ≠ b.isText ∧ ∃ s t, e = .incomparable "<" s t) ∨ a.TooLarge b e := by
  rcases ha with hnumber | ⟨s, rfl⟩ <;> rcases hb with hnumber' | ⟨t, rfl⟩
  · exact .inr (hnumber.compares hnumber' h)
  · refine .inl ⟨fun hsame => ?_, (hnumber.beside_text t).1 h⟩
    cases hnumber.isText.symm.trans hsame
  · refine .inl ⟨fun hsame => ?_, (hnumber'.beside_text s).2 h⟩
    cases hsame.trans hnumber'.isText
  · rcases h with h | h <;> cases h

end Value

end NearDoc
