import NearDoc.Proofs.Value.Ordered

/-!
Real numbers beside a threshold, which may be of a declared type. Main statement: a real number
compares with every numeral as two numbers do that have places if the two have them, so that what
is not above a threshold is at most the threshold.
-/

namespace NearDoc

/-! ### Relations of numbers -/

namespace Number

/-- A number that is somewhere on the number line or at one of its ends: any that is not NaN. -/
def HasPlace (n : Number) : Prop := ∃ p, n.place? = some p

variable {a b : Number}

lemma eq_swap (a b : Number) : a.eq b = b.eq a := by
  unfold eq
  rcases a.place? with _ | p <;> rcases b.place? with _ | q
  · rfl
  · rfl
  · rfl
  · exact decide_eq_decide.mpr ⟨Eq.symm, Eq.symm⟩

end Number

namespace OrderRelation

variable {a b : Number}

lemma ofNumbers_converse (r : OrderRelation) (a b : Number) :
    r.converse.ofNumbers b a = r.ofNumbers a b := by
  cases r <;> simp [converse, ofNumbers, Number.eq_swap b a]

/-- Of two numbers that have places the first is at most the second or above it. -/
lemma ofNumbers_le (ha : a.HasPlace) (hb : b.HasPlace) :
    OrderRelation.le.ofNumbers a b = !OrderRelation.gt.ofNumbers a b := by
  obtain ⟨p, hp⟩ := ha
  obtain ⟨q, hq⟩ := hb
  simp only [ofNumbers, Number.lt, Number.eq, hp, hq]
  rcases hqp : q.lt p with _ | _
  · rcases hpq : p.lt q with _ | _
    · simp [Place.eq_iff.mpr ⟨hqp, hpq⟩]
    · simp
  · have hne : p ≠ q := by
      rintro rfl
      cases (Place.lt_asymm hqp).symm.trans hqp
    simp [Place.lt_asymm hqp, hne]

end OrderRelation

/-! ### Numbers of a declared type -/

namespace Binary64

lemma exists_place_roundTo (f : Number.Format) (negative : Bool) (num den : Nat) :
    ∃ p, (roundTo f negative num den).place? = some p := by
  unfold roundTo
  dsimp only
  split <;> exact ⟨_, rfl⟩

lemma exists_place_ofInt (i : Int) : ∃ p, (ofInt i).place? = some p := by
  unfold ofInt ofUnits
  exact exists_place_roundTo ..

lemma exists_place_narrow {x : Binary64} (f : Number.Format) (h : ∃ p, x.place? = some p) :
    ∃ p, (x.narrow f).place? = some p := by
  cases x with
  | finite negative units => exact exists_place_roundTo f negative units 1
  | infinite | nan => exact h

end Binary64

namespace Number

lemma HasPlace.toReal {n : Number} (h : n.HasPlace) : (Number.real n.toReal).HasPlace := by
  cases n with
  | int i => exact Binary64.exists_place_ofInt i
  | real x => exact h

end Number

namespace Value

/-- The number that a value is, of a declared type or of none. Truth values count. -/
def numeral? (v : Value) : Option Number := v.number?.or v.realNumber?

lemma relate_of_number? {a b : Value} {m n : Number} (ha : a.number? = some m)
    (hb : b.number? = some n) (r : OrderRelation) : a.relate r b = .ok (r.ofNumbers m n) := by
  cases a <;> cases b <;> simp_all [relate, relateFlat, isDeclared, number?]

/-- Beside a number of a declared type a real number is brought to that type. -/
def besideScalar (t : ElementType) (x : Binary64) : Binary64 :=
  if t.isFloating then x.narrow t.format else x

/-- A number of a declared type beside a real number that stands alone. -/
lemma relate_single (r : OrderRelation) {t : ElementType} {n : Number} {x y : Binary64}
    (h : Operand.toType t (.real x) = .ok (.real y)) (refusal : Error) :
    Operand.relate (.order r) ⟨.typed t, [], [.number n]⟩ ⟨.plain, [], [.number (.real x)]⟩ refusal =
      .ok (r.ofNumbers (.real n.toReal) (.real y)) := by
  have hplain : Operand.align ⟨.plain, [], [.number (.real x)]⟩ ⟨.typed t, [], [.number n]⟩ =
      .ok [.number (.real y)] := by
    simp only [Operand.align, List.mapM_cons, List.mapM_nil, h]
    rfl
  have htyped : Operand.align ⟨.typed t, [], [.number n]⟩ ⟨.plain, [], [.number (.real x)]⟩ =
      .ok [.number n] := rfl
  have hitems : Operand.relateItems (.order r) false (.number n) (.number (.real y)) =
      r.ofNumbers (.real n.toReal) (.real y) := by
    cases n <;>
    simp only [Operand.relateItems, Item.number?, Operand.besideReal, Number.toReal,
      Relation.ofNumbers, Bool.false_eq_true, if_false]
  rw [Operand.relate, hplain, htyped, ← hitems]
  cases r <;> rfl

lemma relate_scalar {s : TypedScalar} (hs : s.element.isReal = true) (x : Binary64)
    (r : OrderRelation) :
    (Value.real x).relate r (.scalar s) =
      .ok (r.ofNumbers (.real (besideScalar s.element x)) (.real s.number.toReal)) := by
  obtain ⟨t, n⟩ := s
  have hheld : Held.ofType t = .typed t ∧ Item.ofElement t n = .number n := by
    cases t with
    | int | uint | float => exact ⟨rfl, rfl⟩
    | bool | complex | other => cases hs
  have hscalar : Operand.ofValue (.scalar ⟨t, n⟩) = .ok ⟨.typed t, [], [.number n]⟩ := by
    rw [← hheld.1, ← hheld.2]
    rfl
  rw [← OrderRelation.ofNumbers_converse]
  change relateDeclared (.order r) (.real x) (.scalar ⟨t, n⟩) = _
  rw [relateDeclared, hscalar]
  exact relate_single r.converse rfl (.incomparable r.symbol (Value.real x).typeName t.name)

/-- **Thresholds**: a real number compares with a numeral as two numbers do, and these have places
if the two have. -/
theorem exists_relate_numeral {v : Value} {n : Number} (hv : v.numeral? = some n) (x : Binary64) :
    ∃ a b : Number, (∀ r, (Value.real x).relate r v = .ok (r.ofNumbers a b)) ∧
      ((Number.real x).HasPlace → n.HasPlace → a.HasPlace ∧ b.HasPlace) := by
  unfold numeral? at hv
  rcases hplain : v.number? with _ | m
  · rw [hplain, Option.none_or] at hv
    cases v with
    | scalar s =>
      simp only [realNumber?] at hv
      split_ifs at hv with hreal
      obtain rfl : s.number = n := Option.some.inj hv
      refine ⟨_, _, relate_scalar hreal x, fun hx hn => ⟨?_, hn.toReal⟩⟩
      unfold besideScalar
      split
      · exact Binary64.exists_place_narrow _ hx
      · exact hx
    | int | real => cases hplain
    | _ => cases hv
  · rw [hplain] at hv
    cases hv
    exact ⟨.real x, n, relate_of_number? rfl hplain, fun hx hn => ⟨hx, hn⟩⟩

end Value

end NearDoc
