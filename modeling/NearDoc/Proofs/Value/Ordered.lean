import NearDoc.Proofs.Sort.Basic
import NearDoc.Value.Hash

/-!
Keys that have an order. Values of a kind are keys in order when `lt` is decided on them, puts
them in a total order and agrees with equality. Numbers that have a place on the number line are
such a kind, and so are texts.
-/

namespace NearDoc

open NearDoc.Sort

namespace Value

/-- `a` does not come after `b`. -/
def atMost (a b : Value) : Bool :=
  match b.lt a with
  | .ok r => !r
  | .error _ => false

/-- Values that `lt` orders totally, in agreement with equality. -/
structure OrderedKeys (K : Value → Prop) : Prop where
  comparable : ∀ a b, K a → K b → ∃ r, a.lt b = .ok r
  total : TotalPreorderOn K atMost
  equal : ∀ a b, K a → K b → a.eqv b = .ok (a.atMost b && b.atMost a)
  /-- What is known to be one occurrence is one value. -/
  occurrence : ∀ a b, K a → K b → a.isSame b → a = b

namespace OrderedKeys

variable {K : Value → Prop} {a b : Value}

lemma lt_eq (h : OrderedKeys K) (ha : K a) (hb : K b) : a.lt b = .ok (!b.atMost a) := by
  obtain ⟨r, hr⟩ := h.comparable a b ha hb
  simp [atMost, hr]

lemma eqv_of_isSame (h : OrderedKeys K) (ha : K a) (hb : K b) (hs : a.isSame b) :
    a.eqv b = .ok true := by
  have hab := h.occurrence a b ha hb hs
  subst hab
  rw [h.equal a a ha ha, h.total.refl ha]
  rfl

end OrderedKeys

end Value

/-! ### Numbers -/

namespace Place

lemma lt_asymm {p q : Place} (h : p.lt q) : q.lt p = false := by
  cases p <;> cases q <;> simp_all [lt]
  omega

lemma lt_trans_left {p q r : Place} (hpq : q.lt p = false) (hqr : r.lt q = false) :
    r.lt p = false := by
  cases p <;> cases q <;> cases r <;> simp_all [lt]
  omega

lemma eq_iff {p q : Place} : p = q ↔ q.lt p = false ∧ p.lt q = false := by
  cases p <;> cases q <;> simp [lt]
  omega

end Place

namespace Number

lemma lt_int (i j : Int) : (Number.int i).lt (.int j) = decide (i < j) := by
  have hunit : (0 : Int) < 2 ^ 1074 := Int.pow_pos (by omega)
  generalize hu : (2 : Int) ^ 1074 = u at hunit
  simp only [lt, place?, Place.lt, hu, decide_eq_decide]
  exact ⟨fun h => Int.lt_of_mul_lt_mul_right h (Int.le_of_lt hunit),
    fun h => Int.mul_lt_mul_of_pos_right h hunit⟩

lemma eq_int (i j : Int) : (Number.int i).eq (.int j) = decide (i = j) := by
  have hunit : (2 : Int) ^ 1074 ≠ 0 := Int.ne_of_gt (Int.pow_pos (by omega))
  generalize hu : (2 : Int) ^ 1074 = u at hunit
  simp only [eq, place?, Place.units.injEq, hu, decide_eq_decide]
  exact ⟨fun h => Int.eq_of_mul_eq_mul_right hunit h, fun h => by rw [h]⟩

end Number

namespace Value

/-- Numbers without a declared type that have a place on the number line. -/
def IsPlaced (v : Value) : Prop := ∃ n p, v.number? = some n ∧ n.place? = some p

lemma lt_of_number? {a b : Value} {m n : Number} (ha : a.number? = some m)
    (hb : b.number? = some n) : a.lt b = .ok (m.lt n) := by
  cases a <;> cases b <;> simp_all [lt, relate, relateFlat, isDeclared, number?,
    OrderRelation.ofNumbers]

lemma eqv_of_number? {a b : Value} {m n : Number} (ha : a.number? = some m)
    (hb : b.number? = some n) : a.eqv b = .ok (m.eq n) := by
  cases a <;> cases b <;> simp_all [eqv, eqFlat, isDeclared, number?]

lemma atMost_of_place {a b : Value} {m n : Number} {p q : Place} (ha : a.number? = some m)
    (hb : b.number? = some n) (hm : m.place? = some p) (hn : n.place? = some q) :
    a.atMost b = !q.lt p := by
  simp [atMost, lt_of_number? hb ha, Number.lt, hm, hn]

lemma atMost_int (i j : Int) : (Value.int i).atMost (.int j) = decide (i ≤ j) := by
  rw [atMost, lt_of_number? (m := .int j) (n := .int i) rfl rfl, Number.lt_int]
  simp [← decide_not]

lemma relate_le_int (i j : Int) : (Value.int i).relate .le (.int j) = .ok (decide (i ≤ j)) := by
  simp only [relate, relateFlat, isDeclared, number?, OrderRelation.ofNumbers, Number.lt_int,
    Number.eq_int]
  simp [← Bool.decide_or, Int.le_iff_lt_or_eq]

/-- **Numbers** that have a place are keys in order. -/
theorem orderedKeys_isPlaced : OrderedKeys IsPlaced where
  comparable := by
    rintro a b ⟨m, p, ha, hm⟩ ⟨n, q, hb, hn⟩
    exact ⟨_, lt_of_number? ha hb⟩
  total := by
    refine ⟨?_, ?_⟩
    · rintro a b ⟨m, p, ha, hm⟩ ⟨n, q, hb, hn⟩
      rw [atMost_of_place ha hb hm hn, atMost_of_place hb ha hn hm]
      rcases hqp : q.lt p with _ | _
      · simp
      · simp [Place.lt_asymm hqp]
    · rintro a b c ⟨m, p, ha, hm⟩ ⟨n, q, hb, hn⟩ ⟨o, r, hc, ho⟩ hab hbc
      rw [atMost_of_place ha hb hm hn] at hab
      rw [atMost_of_place hb hc hn ho] at hbc
      rw [atMost_of_place ha hc hm ho,
        Place.lt_trans_left (by simpa using hab) (by simpa using hbc)]
      rfl
  equal := by
    rintro a b ⟨m, p, ha, hm⟩ ⟨n, q, hb, hn⟩
    rw [eqv_of_number? ha hb, atMost_of_place ha hb hm hn, atMost_of_place hb ha hn hm]
    simp only [Number.eq, hm, hn, Except.ok.injEq]
    by_cases hpq : p = q
    · simp [hpq, Place.eq_iff.mp rfl]
    · have := mt Place.eq_iff.mpr hpq
      simpa [hpq] using this
  occurrence := by
    rintro a b ⟨m, p, ha, hm⟩ ⟨n, q, hb, hn⟩ hs
    -- only what is not a number is ever marked
    cases a <;> cases b <;> simp_all [isSame, number?]
    subst ha hb
    rename_i x y
    cases x <;> cases y <;> simp_all [Binary64.isSame, Number.place?, Binary64.place?]

/-! ### Texts -/

/-- Texts. -/
def IsText (v : Value) : Prop := ∃ s, v = .text s

end Value

namespace Text

open Std

lemma compareCodes_eq (as bs : List Nat) : compareCodes as bs = compare as bs := by
  induction as generalizing bs with
  | nil => cases bs <;> rfl
  | cons a as ih =>
    cases bs with
    | nil => rfl
    | cons b bs =>
      rw [compareCodes, ih, List.compare_cons_cons]

instance : TransCmp compareText where
  eq_swap := by
    intro s t
    simp only [compareText, compareCodes_eq]
    exact OrientedCmp.eq_swap
  isLE_trans := by
    intro s t u
    simp only [compareText, compareCodes_eq]
    exact TransCmp.isLE_trans

lemma compareText_eq_iff {s t : String} : compareText s t = .eq ↔ s = t := by
  simp only [compareText, compareCodes_eq, Std.compare_eq_iff_eq]
  constructor
  · intro h
    have hinj : Function.Injective Char.toNat := fun c d hcd => Char.toNat_inj.mp hcd
    exact String.toList_inj.mp (List.map_injective_iff.mpr hinj h)
  · rintro rfl
    rfl

end Text

namespace Value

open Text Std

lemma compareText_swap (s t : String) : compareText s t = (compareText t s).swap :=
  OrientedCmp.eq_swap

lemma atMost_text (s t : String) : atMost (.text s) (.text t) = (compareText s t).isLE := by
  have : lt (.text t) (.text s) = .ok (compareText t s).isLT := rfl
  rw [atMost, this, compareText_swap s t]
  cases compareText t s <;> rfl

/-- **Texts** are keys in order. -/
theorem orderedKeys_isText : OrderedKeys IsText where
  comparable := by
    rintro a b ⟨s, rfl⟩ ⟨t, rfl⟩
    exact ⟨_, rfl⟩
  total := by
    refine ⟨?_, ?_⟩
    · rintro a b ⟨s, rfl⟩ ⟨t, rfl⟩
      rw [atMost_text, atMost_text, compareText_swap s t]
      cases compareText t s <;> rfl
    · rintro a b c ⟨s, rfl⟩ ⟨t, rfl⟩ ⟨u, rfl⟩ hst htu
      rw [atMost_text] at *
      exact TransCmp.isLE_trans hst htu
  equal := by
    rintro a b ⟨s, rfl⟩ ⟨t, rfl⟩
    have : eqv (.text s) (.text t) = .ok (decide (s = t)) := rfl
    rw [this, atMost_text, atMost_text, compareText_swap t s]
    by_cases hst : s = t
    · simp [hst, compareText_eq_iff.mpr rfl]
    · have := mt compareText_eq_iff.mp hst
      cases hc : compareText s t <;> simp_all
  occurrence := by
    rintro a b ⟨s, rfl⟩ ⟨t, rfl⟩ hs
    simp [isSame] at hs

end Value

end NearDoc
