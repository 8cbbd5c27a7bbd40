import NearDoc.Proofs.Number.Exact
import NearDoc.Proofs.Value.Equality

/-!
The order of the values that JSON has, NaN left out. Two of them have a place before, at or behind
each other for all relations together, or there is no order between them, and it is the same seen
from the other side. Lists are ordered by their first unequal items and otherwise by their lengths.
-/

namespace NearDoc

namespace Value

/-- A value of JSON that is no NaN and has no field twice, whatever it holds. -/
def IsJsonNode : Value → Prop
  | .null | .bool _ | .int _ | .text _ | .list _ => True
  | .real x => (Number.real x).HasPlace
  | .object fields => (fields.map (·.1)).Nodup
  | _ => False

/-- A value of JSON without NaN at any depth. -/
def IsJson (v : Value) : Prop := ∀ w ∈ v.parts, w.IsJsonNode

variable {a b x y : Value} {xs ys : List Value} {o : Ordering}

lemma IsJson.self (h : a.IsJson) : a.IsJsonNode := h a (self_mem_parts a)

lemma IsJson.held (h : a.IsJson) (hx : x ∈ a.held) : x.IsJson := fun w hw =>
  h w (mem_parts_of_held hx hw)

lemma IsJson.settled (h : a.IsJson) : a.Settled := by
  intro w hw
  have hnode := h w hw
  cases w <;> first | exact hnode | exact trivial

lemma IsJson.hasPlace {n : Number} (h : a.IsJson) (hn : a.number? = some n) : n.HasPlace := by
  have hnode := h.self
  cases a <;> cases hn <;> first | exact ⟨_, rfl⟩ | exact hnode

/-! ### Items from the front -/

/-- The first unequal items of two lists. -/
inductive Differ : List Value → List Value → Value → Value → Prop where
  | here {x y : Value} (xs ys : List Value) (h : x.eqv y = .ok false) :
      Differ (x :: xs) (y :: ys) x y
  | later {u v x y : Value} {xs ys : List Value} (huv : u.Equals v) (h : Differ xs ys x y) :
      Differ (u :: xs) (v :: ys) x y

/-- The items of two lists are equal as far as both lists go. -/
inductive Agree : List Value → List Value → Prop where
  | left (ys : List Value) : Agree [] ys
  | right (xs : List Value) : Agree xs []
  | cons {x y : Value} {xs ys : List Value} (hxy : x.Equals y) (h : Agree xs ys) :
      Agree (x :: xs) (y :: ys)

lemma agree_or_differ (hxs : ∀ x ∈ xs, x.Settled) (hys : ∀ y ∈ ys, y.Settled) :
    Agree xs ys ∨ ∃ x y, Differ xs ys x y := by
  induction xs generalizing ys with
  | nil => exact .inl (.left ys)
  | cons x xs ih =>
    cases ys with
    | nil => exact .inl (.right _)
    | cons y ys =>
      rw [List.forall_mem_cons] at hxs hys
      obtain ⟨_ | _, hxy⟩ := exists_eqv hxs.1 hys.1
      · exact .inr ⟨x, y, .here xs ys hxy⟩
      · rcases ih hxs.2 hys.2 with hagree | ⟨u, v, hdiffer⟩
        · exact .inl (.cons hxy hagree)
        · exact .inr ⟨u, v, .later hxy hdiffer⟩

lemma Differ.mem (h : Differ xs ys x y) : x ∈ xs ∧ y ∈ ys := by
  induction h with
  | here => exact ⟨List.mem_cons_self, List.mem_cons_self⟩
  | later _ _ ih => exact ⟨List.mem_cons_of_mem _ ih.1, List.mem_cons_of_mem _ ih.2⟩

lemma Differ.eqv (h : Differ xs ys x y) : x.eqv y = .ok false := by
  induction h with
  | here _ _ h => exact h
  | later _ _ ih => exact ih

lemma Differ.symm (hxs : ∀ x ∈ xs, x.Settled) (hys : ∀ y ∈ ys, y.Settled) (h : Differ xs ys x y) :
    Differ ys xs y x := by
  induction h with
  | here xs ys h =>
    rw [List.forall_mem_cons] at hxs hys
    exact .here ys xs ((eqv_comm hys.1 hxs.1).trans h)
  | later huv _ ih =>
    rw [List.forall_mem_cons] at hxs hys
    exact .later (huv.symm hxs.1 hys.1) (ih hxs.2 hys.2)

lemma Agree.symm (hxs : ∀ x ∈ xs, x.Settled) (hys : ∀ y ∈ ys, y.Settled) (h : Agree xs ys) :
    Agree ys xs := by
  induction h with
  | left ys => exact .right ys
  | right xs => exact .left xs
  | cons hxy _ ih =>
    rw [List.forall_mem_cons] at hxs hys
    exact .cons (hxy.symm hxs.1 hys.1) (ih hxs.2 hys.2)

/-! ### Lists -/

lemma relateList_cons (r : OrderRelation) (hx : x.IsSettled) (y : Value) (xs ys : List Value) :
    relateList r (x :: xs) (y :: ys) =
      match x.eqv y with
      | .ok true => relateList r xs ys
      | .ok false => x.relate r y
      | .error e => .error e := by
  rw [relateList, hx.isSame]
  rfl

lemma Differ.relateList (h : Differ xs ys x y) (hxs : ∀ x ∈ xs, x.Settled) (r : OrderRelation) :
    (list xs).relate r (list ys) = x.relate r y := by
  change Value.relateList r xs ys = _
  induction h with
  | here _ _ h => rw [relateList_cons r (hxs _ List.mem_cons_self).self, h]
  | @later u v _ _ _ _ huv _ ih =>
    have huv : u.eqv v = .ok true := huv
    rw [relateList_cons r (hxs _ List.mem_cons_self).self, huv]
    exact ih fun x hx => hxs x (List.mem_cons_of_mem _ hx)

lemma Agree.relateList (h : Agree xs ys) (hxs : ∀ x ∈ xs, x.Settled) (r : OrderRelation) :
    (list xs).relate r (list ys) = .ok (r.ofOrdering (compare xs.length ys.length)) := by
  change Value.relateList r xs ys = _
  induction h with
  | left ys => cases ys <;> rfl
  | right xs => cases xs <;> rfl
  | @cons x y xs ys hxy _ ih =>
    have hxy : x.eqv y = .ok true := hxy
    have hlength : compare (xs.length + 1) (ys.length + 1) = compare xs.length ys.length := by
      rw [Nat.compare_eq_ite_lt, Nat.compare_eq_ite_lt]
      simp
    rw [relateList_cons r (hxs _ List.mem_cons_self).self, hxy, List.length_cons, List.length_cons,
      hlength]
    exact ih fun x hx => hxs x (List.mem_cons_of_mem _ hx)

lemma Differ.not_forall₂ (h : Differ xs ys x y) : ¬List.Forall₂ Equals xs ys := by
  intro hpairs
  induction h with
  | here _ _ h =>
    obtain ⟨hxy, -⟩ := List.forall₂_cons.mp hpairs
    cases h.symm.trans hxy
  | later _ _ ih => exact ih (List.forall₂_cons.mp hpairs).2

lemma Agree.forall₂_iff (h : Agree xs ys) : List.Forall₂ Equals xs ys ↔ xs.length = ys.length := by
  induction h with
  | left ys => cases ys <;> simp
  | right xs => cases xs <;> simp
  | cons hxy _ ih => simp [List.forall₂_cons, hxy, ih]

lemma eqv_list_of_iff {r : Bool} (hxs : (list xs).Settled) (hys : (list ys).Settled)
    (h : List.Forall₂ Equals xs ys ↔ r = true) : (list xs).eqv (list ys) = .ok r := by
  obtain ⟨s, hs⟩ := exists_eqv hxs hys
  have hiff : s = true ↔ List.Forall₂ Equals xs ys := by
    rw [← equals_list hxs, Equals, hs, Except.ok.injEq]
  rw [hs, Bool.eq_iff_iff.mpr (hiff.trans h)]

lemma Differ.eqv_list (h : Differ xs ys x y) (hxs : (list xs).Settled) (hys : (list ys).Settled) :
    (list xs).eqv (list ys) = .ok false :=
  eqv_list_of_iff hxs hys (iff_of_false h.not_forall₂ nofun)

lemma Agree.eqv_list (h : Agree xs ys) (hxs : (list xs).Settled) (hys : (list ys).Settled) :
    (list xs).eqv (list ys) = .ok (compare xs.length ys.length == .eq) := by
  refine eqv_list_of_iff hxs hys (h.forall₂_iff.trans ?_)
  rw [beq_iff_eq, Nat.compare_eq_eq]

/-! ### Order -/

/-- For all relations together, the first value has a place before, at or behind the second. -/
structure Ranked (a b : Value) (o : Ordering) : Prop where
  relate : ∀ r, a.relate r b = .ok (r.ofOrdering o)
  equal : a.eqv b = .ok (o == .eq)

/-- No order is between two values. -/
def Unranked (a b : Value) : Prop := ∀ r, ∃ s t, a.relate r b = .error (.incomparable r.symbol s t)

/-- Two values have the same order, or none, whichever stands first. -/
def Ranks (a b : Value) : Prop :=
  (∃ o, Ranked a b o ∧ Ranked b a o.swap) ∨ Unranked a b ∧ Unranked b a

lemma ranked_number {m n : Number} {p q : WithBot (WithTop ℚ)} (ha : a.number? = some m)
    (hb : b.number? = some n) (hm : m.rational? = some p) (hn : n.rational? = some q) :
    Ranked a b (compare p q) where
  relate r := by rw [relate_of_number? ha hb, OrderRelation.ofNumbers_of_rational hm hn]
  equal := by rw [eqv_of_number? ha hb, Number.eq_of_rational hm hn]

lemma ranked_text (s t : String) : Ranked (.text s) (.text t) (Text.compareText s t) where
  relate _ := rfl
  equal := by
    have hflat : (text s).eqv (text t) = .ok (decide (s = t)) := rfl
    rw [hflat, Except.ok.injEq, Bool.eq_iff_iff, decide_eq_true_iff, beq_iff_eq,
      Text.compareText_eq_iff]

lemma ranks_number {m n : Number} (ha : a.number? = some m) (hb : b.number? = some n)
    (hm : m.HasPlace) (hn : n.HasPlace) : Ranks a b := by
  obtain ⟨p, hp⟩ := Number.exists_rational hm
  obtain ⟨q, hq⟩ := Number.exists_rational hn
  refine .inl ⟨_, ranked_number ha hb hp hq, ?_⟩
  rw [Std.OrientedOrd.eq_swap (a := p), Ordering.swap_swap]
  exact ranked_number hb ha hq hp

lemma ranks_text (s t : String) : Ranks (.text s) (.text t) := by
  refine .inl ⟨_, ranked_text s t, ?_⟩
  rw [← compareText_swap]
  exact ranked_text t s

lemma ranks_list (ha : (list xs).Settled) (hb : (list ys).Settled)
    (h : ∀ x ∈ xs, ∀ y ∈ ys, Ranks x y) : Ranks (.list xs) (.list ys) := by
  have hxs : ∀ x ∈ xs, x.Settled := fun x hx => ha.held hx
  have hys : ∀ y ∈ ys, y.Settled := fun y hy => hb.held hy
  rcases agree_or_differ hxs hys with hagree | ⟨x, y, hdiffer⟩
  · have hback := hagree.symm hxs hys
    refine .inl ⟨_, ⟨hagree.relateList hxs, hagree.eqv_list ha hb⟩, ?_⟩
    rw [Nat.compare_swap]
    exact ⟨hback.relateList hys, hback.eqv_list hb ha⟩
  · have hback := hdiffer.symm hxs hys
    have hforth : ∀ r, (list xs).relate r (list ys) = x.relate r y := hdiffer.relateList hxs
    have hturned : ∀ r, (list ys).relate r (list xs) = y.relate r x := hback.relateList hys
    rcases h x hdiffer.mem.1 y hdiffer.mem.2 with ⟨o, hxy, hyx⟩ | ⟨hxy, hyx⟩
    · refine .inl ⟨o, ⟨fun r => (hforth r).trans (hxy.relate r), ?_⟩,
        ⟨fun r => (hturned r).trans (hyx.relate r), ?_⟩⟩
      · rw [hdiffer.eqv_list ha hb, ← hxy.equal, hdiffer.eqv]
      · rw [hback.eqv_list hb ha, ← hyx.equal, hback.eqv]
    · exact .inr ⟨fun r => hforth r ▸ hxy r, fun r => hturned r ▸ hyx r⟩

/-- **Trichotomy**: of two values of JSON one is before, at or behind the other for all relations
together, or there is no order between them. -/
theorem ranks_of_isJson (ha : a.IsJson) (hb : b.IsJson) : Ranks a b := by
  induction a using byHeld generalizing b with
  | step a ih =>
    cases a <;> cases b <;>
      first
        | exact ha.self.elim
        | exact hb.self.elim
        | exact ranks_list ha.settled hb.settled fun x hx y hy =>
            ih x hx (ha.held hx) (hb.held hy)
        | exact ranks_text _ _
        | exact ranks_number rfl rfl (ha.hasPlace rfl) (hb.hasPlace rfl)
        | exact .inr ⟨fun r => ⟨_, _, rfl⟩, fun r => ⟨_, _, rfl⟩⟩

end Value

end NearDoc
