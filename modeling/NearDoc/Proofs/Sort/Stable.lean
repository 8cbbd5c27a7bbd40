import Mathlib.Data.List.Basic
import Mathlib.Data.List.Perm.Basic
import Mathlib.Tactic.Common

/-!
Stable arrangements. A list is arranged by a total preorder when it is sorted and every class of
alike entries stands in it as it stood before; there is only one such arrangement. Arrangements of
two parts merge, and an arrangement by a second key followed by one by a first key is an
arrangement by both.
-/

namespace NearDoc.Sort

variable {α β : Type}

/-- A test that puts any two entries in an order, alike entries in both. -/
structure TotalPreorder (le : α → α → Bool) : Prop where
  total : ∀ a b, le a b || le b a
  trans : ∀ a b c, le a b → le b c → le a c

/-- Entries of which neither has to come first. -/
def alike (le : α → α → Bool) (a b : α) : Bool := le a b && le b a

/-- `m` is the stable arrangement of `l`. -/
structure Arranges (le : α → α → Bool) (l m : List α) : Prop where
  sorted : m.Pairwise fun a b => le a b
  stable : ∀ a, m.filter (alike le a) = l.filter (alike le a)

section

variable {le : α → α → Bool}

namespace TotalPreorder

lemma refl (h : TotalPreorder le) (a : α) : le a a := by
  simpa using h.total a a

lemma le_of_not (h : TotalPreorder le) {a b : α} (hab : le a b = false) : le b a := by
  have := h.total a b
  simpa [hab] using this

lemma trans_not (h : TotalPreorder le) {a b c : α} (hab : le a b = false) (hbc : le b c = false) :
    le a c = false := by
  by_contra hac
  have := h.trans a c b (by simpa using hac) (h.le_of_not hbc)
  simp [hab] at this

lemma alike_refl (h : TotalPreorder le) (a : α) : alike le a a := by
  simp [alike, h.refl a]

/-- The order seen from the other end. -/
lemma flip (h : TotalPreorder le) : TotalPreorder fun a b => le b a where
  total a b := h.total b a
  trans a b c hab hbc := h.trans c b a hbc hab

end TotalPreorder

lemma alike_flip (a : α) : alike (fun a b => le b a) a = alike le a := by
  funext b
  simp [alike, Bool.and_comm]

namespace Arranges

variable {l l' m m' : List α}

lemma of_sorted (h : l.Pairwise fun a b => le a b) : Arranges le l l := ⟨h, fun _ => rfl⟩

lemma nil : Arranges le ([] : List α) [] := of_sorted .nil

/-- An arrangement has the entries of the list, as often as they are there. -/
lemma perm (hle : TotalPreorder le) (h : Arranges le l m) : m.Perm l := by
  classical
  refine List.perm_iff_count.mpr fun a => ?_
  have hself : alike le a a = true := hle.alike_refl a
  have := congrArg (List.count a) (h.stable a)
  rwa [List.count_filter hself, List.count_filter hself] at this

lemma mem_iff (hle : TotalPreorder le) (h : Arranges le l m) {a : α} : a ∈ m ↔ a ∈ l :=
  (h.perm hle).mem_iff

/-- **Uniqueness**: a list has one stable arrangement. -/
theorem unique (hle : TotalPreorder le) (h : Arranges le l m) (h' : Arranges le l m') :
    m = m' := by
  have hst : ∀ a, m.filter (alike le a) = m'.filter (alike le a) := fun a =>
    (h.stable a).trans (h'.stable a).symm
  have hs := h.sorted
  have hs' := h'.sorted
  clear h h'
  induction m generalizing m' with
  | nil =>
    cases m' with
    | nil => rfl
    | cons y ys =>
      have := hst y
      simp [hle.alike_refl y] at this
  | cons x xs ih =>
    cases m' with
    | nil =>
      have := hst x
      simp [hle.alike_refl x] at this
    | cons y ys =>
      have hx := hst x
      have hy := hst y
      -- each head stands in the other list, so neither comes before the other
      have hxm : x ∈ y :: ys := by
        have : x ∈ (y :: ys).filter (alike le x) := by
          rw [← hx]; simp [hle.alike_refl x]
        exact (List.mem_filter.mp this).1
      have hym : y ∈ x :: xs := by
        have : y ∈ (x :: xs).filter (alike le y) := by
          rw [hy]; simp [hle.alike_refl y]
        exact (List.mem_filter.mp this).1
      have hyx : le y x := by
        rcases List.mem_cons.mp hxm with rfl | hmem
        · exact hle.refl _
        · exact List.rel_of_pairwise_cons hs' hmem
      have hxy : le x y := by
        rcases List.mem_cons.mp hym with rfl | hmem
        · exact hle.refl _
        · exact List.rel_of_pairwise_cons hs hmem
      have hal : alike le x y = true := by simp [alike, hxy, hyx]
      simp only [List.filter_cons, hle.alike_refl x, hal, if_true, List.cons.injEq] at hx
      obtain ⟨rfl, -⟩ := hx
      congr 1
      refine ih (fun a => ?_) hs.tail hs'.tail
      have := hst a
      simp only [List.filter_cons] at this
      split at this
      · exact (List.cons.inj this).2
      · exact this

end Arranges

/-- Sorting by merges arranges. -/
theorem arranges_mergeSort (hle : TotalPreorder le) (l : List α) :
    Arranges le l (l.mergeSort le) := by
  refine ⟨List.pairwise_mergeSort hle.trans hle.total l, fun a => ?_⟩
  have hsub : (l.filter (alike le a)).Sublist ((l.mergeSort le).filter (alike le a)) := by
    have hpw : (l.filter (alike le a)).Pairwise fun x y => le x y := by
      refine List.pairwise_of_forall_mem_list fun x hx y hy => ?_
      have hx := (List.mem_filter.mp hx).2
      have hy := (List.mem_filter.mp hy).2
      simp only [alike, Bool.and_eq_true] at hx hy
      exact hle.trans _ _ _ hx.2 hy.1
    have := (List.sublist_mergeSort hle.trans hle.total hpw List.filter_sublist).filter
      (alike le a)
    rwa [List.filter_filter, show (fun x => alike le a x && alike le a x) = alike le a by
      funext x; simp] at this
  exact (hsub.eq_of_length (((List.mergeSort_perm l le).filter _).length_eq.symm)).symm

/-- What arranges a list is what sorting by merges answers. -/
theorem Arranges.eq_mergeSort (hle : TotalPreorder le) {l m : List α} (h : Arranges le l m) :
    m = l.mergeSort le :=
  h.unique hle (arranges_mergeSort hle l)

/-! ### Arrangements of parts -/

/-- Alike entries of two sorted lists keep their order in a merge, those of the first list in
front. -/
lemma filter_merge (hle : TotalPreorder le) (a : α) :
    ∀ {l r : List α}, (l.Pairwise fun x y => le x y) → (r.Pairwise fun x y => le x y) →
      (l.merge r le).filter (alike le a) =
        l.filter (alike le a) ++ r.filter (alike le a)
  | [], r, _, _ => by simp
  | x :: l, [], _, _ => by simp
  | x :: l, y :: r, hl, hr => by
    rw [List.cons_merge_cons]
    split
    · rw [List.filter_cons, filter_merge (l := l) hle a hl.tail hr, List.filter_cons (x := x)]
      split <;> simp
    · rename_i hxy
      rw [List.filter_cons, filter_merge (r := r) hle a hl hr.tail, List.filter_cons (x := y)]
      split
      · -- nothing in the first list is alike to an entry that comes before its head
        rename_i hay
        have hnil : (x :: l).filter (alike le a) = [] := by
          refine List.filter_eq_nil_iff.mpr fun z hz haz => hxy ?_
          simp only [alike, Bool.and_eq_true] at hay haz
          have hxz : le x z := by
            rcases List.mem_cons.mp hz with rfl | hz
            · exact hle.refl _
            · exact List.rel_of_pairwise_cons hl hz
          exact hle.trans _ _ _ hxz (hle.trans _ _ _ haz.2 hay.1)
        simp [hnil]
      · rfl

namespace Arranges

variable {l l' m m' : List α}

/-- Arrangements of two parts merge to one of the whole. -/
theorem merge (hle : TotalPreorder le) (h : Arranges le l m) (h' : Arranges le l' m') :
    Arranges le (l ++ l') (m.merge m' le) := by
  refine ⟨List.pairwise_merge hle.trans hle.total _ _ h.sorted h'.sorted, fun a => ?_⟩
  rw [filter_merge hle a h.sorted h'.sorted, h.stable, h'.stable, List.filter_append]

/-- What is in place in front stays there. -/
lemma append_left (h : Arranges le l m) {f : List α} (hf : f.Pairwise fun x y => le x y)
    (hfm : ∀ x ∈ f, ∀ y ∈ m, le x y) : Arranges le (f ++ l) (f ++ m) where
  sorted := List.pairwise_append.mpr ⟨hf, h.sorted, hfm⟩
  stable a := by rw [List.filter_append, List.filter_append, h.stable]

/-- What is in place at the back stays there. -/
lemma append_right (h : Arranges le l m) {b : List α} (hb : b.Pairwise fun x y => le x y)
    (hmb : ∀ x ∈ m, ∀ y ∈ b, le x y) : Arranges le (l ++ b) (m ++ b) where
  sorted := List.pairwise_append.mpr ⟨h.sorted, hb, hmb⟩
  stable a := by rw [List.filter_append, List.filter_append, h.stable]

/-- An arrangement turned round is one of the list turned round, by the order turned round. -/
lemma reverse (h : Arranges le l m) :
    Arranges (fun a b => le b a) l.reverse m.reverse where
  sorted := List.pairwise_reverse.mpr h.sorted
  stable a := by rw [alike_flip, List.filter_reverse, List.filter_reverse, h.stable]

/-- A strictly descending list is arranged by turning it round. -/
lemma of_descending (hle : TotalPreorder le) (h : l.Pairwise fun a b => le a b = false) :
    Arranges le l l.reverse where
  sorted := List.pairwise_reverse.mpr (h.imp fun hab => hle.le_of_not hab)
  stable a := by
    rw [List.filter_reverse]
    -- a class has no two entries, so turning it round changes nothing
    have hone : (l.filter (alike le a)).length ≤ 1 := by
      have hp := h.sublist (List.filter_sublist (p := alike le a))
      rcases hf : l.filter (alike le a) with _ | ⟨x, _ | ⟨y, rest⟩⟩
      · simp
      · simp
      · have hx : alike le a x = true := (List.mem_filter.mp (by rw [hf]; simp : x ∈ _)).2
        have hy : alike le a y = true := (List.mem_filter.mp (by rw [hf]; simp : y ∈ _)).2
        rw [hf] at hp
        have hxy : le x y = false := List.rel_of_pairwise_cons hp (by simp)
        simp only [alike, Bool.and_eq_true] at hx hy
        have := hle.trans _ _ _ hx.2 hy.1
        simp [hxy] at this
    rcases hf : l.filter (alike le a) with _ | ⟨x, _ | ⟨y, rest⟩⟩ <;> simp_all

end Arranges

/-! ### Several keys -/

/-- The order by a first test, and by a second one where the first finds entries alike. -/
def lexicographic (le le' : α → α → Bool) (a b : α) : Bool := le a b && (!le b a || le' a b)

lemma TotalPreorder.lexicographic {le' : α → α → Bool} (h : TotalPreorder le)
    (h' : TotalPreorder le') : TotalPreorder (lexicographic le le') where
  total a b := by
    have h1 := h.total a b
    have h2 := h'.total a b
    simp only [Sort.lexicographic]
    cases hab : le a b <;> cases hba : le b a <;> simp_all
  trans a b c hab hbc := by
    simp only [Sort.lexicographic, Bool.and_eq_true, Bool.or_eq_true, Bool.not_eq_true'] at *
    refine ⟨h.trans a b c hab.1 hbc.1, ?_⟩
    rcases Bool.eq_false_or_eq_true (le c a) with hca | hca
    · have hba := h.trans b c a hbc.1 hca
      have hcb := h.trans c a b hca hab.1
      refine Or.inr (h'.trans a b c ?_ ?_)
      · simpa [hba] using hab.2
      · simpa [hcb] using hbc.2
    · exact Or.inl hca

lemma alike_lexicographic {le' : α → α → Bool} (a : α) :
    alike (lexicographic le le') a = fun b => alike le' a b && alike le a b := by
  funext b
  simp only [alike, lexicographic]
  cases le a b <;> cases le b a <;> cases le' a b <;> cases le' b a <;> rfl

/-- **Several passes**: an arrangement by a second test, arranged by a first one, is an
arrangement by both. -/
theorem Arranges.lexicographic {le' : α → α → Bool} {l m n : List α} (hle : TotalPreorder le)
    (h' : Arranges le' l m) (h : Arranges le m n) : Arranges (lexicographic le le') l n where
  sorted := by
    refine List.pairwise_iff_forall_sublist.mpr fun {a b} hab => ?_
    have hleab : le a b := List.pairwise_iff_forall_sublist.mp h.sorted hab
    simp only [Sort.lexicographic, hleab, Bool.true_and, Bool.or_eq_true, Bool.not_eq_true']
    rcases Bool.eq_false_or_eq_true (le b a) with hba | hba
    · -- alike entries stand as the second test arranged them
      have hcls := hab.filter (alike le a)
      have haa : alike le a a = true := hle.alike_refl a
      have hb : alike le a b = true := by simp [alike, hleab, hba]
      rw [h.stable] at hcls
      simp only [List.filter_cons, haa, hb, if_true, List.filter_nil] at hcls
      have := hcls.trans List.filter_sublist
      exact Or.inr (List.pairwise_iff_forall_sublist.mp h'.sorted this)
    · exact Or.inl hba
  stable a := by
    rw [alike_lexicographic]
    rw [← List.filter_filter, ← List.filter_filter, h.stable, List.filter_filter,
      List.filter_filter]
    have := congrArg (List.filter (alike le a)) (h'.stable a)
    rw [List.filter_filter, List.filter_filter] at this
    simpa [Bool.and_comm] using this

end

/-! ### Orders of some entries -/

/-- A test that orders the entries of a kind; of others it may say anything. -/
structure TotalPreorderOn (P : α → Prop) (le : α → α → Bool) : Prop where
  total : ∀ a b, P a → P b → le a b || le b a
  trans : ∀ a b c, P a → P b → P c → le a b → le b c → le a c

open Classical in
/-- The test on the entries of a kind, all others standing in front of them. -/
noncomputable def extended (P : α → Prop) (le : α → α → Bool) (a b : α) : Bool :=
  !decide (P a) || (decide (P b) && le a b)

lemma extended_of {P : α → Prop} {le : α → α → Bool} {a b : α} (ha : P a) (hb : P b) :
    extended P le a b = le a b := by
  simp [extended, ha, hb]

lemma mergeSort_congr {r s : α → α → Bool} {l : List α}
    (h : ∀ a ∈ l, ∀ b ∈ l, r a b = s a b) : l.mergeSort r = l.mergeSort s := by
  simpa using List.map_mergeSort (f := id) (s := s) h

namespace TotalPreorderOn

variable {P : α → Prop} {le le' : α → α → Bool} {l : List α}

lemma extended (h : TotalPreorderOn P le) : TotalPreorder (extended P le) where
  total a b := by
    by_cases ha : P a
    · by_cases hb : P b
      · simpa [extended_of ha hb, extended_of hb ha] using h.total a b ha hb
      · simp [Sort.extended, hb]
    · simp [Sort.extended, ha]
  trans a b c hab hbc := by
    by_cases ha : P a
    · have hb : P b := by simp_all [Sort.extended]
      have hc : P c := by simp_all [Sort.extended]
      rw [extended_of ha hb] at hab
      rw [extended_of hb hc] at hbc
      rw [extended_of ha hc]
      exact h.trans a b c ha hb hc hab hbc
    · simp [Sort.extended, ha]

lemma flip (h : TotalPreorderOn P le) : TotalPreorderOn P fun a b => le b a where
  total a b ha hb := h.total b a hb ha
  trans a b c ha hb hc hab hbc := h.trans c b a hc hb ha hbc hab

/-- An order of entries by what a function makes of them. -/
lemma comap {Q : β → Prop} (f : β → α) (h : TotalPreorderOn P le) (hf : ∀ b, Q b → P (f b)) :
    TotalPreorderOn Q fun a b => le (f a) (f b) where
  total a b ha hb := h.total _ _ (hf a ha) (hf b hb)
  trans a b c ha hb hc := h.trans _ _ _ (hf a ha) (hf b hb) (hf c hc)

lemma refl (h : TotalPreorderOn P le) {a : α} (ha : P a) : le a a := by
  simpa using h.total a a ha ha

lemma mergeSort_extended (hl : ∀ x ∈ l, P x) :
    l.mergeSort (Sort.extended P le) = l.mergeSort le :=
  mergeSort_congr fun a ha b hb => extended_of (hl a ha) (hl b hb)

lemma pairwise_mergeSort (h : TotalPreorderOn P le) (hl : ∀ x ∈ l, P x) :
    (l.mergeSort le).Pairwise fun a b => le a b := by
  have hs := (arranges_mergeSort h.extended l).sorted
  rw [mergeSort_extended hl] at hs
  refine hs.imp_of_mem fun {a b} ha hb hab => ?_
  rwa [extended_of (hl a (List.mem_mergeSort.mp ha)) (hl b (List.mem_mergeSort.mp hb))] at hab

/-- Sorting a list turned round and turning the outcome round sorts by the order turned
round. -/
lemma reverse_mergeSort (h : TotalPreorderOn P le) (hl : ∀ x ∈ l, P x) :
    (l.reverse.mergeSort le).reverse = l.mergeSort fun a b => le b a := by
  have hl' : ∀ x ∈ l.reverse, P x := fun x hx => hl x (List.mem_reverse.mp hx)
  have hr := (arranges_mergeSort h.extended l.reverse).reverse
  rw [List.reverse_reverse, mergeSort_extended hl'] at hr
  rw [hr.eq_mergeSort h.extended.flip]
  exact mergeSort_congr fun a ha b hb => extended_of (hl b hb) (hl a ha)

/-- Sorting by a second test and then by a first one sorts by both. -/
lemma mergeSort_mergeSort (h : TotalPreorderOn P le) (h' : TotalPreorderOn P le')
    (hl : ∀ x ∈ l, P x) :
    (l.mergeSort le').mergeSort le = l.mergeSort (lexicographic le le') := by
  have hm : ∀ x ∈ l.mergeSort le', P x := fun x hx => hl x (List.mem_mergeSort.mp hx)
  have ha := arranges_mergeSort h'.extended l
  rw [mergeSort_extended hl] at ha
  have hb := arranges_mergeSort h.extended (l.mergeSort le')
  rw [mergeSort_extended hm] at hb
  rw [(ha.lexicographic h.extended hb).eq_mergeSort (h.extended.lexicographic h'.extended)]
  refine mergeSort_congr fun a ha b hb => ?_
  simp only [lexicographic, extended_of (hl a ha) (hl b hb), extended_of (hl b hb) (hl a ha)]

lemma lexicographic (h : TotalPreorderOn P le) (h' : TotalPreorderOn P le') :
    TotalPreorderOn P (lexicographic le le') where
  total a b ha hb := by
    have := (h.extended.lexicographic h'.extended).total a b
    simpa only [Sort.lexicographic, extended_of ha hb, extended_of hb ha] using this
  trans a b c ha hb hc := by
    have := (h.extended.lexicographic h'.extended).trans a b c
    simpa only [Sort.lexicographic, extended_of ha hb, extended_of hb ha, extended_of hb hc,
      extended_of hc hb, extended_of ha hc, extended_of hc ha] using this

end TotalPreorderOn

end NearDoc.Sort
