import NearDoc.Near.Selector
import NearDoc.Proofs.Sort.Stable

/-!
The heap of a selector. A heap is in order when no entry belongs nearer to the root than its
parent; rising and sinking start from a heap that is loose around one place. Main statements: both
end with the same entries in order, and the root of a heap in order belongs above all entries.
-/

namespace NearDoc.Heap

open NearDoc.Sort

variable {α : Type}

/-- On the entries of a kind it is decided which of two belongs nearer to the root: `a` belongs
above `b` unless it may stand in front of it. -/
def Lifts (P : Entry α → Prop) (le : Entry α → Entry α → Bool) : Prop :=
  ∀ a b, P a → P b → a.above b = .ok (!le a b)

/-- One place is the parent of another. -/
def IsParent (p c : Nat) : Prop := 0 < c ∧ (c - 1) / 2 = p

/-- The entry at a place belongs no nearer to the root than the one at another. -/
def Below (le : Entry α → Entry α → Bool) (heap : Array (Entry α)) (c p : Nat) : Prop :=
  ∀ e ∈ heap[c]?, ∀ f ∈ heap[p]?, le e f

/-- Every entry stands below its parent. -/
def InOrder (le : Entry α → Entry α → Bool) (heap : Array (Entry α)) : Prop :=
  ∀ c p, IsParent p c → Below le heap c p

/-- All entries stand below their parents, but for the entry at one place; that one set aside, the
entries around it are in order. -/
structure LooseAt (le : Entry α → Entry α → Bool) (heap : Array (Entry α)) (place : Nat) :
    Prop where
  apart : ∀ c p, IsParent p c → c ≠ place → p ≠ place → Below le heap c p
  across : ∀ c p, IsParent place c → IsParent p place → Below le heap c p

section

variable {P : Entry α → Prop} {le : Entry α → Entry α → Bool} {heap : Array (Entry α)}
variable {place c p q : Nat}

lemma IsParent.lt (h : IsParent p c) : p < c := by
  obtain ⟨hpos, rfl⟩ := h
  omega

lemma IsParent.unique (h : IsParent p c) (h' : IsParent q c) : p = q := h.2.symm.trans h'.2

lemma isParent_left (p : Nat) : IsParent p (2 * p + 1) := ⟨by omega, by omega⟩

lemma isParent_right (p : Nat) : IsParent p (2 * p + 1 + 1) := ⟨by omega, by omega⟩

lemma IsParent.eq_left_or_right (h : IsParent p c) : c = 2 * p + 1 ∨ c = 2 * p + 1 + 1 := by
  obtain ⟨hpos, hp⟩ := h
  omega

lemma Below.trans (hle : TotalPreorder le) (hq : q < heap.size) (h : Below le heap c q)
    (h' : Below le heap q p) : Below le heap c p := fun e he f hf =>
  have hm : heap[q] ∈ heap[q]? := by simp [hq]
  hle.trans _ _ _ (h e he _ hm) (h' _ hm f hf)

lemma below_refl (hle : TotalPreorder le) (c : Nat) : Below le heap c c := fun e he f hf => by
  rw [Option.mem_unique he hf]
  exact hle.refl f

lemma below_congr {heap' : Array (Entry α)} {c' p' : Nat} (hc : heap'[c']? = heap[c]?)
    (hp : heap'[p']? = heap[p]?) : Below le heap' c' p' ↔ Below le heap c p := by
  rw [Below, Below, hc, hp]

/-! ### Swapping two places -/

lemma getElem?_swap_left {i j : Nat} (hi : i < heap.size) (hj : j < heap.size) :
    (heap.swapIfInBounds i j)[i]? = heap[j]? := by
  simp only [Array.swapIfInBounds_def, hi, hj, dite_true, Array.getElem?_swap]
  by_cases hij : j = i
  · simp [hij, hi]
  · simp [hij, hj]

lemma getElem?_swap_right {i j : Nat} (hi : i < heap.size) (hj : j < heap.size) :
    (heap.swapIfInBounds i j)[j]? = heap[i]? := by
  simp [Array.swapIfInBounds_def, hi, hj]

lemma getElem?_swap_other {i j k : Nat} (hi : k ≠ i) (hj : k ≠ j) :
    (heap.swapIfInBounds i j)[k]? = heap[k]? := by
  simp only [Array.swapIfInBounds_def]
  split
  · split
    · simp [Array.getElem?_swap, Ne.symm hi, Ne.symm hj]
    · rfl
  · rfl

lemma perm_swap (heap : Array (Entry α)) (i j : Nat) :
    (heap.swapIfInBounds i j).toList.Perm heap.toList := by
  simp only [Array.swapIfInBounds_def]
  split
  · split
    · exact Array.perm_iff_toList_perm.mp (Array.swap_perm _ _)
    · exact .refl _
  · exact .refl _

/-! ### Rising -/

/-- An entry that belongs above its parent changes places with it; the heap is loose there
instead. -/
lemma LooseAt.rise (hle : TotalPreorder le) (h : LooseAt le heap place)
    (hbelow : ∀ c, IsParent place c → Below le heap c place) (hsize : place < heap.size)
    (hp : IsParent p place) (habove : Below le heap p place) :
    LooseAt le (heap.swapIfInBounds place p) p ∧
      ∀ c, IsParent p c → Below le (heap.swapIfInBounds place p) c p := by
  have hps : p < heap.size := Nat.lt_trans hp.lt hsize
  have hplace := getElem?_swap_left hsize hps
  have hparent := getElem?_swap_right hsize hps
  refine ⟨⟨fun c q hq hcp hqp => ?_, fun c q hc hq => ?_⟩, fun c hc => ?_⟩
  · -- a child of the place gets the old parent above it
    have hcplace : c ≠ place := fun hcp => hqp ((hcp ▸ hq).unique hp)
    have hother : (heap.swapIfInBounds place p)[c]? = heap[c]? := getElem?_swap_other hcplace hcp
    by_cases hqplace : q = place
    · rw [hqplace] at hq ⊢
      exact (below_congr hother hplace).mpr (h.across c p hq hp)
    · have hsame : (heap.swapIfInBounds place p)[q]? = heap[q]? :=
        getElem?_swap_other hqplace hqp
      exact (below_congr hother hsame).mpr (h.apart c q hq hcplace hqplace)
  · have hqp := hq.lt
    have hq' : (heap.swapIfInBounds place p)[q]? = heap[q]? :=
      getElem?_swap_other (by have := hp.lt; omega) (by omega)
    have hpq : Below le heap p q := h.apart p q hq (by have := hp.lt; omega)
      (by have := hp.lt; omega)
    by_cases hcplace : c = place
    · subst hcplace
      exact (below_congr hplace hq').mpr hpq
    · have hcp : c ≠ p := by have := hc.lt; omega
      refine (below_congr (getElem?_swap_other hcplace hcp) hq').mpr ?_
      exact (h.apart c p hc hcplace (by have := hp.lt; omega)).trans hle hps hpq
  · by_cases hcplace : c = place
    · subst hcplace
      exact (below_congr hplace hparent).mpr habove
    · have hcp : c ≠ p := by have := hc.lt; omega
      refine (below_congr (getElem?_swap_other hcplace hcp) hparent).mpr ?_
      exact (h.apart c p hc hcplace (by have := hp.lt; omega)).trans hle hps habove

/-- A heap that is loose at a place which has found its parent is in order. -/
lemma LooseAt.inOrder (h : LooseAt le heap place)
    (hbelow : ∀ c, IsParent place c → Below le heap c place)
    (habove : ∀ p, IsParent p place → Below le heap place p) : InOrder le heap := by
  intro c p hcp
  by_cases hc : c = place
  · subst hc
    exact habove p hcp
  · by_cases hp : p = place
    · subst hp
      exact hbelow c hcp
    · exact h.apart c p hcp hc hp

/-- **Rising** from a loose place puts a heap in order. -/
theorem rise_inOrder (hl : Lifts P le) (hle : TotalPreorder le) (hP : ∀ e ∈ heap.toList, P e)
    (hsize : place < heap.size) (h : LooseAt le heap place)
    (hbelow : ∀ c, IsParent place c → Below le heap c place) :
    (rise heap place).2 = none ∧ InOrder le (rise heap place).1 ∧
      (rise heap place).1.toList.Perm heap.toList := by
  have hget : ∀ {i : Nat} {e : Entry α}, heap[i]? = some e → P e := fun he =>
    hP _ (Array.mem_toList_iff.mpr (Array.mem_of_getElem? he))
  fun_induction rise heap place with
  | case1 heap place hpos parent e p hp he err hfail =>
    rw [hl e p (hget he) (hget hp)] at hfail
    cases hfail
  | case2 heap place hpos parent e p hp he hstay =>
    rw [hl e p (hget he) (hget hp)] at hstay
    have hep : le e p := by simpa using Except.ok.inj hstay
    refine ⟨rfl, h.inOrder hbelow fun q hq a ha b hb => ?_, .refl _⟩
    have hq' : q = parent := hq.unique ⟨hpos, rfl⟩
    rw [hq'] at hb
    rwa [Option.mem_unique ha he, Option.mem_unique hb hp]
  | case3 heap place hpos parent e p hp he hup ih =>
    rw [hl e p (hget he) (hget hp)] at hup
    have hpe : le p e := hle.le_of_not (by simpa using Except.ok.inj hup)
    have hpar : IsParent parent place := ⟨hpos, rfl⟩
    obtain ⟨hloose, hbelow'⟩ := h.rise hle hbelow hsize hpar fun a ha b hb => by
      rwa [Option.mem_unique ha hp, Option.mem_unique hb he]
    have hperm := perm_swap heap place parent
    have hP' : ∀ e ∈ (heap.swapIfInBounds place parent).toList, P e := fun a ha =>
      hP a (hperm.mem_iff.mp ha)
    obtain ⟨hok, hord, hperm'⟩ := ih hP' (by simpa using Nat.lt_trans hpar.lt hsize) hloose hbelow'
      (fun he => hP' _ (Array.mem_toList_iff.mpr (Array.mem_of_getElem? he)))
    exact ⟨hok, hord, hperm'.trans hperm⟩
  | case4 heap place hpos parent hnone =>
    have := hnone heap[place] heap[parent] (by simp [hsize])
    simp [(show parent < heap.size by omega)] at this
  | case5 heap place hpos =>
    refine ⟨rfl, h.inOrder hbelow fun q hq => ?_, .refl _⟩
    exact absurd hq.1 hpos

/-! ### Sinking -/

lemma exists_upperChild (hl : Lifts P le) (hle : TotalPreorder le) (hP : ∀ e ∈ heap.toList, P e)
    (hsize : 2 * place + 1 < heap.size) :
    ∃ child, upperChild heap place = .ok child ∧ IsParent place child ∧ child < heap.size ∧
      ∀ c, IsParent place c → Below le heap c child := by
  have hget : ∀ {i : Nat} {e : Entry α}, heap[i]? = some e → P e := fun he =>
    hP _ (Array.mem_toList_iff.mpr (Array.mem_of_getElem? he))
  unfold upperChild
  dsimp only
  rcases hr : heap[2 * place + 1 + 1]? with _ | r
  · -- no other child
    refine ⟨2 * place + 1, by simp [hsize], isParent_left _, hsize, fun c hc => ?_⟩
    rcases hc.eq_left_or_right with rfl | rfl
    · exact below_refl hle _
    · intro e he
      simp [hr] at he
  · have hl' : heap[2 * place + 1]? = some heap[2 * place + 1] := by simp [hsize]
    have hrs : 2 * place + 1 + 1 < heap.size := (Array.getElem?_eq_some_iff.mp hr).1
    simp only [hl', bind, Except.bind, hl _ r (hget hl') (hget hr)]
    rcases hlr : le heap[2 * place + 1] r with _ | _
    · refine ⟨2 * place + 1, by simp [pure, Except.pure], isParent_left _, hsize, fun c hc => ?_⟩
      rcases hc.eq_left_or_right with rfl | rfl
      · exact below_refl hle _
      · intro a ha b hb
        rw [Option.mem_unique ha hr, Option.mem_unique hb hl']
        exact hle.le_of_not hlr
    · refine ⟨2 * place + 1 + 1, by simp [pure, Except.pure], isParent_right _, hrs, fun c hc => ?_⟩
      rcases hc.eq_left_or_right with rfl | rfl
      · intro a ha b hb
        rwa [Option.mem_unique ha hl', Option.mem_unique hb hr]
      · exact below_refl hle _

/-- An entry changes places with its upper child; the heap is loose there instead. -/
lemma LooseAt.sink {child : Nat} (h : LooseAt le heap place) (hchild : IsParent place child)
    (hsize : child < heap.size) (hup : ∀ c, IsParent place c → Below le heap c child) :
    LooseAt le (heap.swapIfInBounds place child) child := by
  have hps : place < heap.size := Nat.lt_trans hchild.lt hsize
  have hplace := getElem?_swap_left hps hsize
  have hlt := hchild.lt
  refine ⟨fun c q hq hcc hqc => ?_, fun c q hc hq => ?_⟩
  · by_cases hcplace : c = place
    · subst hcplace
      have := hq.lt
      exact (below_congr hplace (getElem?_swap_other (by omega) (by omega))).mpr
        (h.across child q hchild hq)
    · have hother : (heap.swapIfInBounds place child)[c]? = heap[c]? :=
        getElem?_swap_other hcplace hcc
      by_cases hqplace : q = place
      · subst hqplace
        exact (below_congr hother hplace).mpr (hup c hq)
      · exact (below_congr hother (getElem?_swap_other hqplace hqc)).mpr
          (h.apart c q hq hcplace hqplace)
  · have hqplace : q = place := hq.unique hchild
    subst hqplace
    have hclt := hc.lt
    exact (below_congr (getElem?_swap_other (by omega) (by omega)) hplace).mpr
      (h.apart c child hc (by omega) (by omega))

/-- **Sinking** from a loose place puts a heap in order. -/
theorem sink_inOrder (hl : Lifts P le) (hle : TotalPreorder le) (hP : ∀ e ∈ heap.toList, P e)
    (hsize : place < heap.size) (h : LooseAt le heap place) :
    (sink heap place).2 = none ∧ InOrder le (sink heap place).1 ∧
      (sink heap place).1.toList.Perm heap.toList := by
  fun_induction sink heap place with
  | case1 heap place hlt err hfail =>
    obtain ⟨child, hchild, -⟩ := exists_upperChild hl hle hP hlt
    rw [hchild] at hfail
    cases hfail
  | case2 heap place hlt child hfound hin ih =>
    obtain ⟨child', hchild, hpar, hcs, hup⟩ := exists_upperChild hl hle hP hlt
    rw [hfound] at hchild
    cases hchild
    have hperm := perm_swap heap place child
    obtain ⟨hok, hord, hperm'⟩ := ih (fun a ha => hP a (hperm.mem_iff.mp ha)) (by simpa using hcs)
      (h.sink hpar hcs hup)
    exact ⟨hok, hord, hperm'.trans hperm⟩
  | case3 heap place hlt child hfound hout =>
    obtain ⟨child', hchild, hpar, hcs, -⟩ := exists_upperChild hl hle hP hlt
    rw [hfound] at hchild
    cases hchild
    exact absurd ⟨hpar.lt, hcs⟩ hout
  | case4 heap place hleaf =>
    -- a leaf has no children to stand below it
    refine rise_inOrder hl hle hP hsize h fun c hc e he => ?_
    have hclt := (Array.getElem?_eq_some_iff.mp (Option.mem_def.mp he)).1
    rcases hc.eq_left_or_right with rfl | rfl <;> omega

/-! ### Adding an entry, replacing the root -/

/-- A heap in order is loose where an entry is added to it. -/
lemma InOrder.push (h : InOrder le heap) (e : Entry α) : LooseAt le (heap.push e) heap.size := by
  have hold : ∀ i, i ≠ heap.size → (heap.push e)[i]? = heap[i]? := fun i hi => by
    rw [Array.getElem?_push, if_neg hi]
  refine ⟨fun c p hp hc hps => (below_congr (hold c hc) (hold p hps)).mpr (h c p hp), ?_⟩
  intro c p hc _ f hf
  have := hc.lt
  rw [hold c (by omega), Array.getElem?_eq_none (by omega)] at hf
  cases hf

/-- A heap in order is loose at the root when that is replaced. -/
lemma InOrder.replaceRoot (h : InOrder le heap) (e : Entry α) :
    LooseAt le (heap.setIfInBounds 0 e) 0 := by
  have hold : ∀ i, i ≠ 0 → (heap.setIfInBounds 0 e)[i]? = heap[i]? := fun i hi => by
    rw [Array.getElem?_setIfInBounds, if_neg (Ne.symm hi)]
  refine ⟨fun c p hp hc hps => (below_congr (hold c hc) (hold p hps)).mpr (h c p hp), ?_⟩
  intro c p _ hp
  exact absurd hp.1 (by omega)

/-- **The root** of a heap in order: every entry stands below it. -/
theorem InOrder.below_root (hle : TotalPreorder le) (h : InOrder le heap) (c : Nat) :
    Below le heap c 0 := by
  induction c using Nat.strongRecOn with
  | _ c ih =>
  rcases Nat.eq_zero_or_pos c with rfl | hpos
  · exact below_refl hle 0
  · have hpar : IsParent ((c - 1) / 2) c := ⟨hpos, rfl⟩
    by_cases hc : c < heap.size
    · exact (h c _ hpar).trans hle (Nat.lt_trans hpar.lt hc) (ih _ hpar.lt)
    · intro e he
      rw [Array.getElem?_eq_none (by omega)] at he
      cases he

end

end NearDoc.Heap
