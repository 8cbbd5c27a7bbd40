import Mathlib.Data.List.Nodup
import NearDoc.Proofs.Near.Heap
import NearDoc.Proofs.Value.Ordered

/-!
The selector holds what it should. Offers are ranked by key and then by arrival; the entries in
the heap are the first ones of that ranking, as many as there is room for. Main statements: an
offer and a drain keep that, and answer by the ranking.
-/

namespace NearDoc

open NearDoc.Sort

variable {α : Type} {K : Value → Prop}

namespace Entry

/-- The key of an entry is of a kind. -/
def Keyed (K : Value → Prop) (e : Entry α) : Prop := K e.key

/-- Entries in the order of their keys, and of their arrival where keys are alike. -/
def order (a b : Entry α) : Bool :=
  lexicographic (fun a b => a.key.atMost b.key) (fun a b => decide (a.arrival ≤ b.arrival)) a b

/-- The ranking of entries whose keys are of a kind. -/
noncomputable def rank (K : Value → Prop) : Entry α → Entry α → Bool := extended (Keyed K) order

lemma totalPreorderOn_order (hK : Value.OrderedKeys K) :
    TotalPreorderOn (Keyed (α := α) K) order := by
  refine TotalPreorderOn.lexicographic (hK.total.comap Entry.key fun _ h => h) ⟨?_, ?_⟩
  · intro a b _ _
    simpa using Nat.le_total a.arrival b.arrival
  · intro a b c _ _ _ hab hbc
    simp only [decide_eq_true_eq] at *
    omega

lemma totalPreorder_rank (hK : Value.OrderedKeys K) : TotalPreorder (rank (α := α) K) :=
  (totalPreorderOn_order hK).extended

lemma rank_eq {a b : Entry α} (ha : Keyed K a) (hb : Keyed K b) : rank K a b = order a b :=
  extended_of ha hb

lemma arrival_le_of_order {a b : Entry α} (hab : order a b) (hba : order b a) :
    a.arrival = b.arrival := by
  simp only [order, lexicographic, Bool.and_eq_true, Bool.or_eq_true, Bool.not_eq_true',
    decide_eq_true_eq] at hab hba
  have h1 := hab.2.resolve_left (by simp [hba.1])
  have h2 := hba.2.resolve_left (by simp [hab.1])
  omega

/-- Of two entries the later one comes behind unless its key comes before. -/
lemma order_of_arrival_le {a b : Entry α} (h : a.arrival ≤ b.arrival) :
    order a b = a.key.atMost b.key := by
  simp [order, lexicographic, h]

/-- An entry belongs above another unless it is ranked before it. -/
theorem lifts_rank (hK : Value.OrderedKeys K) :
    Heap.Lifts (Keyed (α := α) K) (rank K) := by
  intro a b ha hb
  rw [rank_eq ha hb, above, hK.equal _ _ ha hb, hK.lt_eq hb ha]
  simp only [order, lexicographic]
  cases a.key.atMost b.key <;> cases b.key.atMost a.key <;>
    simp [bind, Except.bind, pure, Except.pure, ← decide_not]

/-- An entry comes before another unless that is ranked before it. -/
theorem decides_rank (hK : Value.OrderedKeys K) :
    Decides (Keyed (α := α) K) before (rank K) := by
  intro a b ha hb
  have heq := hK.equal _ _ ha hb
  rw [rank_eq hb ha, before, heq, hK.lt_eq ha hb]
  simp only [order, lexicographic]
  split
  · rename_i hs
    rw [hK.eqv_of_isSame ha hb hs] at heq
    have hboth := (Except.ok.inj heq).symm
    simp only [Bool.and_eq_true] at hboth
    simp [hboth, pure, Except.pure, ← decide_not]
  · cases a.key.atMost b.key <;> cases b.key.atMost a.key <;>
      simp [bind, Except.bind, pure, Except.pure, ← decide_not]

end Entry

namespace Selector

/-- The first entries by rank. -/
noncomputable def best (K : Value → Prop) (n : Nat) (offered : List (Entry α)) :
    List (Entry α) := (offered.mergeSort (Entry.rank K)).take n

/-- The selector has room for `n` entries and holds the first ones of those offered to it. -/
structure Holds (K : Value → Prop) (s : Selector α) (n : Nat) (offered : List (Entry α)) :
    Prop where
  room : s.room = .upTo n
  inOrder : Heap.InOrder (Entry.rank K) s.heap
  kept : s.heap.toList.Perm (best K n offered)
  keyed : ∀ e ∈ offered, e.Keyed K
  earlier : ∀ e ∈ offered, e.arrival < s.arrivals
  distinct : (offered.map (·.arrival)).Nodup

section

variable {s : Selector α} {n : Nat} {offered : List (Entry α)}

lemma mem_best {e : Entry α} (h : e ∈ best K n offered) : e ∈ offered :=
  List.mem_mergeSort.mp (List.mem_of_mem_take h)

lemma pairwise_best (hK : Value.OrderedKeys K) (n : Nat) (offered : List (Entry α)) :
    (best K n offered).Pairwise fun a b => Entry.rank K a b :=
  ((arranges_mergeSort (Entry.totalPreorder_rank hK) offered).sorted).sublist
    (List.take_sublist _ _)

lemma length_best : (best K n offered).length = min n offered.length := by
  rw [best, List.length_take, List.length_mergeSort]

namespace Holds

lemma mem_heap (h : Holds K s n offered) {e : Entry α} (he : e ∈ s.heap.toList) :
    e ∈ offered :=
  mem_best (h.kept.mem_iff.mp he)

lemma keyed_heap (h : Holds K s n offered) : ∀ e ∈ s.heap.toList, e.Keyed K := fun e he =>
  h.keyed e (h.mem_heap he)

lemma size_eq (h : Holds K s n offered) : s.heap.size = min n offered.length := by
  rw [← Array.length_toList, h.kept.length_eq, length_best]

/-- No two entries offered have one rank. -/
lemma antisymm (h : Holds K s n offered) {a b : Entry α} (ha : a ∈ offered) (hb : b ∈ offered)
    (hab : Entry.rank K a b) (hba : Entry.rank K b a) : a = b := by
  rw [Entry.rank_eq (h.keyed a ha) (h.keyed b hb)] at hab
  rw [Entry.rank_eq (h.keyed b hb) (h.keyed a ha)] at hba
  exact List.inj_on_of_nodup_map h.distinct ha hb (Entry.arrival_le_of_order hab hba)

/-- The root is the last of the first entries. -/
lemma root_eq (hK : Value.OrderedKeys K) (h : Holds K s n offered) :
    s.heap[0]? = (best K n offered).getLast? := by
  rcases hlast : (best K n offered).getLast? with _ | last
  · have hnil : best K n offered = [] := by simpa using hlast
    have hlen := h.kept.length_eq
    rw [hnil] at hlen
    simpa using hlen
  · have hlm : last ∈ best K n offered := List.mem_of_getLast? hlast
    have hlh : last ∈ s.heap.toList := h.kept.mem_iff.mpr hlm
    obtain ⟨i, hi, hil⟩ := Array.getElem_of_mem (Array.mem_toList_iff.mp hlh)
    have hpos : 0 < s.heap.size := by omega
    have hroot : s.heap[0] ∈ s.heap.toList := Array.mem_toList_iff.mpr (Array.getElem_mem hpos)
    have hbelow : Entry.rank K last s.heap[0] :=
      h.inOrder.below_root (Entry.totalPreorder_rank hK) i _ (by simp [hi, hil]) _ (by simp [hpos])
    have habove : Entry.rank K s.heap[0] last := by
      obtain ⟨front, hfront⟩ := List.getLast?_eq_some_iff.mp hlast
      have hs := pairwise_best hK n offered
      have hrm := h.kept.mem_iff.mp hroot
      rw [hfront] at hs hrm
      rcases List.mem_append.mp hrm with hrm | hrm
      · exact (List.pairwise_append.mp hs).2.2 _ hrm _ (by simp)
      · rw [List.mem_singleton.mp hrm]
        exact (Entry.totalPreorder_rank hK).refl last
    rw [h.antisymm (h.mem_heap hlh) (h.mem_heap hroot) hbelow habove]
    simp [hpos]

end Holds

/-! ### Offers -/

/-- One more entry is ranked by merging it into the ranking. -/
lemma mergeSort_append_singleton (hK : Value.OrderedKeys K) (e : Entry α) :
    (offered ++ [e]).mergeSort (Entry.rank K) =
      (offered.mergeSort (Entry.rank K)).merge [e] (Entry.rank K) := by
  have hle := Entry.totalPreorder_rank (α := α) hK
  exact (((arranges_mergeSort hle offered).merge hle (.of_sorted (by simp))).eq_mergeSort hle).symm

/-- With room for all, all are among the first. -/
lemma best_of_length_le (h : offered.length ≤ n) :
    best K n offered = offered.mergeSort (Entry.rank K) :=
  List.take_of_length_le (by rwa [List.length_mergeSort])

lemma merge_singleton_before {le : Entry α → Entry α → Bool} {front rest : List (Entry α)}
    {last e : Entry α} (h : le last e = false) :
    (front ++ last :: rest).merge [e] le = front.merge [e] le ++ last :: rest := by
  induction front with
  | nil => simp [h]
  | cons a front ih =>
    by_cases ha : le a e
    · simp [ha, ih]
    · simp [ha]

lemma merge_singleton_behind {le : Entry α → Entry α → Bool} {front rest : List (Entry α)}
    {e : Entry α} (h : ∀ a ∈ front, le a e) :
    (front ++ rest).merge [e] le = front ++ rest.merge [e] le := by
  induction front with
  | nil => rfl
  | cons a front ih =>
    rw [List.forall_mem_cons] at h
    simp [h.1, ih h.2]

/-- Without room an entry takes the place of the last one if it is ranked before it, and is not
among the first otherwise. -/
lemma best_append_singleton (hK : Value.OrderedKeys K) {front : List (Entry α)}
    {last : Entry α} (hbest : best K n offered = front ++ [last]) (hfull : n ≤ offered.length)
    (e : Entry α) :
    best K n (offered ++ [e]) =
      if Entry.rank K last e then front ++ [last] else front.merge [e] (Entry.rank K) := by
  have hlen : n = front.length + 1 := by
    have := congrArg List.length hbest
    rw [length_best] at this
    simp at this
    omega
  have hsplit : offered.mergeSort (Entry.rank K) =
      front ++ last :: (offered.mergeSort (Entry.rank K)).drop n := by
    rw [List.append_cons, ← hbest, best, List.take_append_drop]
  have hs := pairwise_best hK n offered
  rw [hbest] at hs
  rw [best, mergeSort_append_singleton hK, hsplit]
  split
  · rename_i hle
    have hall : ∀ a ∈ front ++ [last], Entry.rank K a e := fun a ha => by
      rcases List.mem_append.mp ha with ha | ha
      · exact (Entry.totalPreorder_rank hK).trans _ _ _
          ((List.pairwise_append.mp hs).2.2 a ha last (by simp)) hle
      · rwa [List.mem_singleton.mp ha]
    rw [List.append_cons, merge_singleton_behind hall]
    exact List.take_left' (by simp [hlen])
  · rename_i hlt
    rw [merge_singleton_before (by simpa using hlt)]
    exact List.take_left' (by simp [hlen, List.length_merge])

namespace Holds

/-- The entry that an offer makes. -/
def entryOf (s : Selector α) (key : Value) (item : α) : Entry α := ⟨key, s.arrivals, item⟩

/-- While there is room an entry is put below the others and rises. -/
lemma offer_of_admits (hnone : s.room.isNone = false) (hadmits : s.room.admits s.size = true)
    (key : Value) (item : α) :
    s.offer key item =
      ({ s with
          heap := (Heap.rise (s.heap.push (entryOf s key item)) s.size).1
          arrivals := s.arrivals + 1 },
        (Heap.rise (s.heap.push (entryOf s key item)) s.size).2.elim (.ok true) .error) := by
  unfold offer
  rw [if_neg (by simp [hnone])]
  exact if_pos hadmits

/-- Without room a smaller key takes the place of the root's. -/
lemma offer_of_full {root : Entry α} {key : Value} {smaller : Bool}
    (hnone : s.room.isNone = false) (hadmits : s.room.admits s.size = false)
    (hroot : s.heap[0]? = some root) (hlt : key.lt root.key = .ok smaller) (item : α) :
    s.offer key item =
      if smaller then
        ({ s with
            heap := (Heap.sink (s.heap.setIfInBounds 0 (entryOf s key item)) 0).1
            arrivals := s.arrivals + 1 },
          (Heap.sink (s.heap.setIfInBounds 0 (entryOf s key item)) 0).2.elim (.ok true) .error)
      else ({ s with arrivals := s.arrivals + 1 }, .ok false) := by
  unfold offer
  rw [if_neg (by simp [hnone])]
  refine (if_neg (Bool.eq_false_iff.mp hadmits)).trans ?_
  simp only [hroot, hlt]
  cases smaller <;> rfl

lemma isNone_room (h : Holds K s n offered) (hpos : 0 < n) : s.room.isNone = false := by
  rw [h.room]
  cases n with
  | zero => simp at hpos
  | succ n => rfl

lemma admits_size (h : Holds K s n offered) :
    s.room.admits s.size = decide (s.heap.size < n) := by
  rw [h.room]
  rfl

lemma distinct_append (h : Holds K s n offered) (key : Value) (item : α) :
    ((offered ++ [entryOf s key item]).map (·.arrival)).Nodup := by
  rw [List.map_append, List.nodup_append]
  refine ⟨h.distinct, by simp, ?_⟩
  intro a ha b hb hab
  obtain ⟨e, he, rfl⟩ := List.mem_map.mp ha
  have := h.earlier e he
  simp only [entryOf, List.map_cons, List.map_nil, List.mem_singleton] at hb
  omega

/-- The next state after an offer holds the first entries, provided its heap does. -/
lemma next (h : Holds K s n offered) {key : Value} {item : α} (hkey : K key)
    {heap : Array (Entry α)} (ho : Heap.InOrder (Entry.rank K) heap)
    (hp : heap.toList.Perm (best K n (offered ++ [entryOf s key item]))) :
    Holds K { s with heap, arrivals := s.arrivals + 1 } n (offered ++ [entryOf s key item]) where
  room := h.room
  inOrder := ho
  kept := hp
  keyed e he := by
    rcases List.mem_append.mp he with he | he
    · exact h.keyed e he
    · rw [List.mem_singleton.mp he]
      exact hkey
  earlier e he := by
    rcases List.mem_append.mp he with he | he
    · exact Nat.lt_succ_of_lt (h.earlier e he)
    · rw [List.mem_singleton.mp he]
      exact Nat.lt_succ_self _
  distinct := h.distinct_append key item

/-- **With room** an entry is kept. -/
lemma offer_admitted (hK : Value.OrderedKeys K) (h : Holds K s n offered) (hroom : s.heap.size < n)
    {key : Value} (hkey : K key) (item : α) :
    ∃ s', s.offer key item = (s', .ok true) ∧ s'.arrivals = s.arrivals + 1 ∧
      Holds K s' n (offered ++ [entryOf s key item]) ∧
      entryOf s key item ∈ best K n (offered ++ [entryOf s key item]) := by
  have hlen : (offered ++ [entryOf s key item]).length ≤ n := by
    have := h.size_eq
    rw [List.length_append, List.length_singleton]
    omega
  have hmem : ∀ e ∈ (s.heap.push (entryOf s key item)).toList, e.Keyed K := fun e he => by
    rw [Array.toList_push] at he
    rcases List.mem_append.mp he with he | he
    · exact h.keyed_heap e he
    · rw [List.mem_singleton.mp he]
      exact hkey
  obtain ⟨hok, hord, hperm⟩ := Heap.rise_inOrder (Entry.lifts_rank hK) (Entry.totalPreorder_rank hK)
    hmem (by simp) (h.inOrder.push (entryOf s key item)) fun c hc e he => by
      have := hc.lt
      rw [Array.getElem?_eq_none (by simp; omega)] at he
      cases he
  have hall : (s.heap.push (entryOf s key item)).toList.Perm
      (best K n (offered ++ [entryOf s key item])) := by
    rw [best_of_length_le hlen, Array.toList_push]
    have hold := h.kept
    rw [best_of_length_le (by simp at hlen; omega)] at hold
    exact ((hold.trans (List.mergeSort_perm _ _)).append_right _).trans
      (List.mergeSort_perm _ _).symm
  refine ⟨_, ?_, rfl, h.next hkey hord (hperm.trans hall), hall.mem_iff.mp (by simp)⟩
  have hok' : (Heap.rise (s.heap.push (entryOf s key item)) s.size).2 = none := hok
  have hadmits := h.admits_size
  rw [decide_eq_true hroom] at hadmits
  rw [offer_of_admits (h.isNone_room (by omega)) hadmits, hok']
  rfl

/-- The heap with its root replaced has the new entry and those ranked before the root. -/
lemma perm_setRoot {front : List (Entry α)} {root : Entry α} {heap : Array (Entry α)}
    (hroot : heap[0]? = some root) (hperm : heap.toList.Perm (front ++ [root])) (e : Entry α) :
    (heap.setIfInBounds 0 e).toList.Perm (front ++ [e]) := by
  rw [Array.toList_setIfInBounds]
  rw [← Array.getElem?_toList] at hroot
  rcases hl : heap.toList with _ | ⟨a, rest⟩
  · simp [hl] at hroot
  · rw [hl] at hroot hperm
    have ha : a = root := by simpa using hroot
    subst ha
    have hrest : rest.Perm front :=
      (List.perm_cons a).mp (hperm.trans (List.perm_append_singleton a front))
    rw [List.set_cons_zero]
    exact (hrest.cons e).trans (List.perm_append_singleton e front).symm

/-- **Without room** an entry is kept if its key comes before the largest one. -/
lemma offer_full (hK : Value.OrderedKeys K) (h : Holds K s n offered) (hpos : 0 < n)
    (hfull : s.heap.size = n) {key : Value} (hkey : K key) (item : α) :
    ∃ s' kept, s.offer key item = (s', .ok kept) ∧ s'.arrivals = s.arrivals + 1 ∧
      Holds K s' n (offered ++ [entryOf s key item]) ∧
      (kept = true ↔ entryOf s key item ∈ best K n (offered ++ [entryOf s key item])) := by
  have hroot : s.heap[0]? = some s.heap[0] := by simp [hfull, hpos]
  generalize s.heap[0] = root at hroot
  have hlast := hroot.symm.trans (h.root_eq hK)
  obtain ⟨front, hbest⟩ := List.getLast?_eq_some_iff.mp hlast.symm
  have hrm : root ∈ offered := mem_best (K := K) (n := n) (by simp [hbest])
  have hbest' := best_append_singleton hK hbest (by have := h.size_eq; omega) (entryOf s key item)
  have hrank : Entry.rank K root (entryOf s key item) = root.key.atMost key := by
    have hkeyed : (entryOf s key item).Keyed K := hkey
    rw [Entry.rank_eq (h.keyed root hrm) hkeyed, Entry.order_of_arrival_le]
    · rfl
    · exact Nat.le_of_lt (h.earlier root hrm)
  have hadmits := h.admits_size
  rw [decide_eq_false (by omega)] at hadmits
  have hlt := hK.lt_eq hkey (h.keyed root hrm)
  rw [offer_of_full (h.isNone_room hpos) hadmits hroot hlt]
  rw [hrank] at hbest'
  rcases hle : root.key.atMost key with _ | _
  · -- the root makes room
    simp only [hle, Bool.false_eq_true, if_false] at hbest'
    have hset := perm_setRoot hroot (hbest ▸ h.kept) (entryOf s key item)
    have hmem : ∀ e ∈ (s.heap.setIfInBounds 0 (entryOf s key item)).toList, e.Keyed K :=
      fun e he => by
        rcases List.mem_append.mp (hset.mem_iff.mp he) with he | he
        · exact h.keyed e (mem_best (K := K) (n := n) (by simp [hbest, he]))
        · rw [List.mem_singleton.mp he]
          exact hkey
    obtain ⟨hok, hord, hperm⟩ := Heap.sink_inOrder (Entry.lifts_rank hK)
      (Entry.totalPreorder_rank hK) hmem (by simp [hfull, hpos])
      (h.inOrder.replaceRoot (entryOf s key item))
    have hall := hperm.trans (hset.trans (List.merge_perm_append (Entry.rank K)).symm)
    rw [← hbest'] at hall
    refine ⟨_, true, ?_, rfl, h.next hkey hord hall, iff_of_true rfl ?_⟩
    · simp only [Bool.not_false, hok]
      rfl
    · rw [hbest', List.mem_merge]
      simp
  · simp only [hle, if_true] at hbest'
    refine ⟨_, false, rfl, rfl, h.next hkey h.inOrder (by rw [hbest', ← hbest]; exact h.kept),
      iff_of_false (by simp) fun hmem => ?_⟩
    rw [hbest', ← hbest] at hmem
    exact Nat.lt_irrefl _ (h.earlier _ (mem_best hmem))

/-- **Offers**: an entry is kept exactly if it is among the first ones with it. -/
theorem offer (hK : Value.OrderedKeys K) (h : Holds K s n offered) (hpos : 0 < n)
    {key : Value} (hkey : K key) (item : α) :
    ∃ s' kept, s.offer key item = (s', .ok kept) ∧ s'.arrivals = s.arrivals + 1 ∧
      Holds K s' n (offered ++ [entryOf s key item]) ∧
      (kept = true ↔ entryOf s key item ∈ best K n (offered ++ [entryOf s key item])) := by
  rcases Nat.lt_or_ge s.heap.size n with hroom | hfull
  · obtain ⟨s', hs', harr, hh, hmem⟩ := h.offer_admitted hK hroom hkey item
    exact ⟨s', true, hs', harr, hh, iff_of_true rfl hmem⟩
  · exact h.offer_full hK hpos (by have := h.size_eq; omega) hkey item

/-- **Draining** answers the first entries in their order and leaves nothing. -/
theorem drain (hK : Value.OrderedKeys K) (h : Holds K s n offered) :
    s.drain = ({ s with heap := #[] }, .ok ((best K n offered).map fun e => (e.key, e.item))) ∧
      Holds K ({ s with heap := #[] } : Selector α) n [] := by
  have hle := Entry.totalPreorder_rank (α := α) hK
  have hsort : Sort.sort Entry.before s.heap.toList = .ok (best K n offered) := by
    have hdec : Decides (Entry.Keyed K) Entry.before (Entry.rank (α := α) K) :=
      Entry.decides_rank hK
    have hon : TotalPreorderOn (Entry.Keyed (α := α) K) (Entry.rank K) :=
      ⟨fun a b _ _ => hle.total a b, fun a b c _ _ _ => hle.trans a b c⟩
    rw [sort_eq_mergeSort hdec hon h.keyed_heap]
    congr 1
    have hs := (arranges_mergeSort hle s.heap.toList).sorted
    refine List.Perm.eq_of_pairwise (fun a b ha hb => ?_) hs (pairwise_best hK n offered)
      ((List.mergeSort_perm _ _).trans h.kept)
    exact h.antisymm (h.mem_heap (List.mem_mergeSort.mp ha)) (mem_best hb)
  refine ⟨by rw [Selector.drain, hsort], h.room, ?_, by simp [best], by simp, by simp, by simp⟩
  intro c p _ e he
  simp at he

end Holds

end

/-- A selector that keeps nothing yet holds what was offered to it. -/
lemma holds_empty (K : Value → Prop) (n : Nat) : Holds K (.empty (α := α) (.upTo n)) n [] := by
  refine ⟨rfl, ?_, by simp [best, empty], by simp, by simp, by simp⟩
  intro c p _ e he
  simp [empty] at he

end Selector

end NearDoc
