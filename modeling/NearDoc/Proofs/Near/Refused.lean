import Mathlib.Order.Monotone.Basic
import NearDoc.Proofs.Near.Failure
import NearDoc.Proofs.Near.Requests
import NearDoc.Proofs.Sort.Natural

/-!
Offers that are refused by a failure. A full selector compares the key offered with the largest one
before it touches its entries, and is left as it was when that fails; where there is room the entry
is put in before it is compared, and a key that is smaller than the largest takes its place before
it is compared with the others. Main statement: what every refused offer leaves behind, and that
later requests do not notice it just when a full selector has failed on its largest key.
-/

namespace NearDoc

open scoped List

variable {α : Type} {g : Nat → Nat}

/-! ### Other arrivals -/

namespace Entry

/-- The entry with another number of offers before it. -/
def renumber (g : Nat → Nat) (e : Entry α) : Entry α := { e with arrival := g e.arrival }

lemma above_renumber (hg : StrictMono g) (a b : Entry α) :
    (a.renumber g).above (b.renumber g) = a.above b := by
  simp only [above, renumber, hg.lt_iff_lt]

lemma carries_renumber (hg : StrictMono g) : Sort.Carries (renumber (α := α) g) before before :=
  fun a b => by simp only [before, renumber, hg.lt_iff_lt]

lemma renumber_of_eq {e : Entry α} (h : g e.arrival = e.arrival) : e.renumber g = e := by
  rw [renumber, h]

end Entry

namespace Heap

open Entry

lemma swap_map (heap : Array (Entry α)) (i j : Nat) :
    (heap.map (renumber g)).swapIfInBounds i j = (heap.swapIfInBounds i j).map (renumber g) := by
  simp only [Array.swapIfInBounds_def, Array.size_map]
  split
  · split
    · simp [Array.swap_def]
    · rfl
  · rfl

lemma rise_map (hg : StrictMono g) (heap : Array (Entry α)) (place : Nat) :
    rise (heap.map (renumber g)) place =
      ((rise heap place).1.map (renumber g), (rise heap place).2) := by
  fun_induction rise heap place with
  | case1 heap place hpos parent e p hp he err hfail =>
    rw [rise.eq_def]
    simp [hpos, hp, he, above_renumber hg, hfail, parent]
  | case2 heap place hpos parent e p hp he hup =>
    rw [rise.eq_def]
    simp [hpos, hp, he, above_renumber hg, hup, parent]
  | case3 heap place hpos parent e p hp he hup ih =>
    rw [rise.eq_def]
    simpa [hpos, hp, he, above_renumber hg, hup, parent, swap_map] using ih
  | case4 heap place hpos parent hnone =>
    rw [rise.eq_def]
    simp only [if_pos hpos, Array.getElem?_map]
    rcases he : heap[place]? with _ | e
    · rfl
    · rcases hp : heap[(place - 1) / 2]? with _ | p
      · rfl
      · exact (hnone e p he hp).elim
  | case5 heap place hpos =>
    rw [rise.eq_def]
    simp [hpos]

lemma upperChild_map (hg : StrictMono g) (heap : Array (Entry α)) (place : Nat) :
    upperChild (heap.map (renumber g)) place = upperChild heap place := by
  simp only [upperChild, Array.getElem?_map]
  rcases heap[2 * place + 1]? with _ | l
  · rfl
  · rcases heap[2 * place + 1 + 1]? with _ | r
    · rfl
    · simp only [Option.map_some, above_renumber hg]

lemma sink_map (hg : StrictMono g) (heap : Array (Entry α)) (place : Nat) :
    sink (heap.map (renumber g)) place =
      ((sink heap place).1.map (renumber g), (sink heap place).2) := by
  fun_induction sink heap place with
  | case1 heap place hlt err hfail =>
    rw [sink.eq_def]
    simp [hlt, upperChild_map hg, hfail]
  | case2 heap place hlt child hchild hin ih =>
    rw [sink.eq_def]
    simpa [hlt, upperChild_map hg, hchild, hin, swap_map] using ih
  | case3 heap place hlt child hchild hout =>
    rw [sink.eq_def]
    simp only [Array.size_map, if_pos hlt, upperChild_map hg, hchild, if_neg hout]
  | case4 heap place hleaf =>
    rw [sink.eq_def]
    simp only [Array.size_map, if_neg hleaf, rise_map hg]

end Heap

namespace Selector

open Entry Heap

/-! ### What an offer does -/

/-- The selector after an offer whose entry has moved through the heap. -/
def moved (s : Selector α) (r : HeapResult α) : Selector α × Except Error Bool :=
  ({ s with heap := r.1, arrivals := s.arrivals + 1 }, r.2.elim (.ok true) .error)

/-- The selector after an offer that has not touched the heap. -/
def counted (s : Selector α) : Selector α := { s with arrivals := s.arrivals + 1 }

lemma offer_eq (s : Selector α) (key : Value) (item : α) :
    s.offer key item =
      if s.room.isNone then (s, .ok false)
      else if s.room.admits s.size then
        s.moved (rise (s.heap.push ⟨key, s.arrivals, item⟩) s.size)
      else
        match s.heap[0]? with
        | none => (s.counted, .error .emptySelector)
        | some root =>
          match key.lt root.key with
          | .error e => (s.counted, .error e)
          | .ok false => (s.counted, .ok false)
          | .ok true => s.moved (sink (s.heap.setIfInBounds 0 ⟨key, s.arrivals, item⟩) 0) := rfl

/-! ### Selectors that answer alike -/

/-- No requests are answered otherwise by one selector than by the other, and after them both hold
as many entries and the same largest key. -/
def Alike (s t : Selector α) : Prop :=
  ∀ requests : List (Request α), (s.serveAll requests).2 = (t.serveAll requests).2 ∧
    (s.serveAll requests).1.size = (t.serveAll requests).1.size ∧
    (s.serveAll requests).1.largest = (t.serveAll requests).1.largest

/-- The entries of the selectors differ in their arrivals only, which are in the same order, and
those of later entries will be, too. -/
structure Renumbers (g : Nat → Nat) (s t : Selector α) : Prop where
  room : t.room = s.room
  heap : t.heap = s.heap.map (renumber g)
  later : ∀ n, g (s.arrivals + n) = t.arrivals + n

namespace Renumbers

variable {s t : Selector α}

lemma size_eq (h : Renumbers g s t) : t.size = s.size := by
  rw [size, size, h.heap, Array.size_map]

lemma largest_eq (h : Renumbers g s t) : t.largest = s.largest := by
  rw [largest, largest, h.heap, Array.getElem?_map]
  cases s.heap[0]? <;> rfl

lemma next (h : Renumbers g s t) (n : Nat) : g (s.arrivals + 1 + n) = t.arrivals + 1 + n := by
  rw [Nat.add_assoc, Nat.add_assoc, h.later]

lemma counted (h : Renumbers g s t) : Renumbers g s.counted t.counted := ⟨h.room, h.heap, h.next⟩

lemma moved (h : Renumbers g s t) {r r' : HeapResult α}
    (hr : r' = (r.1.map (renumber g), r.2)) :
    Renumbers g (s.moved r).1 (t.moved r').1 ∧ (t.moved r').2 = (s.moved r).2 := by
  subst hr
  exact ⟨⟨h.room, rfl, h.next⟩, rfl⟩

lemma offer (hg : StrictMono g) (h : Renumbers g s t) (key : Value) (item : α) :
    Renumbers g (s.offer key item).1 (t.offer key item).1 ∧
      (t.offer key item).2 = (s.offer key item).2 := by
  have hentry : (⟨key, t.arrivals, item⟩ : Entry α) = renumber g ⟨key, s.arrivals, item⟩ := by
    rw [renumber, show g s.arrivals = t.arrivals from h.later 0]
  have hrise := rise_map hg (s.heap.push ⟨key, s.arrivals, item⟩) s.size
  have hsink := sink_map hg (s.heap.setIfInBounds 0 ⟨key, s.arrivals, item⟩) 0
  rw [Array.map_push, ← hentry, ← h.heap] at hrise
  rw [Array.map_setIfInBounds, ← hentry, ← h.heap] at hsink
  have hroot : t.heap[0]? = s.heap[0]?.map (renumber g) := by rw [h.heap, Array.getElem?_map]
  rw [offer_eq, offer_eq, h.room, h.size_eq]
  split
  · exact ⟨h, rfl⟩
  · split
    · exact h.moved hrise
    · rw [hroot]
      rcases s.heap[0]? with _ | root
      · exact ⟨h.counted, rfl⟩
      · simp only [Option.map_some, renumber]
        rcases key.lt root.key with e | _ | _
        · exact ⟨h.counted, rfl⟩
        · exact ⟨h.counted, rfl⟩
        · exact h.moved hsink

lemma drain (hg : StrictMono g) (h : Renumbers g s t) :
    Renumbers g s.drain.1 t.drain.1 ∧ t.drain.2 = s.drain.2 := by
  have hsort := Sort.sort_map (carries_renumber hg) s.heap.toList
  rw [← Array.toList_map, ← h.heap] at hsort
  unfold Selector.drain
  rw [hsort]
  rcases Sort.sort before s.heap.toList with e | entries
  · exact ⟨h, rfl⟩
  · refine ⟨⟨h.room, by simp [Except.map], h.later⟩, ?_⟩
    simp [Except.map, renumber, Function.comp_def]

lemma serve (hg : StrictMono g) (h : Renumbers g s t) (r : Request α) :
    Renumbers g (s.serve r).1 (t.serve r).1 ∧ (t.serve r).2 = (s.serve r).2 := by
  cases r with
  | offer key item =>
    obtain ⟨hnext, hanswer⟩ := h.offer hg key item
    exact ⟨hnext, congrArg (Except.map _) hanswer⟩
  | drain =>
    obtain ⟨hnext, hanswer⟩ := h.drain hg
    exact ⟨hnext, congrArg (Except.map _) hanswer⟩

lemma serveAll (hg : StrictMono g) (h : Renumbers g s t) (requests : List (Request α)) :
    Renumbers g (s.serveAll requests).1 (t.serveAll requests).1 ∧
      (t.serveAll requests).2 = (s.serveAll requests).2 := by
  induction requests generalizing s t with
  | nil => exact ⟨h, rfl⟩
  | cons r requests ih =>
    obtain ⟨hnext, hanswer⟩ := h.serve hg r
    obtain ⟨hrest, hanswers⟩ := ih hnext
    exact ⟨hrest, congrArg₂ List.cons hanswer hanswers⟩

theorem alike (hg : StrictMono g) (h : Renumbers g s t) : Alike t s := fun requests =>
  have ⟨hafter, hanswers⟩ := h.serveAll hg requests
  ⟨hanswers, hafter.size_eq, hafter.largest_eq⟩

end Renumbers

/-- An offer that has not touched the heap is not noticed later. -/
theorem alike_counted {s : Selector α} (h : ∀ e ∈ s.heap.toList, e.arrival < s.arrivals) :
    Alike s.counted s := by
  -- the entries keep their arrivals, those to come get theirs one later
  let g : Nat → Nat := fun n => if n < s.arrivals then n else n + 1
  have hg : StrictMono g := fun m n hmn => by
    simp only [g]
    split <;> split <;> omega
  refine Renumbers.alike hg ⟨rfl, ?_, fun n => ?_⟩
  · have hkeep : ∀ e ∈ s.heap, renumber g e = e := fun e he =>
      renumber_of_eq (if_pos (h e (Array.mem_toList_iff.mpr he)))
    exact ((Array.map_congr_left hkeep).trans (Array.map_id' _)).symm
  · simp only [g, counted]
    split <;> omega

/-! ### Runs -/

/-- The key and the item of an offer. -/
def Request.pair? : Request α → Option (Value × α)
  | .offer key item => some (key, item)
  | .drain => none

/-- What a selector for `n` entries is like after some offers. -/
structure Filled (n : Nat) (offered : List (Value × α)) (s : Selector α) : Prop where
  room : s.room = .upTo n
  size : s.size ≤ n
  earlier : ∀ e ∈ s.heap.toList, e.arrival < s.arrivals
  kept : s.kept <+~ offered

section

variable {n : Nat} {offered : List (Value × α)} {s : Selector α} {key : Value} {item : α}

lemma filled_empty (n : Nat) : Filled n [] (.empty (α := α) (.upTo n)) where
  room := rfl
  size := Nat.zero_le n
  earlier := by simp [empty]
  kept := .refl _

lemma Filled.more (h : Filled n offered s) (pair : Value × α) : Filled n (offered ++ [pair]) s :=
  ⟨h.room, h.size, h.earlier, h.kept.trans (List.sublist_append_left ..).subperm⟩

lemma Filled.counted (h : Filled n offered s) (pair : Value × α) :
    Filled n (offered ++ [pair]) s.counted where
  room := h.room
  size := h.size
  earlier e he := Nat.lt_succ_of_lt (h.earlier e he)
  kept := (h.more pair).kept

/-- An entry of the next heap was in the last one or is the new one. -/
lemma Filled.moved (h : Filled n offered s) {r : HeapResult α} (hsize : r.1.size ≤ n)
    (hr : r.1.toList <+~ ⟨key, s.arrivals, item⟩ :: s.heap.toList) :
    Filled n (offered ++ [(key, item)]) (s.moved r).1 where
  room := h.room
  size := hsize
  earlier e he := by
    rcases List.mem_cons.mp (hr.subset he) with rfl | he
    · exact Nat.lt_succ_self _
    · exact Nat.lt_succ_of_lt (h.earlier e he)
  kept := by
    have hpairs : r.1.toList.map pair <+~ (key, item) :: s.kept := by
      obtain ⟨l, hl, hsub⟩ := hr
      exact ⟨l.map pair, hl.map pair, hsub.map pair⟩
    exact (hpairs.trans ((List.subperm_cons _).mpr h.kept)).trans
      (List.perm_append_singleton ..).symm.subperm

/-- An offer may fail, but it leaves a selector of the same kind. -/
lemma Filled.offer (h : Filled n offered s) (key : Value) (item : α) :
    Filled n (offered ++ [(key, item)]) (s.offer key item).1 := by
  rw [offer_eq]
  split
  · exact h.more _
  · split
    · rename_i hadmits
      have hlt : s.size < n := by simpa [h.room, Room.admits] using hadmits
      refine h.moved ?_ ((perm_rise ..).trans (perm_push ..)).subperm
      rw [size_rise, Array.size_push]
      exact hlt
    · rcases hroot : s.heap[0]? with _ | root
      · exact h.counted _
      · dsimp only
        rcases key.lt root.key with e | _ | _
        · exact h.counted _
        · exact h.counted _
        · obtain ⟨rest, hheap, hset⟩ := exists_root_cons hroot
          refine h.moved ?_ ((perm_sink ..).subperm.trans ?_)
          · rw [size_sink, Array.size_setIfInBounds]
            exact h.size
          · rw [hset, hheap]
            exact ((List.sublist_cons_self ..).cons_cons _).subperm

lemma Filled.drain (h : Filled n offered s) : Filled n offered s.drain.1 := by
  unfold Selector.drain
  split
  · exact h
  · exact ⟨h.room, Nat.zero_le n, by simp, (List.nil_sublist _).subperm⟩

lemma Filled.serveAll (h : Filled n offered s) (requests : List (Request α)) :
    Filled n (offered ++ requests.filterMap Request.pair?) (s.serveAll requests).1 := by
  induction requests generalizing s offered with
  | nil => rwa [List.filterMap_nil, List.append_nil]
  | cons r requests ih =>
    cases r with
    | offer key item =>
      have hmore := ih (h.offer key item)
      rwa [List.append_assoc] at hmore
    | drain => exact ih h.drain

/-! ### Refused offers -/

/-- What an offer that is refused by a failure leaves behind. -/
inductive Refusal (n : Nat) (s : Selector α) (key : Value) (item : α) (e : Error)
    (s' : Selector α) : Prop where
  /-- The selector is full and the key fails against the largest one: nothing is noticed later. -/
  | atRoot (full : s.size = n) (fails : key.lt s.largest = .error e) (alike : Alike s' s)
  /-- There is room: the item is kept although its key does not compare with all others. -/
  | rising (room : s.size < n)
      (clash : ¬ Value.Together (fun _ => False) (key :: s.kept.map Prod.fst))
      (kept : s'.kept ~ (key, item) :: s.kept)
  /-- The selector is full and the key is smaller than the largest one: the item is kept in the
  place of that one although its key does not compare with all others. -/
  | sinking (full : s.size = n) (smaller : key.lt s.largest = .ok true) (root : Value × α)
      (rest : List (Value × α)) (before : s.kept = root :: rest)
      (clash : ¬ Value.Together (fun _ => False) (key :: rest.map Prod.fst))
      (kept : s'.kept ~ (key, item) :: rest)

lemma largest_of_root {root : Entry α} (h : s.heap[0]? = some root) : s.largest = root.key := by
  rw [largest, h]
  rfl

lemma Filled.refusal (h : Filled n offered s) {e : Error} (he : (s.offer key item).2 = .error e) :
    Refusal n s key item e (s.offer key item).1 := by
  rw [offer_eq] at he ⊢
  split at he
  · cases he
  · rename_i hnone
    split at he
    · rename_i hadmits
      have hlt : s.size < n := by simpa [h.room, Room.admits] using hadmits
      rw [if_neg hnone, if_pos hadmits]
      have hpush := perm_push s.heap ⟨key, s.arrivals, item⟩
      refine .rising hlt (fun hall => ?_) (((perm_rise ..).trans hpush).map pair)
      rw [keys_kept] at hall
      exact rise_fails (hall.perm (hpush.map Entry.key)) (eq_some_of_elim_error he)
    · rename_i hadmits
      have hfull : s.size = n := by
        have hle : ¬ s.size < n := by simpa [h.room, Room.admits] using hadmits
        exact Nat.le_antisymm h.size (Nat.not_lt.mp hle)
      rw [if_neg hnone, if_neg hadmits]
      rcases hroot : s.heap[0]? with _ | root
      · -- there is room for an entry, so that a full selector has one
        have hsize : s.size = 0 := by simpa [Selector.size] using hroot
        simp [h.room, ← hfull, hsize, Room.isNone] at hnone
      · simp only [hroot] at he ⊢
        rw [← largest_of_root hroot] at he ⊢
        rcases hlt : key.lt s.largest with e' | _ | _
        · rw [hlt] at he
          cases he
          exact .atRoot hfull hlt (alike_counted h.earlier)
        · rw [hlt] at he
          cases he
        · rw [hlt] at he
          obtain ⟨rest, hheap, hset⟩ := exists_root_cons hroot
          have hsink := perm_sink (s.heap.setIfInBounds 0 ⟨key, s.arrivals, item⟩) 0
          rw [hset] at hsink
          refine .sinking hfull hlt (pair root) (rest.map pair) (by rw [Selector.kept, hheap]; rfl)
            (fun hall => ?_) (hsink.map pair)
          refine sink_fails (Q := fun _ => False) ?_ (eq_some_of_elim_error he)
          rw [Heap.keys, hset, List.map_cons]
          rwa [List.map_map] at hall

/-- Selectors that answer alike keep the same, if one of them can be drained: a drain tells it. -/
lemma kept_of_alike {s' : Selector α} (h : Alike s' s)
    (hkeys : Value.Together (fun _ => False) (s.kept.map Prod.fst)) : s'.kept ~ s.kept := by
  have hanswer : s'.drain.2.map Answer.drained = s.drain.2.map .drained :=
    (List.cons.inj (h [.drain]).1).1
  have hdrain := drain_meets hkeys
  rcases hs : s.drain.2 with e | ranked
  · exact (hdrain.error hs).elim
  · rw [hs] at hanswer
    obtain ⟨ranked', hs', hsame⟩ := map_eq_ok.mp hanswer
    cases hsame
    have hdrain' := drain_meets (Q := fun _ => True) (s := s')
      (List.pairwise_of_forall fun _ _ _ _ => trivial)
    exact (hdrain'.ok hs').symm.trans (hdrain.ok hs)

/-- **Refused offers**: after any run of offers and drains whose keys compare with each other, an
offer that fails has either failed on the largest key of a full selector or left the refused item
among those kept; and it is only then that no later request notices it. -/
theorem offer_refused {requests : List (Request α)}
    (hkeys : Value.Together (fun _ => False) ((requests.filterMap Request.pair?).map Prod.fst))
    (hs : ((empty (.upTo n)).serveAll requests).1 = s) {e : Error}
    (he : (s.offer key item).2 = .error e) :
    Refusal n s key item e (s.offer key item).1 ∧
      (Alike (s.offer key item).1 s ↔ s.size = n ∧ key.lt s.largest = .error e) := by
  have hfilled : Filled n (requests.filterMap Request.pair?) s := by
    simpa [hs] using (filled_empty (α := α) n).serveAll requests
  have hkept : Value.Together (fun _ => False) (s.kept.map Prod.fst) := hkeys.subperm hfilled.kept
  have hrefusal := hfilled.refusal he
  refine ⟨hrefusal, fun halike => ?_, fun ⟨hfull, hlt⟩ => ?_⟩
  · generalize s.offer key item = offered' at hrefusal halike
    cases hrefusal with
    | atRoot full fails _ => exact ⟨full, fails⟩
    | rising room clash kept =>
      have hsize : offered'.1.size = s.size := (halike []).2.1
      have hlength := kept.length_eq
      simp only [Selector.kept, List.length_map, List.length_cons, Array.length_toList] at hlength
      simp only [size] at hsize
      omega
    | sinking full smaller root rest before clash kept =>
      have hsame : (key, item) :: rest ~ root :: rest :=
        before ▸ kept.symm.trans (kept_of_alike halike hkept)
      have hroot : (key, item) = root := by
        rw [← List.singleton_append, ← List.singleton_append (x := root)] at hsame
        simpa using (List.perm_append_right_iff rest).mp hsame
      rw [before, ← hroot] at hkept
      exact (clash hkept).elim
  · cases hrefusal with
    | atRoot full fails halike => exact halike
    | rising room clash kept => omega
    | sinking full smaller root rest before clash kept =>
      rw [smaller] at hlt
      cases hlt

end

/-- One entry for a selector that has room for more. -/
def loneOffer : List (Request String) := [.offer (.int 1) "a"]

/-- A text that is offered beside a number is refused and kept. -/
theorem offer_refused_loneOffer :
    Value.Together (fun _ => False) ((loneOffer.filterMap Request.pair?).map Prod.fst) ∧
      (((empty (.upTo 3)).serveAll loneOffer).1.offer (.text "x") "b").2 =
        .error (.incomparable "<" "int" "str") ∧
      ¬ Alike (((empty (.upTo 3)).serveAll loneOffer).1.offer (.text "x") "b").1
        ((empty (.upTo 3)).serveAll loneOffer).1 := by
  have hkeys : Value.Together (fun _ => False)
      ((loneOffer.filterMap Request.pair?).map Prod.fst) := List.pairwise_singleton ..
  have he : (((empty (.upTo 3)).serveAll loneOffer).1.offer (.text "x") "b").2 =
      .error (.incomparable "<" "int" "str") := by decide +kernel
  have hsize : ((empty (.upTo 3)).serveAll loneOffer).1.size = 1 := by decide +kernel
  refine ⟨hkeys, he, fun halike => ?_⟩
  have hfull := ((offer_refused hkeys rfl he).2.mp halike).1
  rw [hsize] at hfull
  cases hfull

end Selector

end NearDoc
