import NearDoc.Near.Retrieval
import NearDoc.Proofs.Near.Heap
import NearDoc.Proofs.Sort.Failure

/-!
How a selection fails. A selector compares the keys of entries that were offered to it one after the
other, and it fails only as the comparison of two of them does. Main statement: a selection among
items whose keys pairwise fail to compare in some way only fails in that way, and answers some of
the items with their keys otherwise.
-/

namespace NearDoc

open scoped List

namespace Value

/-- Comparing two values with each other fails. -/
def Clash (a b : Value) (e : Error) : Prop :=
  (a.eqv b = .error e ∨ a.lt b = .error e) ∨ b.eqv a = .error e ∨ b.lt a = .error e

/-- Comparing two values with each other fails only in some way. -/
def ClashAs (Q : Error → Prop) (a b : Value) : Prop := ∀ e, a.Clash b e → Q e

/-- Values at different places fail to compare only in some way. -/
def Together (Q : Error → Prop) (keys : List Value) : Prop := keys.Pairwise (ClashAs Q)

variable {Q : Error → Prop} {a b : Value} {keys keys' : List Value}

lemma ClashAs.symm (h : a.ClashAs Q b) : b.ClashAs Q a := fun e he => h e he.symm

lemma Together.perm (h : Together Q keys) (hp : keys' ~ keys) : Together Q keys' :=
  (hp.pairwise_iff fun h => ClashAs.symm h).mpr h

/-- The values that some of the items have are together if those of all items are. -/
lemma Together.subperm {β : Type} {f : β → Value} {some all : List β}
    (h : Together Q (all.map f)) (hs : some <+~ all) : Together Q (some.map f) := by
  obtain ⟨l, hl, hsub⟩ := hs
  have hl' : Together Q (l.map f) := List.Pairwise.sublist (hsub.map f) h
  exact hl'.perm (hl.symm.map f)

end Value

variable {α : Type} {Q : Error → Prop}

/-! ### Entries -/

namespace Entry

variable {a b : Entry α}

lemma failsAs_above (h : a.key.ClashAs Q b.key) : Sort.FailsAs Q above a b := by
  have hone : ∀ {a b : Entry α}, a.key.ClashAs Q b.key → ∀ e, a.above b = .error e → Q e := by
    intro a b h e he
    rcases bind_eq_error.mp he with heq | ⟨r, -, hlt⟩
    · exact h e (.inl (.inl heq))
    · split at hlt
      · cases hlt
      · exact h e (.inr (.inr hlt))
  exact ⟨hone h, hone h.symm⟩

lemma failsAs_before (h : a.key.ClashAs Q b.key) : Sort.FailsAs Q before a b := by
  have hone : ∀ {a b : Entry α}, a.key.ClashAs Q b.key → ∀ e, a.before b = .error e → Q e := by
    intro a b h e he
    unfold before at he
    split at he
    · cases he
    · rcases bind_eq_error.mp he with heq | ⟨r, -, hlt⟩
      · exact h e (.inl (.inl heq))
      · split at hlt
        · cases hlt
        · exact h e (.inl (.inr hlt))
  exact ⟨hone h, hone h.symm⟩

end Entry

/-! ### The heap -/

namespace Heap

variable {heap : Array (Entry α)} {place i j : Nat} {a b : Entry α} {e : Error}

/-- The keys in the heap. -/
def keys (heap : Array (Entry α)) : List Value := heap.toList.map Entry.key

lemma clashAs_places (h : Value.Together Q (keys heap)) (hij : i < j) (hi : heap[i]? = some a)
    (hj : heap[j]? = some b) : a.key.ClashAs Q b.key := by
  obtain ⟨hi', rfl⟩ := Array.getElem?_eq_some_iff.mp hi
  obtain ⟨hj', rfl⟩ := Array.getElem?_eq_some_iff.mp hj
  exact List.pairwise_iff_getElem.mp (List.pairwise_map.mp h) i j (by simpa using hi')
    (by simpa using hj') hij

lemma together_swap (h : Value.Together Q (keys heap)) (i j : Nat) :
    Value.Together Q (keys (heap.swapIfInBounds i j)) :=
  h.perm ((perm_swap heap i j).map Entry.key)

lemma rise_fails (h : Value.Together Q (keys heap)) (he : (rise heap place).2 = some e) : Q e := by
  fun_induction rise heap place with
  | case1 heap place hpos parent c p hp hc err hfail =>
    cases he
    have hlt : parent < place := by omega
    exact (Entry.failsAs_above (clashAs_places h hlt hp hc)).2 _ hfail
  | case3 _ _ _ _ _ _ _ _ _ ih => exact ih (together_swap h ..) he
  | case2 | case4 | case5 => cases he

lemma perm_rise (heap : Array (Entry α)) (place : Nat) :
    (rise heap place).1.toList ~ heap.toList := by
  fun_induction rise heap place with
  | case3 heap place hpos parent c p hp hc hup ih => exact ih.trans (perm_swap ..)
  | case1 | case2 | case4 | case5 => exact .refl _

lemma upperChild_fails (h : Value.Together Q (keys heap))
    (he : upperChild heap place = .error e) : Q e := by
  unfold upperChild at he
  dsimp only at he
  split at he
  · rename_i l r hl hr
    rcases bind_eq_error.mp he with habove | ⟨_, -, hok⟩
    · exact (Entry.failsAs_above (clashAs_places h (Nat.lt_succ_self _) hl hr)).1 _ habove
    · cases hok
  · cases he

lemma sink_fails (h : Value.Together Q (keys heap)) (he : (sink heap place).2 = some e) : Q e := by
  fun_induction sink heap place with
  | case1 heap place hlt err hfail =>
    cases he
    exact upperChild_fails h hfail
  | case2 _ _ _ _ _ _ ih => exact ih (together_swap h ..) he
  | case3 => cases he
  | case4 => exact rise_fails h he

lemma perm_sink (heap : Array (Entry α)) (place : Nat) :
    (sink heap place).1.toList ~ heap.toList := by
  fun_induction sink heap place with
  | case2 heap place hlt child hfound hin ih => exact ih.trans (perm_swap ..)
  | case4 => exact perm_rise ..
  | case1 | case3 => exact .refl _

end Heap

/-! ### The selector -/

namespace Selector

/-- A key with the item it belongs to. -/
def pair (e : Entry α) : Value × α := (e.key, e.item)

/-- What the selector keeps, each item with its key. -/
def kept (s : Selector α) : List (Value × α) := s.heap.toList.map pair

/-- An item with its key, if that is defined. -/
def ranked? (key : α → Except Error Value) (item : α) : Option (Value × α) :=
  match key item with
  | .error _ | .ok .undefined => none
  | .ok k => some (k, item)

variable {s : Selector α} {k : Value} {item : α} {n : Nat} {e : Error}
variable {key : α → Except Error Value} {items : List α} {offered : List (Value × α)}

lemma ranked?_of_undefined (h : key item = .ok .undefined) : ranked? key item = none := by
  rw [ranked?, h]

lemma ranked?_of_defined (h : key item = .ok k) (hdefined : k ≠ .undefined) :
    ranked? key item = some (k, item) := by
  unfold ranked?
  split <;> simp_all

lemma keys_kept (s : Selector α) : s.kept.map Prod.fst = Heap.keys s.heap := by
  simp [kept, Heap.keys, pair]

lemma eq_some_of_elim_error {failure : Option Error}
    (h : failure.elim (.ok true : Except Error Bool) .error = .error e) : failure = some e := by
  cases failure with
  | none => cases h
  | some e' => exact congrArg some (Except.error.inj h)

lemma perm_push (heap : Array (Entry α)) (entry : Entry α) :
    (heap.push entry).toList ~ entry :: heap.toList := by
  rw [Array.toList_push]
  exact List.perm_append_comm

/-- The root and the entry that takes its place stand in front of the same entries. -/
lemma exists_root_cons {heap : Array (Entry α)} {root : Entry α} (h : heap[0]? = some root) :
    ∃ rest, heap.toList = root :: rest ∧
      ∀ entry, (heap.setIfInBounds 0 entry).toList = entry :: rest := by
  rw [← Array.getElem?_toList] at h
  rcases hl : heap.toList with _ | ⟨a, rest⟩
  · simp [hl] at h
  · obtain rfl : a = root := by simpa [hl] using h
    exact ⟨rest, rfl, fun entry => by rw [Array.toList_setIfInBounds, hl, List.set_cons_zero]⟩

/-- What an offer does. It fails only as the key offered does with one that is kept, or two of these
do, or without room for any entry, and nothing is kept but the item offered and those that were. -/
structure Offers (Q : Error → Prop) (s : Selector α) (k : Value) (item : α)
    (s' : Selector α) (outcome : Except Error Bool) : Prop where
  fails : ∀ e, outcome = .error e → Q e
  room : s'.room = s.room
  kept : s'.kept <+~ (k, item) :: s.kept

lemma offers (hclosed : s.room = .closed → Q .emptySelector)
    (h : Value.Together Q (k :: s.kept.map Prod.fst)) :
    Offers Q s k item (s.offer k item).1 (s.offer k item).2 := by
  have hsame : s.kept <+~ (k, item) :: s.kept := (List.sublist_cons_self ..).subperm
  rw [keys_kept] at h
  unfold offer
  split
  · exact ⟨fun _ he => (by cases he), rfl, hsame⟩
  · rename_i hnone
    dsimp only
    split
    · have hpush := perm_push s.heap ⟨k, s.arrivals, item⟩
      refine ⟨fun e he => ?_, rfl, ?_⟩
      · exact Heap.rise_fails (h.perm (hpush.map Entry.key)) (eq_some_of_elim_error he)
      · exact (((Heap.perm_rise ..).trans hpush).map pair).subperm
    · rename_i hfull
      split
      · -- without room there is a root, unless there is room for no entry at all
        rename_i hroot
        have hempty : s.heap.size = 0 := by simpa using hroot
        refine ⟨fun e he => ?_, rfl, hsame⟩
        cases he
        rcases hroom : s.room with (_ | n) | _ | _
        · simp [hroom, Room.isNone] at hnone
        · simp [hroom, Room.admits, size, hempty] at hfull
        · simp [hroom, Room.admits] at hfull
        · exact hclosed hroom
      · rename_i root hroot
        obtain ⟨rest, hheap, hset⟩ := exists_root_cons hroot
        have hkeys : Heap.keys s.heap = root.key :: rest.map Entry.key := by
          rw [Heap.keys, hheap, List.map_cons]
        have hkept : s.kept = pair root :: rest.map pair := by rw [kept, hheap, List.map_cons]
        rw [hkeys] at h
        have hk : k.ClashAs Q root.key := (List.pairwise_cons.mp h).1 _ (by simp)
        split
        · rename_i e hlt
          exact ⟨fun _ he => hk _ (by cases he; exact .inl (.inr hlt)), rfl, hsame⟩
        · exact ⟨fun _ he => (by cases he), rfl, hsame⟩
        · have htail : Value.Together Q (Heap.keys (s.heap.setIfInBounds 0
              ⟨k, s.arrivals, item⟩)) := by
            rw [Heap.keys, hset, List.map_cons]
            exact List.Pairwise.sublist ((List.sublist_cons_self ..).cons_cons k) h
          refine ⟨fun e he => Heap.sink_fails htail (eq_some_of_elim_error he), rfl, ?_⟩
          have hsink := (Heap.perm_sink (s.heap.setIfInBounds 0 ⟨k, s.arrivals, item⟩) 0).map pair
          rw [hset, List.map_cons] at hsink
          rw [hkept]
          exact hsink.subperm.trans ((List.sublist_cons_self ..).cons_cons _).subperm

/-- A drain answers what was kept, in some order, or fails as two keys kept do. -/
lemma drain_meets (h : Value.Together Q (s.kept.map Prod.fst)) :
    Meets Q (fun ranked => ranked ~ s.kept) s.drain.2 := by
  rw [keys_kept] at h
  have htogether : Sort.Together Q Entry.before s.heap.toList :=
    (List.pairwise_map.mp h).imp Entry.failsAs_before
  have hsort := Sort.sort_meets htogether
  unfold drain
  split
  · rename_i e hfail
    exact hsort.error hfail
  · rename_i entries hentries
    exact .of_ok ((hsort.ok hentries).map pair)

/-- Offers of items whose keys, with those offered before, fail to compare in some way only. -/
theorem offerAll_meets (hclosed : s.room = .closed → Q .emptySelector) (hkept : s.kept <+~ offered)
    (hkey : ∀ item ∈ items, ∀ e, key item = .error e → Q e)
    (h : Value.Together Q ((offered ++ items.filterMap (ranked? key)).map Prod.fst)) :
    Meets Q (fun s' => s'.room = s.room ∧ s'.kept <+~ offered ++ items.filterMap (ranked? key))
      (s.offerAll key items).outcome := by
  induction items generalizing s offered with
  | nil => exact .of_ok ⟨rfl, by simpa using hkept⟩
  | cons item items ih =>
    obtain ⟨hitem, hrest⟩ := List.forall_mem_cons.mp hkey
    unfold offerAll
    split
    · rename_i e hfail
      exact hitem e hfail
    · rename_i hundefined
      rw [List.filterMap_cons_none (ranked?_of_undefined hundefined)] at h ⊢
      exact ih hclosed hkept hrest h
    · rename_i k hdefined hk
      have hsome := ranked?_of_defined hk hdefined
      have hmore : offered ++ (item :: items).filterMap (ranked? key) =
          offered ++ [(k, item)] ++ items.filterMap (ranked? key) := by
        rw [List.filterMap_cons_some hsome, List.append_cons]
      rw [hmore] at h ⊢
      have hlast : (k, item) :: offered ~ offered ++ [(k, item)] :=
        (List.perm_append_singleton ..).symm
      have hnext : (k, item) :: s.kept <+~ offered ++ [(k, item)] :=
        ((List.subperm_cons _).mpr hkept).trans hlast.subperm
      have hkeys : Value.Together Q (((k, item) :: s.kept).map Prod.fst) :=
        h.subperm (hnext.trans (List.sublist_append_left ..).subperm)
      have hoffer : Offers Q s k item (s.offer k item).1 (s.offer k item).2 := offers hclosed hkeys
      generalize s.offer k item = offered' at hoffer
      obtain ⟨s', e | kept⟩ := offered'
      · exact hoffer.fails e rfl
      · rw [← hoffer.room] at hclosed ⊢
        exact ih hclosed (hoffer.kept.trans hnext) hrest h

/-- **Failing selections**: a selection fails only as the key of an item fails or as the keys of two
items do with each other, or without room for any, and answers some of the items with their keys
otherwise. -/
theorem select_meets (hkey : ∀ item ∈ items, ∀ e, key item = .error e → Q e)
    (h : Value.Together Q ((items.filterMap (ranked? key)).map Prod.fst)) (room : Room)
    (hclosed : room = .closed → Q .emptySelector) :
    Meets Q (fun ranked => ranked <+~ items.filterMap (ranked? key))
      (select key room items).outcome := by
  unfold select
  split
  · exact .of_ok (List.nil_sublist _).subperm
  · have hempty : (.empty room : Selector α).kept <+~ [] := .refl _
    have hall := offerAll_meets hclosed hempty hkey h
    refine hall.bind fun s hs => ?_
    exact (drain_meets (h.subperm hs.2)).imp fun ranked hr => hr.subperm.trans hs.2

/-- Offers go on from the state that those before have led to. -/
lemma offerAll_append {s s' : Selector α} {before after : List α}
    (h : (s.offerAll key before).outcome = .ok s') :
    (s.offerAll key (before ++ after)).outcome = (s'.offerAll key after).outcome := by
  induction before generalizing s with
  | nil =>
    cases h
    rfl
  | cons item before ih =>
    rw [List.cons_append]
    unfold offerAll at h
    conv_lhs => unfold offerAll
    split at h
    · cases h
    · exact ih h
    · split at h
      · cases h
      · exact ih h

/-- A selection stops at a key that fails, if those before it compare with one another. -/
theorem select_stops (hn : n ≠ 0) {before after : List α}
    (hbefore : ∀ item' ∈ before, ∀ e', key item' ≠ .error e')
    (h : Value.Together (fun _ => False) ((before.filterMap (ranked? key)).map Prod.fst))
    (hitem : key item = .error e) :
    (select key (.upTo n) (before ++ item :: after)).outcome = .error e := by
  obtain ⟨m, rfl⟩ := Nat.exists_eq_succ_of_ne_zero hn
  have hempty : (.empty (.upTo (m + 1)) : Selector α).kept <+~ [] := .refl _
  have hoffers := offerAll_meets (Q := fun _ => False) (by rintro ⟨⟩) hempty hbefore h
  rcases hpass : (offerAll key (.empty (.upTo (m + 1))) before).outcome with e' | s
  · exact (hoffers.error hpass).elim
  · have hstop : (s.offerAll key (item :: after)).outcome = .error e := by
      simp only [offerAll, hitem]
    rw [select, if_neg (by simp [Room.isNone])]
    dsimp only
    rw [(offerAll_append hpass).trans hstop]
    rfl

end Selector

end NearDoc
