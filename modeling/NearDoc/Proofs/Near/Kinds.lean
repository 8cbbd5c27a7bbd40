import NearDoc.Proofs.Near.Refused
import NearDoc.Proofs.Value.Kinds

/-!
Selecting by keys of two kinds, texts and others. A selector compares an entry that is offered with
the one above its place, or with the largest, and never with those that were dropped; as all that it
keeps are of one kind, so is each entry that it takes. Main statement: a selection with room for an
entry that answers has been offered texts only or no text.
-/

namespace NearDoc

open scoped List

variable {α : Type}

namespace Entry

lemma isText_of_above {a b : Entry α} {r : Bool} (h : a.above b = .ok r) :
    a.key.isText = b.key.isText := by
  obtain ⟨equal, hequal, h⟩ := bind_eq_ok.mp h
  cases equal with
  | true => exact Value.isText_of_eqv hequal
  | false => exact (Value.isText_of_lt h).symm

end Entry

namespace Heap

/-- An entry that rises is compared with the one above it. -/
lemma above_of_rise {heap : Array (Entry α)} {place : Nat} (hpos : 0 < place)
    (h : (rise heap place).2 = none) {e p : Entry α} (he : heap[place]? = some e)
    (hp : heap[(place - 1) / 2]? = some p) : ∃ r, e.above p = .ok r := by
  rw [rise, if_pos hpos] at h
  simp only [he, hp] at h
  split at h
  · cases h
  · exact ⟨_, ‹_›⟩
  · exact ⟨_, ‹_›⟩

end Heap

namespace Selector

variable {s s' : Selector α} {k : Value} {item : α} {text kept : Bool}

/-- Something is kept, and the keys of all that is are texts, or none is. -/
structure OfKind (text : Bool) (s : Selector α) : Prop where
  nonempty : 0 < s.heap.size
  same : ∀ e ∈ s.heap.toList, e.key.isText = text

lemma OfKind.getElem? (h : OfKind text s) {i : Nat} {e : Entry α} (he : s.heap[i]? = some e) :
    e.key.isText = text :=
  h.same e (Array.mem_toList_iff.mpr (Array.mem_of_getElem? he))

/-- Nothing has failed in an offer that moved an entry and answers. -/
lemma moved_eq_ok {r : HeapResult α} (h : s.moved r = (s', .ok kept)) :
    r.2 = none ∧ s'.heap = r.1 ∧ s'.room = s.room := by
  obtain ⟨hs, hkept⟩ := Prod.mk.inj h
  subst hs
  refine ⟨?_, rfl, rfl⟩
  rcases hr : r.2 with _ | e
  · rfl
  · rw [hr] at hkept
    cases hkept

lemma ofKind_of_perm {heap : Array (Entry α)} {entries : List (Entry α)} {e : Entry α}
    (hheap : s.heap = heap) (hp : heap.toList ~ e :: entries)
    (h : ∀ e' ∈ e :: entries, e'.key.isText = text) : OfKind text s := by
  subst hheap
  refine ⟨?_, fun e' he' => h e' (hp.subset he')⟩
  rw [← Array.length_toList, hp.length_eq, List.length_cons]
  omega

section

variable (hnone : s.room.isNone = false) (hoffer : s.offer k item = (s', .ok kept))
include hnone hoffer

/-- An offer is compared with an entry that is kept. -/
lemma OfKind.offer (h : OfKind text s) : k.isText = text ∧ OfKind text s' ∧ s'.room = s.room := by
  rw [offer_eq, hnone] at hoffer
  simp only [Bool.false_eq_true, if_false] at hoffer
  split at hoffer
  · obtain ⟨hrise, hheap, hroom⟩ := moved_eq_ok hoffer
    have hpushed : (s.heap.push ⟨k, s.arrivals, item⟩)[s.size]? = some ⟨k, s.arrivals, item⟩ :=
      Array.getElem?_push_size
    have hparent : (s.size - 1) / 2 < s.heap.size := by
      have := h.nonempty
      unfold size
      omega
    have hp : (s.heap.push ⟨k, s.arrivals, item⟩)[(s.size - 1) / 2]? =
        some (s.heap[(s.size - 1) / 2]) := by
      rw [Array.getElem?_push_lt hparent]
    obtain ⟨r, hr⟩ := Heap.above_of_rise h.nonempty hrise hpushed hp
    have hk : k.isText = text :=
      (Entry.isText_of_above hr).trans (h.getElem? (Array.getElem?_eq_getElem hparent))
    have hperm := (Heap.perm_rise (s.heap.push ⟨k, s.arrivals, item⟩) s.size).trans
      (perm_push s.heap ⟨k, s.arrivals, item⟩)
    exact ⟨hk, ofKind_of_perm hheap hperm (List.forall_mem_cons.mpr ⟨hk, h.same⟩), hroom⟩
  · split at hoffer
    · cases hoffer
    · rename_i root hroot
      have hk : ∀ {r}, k.lt root.key = .ok r → k.isText = text := fun hr =>
        (Value.isText_of_lt hr).trans (h.getElem? hroot)
      split at hoffer
      · cases hoffer
      · rename_i hr
        cases hoffer
        exact ⟨hk hr, ⟨h.nonempty, h.same⟩, rfl⟩
      · rename_i hr
        obtain ⟨-, hheap, hroom⟩ := moved_eq_ok hoffer
        obtain ⟨rest, hrest, hset⟩ := exists_root_cons hroot
        have hperm := Heap.perm_sink (s.heap.setIfInBounds 0 ⟨k, s.arrivals, item⟩) 0
        rw [hset] at hperm
        have hsame : ∀ e ∈ rest, e.key.isText = text := fun e he =>
          h.same e (hrest ▸ List.mem_cons_of_mem _ he)
        exact ⟨hk hr, ofKind_of_perm hheap hperm (List.forall_mem_cons.mpr ⟨hk hr, hsame⟩), hroom⟩

end

lemma offer_empty (n : Nat) (k : Value) (item : α) :
    (empty (.upTo (n + 1))).offer k item =
      (⟨.upTo (n + 1), #[⟨k, 0, item⟩], 1⟩, .ok true) := by
  rw [offer_eq]
  simp [empty, Room.isNone, Room.admits, size, moved, Heap.rise]

/-! ### All offers -/

section

variable {key : α → Except Error Value} {items : List α}

lemma OfKind.offerAll (h : OfKind text s) (hnone : s.room.isNone = false)
    (hall : (s.offerAll key items).outcome = .ok s') :
    ∀ o ∈ items.filterMap (ranked? key), o.1.isText = text := by
  induction items generalizing s with
  | nil => nofun
  | cons item items ih =>
    unfold Selector.offerAll at hall
    split at hall
    · cases hall
    · rename_i hundefined
      rw [List.filterMap_cons_none (ranked?_of_undefined hundefined)]
      exact ih h hnone hall
    · rename_i k hdefined hk
      rw [List.filterMap_cons_some (ranked?_of_defined hk hdefined)]
      split at hall
      · cases hall
      · rename_i s₁ kept hoffer
        obtain ⟨hkind, hnext, hroom⟩ := h.offer hnone hoffer
        exact List.forall_mem_cons.mpr ⟨hkind, ih hnext (hroom ▸ hnone) hall⟩

lemma exists_kind_of_offerAll {n : Nat}
    (hall : ((empty (.upTo (n + 1))).offerAll key items).outcome = .ok s') :
    ∃ text, ∀ o ∈ items.filterMap (ranked? key), o.1.isText = text := by
  induction items with
  | nil => exact ⟨false, nofun⟩
  | cons item items ih =>
    unfold Selector.offerAll at hall
    split at hall
    · cases hall
    · rename_i hundefined
      rw [List.filterMap_cons_none (ranked?_of_undefined hundefined)]
      exact ih hall
    · rename_i k hdefined hk
      rw [offer_empty] at hall
      rw [List.filterMap_cons_some (ranked?_of_defined hk hdefined)]
      have hfirst : OfKind k.isText (⟨.upTo (n + 1), #[⟨k, 0, item⟩], 1⟩ : Selector α) :=
        ⟨by simp, by simp⟩
      exact ⟨k.isText, List.forall_mem_cons.mpr ⟨rfl, hfirst.offerAll rfl hall⟩⟩

/-- **One kind**: a selection with room that answers has been offered texts only, or no text. -/
theorem exists_kind_of_select {n : Nat} (hn : n ≠ 0) {ranked : List (Value × α)}
    (h : (select key (.upTo n) items).outcome = .ok ranked) :
    ∃ text, ∀ o ∈ items.filterMap (ranked? key), o.1.isText = text := by
  obtain ⟨n, rfl⟩ := Nat.exists_eq_succ_of_ne_zero hn
  rw [select, if_neg (by simp [Room.isNone])] at h
  obtain ⟨s, hs, -⟩ := bind_eq_ok.mp h
  exact exists_kind_of_offerAll hs

end

end Selector

end NearDoc
