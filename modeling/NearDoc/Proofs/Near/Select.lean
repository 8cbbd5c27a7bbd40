import NearDoc.Near.Retrieval
import NearDoc.Proofs.Near.Requests

/-!
Selecting the items with the smallest keys. Main statements: with keys in order, what is selected is
the front of the items sorted by their keys, equal keys in the order of the items; and a selection
fails only as a key does.
-/

namespace NearDoc.Selector

open NearDoc.Sort

variable {α : Type} {K : Value → Prop} {key : α → Except Error Value} {items : List α}

/-- The items whose key is defined, with their keys. -/
def keyed (key : α → Except Error Value) (items : List α) : List (Value × α) :=
  items.filterMap fun i =>
    match key i with
    | .error _ | .ok .undefined => none
    | .ok v => some (v, i)

lemma keyed_cons {i : α} {v : Value} (hi : key i = .ok v) (hv : v ≠ .undefined) :
    keyed key (i :: items) = (v, i) :: keyed key items := by
  refine List.filterMap_cons_some ?_
  split <;> simp_all

/-- Every key that there is, is undefined or of a kind. -/
def KeysIn (K : Value → Prop) (key : α → Except Error Value) (items : List α) : Prop :=
  ∀ i ∈ items, ∀ v, key i = .ok v → v ≠ .undefined → K v

/-- The smallest offers are the front of the offers sorted by key. -/
lemma map_fst_smallest (hK : Value.OrderedKeys K) (n : Nat) {offers : List (Value × α)}
    (hkeys : ∀ o ∈ offers, K o.1) :
    (smallest n offers).map (·.1) = (offers.mergeSort fun a b => a.1.atMost b.1).take n := by
  have hmem : ∀ o ∈ offers.zipIdx, K o.1.1 := fun o ho =>
    hkeys _ (List.fst_mem_of_mem_zipIdx ho)
  have hkey := hK.total.comap (fun o : (Value × α) × Nat => o.1.1) fun _ h => h
  have hnumbers : offers.zipIdx.Pairwise fun a b => decide (a.2 ≤ b.2) := by
    have hle : (offers.zipIdx.map (·.2)).Pairwise (· ≤ ·) := by
      rw [List.zipIdx_map_snd]
      exact List.pairwise_le_range'
    exact (List.pairwise_map.mp hle).imp fun hab => decide_eq_true hab
  have hself : offers.zipIdx.mergeSort (fun a b => decide (a.2 ≤ b.2)) = offers.zipIdx :=
    List.mergeSort_of_pairwise hnumbers
  have hpasses := hkey.mergeSort_mergeSort (totalPreorderOn_number K) hmem
  rw [hself] at hpasses
  have hmap := List.map_mergeSort (f := fun o : (Value × α) × Nat => o.1) (l := offers.zipIdx)
    (r := fun a b => a.1.1.atMost b.1.1) (s := fun a b => a.1.atMost b.1) fun _ _ _ _ => rfl
  rw [smallest, ranking, ← hpasses, List.map_take, hmap, List.zipIdx_map_fst]

lemma exists_offerAll {s : Selector α} {n : Nat} {offers : List (Value × α)}
    (hK : Value.OrderedKeys K) (h : Tracks K s n offers) (hkeys : KeysIn K key items) :
    (∃ e, (offerAll key s items).outcome = .error e ∧ ∃ i ∈ items, key i = .error e) ∨
      ∃ s', (offerAll key s items).outcome = .ok s' ∧
        Tracks K s' n (offers ++ keyed key items) := by
  induction items generalizing s offers with
  | nil => exact .inr ⟨s, rfl, by simpa [keyed] using h⟩
  | cons i items ih =>
    have hrest : KeysIn K key items := fun j hj => hkeys j (List.mem_cons_of_mem _ hj)
    rcases hi : key i with e | v
    · exact .inl ⟨e, by simp [offerAll, hi], i, by simp, hi⟩
    · by_cases hv : v = .undefined
      · subst hv
        have hskip : (offerAll key s (i :: items)).outcome = (offerAll key s items).outcome := by
          simp [offerAll, hi]
        have hkeyed : keyed key (i :: items) = keyed key items := by simp [keyed, hi]
        rw [hskip, hkeyed]
        rcases ih h hrest with ⟨e, he, j, hj, hje⟩ | hok
        · exact .inl ⟨e, he, j, by simp [hj], hje⟩
        · exact .inr hok
      · have hKv : K v := hkeys i (by simp) v hi hv
        obtain ⟨s', hs', h'⟩ := h.serve hK (r := .offer v i) hKv
        have hoffer : ∃ b, s.offer v i = (s', .ok b) := by
          rcases ho : s.offer v i with ⟨t, e | b⟩
          · simp [Selector.serve, ho, Except.map] at hs'
          · simp only [Selector.serve, ho, Prod.mk.injEq] at hs'
            exact ⟨b, by rw [hs'.1]⟩
        obtain ⟨b, hb⟩ := hoffer
        have hstep : (offerAll key s (i :: items)).outcome = (offerAll key s' items).outcome := by
          rw [offerAll]
          split
          · simp_all
          · simp_all
          · rename_i k _ hk
            obtain rfl : k = v := Except.ok.inj (hk.symm.trans hi)
            rw [hb]
        rw [hstep, keyed_cons hi hv, List.append_cons]
        rcases ih h' hrest with ⟨e, he, j, hj, hje⟩ | hok
        · exact .inl ⟨e, he, j, by simp [hj], hje⟩
        · exact .inr hok

lemma forall_mem_keyed (hkeys : KeysIn K key items) : ∀ o ∈ keyed key items, K o.1 := by
  intro o ho
  obtain ⟨i, hi, hio⟩ := List.mem_filterMap.mp ho
  split at hio
  · cases hio
  · cases hio
  · rename_i v hundef hv
    cases hio
    exact hkeys i hi _ hv hundef

/-- **Selection**: the front of the items sorted by key. -/
theorem select_eq (hK : Value.OrderedKeys K) (n : Nat) (hkeys : KeysIn K key items)
    (hok : ∀ i ∈ items, ∃ v, key i = .ok v) :
    (select key (.upTo n) items).outcome =
      .ok (((keyed key items).mergeSort fun a b => a.1.atMost b.1).take n) := by
  rcases Nat.eq_zero_or_pos n with rfl | hpos
  · simp [select, Room.isNone]
  · have hroom : (Room.upTo n).isNone = false := by
      cases n with
      | zero => simp at hpos
      | succ n => rfl
    rcases exists_offerAll hK (tracks_empty K n) hkeys with ⟨e, -, i, hi, hie⟩ | ⟨s, hs, hts⟩
    · obtain ⟨v, hv⟩ := hok i hi
      simp [hv] at hie
    · obtain ⟨s', hs', -⟩ := hts.serve hK (r := .drain) trivial
      rcases hd : s.drain with ⟨t, e | l⟩
      · simp [Selector.serve, hd, Except.map] at hs'
      · simp only [Selector.serve, hd, Except.map, Request.answer, Prod.mk.injEq, Except.ok.injEq,
          Answer.drained.injEq, List.nil_append, map_fst_smallest hK n (forall_mem_keyed hkeys)]
          at hs'
        simp [select, hroom, hs, hd, hs'.2, Except.bind]

/-- A selection fails only as a key does. -/
theorem exists_key_of_select_error (hK : Value.OrderedKeys K) {n : Nat}
    (hkeys : KeysIn K key items) {e : Error}
    (h : (select key (.upTo n) items).outcome = .error e) : ∃ i ∈ items, key i = .error e := by
  unfold select at h
  split at h
  · cases h
  · dsimp only at h
    rcases exists_offerAll hK (tracks_empty K n) hkeys with ⟨e', he', i, hi, hie⟩ | ⟨s, hs, hts⟩
    · rw [he'] at h
      cases h
      exact ⟨i, hi, hie⟩
    · obtain ⟨s', hs', -⟩ := hts.serve hK (r := .drain) trivial
      rcases hd : s.drain with ⟨t, e' | l⟩
      · simp [Selector.serve, hd, Except.map] at hs'
      · simp [hs, hd, Except.bind] at h

end NearDoc.Selector
