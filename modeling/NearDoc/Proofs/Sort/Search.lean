import Mathlib.Data.List.Basic
import Mathlib.Tactic.Common
import NearDoc.Sort.Search

/-!
Counting entries that pass a test when those that pass stand in front: halving and leaping both
answer how many there are.
-/

namespace NearDoc.Sort

variable {α : Type}

/-- No entry passes that stands behind one that does not. -/
def InFront (p : α → Bool) (l : List α) : Prop := l.Pairwise fun a b => p b → p a

section

variable {p : α → Bool} {l : List α}

lemma InFront.tail {a : α} (h : InFront p (a :: l)) : InFront p l := List.Pairwise.tail h

/-- An entry passes if its place is before the count. -/
lemma InFront.passes_iff (h : InFront p l) {i : Nat} (hi : i < l.length) :
    p l[i] ↔ i < (l.takeWhile p).length := by
  induction l generalizing i with
  | nil => simp at hi
  | cons a l ih =>
    rcases Bool.eq_false_or_eq_true (p a) with ha | ha
    · rw [List.takeWhile_cons_of_pos ha]
      cases i with
      | zero => simpa using ha
      | succ i => simpa using ih h.tail (by simpa using hi)
    · rw [List.takeWhile_cons_of_neg (by simp [ha])]
      have hnone : ∀ b ∈ a :: l, ¬p b := fun b hb hpb => by
        rcases List.mem_cons.mp hb with rfl | hb
        · simp [ha] at hpb
        · have := List.rel_of_pairwise_cons h hb hpb
          simp [ha] at this
      simpa using hnone _ (List.getElem_mem hi)

/-- Behind those that pass stands none that does. -/
lemma InFront.of_mem_dropWhile (h : InFront p l) {a : α} (ha : a ∈ l.dropWhile p) :
    p a = false := by
  rcases hd : l.dropWhile p with _ | ⟨b, rest⟩
  · simp [hd] at ha
  · have hb : p b = false := by
      have := List.head?_dropWhile_not p l
      simpa [hd] using this
    rw [hd] at ha
    have hs : InFront p (b :: rest) := hd ▸ List.Pairwise.sublist (List.dropWhile_sublist p) h
    rcases List.mem_cons.mp ha with rfl | ha
    · exact hb
    · by_contra hpa
      have := List.rel_of_pairwise_cons hs ha (by simpa using hpa)
      simp [hb] at this

lemma length_takeWhile_le (p : α → Bool) (l : List α) : (l.takeWhile p).length ≤ l.length :=
  (List.takeWhile_prefix p).length_le

variable {passes : α → Except Error Bool} {d : Direction}

/-- **Halving** finds the count between its bounds. -/
theorem countBetween_eq (hp : ∀ a ∈ l, passes a = .ok (p a)) (h : InFront p l) {low high : Nat}
    (hlow : low ≤ (l.takeWhile p).length) (hhigh : (l.takeWhile p).length ≤ high)
    (hlen : high ≤ l.length) :
    countBetween passes d l low high = .ok (l.takeWhile p).length := by
  fun_induction countBetween passes d l low high with
  | case1 low high hlt hnone =>
    have := d.middle_bounds hlt
    rw [List.getElem?_eq_none_iff] at hnone
    omega
  | case2 low high hlt a hget e hfail =>
    obtain ⟨hi, rfl⟩ := List.getElem?_eq_some_iff.mp hget
    rw [hp _ (List.getElem_mem hi)] at hfail
    cases hfail
  | case3 low high hlt a hget hpass ih =>
    obtain ⟨hi, rfl⟩ := List.getElem?_eq_some_iff.mp hget
    rw [hp _ (List.getElem_mem hi)] at hpass
    have := (h.passes_iff hi).mp (Except.ok.inj hpass)
    exact ih (by omega) hhigh hlen
  | case4 low high hlt a hget hpass ih =>
    obtain ⟨hi, rfl⟩ := List.getElem?_eq_some_iff.mp hget
    rw [hp _ (List.getElem_mem hi)] at hpass
    have hnot : ¬d.middle low high < (l.takeWhile p).length := fun hlt' => by
      rw [← h.passes_iff hi, Except.ok.inj hpass] at hlt'
      cases hlt'
    exact ih hlow (by omega) (by omega)
  | case5 low high hlt =>
    congr 1
    omega

/-- Leaping on from places that pass finds the count. -/
lemma countFrom_eq (hp : ∀ a ∈ l, passes a = .ok (p a)) (h : InFront p l) {low probe : Nat}
    (hlow : low ≤ (l.takeWhile p).length) :
    countFrom passes d l low probe = .ok (l.takeWhile p).length := by
  fun_induction countFrom passes d l low probe with
  | case1 low probe hlt e hfail =>
    rw [hp _ (List.getElem_mem hlt)] at hfail
    cases hfail
  | case2 low probe hlt hpass ih =>
    rw [hp _ (List.getElem_mem hlt)] at hpass
    exact ih ((h.passes_iff hlt).mp (Except.ok.inj hpass))
  | case3 low probe hlt hpass =>
    rw [hp _ (List.getElem_mem hlt)] at hpass
    have hnot : ¬probe < (l.takeWhile p).length := fun hlt' => by
      rw [← h.passes_iff hlt, Except.ok.inj hpass] at hlt'
      cases hlt'
    exact countBetween_eq hp h hlow (by omega) (by omega)
  | case4 low probe hlt =>
    exact countBetween_eq hp h hlow (length_takeWhile_le p l) (Nat.le_refl _)

/-- **Leaping** finds the count. -/
theorem leap_eq (hp : ∀ a ∈ l, passes a = .ok (p a)) (h : InFront p l) :
    leap passes d l = .ok (l.takeWhile p).length :=
  countFrom_eq hp h (Nat.zero_le _)

end

end NearDoc.Sort
