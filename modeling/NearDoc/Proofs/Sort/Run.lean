import Mathlib.Data.List.Pairwise
import NearDoc.Sort.Run
import NearDoc.Proofs.Sort.Merge

/-!
The runs into which entries are cut. Main statement: a run arranges the entries it is made of, and
these are the ones in front.
-/

namespace NearDoc.Sort

variable {α : Type} {P : α → Prop} {before : α → α → Except Error Bool} {le : α → α → Bool}

lemma Decides.contrary (hb : Decides P before le) :
    Decides P (contrary before) fun a b => !le a b := fun a b ha hb' => by
  simp [Sort.contrary, hb a b ha hb', Except.map]

/-- In an ascending run every entry may stand in front of the next one. -/
lemma exists_ascending (hb : Decides P before le) {last : α} {entries : List α} (hlast : P last)
    (hP : ∀ x ∈ entries, P x) :
    ∃ run rest, ascending before last entries = .ok (run, rest) ∧
      (last :: run).IsChain fun a b => le a b := by
  induction entries generalizing last with
  | nil => exact ⟨[], [], rfl, .singleton last⟩
  | cons a t ih =>
    have ha : P a := hP a (by simp)
    rw [ascending, hb a last ha hlast]
    rcases hla : le last a with _ | _
    · exact ⟨[], a :: t, rfl, .singleton last⟩
    · obtain ⟨run, rest, hrun, hs⟩ := ih ha fun x hx => hP x (by simp [hx])
      exact ⟨a :: run, rest, by simp [hrun, Except.map], .cons_cons hla hs⟩

/-- The run in front arranges the entries it is made of. -/
theorem exists_firstRun (hb : Decides P before le) (hle : TotalPreorder le) {entries : List α}
    (hP : ∀ x ∈ entries, P x) :
    ∃ run rest, firstRun before entries = .ok (run, rest) ∧
      ∃ taken, taken ++ rest = entries ∧ Arranges le taken run := by
  rcases entries with _ | ⟨a, _ | ⟨b, t⟩⟩
  · exact ⟨[], [], rfl, [], rfl, .nil⟩
  · exact ⟨[a], [], rfl, [a], rfl, .of_sorted (by simp)⟩
  · have ha : P a := hP a (by simp)
    have hPb : P b := hP b (by simp)
    have ht : ∀ x ∈ t, P x := fun x hx => hP x (by simp [hx])
    rw [firstRun, hb b a hPb ha]
    rcases hab : le a b with _ | _
    · have : IsTrans α fun a b => (!le a b) = true := ⟨fun a b c hab hbc => by
        rw [Bool.not_eq_true'] at hab hbc ⊢
        exact hle.trans_not hab hbc⟩
      obtain ⟨run, rest, hrun, hs⟩ := exists_ascending hb.contrary hPb ht
      rw [← descending_eq] at hrun
      have hchain : (a :: b :: run).IsChain fun a b => !le a b := .cons_cons (by simp [hab]) hs
      refine ⟨(a :: b :: run).reverse, rest, by simp [hrun, Except.map], a :: b :: run, ?_,
        .of_descending hle (hchain.pairwise.imp fun hxy => by simpa using hxy)⟩
      simp [descending_append hrun]
    · have : IsTrans α fun a b => le a b = true := ⟨hle.trans⟩
      obtain ⟨run, rest, hrun, hs⟩ := exists_ascending hb hPb ht
      have hchain : (a :: b :: run).IsChain fun a b => le a b := .cons_cons hab hs
      refine ⟨a :: b :: run, rest, by simp [hrun, Except.map], a :: b :: run, ?_,
        .of_sorted hchain.pairwise⟩
      simp [ascending_append hrun]

/-- An inserted entry stands behind its equals. -/
theorem exists_insert (hb : Decides P before le) (hle : TotalPreorder le) {a : α}
    {taken sorted : List α} (ha : P a) (hP : ∀ x ∈ taken, P x) (h : Arranges le taken sorted) :
    ∃ m, insert before a sorted = .ok m ∧ Arranges le (taken ++ [a]) m := by
  have hfront : InFront (le · a) sorted :=
    h.sorted.imp fun {x y} hxy hya => hle.trans _ _ _ hxy hya
  have hpass : ∀ x ∈ sorted, (before a x).map (!·) = .ok (le x a) := fun x hx => by
    rw [hb a x ha (hP x ((h.mem_iff hle).mp hx))]
    simp [Except.map]
  refine ⟨sorted.merge [a] le, ?_, h.merge hle (.of_sorted (by simp))⟩
  rw [insert, countBetween_eq hpass hfront (Nat.zero_le _) (length_takeWhile_le _ _)
    (Nat.le_refl _), merge_takeWhile_left]
  simp only [Except.map, take_length_takeWhile, drop_length_takeWhile]
  rcases hd : sorted.dropWhile (le · a) with _ | ⟨b, rest⟩
  · simp
  · have hba : le b a = false := hfront.of_mem_dropWhile (hd ▸ List.mem_cons_self ..)
    simp [hba]

lemma exists_foldlM_insert (hb : Decides P before le) (hle : TotalPreorder le)
    {more taken sorted : List α} (hP : ∀ x ∈ taken ++ more, P x) (h : Arranges le taken sorted) :
    ∃ m, more.foldlM (fun sorted a => insert before a sorted) sorted = .ok m ∧
      Arranges le (taken ++ more) m := by
  induction more generalizing taken sorted with
  | nil => exact ⟨sorted, rfl, by simpa using h⟩
  | cons a more ih =>
    obtain ⟨m, hm, hma⟩ := exists_insert hb hle (hP a (by simp))
      (fun x hx => hP x (List.mem_append_left _ hx)) h
    obtain ⟨m', hm', hma'⟩ := ih (by simpa using hP) hma
    refine ⟨m', ?_, by simpa using hma'⟩
    rw [List.foldlM_cons, hm]
    exact hm'

/-- **Runs**: a run arranges the entries it is made of, which are those in front. -/
theorem exists_nextRun (hb : Decides P before le) (hle : TotalPreorder le) (least : Nat)
    {entries : List α} (hP : ∀ x ∈ entries, P x) :
    ∃ run rest, nextRun before least entries = .ok (run, rest) ∧
      ∃ taken, taken ++ rest = entries ∧ Arranges le taken run := by
  obtain ⟨run, rest, hrun, taken, rfl, har⟩ := exists_firstRun hb hle hP
  have hPt : ∀ x ∈ taken ++ rest.take (least - run.length), P x := fun x hx => by
    refine hP x ?_
    rcases List.mem_append.mp hx with hx | hx
    · exact List.mem_append_left _ hx
    · exact List.mem_append_right _ (List.mem_of_mem_take hx)
  obtain ⟨run', hrun', har'⟩ := exists_foldlM_insert hb hle hPt har
  refine ⟨run', rest.drop (least - run.length), ?_, _, ?_, har'⟩
  · simp only [nextRun, hrun, bind, Except.bind]
    rw [hrun']
    rfl
  · rw [List.append_assoc, List.take_append_drop]

end NearDoc.Sort
