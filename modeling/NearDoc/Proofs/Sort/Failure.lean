import Mathlib.Data.List.Pairwise
import NearDoc.Proofs.Outcome
import NearDoc.Proofs.Sort.Basic

/-!
How sorting fails. A sort compares entries that stand at different places, and it fails only as one
of its comparisons does; this asks nothing of the comparison, which need not be an order. Main
statement: a sort of entries that pairwise fail to compare in some way only fails in that way, and
answers a permutation otherwise.
-/

namespace NearDoc.Sort

open scoped List

variable {α : Type}

/-- Two entries fail to compare, either way round, only in some way. -/
def FailsAs (Q : Error → Prop) (before : α → α → Except Error Bool) (a b : α) : Prop :=
  (∀ e, before a b = .error e → Q e) ∧ ∀ e, before b a = .error e → Q e

/-- Any entry of one run fails to compare with any of another only in some way. -/
def Across (Q : Error → Prop) (before : α → α → Except Error Bool) (left right : List α) : Prop :=
  ∀ l ∈ left, ∀ r ∈ right, FailsAs Q before l r

/-- Entries at different places fail to compare only in some way. -/
def Together (Q : Error → Prop) (before : α → α → Except Error Bool) (entries : List α) : Prop :=
  entries.Pairwise (FailsAs Q before)

variable {Q : Error → Prop} {before : α → α → Except Error Bool} {d : Direction}
variable {left right entries entries' : List α} {a b : α}

namespace FailsAs

lemma symm (h : FailsAs Q before a b) : FailsAs Q before b a := And.symm h

lemma compare (h : FailsAs Q before a b) : Meets Q (fun _ => True) (before a b) := .of_forall h.1

lemma contrary (h : FailsAs Q before a b) : FailsAs Q (contrary before) a b :=
  ⟨fun e he => h.1 e (map_eq_error.mp he), fun e he => h.2 e (map_eq_error.mp he)⟩

end FailsAs

namespace Across

lemma sublist {left' right' : List α} (h : Across Q before left right) (hl : left'.Sublist left)
    (hr : right'.Sublist right) : Across Q before left' right' :=
  fun l hl' r hr' => h l (hl.subset hl') r (hr.subset hr')

lemma perm {left' right' : List α} (h : Across Q before left right) (hl : left'.Perm left)
    (hr : right'.Perm right) : Across Q before left' right' :=
  fun l hl' r hr' => h l (hl.subset hl') r (hr.subset hr')

end Across

namespace Together

lemma perm (h : Together Q before entries) (hp : entries'.Perm entries) :
    Together Q before entries' :=
  (hp.pairwise_iff fun h => FailsAs.symm h).mpr h

lemma sublist (h : Together Q before entries) (hs : entries'.Sublist entries) :
    Together Q before entries' := List.Pairwise.sublist hs h

lemma across (h : Together Q before (left ++ right)) : Across Q before left right :=
  (List.pairwise_append.mp h).2.2

end Together

/-! ### Searching -/

lemma countBetween_meets {passes : α → Except Error Bool}
    (h : ∀ a ∈ entries, Meets Q (fun _ => True) (passes a)) (low high : Nat) :
    Meets Q (fun _ => True) (countBetween passes d entries low high) := by
  fun_induction countBetween passes d entries low high with
  | case1 | case5 => trivial
  | case2 low high _ a hget e hfail => exact (h a (List.mem_of_getElem? hget)).error hfail
  | case3 _ _ _ _ _ _ ih => exact ih
  | case4 _ _ _ _ _ _ ih => exact ih

lemma countFrom_meets {passes : α → Except Error Bool}
    (h : ∀ a ∈ entries, Meets Q (fun _ => True) (passes a)) (low probe : Nat) :
    Meets Q (fun _ => True) (countFrom passes d entries low probe) := by
  fun_induction countFrom passes d entries low probe with
  | case1 low probe hlt e hfail => exact (h _ (List.getElem_mem hlt)).error hfail
  | case2 _ _ _ _ ih => exact ih
  | case3 | case4 => exact countBetween_meets h ..

lemma leap_meets {passes : α → Except Error Bool}
    (h : ∀ a ∈ entries, Meets Q (fun _ => True) (passes a)) :
    Meets Q (fun _ => True) (leap passes d entries) := countFrom_meets h 0 0

/-! ### Runs -/

lemma ascending_meets {last : α} (h : Together Q before (last :: entries)) :
    Meets Q (fun r => r.1 ++ r.2 = entries) (ascending before last entries) := by
  induction entries generalizing last with
  | nil => exact .of_ok rfl
  | cons a rest ih =>
    obtain ⟨hlast, hrest⟩ := List.pairwise_cons.mp h
    have hcompare := (hlast a (by simp)).symm.compare
    unfold ascending
    split
    · rename_i e hfail
      exact hcompare.error hfail
    · exact .of_ok rfl
    · exact ((ih hrest).imp fun r hr => congrArg (a :: ·) hr).map

lemma descending_meets {last : α} (h : Together Q before (last :: entries)) :
    Meets Q (fun r => r.1 ++ r.2 = entries) (descending before last entries) := by
  rw [descending_eq]
  exact ascending_meets (List.Pairwise.imp FailsAs.contrary h)

lemma firstRun_meets (h : Together Q before entries) :
    Meets Q (fun r => r.1 ++ r.2 ~ entries) (firstRun before entries) := by
  rcases entries with _ | ⟨a, _ | ⟨b, rest⟩⟩
  · exact .of_ok (.refl _)
  · exact .of_ok (.refl _)
  · obtain ⟨ha, hrest⟩ := List.pairwise_cons.mp h
    have hcompare := (ha b (by simp)).symm.compare
    simp only [firstRun]
    split
    · rename_i e hfail
      exact hcompare.error hfail
    · refine ((descending_meets hrest).imp fun r hr => ?_).map
      calc (a :: b :: r.1).reverse ++ r.2
          _ ~ (a :: b :: r.1 ++ r.2) := (List.reverse_perm _).append_right r.2
          _ = a :: b :: rest := by rw [List.cons_append, List.cons_append, hr]
    · exact ((ascending_meets hrest).imp fun r hr =>
        .of_eq (by rw [List.cons_append, List.cons_append, hr])).map

lemma insert_meets {sorted : List α} (h : Together Q before (a :: sorted)) :
    Meets Q (fun m => m ~ a :: sorted) (insert before a sorted) := by
  have ha := (List.pairwise_cons.mp h).1
  have hpass : ∀ b ∈ sorted, Meets Q (fun _ => True) ((before a b).map (!·)) :=
    fun b hb => (ha b hb).compare.map
  refine ((countBetween_meets hpass 0 sorted.length).imp fun place _ => ?_).map
  calc sorted.take place ++ a :: sorted.drop place
      _ ~ (a :: (sorted.take place ++ sorted.drop place)) := List.perm_middle
      _ = a :: sorted := by rw [List.take_append_drop]

lemma foldlM_insert_meets {sorted more : List α} (h : Together Q before (sorted ++ more)) :
    Meets Q (fun m => m ~ sorted ++ more)
      (more.foldlM (fun sorted a => insert before a sorted) sorted) := by
  induction more generalizing sorted with
  | nil => exact .of_ok (.of_eq (List.append_nil sorted).symm)
  | cons a more ih =>
    have hmiddle : (a :: sorted ++ more).Perm (sorted ++ a :: more) := List.perm_middle.symm
    have hinsert := insert_meets ((h.perm hmiddle).sublist (List.sublist_append_left ..))
    rw [List.foldlM_cons]
    refine hinsert.bind fun m hm => ?_
    have hsame : (m ++ more).Perm (sorted ++ a :: more) := (hm.append_right more).trans hmiddle
    exact (ih (h.perm hsame)).imp fun m' hm' => hm'.trans hsame

lemma nextRun_meets (least : Nat) (h : Together Q before entries) :
    Meets Q (fun r => r.1 ++ r.2 ~ entries) (nextRun before least entries) := by
  refine (firstRun_meets h).bind fun r hr => ?_
  obtain ⟨run, rest⟩ := r
  have hsplit : run ++ rest.take (least - run.length) ++ rest.drop (least - run.length) =
      run ++ rest := by rw [List.append_assoc, List.take_append_drop]
  have hmore : Together Q before (run ++ rest.take (least - run.length)) :=
    (hsplit ▸ h.perm hr).sublist (List.sublist_append_left ..)
  refine (foldlM_insert_meets hmore).bind fun run' hrun' => .of_ok ?_
  calc run' ++ rest.drop (least - run.length)
      _ ~ (run ++ rest.take (least - run.length) ++ rest.drop (least - run.length)) :=
        hrun'.append_right _
      _ = run ++ rest := hsplit
      _ ~ entries := hr

/-! ### Merges -/

lemma leapLeft_meets {r : α} (h : ∀ l ∈ left, FailsAs Q before l r) :
    Meets Q (fun _ => True) (leapLeft before d left r) :=
  leap_meets fun l hl => (h l hl).symm.compare.map.map

lemma leapRight_meets {l : α} (h : ∀ r ∈ right, FailsAs Q before l r) :
    Meets Q (fun _ => True) (leapRight before d l right) :=
  leap_meets fun r hr => (h r hr).symm.compare.map

/-- What is settled has all entries of both runs. -/
lemma perm_of_settled? {rest : List α} (h : settled? d left right = some rest) :
    rest ~ left ++ right := by
  unfold settled? at h
  split at h
  · cases h
    exact .refl _
  · cases h
    exact .of_eq (List.append_nil left).symm
  · cases h
    exact List.perm_append_comm
  · cases h
    exact .refl _
  · cases h

theorem takeMerged_meets (many : Nat) (pace : Pace) (h : Across Q before left right) :
    Meets Q (fun m => m.1 ~ left ++ right) (takeMerged before d many pace left right) := by
  induction many, pace, left, right using takeMerged_induction d with
  | settled _ _ _ _ rest hs =>
    rw [takeMerged_settled hs]
    exact .of_ok (perm_of_settled? hs)
  | walking _ many lefts rights l ls r rs hs ihr ihl =>
    have hlr : FailsAs Q before l r := h l (by simp) r (by simp)
    have hright : Across Q before (l :: ls) rs :=
      h.sublist (.refl _) (List.sublist_cons_self r rs)
    have hleft : Across Q before ls (r :: rs) := h.sublist (List.sublist_cons_self l ls) (.refl _)
    rw [takeMerged_walking hs]
    have hnext : Meets Q (fun _ => True) (rightNext before d l r) := hlr.symm.compare.map
    refine hnext.bind fun next _ => ?_
    cases next with
    | true => exact ((ihr hright).imp fun m hm => (hm.cons r).trans List.perm_middle.symm).map
    | false => exact ((ihl hleft).imp fun m hm => hm.cons l).map
  | leapingLeft _ many l ls r rs hs ih =>
    rw [takeMerged_leapingLeft hs]
    refine (leapLeft_meets fun x hx => h x hx r (by simp)).bind fun k _ => ?_
    have hdrop : Across Q before ((l :: ls).drop k) rs :=
      h.sublist (List.drop_sublist ..) (List.sublist_cons_self r rs)
    have hsplit := List.take_append_drop k (l :: ls)
    split
    · rename_i rest hrest
      have hperm := (perm_of_settled? hrest).append_left ((l :: ls).take k)
      rw [← List.append_assoc, hsplit] at hperm
      exact .of_ok hperm
    · refine ((ih k hdrop).imp fun m hm => ?_).map
      calc (l :: ls).take k ++ r :: m.1
          _ ~ ((l :: ls).take k ++ ((l :: ls).drop k ++ r :: rs)) :=
            ((hm.cons r).trans List.perm_middle.symm).append_left _
          _ = l :: ls ++ r :: rs := by rw [← List.append_assoc, hsplit]
  | leapingRight _ many lefts l ls r rs hs ih =>
    rw [takeMerged_leapingRight hs]
    refine (leapRight_meets fun x hx => h l (by simp) x hx).bind fun k _ => ?_
    have hdrop : Across Q before ls ((r :: rs).drop k) :=
      h.sublist (List.sublist_cons_self l ls) (List.drop_sublist ..)
    have hsplit := List.take_append_drop k (r :: rs)
    -- the right entries that were leapt over come in front of the left run
    have hmove : ∀ m : List α, m.Perm (l :: ls ++ (r :: rs).drop k) →
        ((r :: rs).take k ++ m).Perm (l :: ls ++ r :: rs) := fun m hm => by
      calc (r :: rs).take k ++ m
          _ ~ ((r :: rs).take k ++ (l :: ls ++ (r :: rs).drop k)) := hm.append_left _
          _ ~ (l :: ls ++ ((r :: rs).take k ++ (r :: rs).drop k)) :=
            List.perm_append_comm_assoc ..
          _ = l :: ls ++ r :: rs := by rw [hsplit]
    split
    · rename_i rest hrest
      exact .of_ok (hmove rest (perm_of_settled? hrest))
    · exact ((ih k hdrop).imp fun m hm => hmove (l :: m.1) (hm.cons l)).map

lemma mergeCrossed_meets (many : Nat) (h : Across Q before left right) :
    Meets Q (fun m => m.1 ~ left ++ right) (mergeCrossed before many left right) := by
  unfold mergeCrossed
  split
  · cases right with
    | nil => exact .of_ok (.of_eq (List.append_nil left).symm)
    | cons r rs =>
      have hrest : Across Q before left rs := h.sublist (.refl _) (List.sublist_cons_self r rs)
      refine ((takeMerged_meets many (.walking many 0 0) hrest).imp fun m hm => ?_).map
      exact (hm.cons r).trans List.perm_middle.symm
  · rcases hl : left.reverse with _ | ⟨l, ls⟩
    · obtain rfl : left = [] := by simpa using hl
      exact .of_ok (.refl _)
    · have hperm : (l :: ls).Perm left := hl ▸ List.reverse_perm left
      have hrest : Across Q before ls right.reverse :=
        (h.perm hperm (List.reverse_perm right)).sublist (List.sublist_cons_self l ls) (.refl _)
      refine ((takeMerged_meets many (.walking many 0 0) hrest).imp fun m hm => ?_).map
      calc (l :: m.1).reverse
          _ ~ (l :: m.1) := List.reverse_perm _
          _ ~ (l :: ls ++ right.reverse) := hm.cons l
          _ ~ (left ++ right) := hperm.append (List.reverse_perm right)

theorem merge_meets (many : Nat) (h : Across Q before left right) :
    Meets Q (fun m => m.1 ~ left ++ right) (Sort.merge before many left right) := by
  unfold Sort.merge
  cases right with
  | nil => exact .of_ok (.of_eq (List.append_nil left).symm)
  | cons r rs =>
    refine (leapLeft_meets fun l hl => h l hl r (by simp)).bind fun front _ => ?_
    rcases hlast : (left.drop front).getLast? with _ | l
    · exact .of_ok (.refl _)
    · have hl : l ∈ left := List.mem_of_mem_drop (List.mem_of_getLast? hlast)
      refine (leapRight_meets fun x hx => h l hl x (List.mem_reverse.mp hx)).bind fun back _ => ?_
      dsimp only
      generalize (r :: rs).length - back = within
      split
      · exact .of_ok (.refl _)
      · have hcrossed : Across Q before (left.drop front) ((r :: rs).take within) :=
          h.sublist (List.drop_sublist ..) (List.take_sublist ..)
        refine (mergeCrossed_meets many hcrossed).bind fun m hm => .of_ok ?_
        calc left.take front ++ m.1 ++ (r :: rs).drop within
            _ ~ (left.take front ++ (left.drop front ++ (r :: rs).take within) ++
                (r :: rs).drop within) := (hm.append_left _).append_right _
            _ = left.take front ++ left.drop front ++
                ((r :: rs).take within ++ (r :: rs).drop within) := by
              simp only [List.append_assoc]
            _ = left ++ r :: rs := by rw [List.take_append_drop, List.take_append_drop]

/-! ### Piles -/

/-- The run under the top one is brought to the front with it. -/
lemma perm_front (top run rest : List α) : run ++ top ++ rest ~ top ++ (run ++ rest) := by
  rw [← List.append_assoc]
  exact List.perm_append_comm.append_right rest

lemma settle_meets (depth many : Nat) {top : PiledRun α} {under : List (PiledRun α)}
    (h : Together Q before (top.entries ++ (under.map (·.entries)).flatten)) :
    Meets Q (fun pile => pile.runs.flatten ~
      top.entries ++ (under.map (·.entries)).flatten) (settle before depth many top under) := by
  induction under generalizing top many with
  | nil => exact .of_ok (.refl _)
  | cons run under ih =>
    have hswap : (run.entries ++ top.entries ++ (under.map (·.entries)).flatten).Perm
        (top.entries ++ ((run :: under).map (·.entries)).flatten) := perm_front ..
    have hacross : Across Q before run.entries top.entries :=
      ((h.perm hswap).sublist (List.sublist_append_left ..)).across
    have hmerge := merge_meets many hacross
    unfold settle
    split
    · split
      · rename_i e hfail
        exact hmerge.error hfail
      · rename_i merged many' hm
        have hsame : (merged ++ (under.map (·.entries)).flatten).Perm
            (top.entries ++ ((run :: under).map (·.entries)).flatten) :=
          ((hmerge.ok hm).append_right _).trans hswap
        have hrest := ih many' (show Together Q before (({ run with entries := merged } :
          PiledRun α).entries ++ (under.map (·.entries)).flatten) from h.perm hsame)
        exact hrest.imp fun pile hpile => hpile.trans hsame
    · exact .of_ok (.refl _)

lemma push_meets (total : Nat) {pile : Pile α} (run : List α)
    (h : Together Q before pile.runs.flatten) :
    Meets Q (fun pile' => pile'.runs.flatten ~ pile.runs.flatten ++ run)
      (pile.push before total run) := by
  refine (settle_meets _ pile.many h).bind fun settled hsettled => .of_ok ?_
  exact List.perm_append_comm.trans (hsettled.append_right run)

lemma pileUp_meets (total : Nat) {pile : Pile α}
    (h : Together Q before (pile.runs.flatten ++ entries)) :
    Meets Q (fun pile' => pile'.runs.flatten ~ pile.runs.flatten ++ entries)
      (pileUp before total pile entries) := by
  fun_induction pileUp before total pile entries with
  | case1 => exact .of_ok (.of_eq (List.append_nil _).symm)
  | case2 pile a rest e hfail =>
    exact (nextRun_meets _ (h.sublist (List.sublist_append_right ..))).error hfail
  | case3 pile a rest run rest' hrun e hfail =>
    exact (push_meets total run (h.sublist (List.sublist_append_left ..))).error hfail
  | case4 pile a rest run rest' hrun pile' hpush ih =>
    have hruns := (nextRun_meets _ (h.sublist (List.sublist_append_right ..))).ok hrun
    have hpushed := (push_meets total run (h.sublist (List.sublist_append_left ..))).ok hpush
    have hsame : (pile'.runs.flatten ++ rest').Perm (pile.runs.flatten ++ a :: rest) := by
      calc pile'.runs.flatten ++ rest'
          _ ~ (pile.runs.flatten ++ run ++ rest') := hpushed.append_right _
          _ = pile.runs.flatten ++ (run ++ rest') := List.append_assoc ..
          _ ~ (pile.runs.flatten ++ a :: rest) := hruns.append_left _
    exact (ih (h.perm hsame)).imp fun m hm => hm.trans hsame

lemma finish_meets (many : Nat) {top : List α} {runs : List (List α)}
    (h : Together Q before (top ++ runs.flatten)) :
    Meets Q (fun m => m ~ top ++ runs.flatten) (finish before many top runs) := by
  -- the two runs of a merge are brought to the front
  have hlower : ∀ run under top : List α, ∀ rest : List (List α),
      (under ++ run ++ (top ++ rest.flatten)).Perm (top ++ (run :: under :: rest).flatten) := by
    intro run under top rest
    calc under ++ run ++ (top ++ rest.flatten)
        _ ~ run ++ under ++ (top ++ rest.flatten) := List.perm_append_comm.append_right _
        _ = run ++ (under ++ (top ++ rest.flatten)) := List.append_assoc ..
        _ ~ run ++ (top ++ (under ++ rest.flatten)) :=
          (List.perm_append_comm_assoc ..).append_left run
        _ ~ top ++ (run ++ (under ++ rest.flatten)) := List.perm_append_comm_assoc ..
  have hupper : ∀ run top : List α, ∀ rest : List (List α),
      (run ++ top ++ rest.flatten).Perm (top ++ (run :: rest).flatten) :=
    fun run top rest => perm_front top run rest.flatten
  fun_induction finish before many top runs with
  | case1 => exact .of_ok (.of_eq (by simp))
  | case2 many top run =>
    rw [List.flatten_singleton] at h ⊢
    have hswap : (run ++ top).Perm (top ++ run) := List.perm_append_comm
    exact ((merge_meets many (h.perm hswap).across).imp fun m hm => hm.trans hswap).map
  | case3 many top run under rest _ e hfail =>
    have hboth := (h.perm (hlower run under top rest)).sublist (List.sublist_append_left ..)
    exact (merge_meets many hboth.across).error hfail
  | case4 many top run under rest _ merged many' hm ih =>
    have hboth := (h.perm (hlower run under top rest)).sublist (List.sublist_append_left ..)
    have hmerged := (merge_meets many hboth.across).ok hm
    have hsame :
        (top ++ (merged :: rest).flatten).Perm (top ++ (run :: under :: rest).flatten) := by
      calc top ++ (merged :: rest).flatten
          _ ~ merged ++ (top ++ rest.flatten) := List.perm_append_comm_assoc ..
          _ ~ under ++ run ++ (top ++ rest.flatten) := hmerged.append_right _
          _ ~ top ++ (run :: under :: rest).flatten := hlower run under top rest
    exact (ih (h.perm hsame)).imp fun m hm => hm.trans hsame
  | case5 many top run under rest _ e hfail =>
    have hboth := (h.perm (hupper run top (under :: rest))).sublist (List.sublist_append_left ..)
    exact (merge_meets many hboth.across).error hfail
  | case6 many top run under rest _ merged many' hm ih =>
    have hboth := (h.perm (hupper run top (under :: rest))).sublist (List.sublist_append_left ..)
    have hmerged := (merge_meets many hboth.across).ok hm
    have hsame := (hmerged.append_right _).trans (hupper run top (under :: rest))
    exact (ih (h.perm hsame)).imp fun m hm => hm.trans hsame

/-- **Failing sorts**: entries that fail to compare with each other only in some way are sorted, or
the sort fails in that way. -/
theorem sort_meets (h : Together Q before entries) :
    Meets Q (fun m => m ~ entries) (sort before entries) := by
  refine (nextRun_meets _ h).bind fun r hr => ?_
  obtain ⟨run, rest⟩ := r
  have hfirst : (Pile.runs ⟨⟨run, 0, 0⟩, [], goodLeap⟩ : List (List α)).flatten = run := by
    simp [Pile.runs]
  have htogether : Together Q before
      ((Pile.runs ⟨⟨run, 0, 0⟩, [], goodLeap⟩ : List (List α)).flatten ++ rest) := by
    rw [hfirst]
    exact h.perm hr
  have hpile := pileUp_meets entries.length htogether
  rw [hfirst] at hpile
  refine hpile.bind fun pile hp => ?_
  have hsame := hp.trans hr
  exact (finish_meets pile.many (h.perm hsame)).imp fun m hm => hm.trans hsame

end NearDoc.Sort
