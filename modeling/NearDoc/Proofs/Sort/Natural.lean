import NearDoc.Sort.Basic
import NearDoc.Proofs.Sort.Merge

/-!
Sorting entries under other names. A sort learns about its entries by comparing them and in no other
way. Main statement: entries that compare as those they stand for are sorted as those are.
-/

namespace NearDoc.Sort

variable {α β : Type}

/-- Entries compare as those that they stand for do. -/
def Carries (f : α → β) (before : α → α → Except Error Bool)
    (before' : β → β → Except Error Bool) : Prop :=
  ∀ a b, before' (f a) (f b) = before a b

variable {f : α → β} {before : α → α → Except Error Bool} {before' : β → β → Except Error Bool}
variable {entries left right : List α} {d : Direction}

/-! ### Searching -/

section

variable {passes : α → Except Error Bool} {passes' : β → Except Error Bool}

lemma countBetween_map (h : ∀ a, passes' (f a) = passes a) (low high : Nat) :
    countBetween passes' d (entries.map f) low high = countBetween passes d entries low high := by
  fun_induction countBetween passes d entries low high with
  | case1 low high hlt hget => simp [countBetween, hlt, hget]
  | case2 low high hlt a hget e hfail => simp [countBetween, hlt, hget, h, hfail]
  | case3 low high hlt a hget hpass ih
  | case4 low high hlt a hget hpass ih => rw [countBetween]; simp [hlt, hget, h, hpass, ih]
  | case5 low high hlt => simp [countBetween, hlt]

lemma countFrom_map (h : ∀ a, passes' (f a) = passes a) (low probe : Nat) :
    countFrom passes' d (entries.map f) low probe = countFrom passes d entries low probe := by
  have hbetween : ∀ low high, countBetween passes' d (entries.map f) low high =
      countBetween passes d entries low high := countBetween_map h
  fun_induction countFrom passes d entries low probe with
  | case1 low probe hlt e hfail => rw [countFrom]; simp [hlt, h, hfail]
  | case2 low probe hlt hpass ih => rw [countFrom]; simp [hlt, h, hpass, ih]
  | case3 low probe hlt hpass => rw [countFrom]; simp [hlt, h, hpass, hbetween]
  | case4 low probe hlt => rw [countFrom]; simp [hlt, hbetween]

lemma leap_map (h : ∀ a, passes' (f a) = passes a) :
    leap passes' d (entries.map f) = leap passes d entries := countFrom_map h 0 0

end

/-! ### Runs -/

section

variable (h : Carries f before before')
include h

lemma ascending_map (last : α) (entries : List α) :
    ascending before' (f last) (entries.map f) =
      (ascending before last entries).map fun r => (r.1.map f, r.2.map f) := by
  induction entries generalizing last with
  | nil => rfl
  | cons a rest ih =>
    simp only [List.map_cons, ascending, h a last, ih a]
    rcases before a last with e | _ | _
    · rfl
    · rcases ascending before a rest with e | r <;> rfl
    · rfl

lemma descending_map (last : α) (entries : List α) :
    descending before' (f last) (entries.map f) =
      (descending before last entries).map fun r => (r.1.map f, r.2.map f) := by
  have hcontrary : Carries f (contrary before) (contrary before') := fun a b => by
    rw [contrary, contrary, h]
  rw [descending_eq, descending_eq, ascending_map hcontrary]

lemma firstRun_map (entries : List α) :
    firstRun before' (entries.map f) =
      (firstRun before entries).map fun r => (r.1.map f, r.2.map f) := by
  rcases entries with _ | ⟨a, _ | ⟨b, rest⟩⟩
  · rfl
  · rfl
  · simp only [List.map_cons, firstRun, h b a, ascending_map h, descending_map h]
    rcases before b a with e | _ | _
    · rfl
    · rcases ascending before b rest with e | r <;> rfl
    · rcases descending before b rest with e | r <;> simp [Except.map]

lemma insert_map (a : α) (sorted : List α) :
    insert before' (f a) (sorted.map f) = (insert before a sorted).map (List.map f) := by
  have hcount : countBetween (fun b => (before' (f a) b).map (!·)) .forward (sorted.map f) 0
      sorted.length =
        countBetween (fun b => (before a b).map (!·)) .forward sorted 0 sorted.length := by
    refine countBetween_map (fun b => ?_) 0 sorted.length
    rw [h a b]
  unfold insert
  rw [List.length_map, hcount]
  rcases countBetween (fun b => (before a b).map (!·)) .forward sorted 0 sorted.length with e | place
  · rfl
  · simp [Except.map]

lemma foldlM_insert_map (more sorted : List α) :
    (more.map f).foldlM (fun sorted a => insert before' a sorted) (sorted.map f) =
      (more.foldlM (fun sorted a => insert before a sorted) sorted).map (List.map f) := by
  induction more generalizing sorted with
  | nil => rfl
  | cons a more ih =>
    simp only [List.map_cons, List.foldlM_cons, insert_map h]
    rcases insert before a sorted with e | sorted'
    · rfl
    · exact ih sorted'

lemma nextRun_map (least : Nat) (entries : List α) :
    nextRun before' least (entries.map f) =
      (nextRun before least entries).map fun r => (r.1.map f, r.2.map f) := by
  simp only [nextRun, firstRun_map h]
  rcases firstRun before entries with e | ⟨run, rest⟩
  · rfl
  · have hinserted := foldlM_insert_map h (rest.take (least - run.length)) run
    simp only [Except.map, bind, Except.bind, List.length_map, ← List.map_take] at hinserted ⊢
    rw [hinserted]
    rcases (rest.take (least - run.length)).foldlM (fun sorted a => insert before a sorted) run with
      e | run'
    · rfl
    · simp [pure, Except.pure]

/-! ### Merges -/

lemma rightNext_map (l r : α) : rightNext before' d (f l) (f r) = rightNext before d l r := by
  rw [rightNext, rightNext, h r l]

lemma leapLeft_map (left : List α) (r : α) :
    leapLeft before' d (left.map f) (f r) = leapLeft before d left r :=
  leap_map fun l => by rw [rightNext_map h]

lemma leapRight_map (l : α) (right : List α) :
    leapRight before' d (f l) (right.map f) = leapRight before d l right :=
  leap_map fun r => rightNext_map h l r

omit h in
lemma settled?_map (d : Direction) (left right : List α) :
    settled? d (left.map f) (right.map f) = (settled? d left right).map (List.map f) := by
  rcases left with _ | ⟨l, _ | ⟨l', ls⟩⟩ <;> rcases right with _ | ⟨r, _ | ⟨r', rs⟩⟩ <;> cases d <;>
    simp [settled?]

omit h in
lemma settled?_map_none {left right : List α} (hs : settled? d left right = none) :
    settled? d (left.map f) (right.map f) = none := by
  rw [settled?_map, hs, Option.map_none]

theorem takeMerged_map (many : Nat) (pace : Pace) (left right : List α) :
    takeMerged before' d many pace (left.map f) (right.map f) =
      (takeMerged before d many pace left right).map fun m => (m.1.map f, m.2) := by
  induction many, pace, left, right using takeMerged_induction d with
  | settled held pace left right rest hs =>
    have hs' : settled? d (left.map f) (right.map f) = some (rest.map f) := by
      rw [settled?_map, hs, Option.map_some]
    rw [takeMerged_settled hs, takeMerged_settled hs']
    rfl
  | walking held many lefts rights l ls r rs hs ihr ihl =>
    have hs' : settled? d (f l :: ls.map f) (f r :: rs.map f) = none := settled?_map_none hs
    rw [List.map_cons] at ihr ihl
    rw [List.map_cons, List.map_cons, takeMerged_walking hs', takeMerged_walking hs,
      rightNext_map h, ihr, ihl]
    rcases rightNext before d l r with e | _ | _
    · rfl
    · rcases takeMerged before d many (.walkOn many (lefts + 1) 0) ls (r :: rs) with e | m <;> rfl
    · rcases takeMerged before d many (.walkOn many 0 (rights + 1)) (l :: ls) rs with e | m <;> rfl
  | leapingLeft held many l ls r rs hs ih =>
    have hs' : settled? d (f l :: ls.map f) (f r :: rs.map f) = none := settled?_map_none hs
    have hleap := leapLeft_map (d := d) h (l :: ls) r
    rw [List.map_cons] at hleap
    rw [List.map_cons, List.map_cons, takeMerged_leapingLeft hs', takeMerged_leapingLeft hs, hleap]
    rcases leapLeft before d (l :: ls) r with e | k
    · rfl
    · have hrest := settled?_map (f := f) d ((l :: ls).drop k) (r :: rs)
      have htail := ih k
      simp only [List.map_drop, List.map_cons] at hrest htail
      simp only [bind, Except.bind]
      rw [hrest, htail]
      rcases settled? d ((l :: ls).drop k) (r :: rs) with _ | rest
      · dsimp only [Option.map_none]
        rcases takeMerged before d many (.leapingRight many k) ((l :: ls).drop k) rs with e | m <;>
          simp [Except.map]
      · simp [Except.map]
  | leapingRight held many lefts l ls r rs hs ih =>
    have hs' : settled? d (f l :: ls.map f) (f r :: rs.map f) = none := settled?_map_none hs
    have hleap := leapRight_map (d := d) h l (r :: rs)
    rw [List.map_cons] at hleap
    rw [List.map_cons, List.map_cons, takeMerged_leapingRight hs', takeMerged_leapingRight hs,
      hleap]
    rcases leapRight before d l (r :: rs) with e | k
    · rfl
    · have hrest := settled?_map (f := f) d (l :: ls) ((r :: rs).drop k)
      have htail := ih k
      simp only [List.map_drop, List.map_cons] at hrest htail
      simp only [bind, Except.bind]
      rw [hrest, htail]
      rcases settled? d (l :: ls) ((r :: rs).drop k) with _ | rest
      · dsimp only [Option.map_none]
        rcases takeMerged before d many (.leapOn many lefts k) ls ((r :: rs).drop k) with e | m <;>
          simp [Except.map]
      · simp [Except.map]

lemma mergeCrossed_map (many : Nat) (left right : List α) :
    mergeCrossed before' many (left.map f) (right.map f) =
      (mergeCrossed before many left right).map fun m => (m.1.map f, m.2) := by
  simp only [mergeCrossed, List.length_map]
  split
  · cases right with
    | nil => rfl
    | cons r rs =>
      simp only [List.map_cons, takeMerged_map h]
      rcases takeMerged before .forward many (.walking many 0 0) left rs with e | m <;> rfl
  · rw [← List.map_reverse]
    rcases left.reverse with _ | ⟨l, ls⟩
    · rfl
    · simp only [List.map_cons, ← List.map_reverse, takeMerged_map h]
      rcases takeMerged before .backward many (.walking many 0 0) ls right.reverse with e | m
      · rfl
      · simp [Except.map]

theorem merge_map (many : Nat) (left right : List α) :
    Sort.merge before' many (left.map f) (right.map f) =
      (Sort.merge before many left right).map fun m => (m.1.map f, m.2) := by
  cases right with
  | nil => rfl
  | cons r rs =>
    simp only [Sort.merge, List.map_cons]
    rw [leapLeft_map h]
    rcases leapLeft before .forward left r with e | front
    · rfl
    · simp only [bind, Except.bind, ← List.map_drop, List.getLast?_map]
      rcases (left.drop front).getLast? with _ | l
      · simp [pure, Except.pure, Except.map]
      · have hback := leapRight_map (d := .backward) h l (r :: rs).reverse
        rw [List.map_reverse, List.map_cons] at hback
        simp only [Option.map_some]
        rw [hback]
        rcases leapRight before .backward l (r :: rs).reverse with e | back
        · rfl
        · have hcrossed := fun within =>
            mergeCrossed_map h many (left.drop front) ((r :: rs).take within)
          simp only [List.map_take, List.map_cons] at hcrossed
          simp only [List.length_cons, List.length_map]
          split
          · simp [pure, Except.pure, Except.map]
          · rw [hcrossed]
            rcases mergeCrossed before many (left.drop front) _ with e | m
            · rfl
            · simp [pure, Except.pure, Except.map]

/-! ### Piles -/

omit h in
variable (f) in
/-- The run of what its entries stand for. -/
def PiledRun.map (run : PiledRun α) : PiledRun β := ⟨run.entries.map f, run.start, run.depth⟩

omit h in
variable (f) in
/-- The pile of what its entries stand for. -/
def Pile.map (pile : Pile α) : Pile β :=
  ⟨pile.top.map f, pile.under.map (·.map f), pile.many⟩

lemma settle_map (depth many : Nat) (top : PiledRun α) (under : List (PiledRun α)) :
    settle before' depth many (top.map f) (under.map (·.map f)) =
      (settle before depth many top under).map (·.map f) := by
  induction under generalizing top many with
  | nil => rfl
  | cons run under ih =>
    simp only [List.map_cons, settle]
    have hmerge := merge_map h many run.entries top.entries
    split
    · rw [if_pos (by assumption)]
      simp only [PiledRun.map] at hmerge ⊢
      rw [hmerge]
      rcases Sort.merge before many run.entries top.entries with e | ⟨merged, many'⟩
      · rfl
      · exact ih many' { run with entries := merged }
    · rw [if_neg (by assumption)]
      rfl

lemma push_map (total : Nat) (pile : Pile α) (run : List α) :
    (pile.map f).push before' total (run.map f) = (pile.push before total run).map (·.map f) := by
  have hsettle := fun depth => settle_map h depth pile.many pile.top pile.under
  simp only [Pile.push, Pile.map, PiledRun.map, List.length_map] at hsettle ⊢
  rw [hsettle]
  rcases settle before _ pile.many pile.top pile.under with e | settled <;> rfl

omit h in
/-- A pile goes on by the next run. -/
lemma pileUp_cons (total : Nat) (pile : Pile α) (a : α) (rest : List α) :
    pileUp before total pile (a :: rest) =
      (nextRun before (leastRun total) (a :: rest)).bind fun r =>
        (pile.push before total r.1).bind fun pile => pileUp before total pile r.2 := by
  rw [pileUp.eq_def]
  dsimp only
  split
  · rename_i e hfail
    rw [hfail]
    rfl
  · rename_i run rest' hrun
    rw [hrun]
    simp only [Except.bind]
    rcases pile.push before total run with e | pile' <;> rfl

lemma pileUp_map (total : Nat) (pile : Pile α) (entries : List α) :
    pileUp before' total (pile.map f) (entries.map f) =
      (pileUp before total pile entries).map (·.map f) := by
  generalize hn : entries.length = n
  induction n using Nat.strongRecOn generalizing pile entries with
  | _ n ih =>
  cases entries with
  | nil => rw [List.map_nil, pileUp.eq_def, pileUp.eq_def]; rfl
  | cons a rest =>
    have hnext := nextRun_map h (leastRun total) (a :: rest)
    rw [List.map_cons] at hnext ⊢
    rw [pileUp_cons, pileUp_cons, hnext]
    rcases hrun : nextRun before (leastRun total) (a :: rest) with e | ⟨run, rest'⟩
    · rfl
    · simp only [Except.map, Except.bind, push_map h]
      rcases pile.push before total run with e | pile'
      · rfl
      · exact ih _ (hn ▸ length_nextRun hrun) pile' rest' rfl

lemma finish_map (many : Nat) (top : List α) (runs : List (List α)) :
    finish before' many (top.map f) (runs.map (List.map f)) =
      (finish before many top runs).map (List.map f) := by
  fun_induction finish before many top runs with
  | case1 many top => rw [List.map_nil, finish]; rfl
  | case2 many top run =>
    rw [List.map_singleton, finish, merge_map h]
    rcases Sort.merge before many run top with e | m <;> rfl
  | case3 many top run under rest hlt e hfail =>
    rw [List.map_cons, List.map_cons, finish]
    simp only [List.length_map, if_pos hlt, merge_map h, hfail]
    rfl
  | case4 many top run under rest hlt merged many' hm ih =>
    rw [List.map_cons, List.map_cons, finish]
    simp only [List.length_map, if_pos hlt, merge_map h, hm]
    exact ih
  | case5 many top run under rest hlt e hfail =>
    rw [List.map_cons, List.map_cons, finish]
    simp only [List.length_map, if_neg hlt, merge_map h, hfail]
    rfl
  | case6 many top run under rest hlt merged many' hm ih =>
    rw [List.map_cons, List.map_cons, finish]
    simp only [List.length_map, if_neg hlt, merge_map h, hm]
    exact ih

/-- **Sorting under other names**: entries that compare as those they stand for are sorted as those
are, and fail to be sorted as those do. -/
theorem sort_map (entries : List α) :
    sort before' (entries.map f) = (sort before entries).map (List.map f) := by
  simp only [sort, List.length_map, nextRun_map h]
  rcases nextRun before (leastRun entries.length) entries with e | ⟨run, rest⟩
  · rfl
  · have hpile := pileUp_map h entries.length ⟨⟨run, 0, 0⟩, [], goodLeap⟩ rest
    simp only [Pile.map, PiledRun.map, List.map_nil] at hpile
    simp only [Except.map, bind, Except.bind, hpile]
    rcases pileUp before entries.length ⟨⟨run, 0, 0⟩, [], goodLeap⟩ rest with e | pile
    · rfl
    · have hfinish := finish_map h pile.many pile.top.entries (pile.under.map (·.entries))
      rw [List.map_map] at hfinish
      dsimp only
      rw [List.map_map]
      exact hfinish

end

end NearDoc.Sort
