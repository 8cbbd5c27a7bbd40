import Mathlib.Data.List.TakeWhile
import NearDoc.Sort.Merge
import NearDoc.Proofs.Sort.Search
import NearDoc.Proofs.Sort.Stable

/-!
Merging two sorted runs. Whatever the pace, entries are taken as a plain merge takes them: by leaps
no entry is passed over that comes later. Main statement: the outcome is the stable arrangement of
the left run followed by the right one.
-/

namespace NearDoc.Sort

variable {α : Type}

/-- On the entries of a kind the test is decided, and `a` comes before `b` unless `b` may stand
in front of it. -/
def Decides (P : α → Prop) (before : α → α → Except Error Bool) (le : α → α → Bool) : Prop :=
  ∀ a b, P a → P b → before a b = .ok (!le b a)

namespace Direction

/-- The order in which sorted entries are taken. -/
def order (d : Direction) (le : α → α → Bool) : α → α → Bool :=
  match d with
  | .forward => le
  | .backward => fun a b => le b a

/-- An entry of the left run is taken before one of the right run. -/
def leftFirst (d : Direction) (le : α → α → Bool) (l r : α) : Bool :=
  match d with
  | .forward => le l r
  | .backward => !le l r

/-- The run with which a merge ends has an entry that is taken after all of the other run. -/
def Ends (d : Direction) (le : α → α → Bool) (left right : List α) : Prop :=
  match d with
  | .forward => ∀ l ∈ left.getLast?, ∀ r ∈ right, le l r = false
  | .backward => ∀ r ∈ right.getLast?, ∀ l ∈ left, le l r = false

end Direction

/-- Two runs in the order in which they are taken, of which a merge can leave the last entry of
one to the end. -/
structure Mergeable (P : α → Prop) (d : Direction) (le : α → α → Bool) (left right : List α) :
    Prop where
  left_mem : ∀ x ∈ left, P x
  right_mem : ∀ x ∈ right, P x
  left_sorted : left.Pairwise fun a b => d.order le a b
  right_sorted : right.Pairwise fun a b => d.order le a b
  ends : d.Ends le left right

section

variable {P : α → Prop} {before : α → α → Except Error Bool} {le : α → α → Bool} {d : Direction}
variable {left right : List α}

lemma mem_getLast?_of_suffix {l' l : List α} (h : l' <:+ l) {x : α} (hx : x ∈ l'.getLast?) :
    x ∈ l.getLast? := by
  obtain ⟨t, rfl⟩ := h
  rw [List.getLast?_append, Option.mem_def.mp hx]
  rfl

lemma Mergeable.suffix {left' right' : List α} (h : Mergeable P d le left right)
    (hl : left' <:+ left) (hr : right' <:+ right) : Mergeable P d le left' right' where
  left_mem x hx := h.left_mem x (hl.subset hx)
  right_mem x hx := h.right_mem x (hr.subset hx)
  left_sorted := h.left_sorted.sublist hl.sublist
  right_sorted := h.right_sorted.sublist hr.sublist
  ends := by
    have he := h.ends
    cases d
    · exact fun l hl' r hr' => he l (mem_getLast?_of_suffix hl hl') r (hr.subset hr')
    · exact fun r hr' l hl' => he r (mem_getLast?_of_suffix hr hr') l (hl.subset hl')

/-! ### Plain merges -/

lemma merge_takeWhile_left (s : α → α → Bool) (l : List α) (r : α) (rs : List α) :
    l.merge (r :: rs) s =
      l.takeWhile (s · r) ++ (l.dropWhile (s · r)).merge (r :: rs) s := by
  induction l with
  | nil => simp
  | cons a l ih => by_cases h : s a r <;> simp [h, ih]

lemma merge_takeWhile_right (s : α → α → Bool) (l : α) (ls r : List α) :
    (l :: ls).merge r s =
      r.takeWhile (!s l ·) ++ (l :: ls).merge (r.dropWhile (!s l ·)) s := by
  induction r with
  | nil => simp
  | cons a r ih => by_cases h : s l a <;> simp [h, ih]

/-- A merge takes the left entries that come before the first right one, and then that one. -/
lemma merge_cons_right (s : α → α → Bool) (l : List α) (r : α) (rs : List α) :
    l.merge (r :: rs) s =
      l.takeWhile (s · r) ++ r :: (l.dropWhile (s · r)).merge rs s := by
  induction l with
  | nil => simp
  | cons a l ih => by_cases h : s a r <;> simp [h, ih]

/-- A merge takes the right entries that come before the first left one, and then that one. -/
lemma merge_cons_left (s : α → α → Bool) (l : α) (ls r : List α) :
    (l :: ls).merge r s =
      r.takeWhile (!s l ·) ++ l :: ls.merge (r.dropWhile (!s l ·)) s := by
  induction r with
  | nil => simp
  | cons a r ih => by_cases h : s l a <;> simp [h, ih]

lemma merge_of_right_first (s : α → α → Bool) {l : α} {r : List α}
    (h : ∀ x ∈ r, s l x = false) : [l].merge r s = r ++ [l] := by
  induction r with
  | nil => simp
  | cons a r ih =>
    rw [List.forall_mem_cons] at h
    simp [h.1, ih h.2]

/-- A merge that takes left entries unless a right one has to come first is the merge of the runs
changed about. -/
lemma merge_swap (s : α → α → Bool) :
    ∀ l r : List α, l.merge r (fun a b => !s b a) = r.merge l s
  | [], r => by cases r <;> simp
  | a :: l, [] => by simp
  | a :: l, b :: r => by
    by_cases h : s b a
    · simp [h, merge_swap s (a :: l) r]
    · simp [h, merge_swap s l (b :: r)]

lemma take_length_takeWhile (p : α → Bool) (l : List α) :
    l.take (l.takeWhile p).length = l.takeWhile p :=
  List.prefix_iff_eq_take.mp (List.takeWhile_prefix p) |>.symm

lemma drop_length_takeWhile (p : α → Bool) (l : List α) :
    l.drop (l.takeWhile p).length = l.dropWhile p := by
  induction l with
  | nil => rfl
  | cons a l ih => by_cases h : p a <;> simp [h, ih]

/-! ### Which entry is next -/

lemma rightNext_eq (hb : Decides P before le) {l r : α} (hl : P l) (hr : P r) :
    rightNext before d l r = .ok (!d.leftFirst le l r) := by
  rw [rightNext, hb r l hr hl]
  cases d <;> cases hlr : le l r <;> simp [Direction.leftFirst, hlr, Except.map]

/-- Of left entries those taken before a right one stand in front. -/
lemma inFront_left (hle : TotalPreorder le) (hs : left.Pairwise fun a b => d.order le a b)
    (r : α) : InFront (d.leftFirst le · r) left := by
  refine hs.imp fun {a b} hab hbr => ?_
  cases d
  · exact hle.trans _ _ _ hab hbr
  · simp only [Direction.leftFirst, Bool.not_eq_true'] at hbr ⊢
    by_contra har
    have := hle.trans _ _ _ hab (by simpa using har)
    simp [hbr] at this

/-- Of right entries those taken before a left one stand in front. -/
lemma inFront_right (hle : TotalPreorder le) (hs : right.Pairwise fun a b => d.order le a b)
    (l : α) : InFront (!d.leftFirst le l ·) right := by
  refine hs.imp fun {a b} hab hlb => ?_
  cases d
  · simp only [Direction.leftFirst, Bool.not_eq_true'] at hlb ⊢
    by_contra hla
    have := hle.trans _ _ _ (by simpa using hla) hab
    simp [hlb] at this
  · simp only [Direction.leftFirst, Bool.not_not] at hlb ⊢
    exact hle.trans _ _ _ hlb hab

lemma leapLeft_eq (hb : Decides P before le) (hle : TotalPreorder le) (hl : ∀ x ∈ left, P x)
    (hs : left.Pairwise fun a b => d.order le a b) {r : α} (hr : P r) :
    leapLeft before d left r = .ok (left.takeWhile (d.leftFirst le · r)).length := by
  refine leap_eq (fun a ha => ?_) (inFront_left hle hs r)
  rw [rightNext_eq hb (hl a ha) hr]
  simp [Except.map]

lemma leapRight_eq (hb : Decides P before le) (hle : TotalPreorder le) (hr : ∀ x ∈ right, P x)
    (hs : right.Pairwise fun a b => d.order le a b) {l : α} (hl : P l) :
    leapRight before d l right = .ok (right.takeWhile (!d.leftFirst le l ·)).length :=
  leap_eq (fun a ha => rightNext_eq hb hl (hr a ha)) (inFront_right hle hs l)

/-- What is settled is what a plain merge answers. -/
lemma settled?_eq (hm : Mergeable P d le left right) {rest : List α}
    (h : settled? d left right = some rest) : rest = left.merge right (d.leftFirst le) := by
  have he := hm.ends
  unfold settled? at h
  split at h
  · simp_all
  · simp_all
  · cases h
    exact (merge_of_right_first _ fun x hx => he _ (by simp) x hx).symm
  · cases h
    refine (List.merge_of_le fun a b ha hb => ?_).symm
    simp only [List.mem_singleton] at hb
    subst hb
    simp [Direction.leftFirst, he b (by simp) a ha]
  · cases h

lemma exists_cons_of_settled? (h : settled? d left right = none) :
    ∃ l ls r rs, left = l :: ls ∧ right = r :: rs := by
  cases left with
  | nil => simp [settled?] at h
  | cons l ls =>
    cases right with
    | nil => cases d <;> simp [settled?] at h
    | cons r rs => exact ⟨l, ls, r, rs, rfl, rfl⟩

/-! ### One step of a merge -/

lemma takeMerged_settled {rest : List α} (hs : settled? d left right = some rest) (many : Nat)
    (pace : Pace) : takeMerged before d many pace left right = .ok (rest, many) := by
  rw [takeMerged.eq_def, hs]

section

variable {l r : α} {ls rs : List α} (hs : settled? d (l :: ls) (r :: rs) = none)
variable (held many : Nat)
include hs

lemma takeMerged_walking (lefts rights : Nat) :
    takeMerged before d held (.walking many lefts rights) (l :: ls) (r :: rs) =
      (rightNext before d l r >>= fun next =>
        if next then (takeMerged before d many (.walkOn many 0 (rights + 1)) (l :: ls) rs).map
          fun m => (r :: m.1, m.2)
        else (takeMerged before d many (.walkOn many (lefts + 1) 0) ls (r :: rs)).map
          fun m => (l :: m.1, m.2)) := by
  rw [takeMerged.eq_def, hs]
  dsimp only
  rcases rightNext before d l r with e | _ | _ <;> rfl

lemma takeMerged_leapingLeft :
    takeMerged before d held (.leapingLeft many) (l :: ls) (r :: rs) =
      (leapLeft before d (l :: ls) r >>= fun k =>
        match settled? d ((l :: ls).drop k) (r :: rs) with
        | some rest => .ok ((l :: ls).take k ++ rest, many)
        | none =>
          (takeMerged before d many (.leapingRight many k) ((l :: ls).drop k) rs).map fun m =>
            ((l :: ls).take k ++ r :: m.1, m.2)) := by
  rw [takeMerged.eq_def, hs]
  dsimp only
  rcases leapLeft before d (l :: ls) r with e | k <;> rfl

lemma takeMerged_leapingRight (lefts : Nat) :
    takeMerged before d held (.leapingRight many lefts) (l :: ls) (r :: rs) =
      (leapRight before d l (r :: rs) >>= fun k =>
        match settled? d (l :: ls) ((r :: rs).drop k) with
        | some rest => .ok ((r :: rs).take k ++ rest, many)
        | none =>
          (takeMerged before d many (.leapOn many lefts k) ls ((r :: rs).drop k)).map fun m =>
            ((r :: rs).take k ++ l :: m.1, m.2)) := by
  rw [takeMerged.eq_def, hs]
  dsimp only
  rcases leapRight before d l (r :: rs) with e | k <;> rfl

end

/-- **Induction over a merge**: what holds once a merge is settled, and of a merge at any pace if it
holds of those that the pace may go on with, holds of all merges. -/
@[elab_as_elim]
theorem takeMerged_induction {motive : Nat → Pace → List α → List α → Prop} (d : Direction)
    (settled : ∀ held pace left right rest, settled? d left right = some rest →
      motive held pace left right)
    (walking : ∀ held many lefts rights l ls r rs, settled? d (l :: ls) (r :: rs) = none →
      motive many (.walkOn many 0 (rights + 1)) (l :: ls) rs →
      motive many (.walkOn many (lefts + 1) 0) ls (r :: rs) →
      motive held (.walking many lefts rights) (l :: ls) (r :: rs))
    (leapingLeft : ∀ held many l ls r rs, settled? d (l :: ls) (r :: rs) = none →
      (∀ k, motive many (.leapingRight many k) ((l :: ls).drop k) rs) →
      motive held (.leapingLeft many) (l :: ls) (r :: rs))
    (leapingRight : ∀ held many lefts l ls r rs, settled? d (l :: ls) (r :: rs) = none →
      (∀ k, motive many (.leapOn many lefts k) ls ((r :: rs).drop k)) →
      motive held (.leapingRight many lefts) (l :: ls) (r :: rs))
    (held : Nat) (pace : Pace) (left right : List α) : motive held pace left right := by
  generalize hn : left.length + right.length = n
  induction n using Nat.strongRecOn generalizing held pace left right with
  | _ n ih =>
  rcases hs : settled? d left right with _ | rest
  · obtain ⟨l, ls, r, rs, rfl, rfl⟩ := exists_cons_of_settled? hs
    have ih' : ∀ {held pace} (left right : List α), left.length ≤ (l :: ls).length →
        right.length ≤ (r :: rs).length → left.length < (l :: ls).length ∨
          right.length < (r :: rs).length → motive held pace left right :=
      fun left right hl hr hlt => ih _ (by omega) _ _ left right rfl
    cases pace with
    | walking many lefts rights =>
      exact walking held many lefts rights l ls r rs hs
        (ih' (l :: ls) rs (by simp) (by simp) (by simp))
        (ih' ls (r :: rs) (by simp) (by simp) (by simp))
    | leapingLeft many =>
      exact leapingLeft held many l ls r rs hs fun k =>
        ih' _ rs (List.drop_sublist k (l :: ls)).length_le (by simp) (by simp)
    | leapingRight many lefts =>
      exact leapingRight held many lefts l ls r rs hs fun k =>
        ih' ls _ (by simp) (List.drop_sublist k (r :: rs)).length_le (by simp)
  · exact settled held pace left right rest hs

/-! ### Taking entries -/

/-- **Taking entries by any pace** takes them as a plain merge does. -/
theorem takeMerged_eq (hb : Decides P before le) (hle : TotalPreorder le) (many : Nat) (pace : Pace)
    (hm : Mergeable P d le left right) :
    ∃ n, takeMerged before d many pace left right =
      .ok (left.merge right (d.leftFirst le), n) := by
  induction many, pace, left, right using takeMerged_induction d with
  | settled held _ left right rest hs =>
    exact ⟨held, by rw [takeMerged_settled hs, settled?_eq hm hs]⟩
  | walking _ many lefts rights l ls r rs hs ihr ihl =>
    rw [takeMerged_walking hs, rightNext_eq hb (hm.left_mem l (by simp)) (hm.right_mem r (by simp))]
    rcases hlr : d.leftFirst le l r with _ | _
    · obtain ⟨n, hn⟩ := ihr (hm.suffix (List.suffix_refl _) (List.suffix_cons r rs))
      exact ⟨n, by simp [bind, Except.bind, hn, Except.map, hlr]⟩
    · obtain ⟨n, hn⟩ := ihl (hm.suffix (List.suffix_cons l ls) (List.suffix_refl _))
      exact ⟨n, by simp [bind, Except.bind, hn, Except.map, hlr]⟩
  | leapingLeft _ many l ls r rs hs ih =>
    have hsuf : (l :: ls).dropWhile (d.leftFirst le · r) <:+ l :: ls := List.dropWhile_suffix _
    have hm' := hm.suffix hsuf (List.suffix_refl _)
    have hrest := ih ((l :: ls).takeWhile (d.leftFirst le · r)).length
    rw [takeMerged_leapingLeft hs,
      leapLeft_eq hb hle hm.left_mem hm.left_sorted (hm.right_mem r (by simp))]
    simp only [bind, Except.bind]
    rw [take_length_takeWhile]
    rw [drop_length_takeWhile] at hrest ⊢
    rcases hs' : settled? d ((l :: ls).dropWhile (d.leftFirst le · r)) (r :: rs) with _ | rest
    · obtain ⟨n, hn⟩ := hrest (hm'.suffix (List.suffix_refl _) (List.suffix_cons r rs))
      exact ⟨n, by rw [merge_cons_right]; simp only [hn, Except.map]⟩
    · exact ⟨many, by rw [merge_takeWhile_left, settled?_eq hm' hs']⟩
  | leapingRight _ many lefts l ls r rs hs ih =>
    have hsuf : (r :: rs).dropWhile (!d.leftFirst le l ·) <:+ r :: rs := List.dropWhile_suffix _
    have hm' := hm.suffix (List.suffix_refl _) hsuf
    have hrest := ih ((r :: rs).takeWhile (!d.leftFirst le l ·)).length
    rw [takeMerged_leapingRight hs,
      leapRight_eq hb hle hm.right_mem hm.right_sorted (hm.left_mem l (by simp))]
    simp only [bind, Except.bind]
    rw [take_length_takeWhile]
    rw [drop_length_takeWhile] at hrest ⊢
    rcases hs' : settled? d (l :: ls) ((r :: rs).dropWhile (!d.leftFirst le l ·)) with _ | rest
    · obtain ⟨n, hn⟩ := hrest (hm'.suffix (List.suffix_cons l ls) (List.suffix_refl _))
      exact ⟨n, by rw [merge_cons_left]; simp only [hn, Except.map]⟩
    · exact ⟨many, by rw [merge_takeWhile_right, settled?_eq hm' hs']⟩

/-! ### Whole runs -/

/-- Two sorted runs, one behind the other. -/
structure Runs (P : α → Prop) (le : α → α → Bool) (left right : List α) : Prop where
  left_mem : ∀ x ∈ left, P x
  right_mem : ∀ x ∈ right, P x
  left_sorted : left.Pairwise fun a b => le a b
  right_sorted : right.Pairwise fun a b => le a b

lemma Runs.forward (h : Runs P le left right)
    (he : ∀ l ∈ left.getLast?, ∀ r ∈ right, le l r = false) :
    Mergeable P .forward le left right :=
  ⟨h.left_mem, h.right_mem, h.left_sorted, h.right_sorted, he⟩

lemma Runs.backward (h : Runs P le left right)
    (he : ∀ r ∈ right.head?, ∀ l ∈ left, le l r = false) :
    Mergeable P .backward le left.reverse right.reverse where
  left_mem x hx := h.left_mem x (List.mem_reverse.mp hx)
  right_mem x hx := h.right_mem x (List.mem_reverse.mp hx)
  left_sorted := List.pairwise_reverse.mpr h.left_sorted
  right_sorted := List.pairwise_reverse.mpr h.right_sorted
  ends r hr l hl := he r (by simpa using hr) l (List.mem_reverse.mp hl)

/-- Runs that cross are merged from either end. -/
lemma mergeCrossed_arranges (hb : Decides P before le) (hle : TotalPreorder le) (many : Nat)
    (h : Runs P le left right) (hfront : ∀ r ∈ right.head?, ∀ l ∈ left, le l r = false)
    (hback : ∀ l ∈ left.getLast?, ∀ r ∈ right, le l r = false) :
    ∃ m n, mergeCrossed before many left right = .ok (m, n) ∧ Arranges le (left ++ right) m := by
  have hm := (Arranges.of_sorted h.left_sorted).merge hle (.of_sorted h.right_sorted)
  unfold mergeCrossed
  split
  · -- from the front: the first entry of the right run is the first of all
    cases right with
    | nil => exact ⟨left, many, rfl, by simpa using hm⟩
    | cons r rs =>
      obtain ⟨n, hn⟩ := takeMerged_eq hb hle many (.walking many 0 0)
        ((h.forward hback).suffix (List.suffix_refl _) (List.suffix_cons r rs))
      refine ⟨r :: left.merge rs le, n, by simp only [hn, Except.map]; rfl, ?_⟩
      have : r :: left.merge rs le = left.merge (r :: rs) le := by
        cases left with
        | nil => simp
        | cons l ls => simp [hfront r rfl l (by simp)]
      rwa [this]
  · -- from the back: the last entry of the left run is the last of all
    rcases hl : left.reverse with _ | ⟨l, ls⟩
    · have : left = [] := by simpa using hl
      subst this
      exact ⟨right, many, rfl, by simpa using hm⟩
    · have hback' := h.backward hfront
      rw [hl] at hback'
      obtain ⟨n, hn⟩ := takeMerged_eq hb hle many (.walking many 0 0)
        (hback'.suffix (List.suffix_cons l ls) (List.suffix_refl _))
      refine ⟨(l :: ls.merge right.reverse (Direction.backward.leftFirst le)).reverse, n,
        by simp only [hn, Except.map], ?_⟩
      have hlast : l ∈ left.getLast? := by
        rw [← List.head?_reverse, hl]
        rfl
      have hswap : l :: ls.merge right.reverse (Direction.backward.leftFirst le) =
          right.reverse.merge left.reverse fun a b => le b a := by
        rw [hl, show Direction.backward.leftFirst le = fun a b => !le a b from rfl,
          ← merge_swap (fun a b => le b a)]
        rcases hr : right.reverse with _ | ⟨r, rs⟩
        · cases ls <;> simp
        · have hrm : r ∈ right := by
            rw [← List.mem_reverse, hr]
            simp
          simp [hback l hlast r hrm]
      rw [hswap]
      have hflip : Arranges (fun a b => le b a) right.reverse right.reverse :=
        .of_sorted (List.pairwise_reverse.mpr h.right_sorted)
      have hrev := (hflip.merge hle.flip
        (.of_sorted (List.pairwise_reverse.mpr h.left_sorted))).reverse
      simpa using hrev

/-- Runs that overlap only in their middle are arranged by arranging the middle. -/
lemma arranges_middle {front left right back m : List α} (hle : TotalPreorder le)
    (hl : (front ++ left).Pairwise fun a b => le a b)
    (hr : (right ++ back).Pairwise fun a b => le a b)
    (hfront : ∀ x ∈ front, ∀ y ∈ right, le x y) (hback : ∀ x ∈ front ++ left, ∀ y ∈ back, le x y)
    (h : Arranges le (left ++ right) m) :
    Arranges le ((front ++ left) ++ (right ++ back)) (front ++ m ++ back) := by
  have hmem : ∀ {x}, x ∈ m → x ∈ left ∨ x ∈ right := fun hx =>
    List.mem_append.mp ((h.mem_iff hle).mp hx)
  have hl' := List.pairwise_append.mp hl
  have hr' := List.pairwise_append.mp hr
  have h1 := h.append_left hl'.1 fun x hx y hy => by
    rcases hmem hy with hy | hy
    · exact hl'.2.2 x hx y hy
    · exact hfront x hx y hy
  have h2 := h1.append_right hr'.2.1 fun x hx y hy => by
    rcases List.mem_append.mp hx with hx | hx
    · exact hback x (by simp [hx]) y hy
    · rcases hmem hx with hx | hx
      · exact hback x (by simp [hx]) y hy
      · exact hr'.2.2 x hx y hy
  simpa [List.append_assoc] using h2

/-- Runs whose middle crosses are arranged by merging the middle. -/
lemma mergeCrossed_middle {front mid within back : List α} (hb : Decides P before le)
    (hle : TotalPreorder le) (many : Nat) (h : Runs P le (front ++ mid) (within ++ back))
    (hfront : ∀ x ∈ front, ∀ y ∈ within, le x y)
    (hback : ∀ x ∈ front ++ mid, ∀ y ∈ back, le x y)
    (hfirst : ∀ r ∈ within.head?, ∀ l ∈ mid, le l r = false)
    (hlast : ∀ l ∈ mid.getLast?, ∀ r ∈ within, le l r = false) :
    ∃ m n, mergeCrossed before many mid within = .ok (m, n) ∧
      Arranges le ((front ++ mid) ++ (within ++ back)) (front ++ m ++ back) := by
  have hruns : Runs P le mid within :=
    ⟨fun x hx => h.left_mem x (by simp [hx]), fun x hx => h.right_mem x (by simp [hx]),
      h.left_sorted.sublist (List.sublist_append_right front mid),
      h.right_sorted.sublist (List.sublist_append_left within back)⟩
  obtain ⟨m, n, hm, ham⟩ := mergeCrossed_arranges hb hle many hruns hfirst hlast
  exact ⟨m, n, hm, arranges_middle hle h.left_sorted h.right_sorted hfront hback ham⟩

lemma le_of_mem_head? (hle : TotalPreorder le) (hs : right.Pairwise fun a b => le a b) {r : α}
    (hr : r ∈ right.head?) : ∀ x ∈ right, le r x := by
  cases right with
  | nil => simp at hr
  | cons a rs =>
    obtain rfl : a = r := by simpa using hr
    intro x hx
    rcases List.mem_cons.mp hx with rfl | hx
    · exact hle.refl _
    · exact List.rel_of_pairwise_cons hs hx

lemma le_of_mem_getLast? (hle : TotalPreorder le) (hs : left.Pairwise fun a b => le a b) {l : α}
    (hl : l ∈ left.getLast?) : ∀ x ∈ left, le x l := by
  obtain ⟨t, rfl⟩ := List.getLast?_eq_some_iff.mp hl
  intro x hx
  rcases List.mem_append.mp hx with hx | hx
  · exact (List.pairwise_append.mp hs).2.2 x hx l (by simp)
  · rw [List.mem_singleton.mp hx]
    exact hle.refl l

/-- What is in place in front of the left run is found in one leap. -/
lemma Runs.exists_front (hb : Decides P before le) (hle : TotalPreorder le)
    (h : Runs P le left right) {r : α} (hr : r ∈ right.head?) :
    ∃ front mid, left = front ++ mid ∧ leapLeft before .forward left r = .ok front.length ∧
      (∀ x ∈ front, ∀ y ∈ right, le x y) ∧ ∀ x ∈ mid, le x r = false := by
  refine ⟨left.takeWhile (le · r), left.dropWhile (le · r),
    List.takeWhile_append_dropWhile.symm, ?_, fun x hx y hy => ?_, fun x hx => ?_⟩
  · exact leapLeft_eq (d := .forward) hb hle h.left_mem h.left_sorted
      (h.right_mem r (List.mem_of_mem_head? hr))
  · exact hle.trans _ _ _ (List.mem_takeWhile_imp (p := (le · r)) hx)
      (le_of_mem_head? hle h.right_sorted hr y hy)
  · exact (inFront_left (d := .forward) hle h.left_sorted r).of_mem_dropWhile hx

/-- What is in place at the back of the right run is found in one leap. -/
lemma Runs.exists_back (hb : Decides P before le) (hle : TotalPreorder le)
    (h : Runs P le left right) {l : α} (hl : l ∈ left.getLast?) :
    ∃ within back, right = within ++ back ∧
      leapRight before .backward l right.reverse = .ok back.length ∧
      (∀ x ∈ left, ∀ y ∈ back, le x y) ∧ ∀ y ∈ within, le l y = false := by
  have hs := List.pairwise_reverse.mpr h.right_sorted
  refine ⟨(right.reverse.dropWhile (le l ·)).reverse, (right.reverse.takeWhile (le l ·)).reverse,
    ?_, ?_, fun x hx y hy => ?_, fun y hy => ?_⟩
  · rw [← List.reverse_append, List.takeWhile_append_dropWhile, List.reverse_reverse]
  · have hleap := leapRight_eq (d := .backward) hb hle
      (fun x hx => h.right_mem x (List.mem_reverse.mp hx)) hs
      (h.left_mem l (List.mem_of_getLast? hl))
    simpa only [Direction.leftFirst, Bool.not_not, List.length_reverse] using hleap
  · exact hle.trans _ _ _ (le_of_mem_getLast? hle h.left_sorted hl x hx)
      (List.mem_takeWhile_imp (p := (le l ·)) (List.mem_reverse.mp hy))
  · have hinr := inFront_right (d := .backward) hle hs l
    simp only [Direction.leftFirst, Bool.not_not] at hinr
    exact hinr.of_mem_dropWhile (List.mem_reverse.mp hy)

/-- Runs of which no entry has to move are their arrangement. -/
lemma Runs.arranges_of_le (h : Runs P le left right) (hlr : ∀ x ∈ left, ∀ y ∈ right, le x y) :
    Arranges le (left ++ right) (left ++ right) :=
  .of_sorted (List.pairwise_append.mpr ⟨h.left_sorted, h.right_sorted, hlr⟩)

/-- **Merging** two sorted runs arranges the left one followed by the right one. -/
theorem merge_arranges (hb : Decides P before le) (hle : TotalPreorder le) (many : Nat)
    (h : Runs P le left right) :
    ∃ m n, Sort.merge before many left right = .ok (m, n) ∧ Arranges le (left ++ right) m := by
  unfold Sort.merge
  rcases hright : right with _ | ⟨r, rs⟩
  · exact ⟨left, many, rfl, by simpa using Arranges.of_sorted h.left_sorted⟩
  · have hr : r ∈ right.head? := by simp [hright]
    obtain ⟨front, mid, rfl, hfront, hfr, hmid⟩ := h.exists_front hb hle hr
    dsimp only
    rw [← hright, hfront]
    simp only [bind, Except.bind]
    rw [List.drop_left' rfl, List.take_left' rfl]
    rcases hlast : mid.getLast? with _ | l
    · obtain rfl : mid = [] := by simpa using hlast
      rw [List.append_nil] at h ⊢
      exact ⟨_, many, rfl, h.arranges_of_le hfr⟩
    · have hl := mem_getLast?_of_suffix (List.suffix_append front mid) hlast
      obtain ⟨within, back, rfl, hback, hbl, hwithin⟩ := h.exists_back hb hle hl
      dsimp only
      rw [hback]
      dsimp only
      rw [List.length_append, Nat.add_sub_cancel]
      split
      · obtain rfl : within = [] := List.eq_nil_of_length_eq_zero (by assumption)
        rw [List.nil_append] at h ⊢
        exact ⟨_, many, rfl, h.arranges_of_le hbl⟩
      · rename_i hne
        have hrw : r ∈ within.head? := by
          cases within with
          | nil => simp at hne
          | cons x xs => simpa using hr
        obtain ⟨m, n, hm, ham⟩ := mergeCrossed_middle hb hle many h
          (fun x hx y hy => hfr x hx y (by simp [hy])) hbl
          (fun x hx y hy => by
            rw [Option.mem_unique hx hrw]
            exact hmid y hy)
          (fun x hx y hy => by
            rw [Option.mem_unique hx (Option.mem_def.mpr hlast)]
            exact hwithin y hy)
        rw [List.take_left' rfl, List.drop_left' rfl, hm]
        exact ⟨_, n, rfl, ham⟩

end

end NearDoc.Sort
