import NearDoc.Sort.Basic
import NearDoc.Proofs.Sort.Run

/-!
The sort. A pile of runs covers the entries in their order, each run arranging its part; merging
neighbours keeps that, whatever the order of the merges. Main statement: where the comparison is
decided, sorting answers the stable arrangement.
-/

namespace NearDoc.Sort

variable {α : Type} {P : α → Prop} {before : α → α → Except Error Bool} {le : α → α → Bool}

/-- Runs, the last one first, that arrange parts of which the entries are made. -/
inductive Piled (le : α → α → Bool) : List (List α) → List α → Prop where
  | nil : Piled le [] []
  | cons {runs : List (List α)} {covered taken run : List α} (h : Piled le runs covered)
      (hrun : Arranges le taken run) : Piled le (run :: runs) (covered ++ taken)

/-- The runs of a pile, the last one first. -/
def Pile.runs (pile : Pile α) : List (List α) :=
  pile.top.entries :: pile.under.map (·.entries)

lemma exists_merge (hb : Decides P before le) (hle : TotalPreorder le) (many : Nat)
    {l r left right : List α} (hl : Arranges le l left) (hr : Arranges le r right)
    (hP : ∀ x ∈ l ++ r, P x) :
    ∃ m n, Sort.merge before many left right = .ok (m, n) ∧ Arranges le (l ++ r) m := by
  have hruns : Runs P le left right :=
    ⟨fun x hx => hP x (List.mem_append_left _ ((hl.mem_iff hle).mp hx)),
      fun x hx => hP x (List.mem_append_right _ ((hr.mem_iff hle).mp hx)), hl.sorted, hr.sorted⟩
  obtain ⟨m, n, hm, ha⟩ := merge_arranges hb hle many hruns
  have hplain := (Arranges.of_sorted hl.sorted).merge hle (.of_sorted hr.sorted)
  rw [ha.unique hle hplain] at hm
  exact ⟨_, n, hm, hl.merge hle hr⟩

/-- The two runs on top of a pile, merged. -/
lemma Piled.merge (hb : Decides P before le) (hle : TotalPreorder le) (many : Nat)
    {top run : List α} {runs : List (List α)} {covered : List α}
    (h : Piled le (top :: run :: runs) covered) (hP : ∀ x ∈ covered, P x) :
    ∃ m n, Sort.merge before many run top = .ok (m, n) ∧ Piled le (m :: runs) covered := by
  rcases h with _ | ⟨h, htop⟩
  rcases h with _ | ⟨h, hrun⟩
  obtain ⟨m, n, hm, ha⟩ := exists_merge hb hle many hrun htop fun x hx =>
    hP x (by simp only [List.mem_append] at hx ⊢; tauto)
  refine ⟨m, n, hm, ?_⟩
  rw [List.append_assoc]
  exact h.cons ha

lemma exists_settle (hb : Decides P before le) (hle : TotalPreorder le) (depth many : Nat)
    {top : PiledRun α} {under : List (PiledRun α)} {covered : List α}
    (h : Piled le (top.entries :: under.map (·.entries)) covered) (hP : ∀ x ∈ covered, P x) :
    ∃ pile, settle before depth many top under = .ok pile ∧ Piled le pile.runs covered := by
  induction under generalizing top many with
  | nil => exact ⟨⟨top, [], many⟩, rfl, h⟩
  | cons run under ih =>
    unfold settle
    split
    · obtain ⟨m, n, hm, hp⟩ := h.merge hb hle many hP
      rw [hm]
      exact ih n hp
    · exact ⟨⟨top, run :: under, many⟩, rfl, h⟩

lemma exists_push (hb : Decides P before le) (hle : TotalPreorder le) (total : Nat)
    {pile : Pile α} {covered taken run : List α} (h : Piled le pile.runs covered)
    (hrun : Arranges le taken run) (hP : ∀ x ∈ covered, P x) :
    ∃ pile', pile.push before total run = .ok pile' ∧ Piled le pile'.runs (covered ++ taken) := by
  obtain ⟨settled, hs, hp⟩ := exists_settle hb hle
    (boundaryDepth total pile.top.start pile.top.entries.length run.length) pile.many h hP
  refine ⟨_, by simp only [Pile.push, hs, bind, Except.bind]; rfl, ?_⟩
  exact hp.cons hrun

lemma exists_pileUp (hb : Decides P before le) (hle : TotalPreorder le) (total : Nat)
    {pile : Pile α} {covered entries : List α} (h : Piled le pile.runs covered)
    (hP : ∀ x ∈ covered ++ entries, P x) :
    ∃ pile', pileUp before total pile entries = .ok pile' ∧
      Piled le pile'.runs (covered ++ entries) := by
  generalize hn : entries.length = n
  induction n using Nat.strongRecOn generalizing pile covered entries with
  | _ n ih =>
  rw [pileUp.eq_def]
  cases entries with
  | nil => exact ⟨pile, rfl, by simpa using h⟩
  | cons a t =>
    obtain ⟨run, rest, hrun, taken, htaken, ha⟩ := exists_nextRun hb hle (leastRun total)
      fun x hx => hP x (List.mem_append_right _ hx)
    obtain ⟨pile', hpush, hp⟩ := exists_push hb hle total h ha
      fun x hx => hP x (List.mem_append_left _ hx)
    have hlen := length_nextRun hrun
    rw [← htaken, ← List.append_assoc] at hP
    obtain ⟨pile'', hup, hp''⟩ := ih _ (hn ▸ hlen) hp hP rfl
    refine ⟨pile'', ?_, by rwa [← htaken, ← List.append_assoc]⟩
    dsimp only
    split
    · simp_all
    · rename_i heq
      rw [hrun] at heq
      cases heq
      simpa [hpush] using hup

lemma exists_finish (hb : Decides P before le) (hle : TotalPreorder le) (many : Nat)
    {top : List α} {runs : List (List α)} {covered : List α}
    (h : Piled le (top :: runs) covered) (hP : ∀ x ∈ covered, P x) :
    ∃ m, finish before many top runs = .ok m ∧ Arranges le covered m := by
  generalize hn : runs.length = n
  induction n generalizing many top runs with
  | zero =>
    have : runs = [] := List.eq_nil_of_length_eq_zero hn
    subst this
    rcases h with _ | ⟨h, htop⟩
    cases h
    exact ⟨top, by rw [finish], by simpa using htop⟩
  | succ n ih =>
    rcases runs with _ | ⟨run, _ | ⟨under, rest⟩⟩
    · simp at hn
    · obtain ⟨m, k, hm, hp⟩ := h.merge hb hle many hP
      rcases hp with _ | ⟨hp, hm'⟩
      cases hp
      exact ⟨m, by rw [finish, hm]; rfl, by simpa using hm'⟩
    · rw [finish]
      split
      · -- the run between goes to the one under it
        rcases h with _ | ⟨h, htop⟩
        obtain ⟨m, k, hm, hp⟩ := h.merge hb hle many fun x hx =>
          hP x (List.mem_append_left _ hx)
        rw [hm]
        exact ih k (hp.cons htop) (by simpa using hn)
      · obtain ⟨m, k, hm, hp⟩ := h.merge hb hle many hP
        rw [hm]
        exact ih k hp (by simpa using hn)

lemma exists_sort (hb : Decides P before le) (hle : TotalPreorder le) {entries : List α}
    (hP : ∀ x ∈ entries, P x) :
    ∃ m, sort before entries = .ok m ∧ Arranges le entries m := by
  obtain ⟨run, rest, hrun, taken, htaken, ha⟩ := exists_nextRun hb hle (leastRun entries.length) hP
  have hpiled : Piled le (Pile.runs ⟨⟨run, 0, 0⟩, [], goodLeap⟩) taken := by
    simpa [Pile.runs] using Piled.nil.cons ha
  have hP' := hP
  rw [← htaken] at hP'
  obtain ⟨pile, hpile, hp⟩ := exists_pileUp hb hle entries.length hpiled hP'
  rw [htaken] at hp
  obtain ⟨m, hm, ha⟩ := exists_finish hb hle pile.many hp hP
  refine ⟨m, ?_, ha⟩
  simp only [sort, hrun, bind, Except.bind, hpile]
  exact hm

/-- **Stable sorting**: where the comparison is decided on the entries, the sort answers their
stable arrangement. -/
theorem sort_eq_mergeSort (hb : Decides P before le) (hle : TotalPreorderOn P le)
    {entries : List α} (hP : ∀ x ∈ entries, P x) :
    sort before entries = .ok (entries.mergeSort le) := by
  have hb' : Decides P before (extended P le) := fun a b ha hPb => by
    rw [hb a b ha hPb, extended_of hPb ha]
  obtain ⟨m, hm, ha⟩ := exists_sort hb' hle.extended hP
  rw [hm, ha.eq_mergeSort hle.extended, TotalPreorderOn.mergeSort_extended hP]

/-- A descending sort answers the stable arrangement by the order turned round: equal entries
keep their order. -/
theorem sortDescending_eq_mergeSort (hb : Decides P before le) (hle : TotalPreorderOn P le)
    {entries : List α} (hP : ∀ x ∈ entries, P x) :
    sortDescending before entries = .ok (entries.mergeSort fun a b => le b a) := by
  rw [sortDescending, sort_eq_mergeSort hb hle fun x hx => hP x (List.mem_reverse.mp hx)]
  simp only [Except.map]
  rw [hle.reverse_mergeSort hP]

end NearDoc.Sort
