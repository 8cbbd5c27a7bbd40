import NearDoc.Proofs.Sort.Failure

/-!
Sorting entries of several kinds. Where only entries of one kind compare, a sort that answers has
seen entries of one kind only: entries are brought into runs by comparing them with one another, and
any two runs that are merged begin by comparing an entry of the one with an entry of the other. Main
statement: entries that are sorted are of one kind.
-/

namespace NearDoc.Sort

open scoped List

variable {α κ : Type} {kind : α → κ} {before : α → α → Except Error Bool}
variable {entries left right sorted : List α} {a b : α}

/-- Entries that compare are of one kind. -/
def Parts (kind : α → κ) (before : α → α → Except Error Bool) : Prop :=
  ∀ a b r, before a b = .ok r → kind a = kind b

/-- There are entries, and all are of one kind. -/
structure Uniform (kind : α → κ) (entries : List α) : Prop where
  nonempty : entries ≠ []
  same : ∀ a ∈ entries, ∀ b ∈ entries, kind a = kind b

namespace Uniform

lemma single (a : α) : Uniform kind [a] := ⟨by simp, by simp⟩

lemma perm (h : Uniform kind entries) {entries' : List α} (hp : entries' ~ entries) :
    Uniform kind entries' :=
  ⟨fun hnil => h.nonempty (hnil ▸ hp).symm.eq_nil, fun a ha b hb =>
    h.same a (hp.subset ha) b (hp.subset hb)⟩

/-- Entries join others of their kind. -/
lemma append (hl : Uniform kind left) (hr : Uniform kind right) (ha : a ∈ left) (hb : b ∈ right)
    (hab : kind a = kind b) : Uniform kind (left ++ right) := by
  refine ⟨by simp [hl.nonempty], ?_⟩
  have hall : ∀ x ∈ left ++ right, kind x = kind a := by
    intro x hx
    rcases List.mem_append.mp hx with hx | hx
    · exact hl.same x hx a ha
    · exact (hr.same x hx b hb).trans hab.symm
  exact fun x hx y hy => (hall x hx).trans (hall y hy).symm

lemma cons (h : Uniform kind entries) (hb : b ∈ entries) (hab : kind a = kind b) :
    Uniform kind (a :: entries) := (single a).append h (by simp) hb hab

end Uniform

lemma together_true (before : α → α → Except Error Bool) (entries : List α) :
    Together (fun _ => True) before entries :=
  List.pairwise_of_forall fun _ _ => ⟨fun _ _ => trivial, fun _ _ => trivial⟩

/-! ### Searching -/

section

variable {passes : α → Except Error Bool} {d : Direction}

/-- Where there is something to halve, an entry is asked. -/
lemma exists_asked {low high n : Nat} (h : countBetween passes d entries low high = .ok n)
    (hlt : low < high) (hhigh : high ≤ entries.length) : ∃ a ∈ entries, ∃ r, passes a = .ok r := by
  have hmiddle := d.middle_bounds hlt
  obtain ⟨a, hget⟩ : ∃ a, entries[d.middle low high]? = some a :=
    ⟨_, List.getElem?_eq_getElem (by omega)⟩
  rw [countBetween, dif_pos hlt, hget] at h
  refine ⟨_, List.mem_of_getElem? hget, ?_⟩
  dsimp only at h
  split at h
  · cases h
  · exact ⟨_, ‹_›⟩
  · exact ⟨_, ‹_›⟩

/-- A leap asks the first entry. -/
lemma leap_asks {n : Nat} (h : leap passes d (a :: entries) = .ok n) : ∃ r, passes a = .ok r := by
  rw [leap, countFrom, dif_pos (by simp)] at h
  simp only [List.getElem_cons_zero] at h
  split at h
  · cases h
  · exact ⟨_, ‹_›⟩
  · exact ⟨_, ‹_›⟩

end

/-! ### Runs -/

section

variable (hparts : Parts kind before)
include hparts

lemma same_of_ascending {last : α} {run rest : List α}
    (h : ascending before last entries = .ok (run, rest)) : ∀ a ∈ run, kind a = kind last := by
  induction entries generalizing last run rest with
  | nil =>
    cases h
    nofun
  | cons b t ih =>
    unfold ascending at h
    split at h
    · cases h
    · cases h
      nofun
    · rename_i hb
      obtain ⟨⟨run', rest'⟩, hrun, heq⟩ := map_eq_ok.mp h
      cases heq
      have hlast := hparts _ _ _ hb
      exact List.forall_mem_cons.mpr ⟨hlast, fun a ha => (ih hrun a ha).trans hlast⟩

lemma same_of_descending {last : α} {run rest : List α}
    (h : descending before last entries = .ok (run, rest)) : ∀ a ∈ run, kind a = kind last := by
  have hcontrary : Parts kind (contrary before) := fun a b _ hab => by
    obtain ⟨r, hr, -⟩ := map_eq_ok.mp hab
    exact hparts a b r hr
  rw [descending_eq] at h
  exact same_of_ascending hcontrary h

lemma uniform_firstRun {run rest : List α} (h : firstRun before (a :: entries) = .ok (run, rest)) :
    Uniform kind run := by
  have hrun : ∀ {b : α} {more : List α} {r : Bool}, before b a = .ok r →
      (∀ x ∈ more, kind x = kind b) → Uniform kind (a :: b :: more) := by
    intro b more r hb hmore
    refine Uniform.cons ⟨by simp, ?_⟩ (List.mem_cons_self ..) (hparts _ _ _ hb).symm
    have hall : ∀ x ∈ b :: more, kind x = kind b := List.forall_mem_cons.mpr ⟨rfl, hmore⟩
    exact fun x hx y hy => (hall x hx).trans (hall y hy).symm
  rcases entries with _ | ⟨b, rest⟩
  · cases h
    exact .single a
  · simp only [firstRun] at h
    split at h
    · cases h
    · rename_i hb
      obtain ⟨⟨more, rest'⟩, hmore, heq⟩ := map_eq_ok.mp h
      cases heq
      exact (hrun hb (same_of_descending hparts hmore)).perm (List.reverse_perm _)
    · rename_i hb
      obtain ⟨⟨more, rest'⟩, hmore, heq⟩ := map_eq_ok.mp h
      cases heq
      exact hrun hb (same_of_ascending hparts hmore)

/-- An entry is put among sorted ones only if it is of their kind. -/
lemma uniform_insert {m : List α} (hs : Uniform kind sorted) (h : insert before a sorted = .ok m) :
    Uniform kind m := by
  have hperm := (insert_meets (together_true before (a :: sorted))).ok h
  obtain ⟨place, hplace, -⟩ := map_eq_ok.mp h
  have hpos : 0 < sorted.length := List.length_pos_iff.mpr hs.nonempty
  obtain ⟨b, hb, r, hr⟩ := exists_asked hplace hpos le_rfl
  obtain ⟨r', hr', -⟩ := map_eq_ok.mp hr
  exact (hs.cons hb (hparts _ _ _ hr')).perm hperm

lemma uniform_foldlM_insert {more m : List α} (hs : Uniform kind sorted)
    (h : more.foldlM (fun sorted a => insert before a sorted) sorted = .ok m) :
    Uniform kind m := by
  induction more generalizing sorted with
  | nil =>
    cases h
    exact hs
  | cons a more ih =>
    rw [List.foldlM_cons] at h
    obtain ⟨sorted', hinsert, h⟩ := bind_eq_ok.mp h
    exact ih (uniform_insert hparts hs hinsert) h

lemma uniform_nextRun {least : Nat} {run rest : List α}
    (h : nextRun before least (a :: entries) = .ok (run, rest)) : Uniform kind run := by
  obtain ⟨⟨run', rest'⟩, hfirst, h⟩ := bind_eq_ok.mp h
  obtain ⟨run'', hmore, h⟩ := bind_eq_ok.mp h
  cases h
  exact uniform_foldlM_insert hparts (uniform_firstRun hparts hfirst) hmore

/-! ### Merges -/

/-- A merge begins with the search for the first entry of the right run in the left one. -/
lemma uniform_merge {many : Nat} {m : List α × Nat} (hl : Uniform kind left)
    (hr : Uniform kind right) (h : merge before many left right = .ok m) : Uniform kind m.1 := by
  have hperm := (merge_meets many (together_true before (left ++ right)).across).ok h
  rcases left with _ | ⟨l, ls⟩
  · exact absurd rfl hl.nonempty
  · rcases right with _ | ⟨r, rs⟩
    · exact absurd rfl hr.nonempty
    · obtain ⟨front, hfront, -⟩ := bind_eq_ok.mp h
      obtain ⟨x, hx⟩ := leap_asks hfront
      obtain ⟨y, hy, -⟩ := map_eq_ok.mp hx
      obtain ⟨z, hz, -⟩ := map_eq_ok.mp hy
      exact (hl.append hr (by simp) (by simp) (hparts _ _ _ hz).symm).perm hperm

lemma uniform_settle {depth many : Nat} {top : PiledRun α} {under : List (PiledRun α)}
    {pile : Pile α} (hruns : ∀ run ∈ top :: under, Uniform kind run.entries)
    (h : settle before depth many top under = .ok pile) :
    ∀ run ∈ pile.top :: pile.under, Uniform kind run.entries := by
  induction under generalizing top many with
  | nil =>
    cases h
    exact hruns
  | cons run under ih =>
    obtain ⟨htop, hrun, hunder⟩ :
        Uniform kind top.entries ∧ Uniform kind run.entries ∧
          ∀ run ∈ under, Uniform kind run.entries := by simpa using hruns
    unfold settle at h
    split at h
    · split at h
      · cases h
      · rename_i merged many' hmerge
        exact ih (List.forall_mem_cons.mpr ⟨uniform_merge hparts hrun htop hmerge, hunder⟩) h
    · cases h
      exact hruns

lemma uniform_pileUp {total : Nat} {pile pile' : Pile α}
    (hruns : ∀ run ∈ pile.top :: pile.under, Uniform kind run.entries)
    (h : pileUp before total pile entries = .ok pile') :
    ∀ run ∈ pile'.top :: pile'.under, Uniform kind run.entries := by
  fun_induction pileUp before total pile entries with
  | case1 =>
    cases h
    exact hruns
  | case2 | case3 => cases h
  | case4 pile a rest run rest' hrun pushed hpush ih =>
    refine ih ?_ h
    obtain ⟨settled, hsettled, hpushed⟩ := bind_eq_ok.mp hpush
    cases hpushed
    exact List.forall_mem_cons.mpr
      ⟨uniform_nextRun hparts hrun, uniform_settle hparts hruns hsettled⟩

lemma uniform_finish {many : Nat} {top m : List α} {runs : List (List α)}
    (htop : Uniform kind top) (hruns : ∀ run ∈ runs, Uniform kind run)
    (h : finish before many top runs = .ok m) : Uniform kind m := by
  fun_induction finish before many top runs with
  | case1 =>
    cases h
    exact htop
  | case2 many top run =>
    obtain ⟨merged, hmerge, rfl⟩ := map_eq_ok.mp h
    exact uniform_merge hparts (hruns run (by simp)) htop hmerge
  | case3 | case5 => cases h
  | case4 many top run under rest _ merged many' hmerge ih =>
    have hmerged := uniform_merge hparts (hruns under (by simp)) (hruns run (by simp)) hmerge
    exact ih htop (List.forall_mem_cons.mpr ⟨hmerged, fun r hr => hruns r (by simp [hr])⟩) h
  | case6 many top run under rest _ merged many' hmerge ih =>
    have hmerged := uniform_merge hparts (hruns run (by simp)) htop hmerge
    exact ih hmerged (fun r hr => hruns r (List.mem_cons_of_mem _ hr)) h

/-- **One kind**: where only entries of one kind compare, those that are sorted are of one kind. -/
theorem same_of_sort {m : List α} (h : sort before entries = .ok m) :
    ∀ a ∈ entries, ∀ b ∈ entries, kind a = kind b := by
  have hperm := (sort_meets (together_true before entries)).ok h
  rcases entries with _ | ⟨a, entries⟩
  · nofun
  · obtain ⟨⟨run, rest⟩, hrun, h⟩ := bind_eq_ok.mp h
    obtain ⟨pile, hpile, h⟩ := bind_eq_ok.mp h
    have hruns := uniform_pileUp hparts
      (by simpa using uniform_nextRun hparts hrun) hpile
    obtain ⟨htop, hunder⟩ := List.forall_mem_cons.mp hruns
    have hm := uniform_finish hparts htop (List.forall_mem_map.mpr hunder) h
    exact (hm.perm hperm.symm).same

lemma same_of_sortDescending {m : List α} (h : sortDescending before entries = .ok m) :
    ∀ a ∈ entries, ∀ b ∈ entries, kind a = kind b := by
  obtain ⟨m', hsort, -⟩ := map_eq_ok.mp h
  have hsame := same_of_sort hparts hsort
  exact fun a ha b hb => hsame a (by simpa using ha) b (by simpa using hb)

end

end NearDoc.Sort
