import Mathlib.Data.List.Induction
import NearDoc.Value.Basic

/-!
Fields that are set one after the other. Main statement: every name stands once, in the order of the
first appearance, and with the value that it was last set to; names that stood once already stay as
they are.
-/

namespace NearDoc

namespace Fields

lemma mem_set {fields : Fields} {name : String} {v : Value} {f : String × Value}
    (h : f ∈ fields.set name v) : f = (name, v) ∨ f ∈ fields := by
  induction fields with
  | nil => simpa [set] using h
  | cons g fields ih =>
    obtain ⟨n, w⟩ := g
    rw [set] at h
    split at h
    · rename_i heq
      rcases List.mem_cons.mp h with rfl | h
      · exact .inl (by rw [heq])
      · exact .inr (List.mem_cons_of_mem _ h)
    · rcases List.mem_cons.mp h with rfl | h
      · exact .inr List.mem_cons_self
      · exact (ih h).imp_right (List.mem_cons_of_mem _)

lemma mem_ofList {fields : List (String × Value)} {f : String × Value} (h : f ∈ ofList fields) :
    f ∈ fields := by
  have hfold : ∀ (fields : List (String × Value)) (acc : Fields),
      f ∈ fields.foldl (fun acc f => set acc f.1 f.2) acc → f ∈ acc ∨ f ∈ fields := by
    intro fields
    induction fields with
    | nil => exact fun acc h => .inl h
    | cons g fields ih =>
      intro acc h
      rcases ih _ h with h | h
      · rcases mem_set h with rfl | h
        · exact .inr List.mem_cons_self
        · exact .inl h
      · exact .inr (List.mem_cons_of_mem g h)
  exact (hfold fields [] h).resolve_left List.not_mem_nil

lemma map_fst_set (fields : Fields) (name : String) (v : Value) :
    (set fields name v).map (·.1) =
      if name ∈ fields.map (·.1) then fields.map (·.1) else fields.map (·.1) ++ [name] := by
  induction fields with
  | nil => simp [set]
  | cons f rest ih =>
    obtain ⟨n, w⟩ := f
    by_cases h : n = name
    · simp [set, h]
    · simp only [set, h, if_false, List.map_cons, ih, List.mem_cons, Ne.symm h, false_or]
      split <;> rfl

lemma ofList_append (pairs : Fields) (name : String) (v : Value) :
    ofList (pairs ++ [(name, v)]) = set (ofList pairs) name v := by
  simp [ofList, List.foldl_append]

lemma map_fst_ofList (pairs : Fields) :
    (ofList pairs).map (·.1) = (pairs.map (·.1)).eraseDups := by
  induction pairs using List.reverseRecOn with
  | nil => rfl
  | append_singleton pairs pair ih =>
    rw [ofList_append, map_fst_set, ih, List.map_append, List.eraseDups_append]
    by_cases h : pair.1 ∈ pairs.map (·.1)
    · have hmem : pair.1 ∈ (pairs.map (·.1)).eraseDups := List.mem_eraseDups.mpr h
      have : (List.map (·.1) [pair]).removeAll (pairs.map (·.1)) = [] := by
        simpa [List.removeAll] using h
      rw [if_pos hmem, this]
      simp
    · have hmem : pair.1 ∉ (pairs.map (·.1)).eraseDups := mt List.mem_eraseDups.mp h
      have : (List.map (·.1) [pair]).removeAll (pairs.map (·.1)) = [pair.1] := by
        simpa [List.removeAll] using h
      rw [if_neg hmem, this]
      rfl

lemma nodup_ofList (pairs : Fields) : ((ofList pairs).map (·.1)).Nodup := by
  induction pairs using List.reverseRecOn with
  | nil => exact .nil
  | append_singleton pairs pair ih =>
    rw [ofList_append, map_fst_set]
    split
    · exact ih
    · rename_i h
      refine List.nodup_append.mpr ⟨ih, by simp, fun a ha b hb hab => h ?_⟩
      rw [← List.mem_singleton.mp hb, ← hab]
      exact ha

lemma get?_ofList (pairs : Fields) (name : String) :
    get? (ofList pairs) name = pairs.reverse.lookup name := by
  induction pairs using List.reverseRecOn with
  | nil => rfl
  | append_singleton pairs pair ih =>
    obtain ⟨n, v⟩ := pair
    rw [ofList_append, List.reverse_append]
    by_cases h : name = n
    · subst h
      simp [get?_set_self]
    · have hne : (name == n) = false := by simp [h]
      rw [get?_set_other _ _ h, ih]
      simp [List.lookup_cons, hne]

/-- Fields of which no name stands twice are told by their names and values. -/
lemma eq_map_get? {fields : Fields} (h : (fields.map (·.1)).Nodup) :
    fields = (fields.map (·.1)).map fun name => (name, (get? fields name).getD .undefined) := by
  induction fields with
  | nil => rfl
  | cons f rest ih =>
    obtain ⟨n, v⟩ := f
    rw [List.map_cons, List.nodup_cons] at h
    simp only [List.map_cons, get?, List.lookup_cons_self, Option.getD_some, List.cons.injEq,
      true_and]
    conv_lhs => rw [ih h.2]
    refine List.map_congr_left fun name hname => ?_
    have hne : (name == n) = false := by
      simpa using fun heq : name = n => h.1 (heq ▸ hname)
    simp [get?, List.lookup_cons, hne]

/-- Fields of which no name stands twice stay as they are. -/
lemma ofList_of_nodup {pairs : Fields} (h : (pairs.map (·.1)).Nodup) : ofList pairs = pairs := by
  have hset : ∀ (fields : Fields) (name : String) (v : Value), name ∉ fields.map (·.1) →
      set fields name v = fields ++ [(name, v)] := by
    intro fields name v hname
    induction fields with
    | nil => rfl
    | cons f fields ih =>
      obtain ⟨n, w⟩ := f
      obtain ⟨hne, hname⟩ := not_or.mp (mt List.mem_cons.mpr hname)
      rw [set, if_neg (Ne.symm hne), ih hname]
      rfl
  induction pairs using List.reverseRecOn with
  | nil => rfl
  | append_singleton pairs pair ih =>
    rw [List.map_append, List.nodup_append] at h
    obtain ⟨hpairs, -, hnew⟩ := h
    rw [ofList_append, ih hpairs]
    exact hset _ _ _ fun hmem => hnew _ hmem pair.1 (by simp) rfl

/-- A field is found by its name alone if no name stands twice. -/
lemma get?_eq_some_iff {fields : Fields} (h : (fields.map (·.1)).Nodup) {name : String}
    {v : Value} : get? fields name = some v ↔ (name, v) ∈ fields := by
  induction fields with
  | nil => simp [get?]
  | cons f rest ih =>
    obtain ⟨n, w⟩ := f
    rw [List.map_cons, List.nodup_cons] at h
    simp only [get?] at ih
    by_cases hn : name = n
    · subst hn
      have hrest : (name, v) ∉ rest := fun hmem => h.1 (List.mem_map.mpr ⟨_, hmem, rfl⟩)
      simp [get?, hrest, eq_comm]
    · have hne : (name == n) = false := by simp [hn]
      simp [get?, List.lookup_cons, hne, hn, ih h.2]

/-- Where no name stands twice, the order of the fields does not matter. -/
lemma get?_of_perm {fs gs : Fields} (h : fs.Perm gs) (hnames : (fs.map (·.1)).Nodup)
    (name : String) : get? fs name = get? gs name := by
  have hnames' : (gs.map (·.1)).Nodup := (h.map _).nodup_iff.mp hnames
  ext v
  rw [get?_eq_some_iff hnames, get?_eq_some_iff hnames', h.mem_iff]

lemma get?_map (g : Value → Value) (fields : Fields) (name : String) :
    get? (fields.map fun f => (f.1, g f.2)) name = (get? fields name).map g := by
  induction fields with
  | nil => rfl
  | cons f fields ih =>
    obtain ⟨n, v⟩ := f
    simp only [get?] at ih
    rw [List.map_cons, get?, get?, List.lookup_cons, List.lookup_cons]
    cases name == n with
    | false => exact ih
    | true => rfl

/-- Taking out a field leaves all others as they are. -/
lemma get?_without_other (fields : Fields) {name other : String} (h : other ≠ name) :
    get? (fields.without name) other = get? fields other := by
  induction fields with
  | nil => rfl
  | cons f fields ih =>
    obtain ⟨n, v⟩ := f
    rw [without, get?] at ih ⊢
    rw [get?, List.lookup_cons]
    by_cases hn : n = name
    · have hother : (other == n) = false := by simpa [hn] using h
      rw [List.filter_cons_of_neg (by simp [hn]), hother]
      exact ih
    · rw [List.filter_cons_of_pos (by simp [hn]), List.lookup_cons]
      cases other == n with
      | false => exact ih
      | true => rfl

end Fields

end NearDoc
