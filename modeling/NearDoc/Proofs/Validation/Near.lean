import NearDoc.Proofs.Outcome
import NearDoc.Validation.Near

/-!
Arguments of nearness queries that pass their checks. Main statements: a path, a known metric and a
bound that passes are taken over as they are, beside the cast target; and arguments that pass
together pass each by itself.
-/

namespace NearDoc

namespace Text

lemma mem_insertByName {α : Type} {a e : String × α} {entries : List (String × α)} :
    a ∈ insertByName e entries ↔ a = e ∨ a ∈ entries := by
  induction entries with
  | nil => simp [insertByName]
  | cons f entries ih =>
    rw [insertByName]
    split
    · simp
    · rw [List.mem_cons, ih, List.mem_cons]
      tauto

lemma mem_sortTexts {s : String} {texts : List String} : s ∈ sortTexts texts ↔ s ∈ texts := by
  have hmem (entries : List (String × Unit)) (a : String × Unit) :
      a ∈ sortByName entries ↔ a ∈ entries := by
    induction entries with
    | nil => rfl
    | cons e entries ih =>
      rw [List.mem_cons, ← ih]
      exact mem_insertByName
  simp [sortTexts, hmem]

end Text

namespace Metrics

lemma lookup_entry (e : MetricName × Metric) (entries : List (MetricName × Metric))
    (key : MetricName) :
    (e :: entries).lookup key = if key = e.1 then some e.2 else entries.lookup key := by
  rw [List.lookup_cons]
  by_cases h : key = e.1
  · simp [h]
  · rw [beq_false_of_ne h, if_neg h]

lemma isSome_lookup {entries : List (MetricName × Metric)} {key : MetricName} :
    (entries.lookup key).isSome = true ↔ ∃ e ∈ entries, e.1 = key := by
  induction entries with
  | nil => simp
  | cons e entries ih =>
    rw [lookup_entry]
    by_cases h : key = e.1
    · simp [h]
    · simp [h, ih, Ne.symm h]

lemma mem_names {ms : Metrics} {names : List String} (h : ms.names = .ok names) {s : String} :
    s ∈ names ↔ (ms.entries.lookup (.text s)).isSome = true := by
  unfold Metrics.names at h
  dsimp only at h
  split at h
  · cases h
  · cases h
    rw [Text.mem_sortTexts, List.mem_filterMap, isSome_lookup]
    refine exists_congr fun e => and_congr_right fun _ => ?_
    cases h : e.1 <;> simp [MetricName.text?]

lemma get_eq_ok {ms : Metrics} {v : Value} {f : Metric} :
    ms.get v = .ok f ↔ ms.find? v = some f := by
  unfold get
  cases ms.find? v with
  | some g => simp
  | none =>
    refine ⟨fun h => ?_, nofun⟩
    obtain ⟨names, -, h⟩ := bind_eq_ok.mp h
    cases h

/-- The name of a metric that is found is among the names. -/
lemma mem_names_of_get {ms : Metrics} {names : List String} {s : String} {m : Metric}
    (hnames : ms.names = .ok names) (hm : ms.get (.text s) = .ok m) :
    Metric.normalName s ∈ names := by
  have hfind : ms.entries.lookup (.text (Metric.normalName s)) = some m := get_eq_ok.mp hm
  rw [mem_names hnames, hfind]
  rfl

end Metrics

namespace Check

lemma path_eq_ok {s : String} (h : ∃ parts, Path.segments s = .ok parts) :
    path (.text s) = .ok s := by
  obtain ⟨parts, hparts⟩ := h
  simp [path, textWith, text, hparts, Except.bind]

lemma threshold_eq_ok {x : Binary64} (h : x.isFinite) : threshold (.real x) = .ok x := by
  simp [threshold, isTruth, Value.toReal, h, Bind.bind, Except.bind, pure, Except.pure]

/-- A text passes that comes to the name of a metric. -/
lemma metric_text {ms : Metrics} {names : List String} {s : String} (hnames : ms.names = .ok names)
    (hmem : Metric.normalName s ∈ names) : metric ms (.text s) = .ok (.ok (.text s)) := by
  simp [metric, Value.isNull, text, hnames, Except.map, textWith, metricRule, hmem, Except.bind]

/-- A metric that is found by its name, or none, passes. -/
lemma metric_eq_ok {env : Environment} {names : List String} {name : Option String} {m : Metric}
    (hnames : env.metrics.names = .ok names)
    (hm : env.resolve (.named (name.elim .null .text)) = .ok m) :
    metric env.metrics (name.elim .null .text) = .ok (.ok (name.elim .null .text)) := by
  cases name with
  | none => rfl
  | some s => exact metric_text hnames (Metrics.mem_names_of_get hnames hm)

lemma text_of_textWith {rule : String → Option String} {v : Value} {s : String}
    (h : textWith rule v = .ok s) : text v = .ok s ∧ rule s = none := by
  obtain ⟨t, ht, h⟩ := bind_eq_ok.mp h
  rcases hrule : rule t with _ | text
  · rw [hrule] at h
    cases h
    exact ⟨ht, hrule⟩
  · rw [hrule] at h
    cases h

/-- A metric that passes is none, or the text that was given. -/
lemma of_metric_eq_ok {ms : Metrics} {v m : Value} (h : metric ms v = .ok (.ok m)) :
    v = .null ∧ m = .null ∨ ∃ s, text v = .ok s ∧ m = .text s := by
  rw [metric] at h
  split at h
  · rename_i hnull
    cases h
    refine .inl ⟨?_, rfl⟩
    cases v <;> first | rfl | cases hnull
  · split at h
    · cases h
    · obtain ⟨names, -, h⟩ := map_eq_ok.mp h
      obtain ⟨s, hs, rfl⟩ := map_eq_ok.mp h
      exact .inr ⟨s, (text_of_textWith hs).1, rfl⟩

lemma segments_of_path {v : Value} {s : String} (h : path v = .ok s) :
    ∃ parts, Path.segments s = .ok parts := by
  have hrule := (text_of_textWith h).2
  split at hrule
  · rename_i parts hparts
    exact ⟨parts, hparts⟩
  · cases hrule

end Check

/-- **Checks**: arguments that pass, each by itself, pass together. -/
theorem NearSpec.check_eq_ok {β : Type} {ms : Metrics} {boundName : String}
    {check : Value → Except Issue.Fault β} {a : NearArguments} {spec : NearSpec β}
    (htarget : Embedding.ofValue a.target = .ok spec.target)
    (hmetric : Check.metric ms a.metric = .ok (.ok spec.metric))
    (hfield : Check.path a.field = .ok spec.field) (hbound : check a.bound = .ok spec.bound) :
    NearSpec.check ms boundName check a = .ok spec := by
  simp [NearSpec.check, htarget, hmetric, hfield, hbound, Bind.bind, Except.bind, pure, Except.pure]

/-- **Checks**: arguments that pass together pass each by itself. -/
theorem NearSpec.of_check_eq_ok {β : Type} {ms : Metrics} {boundName : String}
    {check : Value → Except Issue.Fault β} {a : NearArguments} {spec : NearSpec β}
    (h : NearSpec.check ms boundName check a = .ok spec) :
    Check.path a.field = .ok spec.field ∧ Embedding.ofValue a.target = .ok spec.target ∧
      check a.bound = .ok spec.bound ∧ Check.metric ms a.metric = .ok (.ok spec.metric) := by
  obtain ⟨target, htarget, h⟩ := bind_eq_ok.mp h
  obtain ⟨metric, hmetric, h⟩ := bind_eq_ok.mp h
  split at h
  · rename_i hfield hbound
    cases h
    exact ⟨hfield, htarget, hbound, hmetric⟩
  · cases h

end NearDoc
