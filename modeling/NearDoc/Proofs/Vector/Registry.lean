import NearDoc.Proofs.Text.LetterCase
import NearDoc.Proofs.Validation.Near

/-!
Names of metrics. Main statement: whatever was registered, a name finds the metric that was
registered last under it, and queries take exactly the names that find one, as does the default of
the settings. The settings themselves are complained about unless, beside that, the name of the
default has no blanks around it.
-/

namespace NearDoc

open Text

namespace Metric

lemma normalName_lower (s : String) : normalName (lower s) = normalName s := by
  have h : toLower (trim (toLower s.toList)) = toLower (trim s.toList) := by
    rw [trim_toLower, toLower_toLower]
  simp only [normalName, lower, trimmed, String.toList_ofList, h]

lemma trimmed_normalName (s : String) : trimmed (normalName s) = normalName s := by
  simp only [normalName, lower, trimmed, String.toList_ofList, trim_toLower, trim_trim]

lemma trimmed_lower_iff {s : String} : trimmed (lower s) = lower s ↔ trimmed s = s := by
  have hof {t : String} : trimmed t = t ↔ trim t.toList = t.toList := by
    rw [trimmed, ← String.toList_inj, String.toList_ofList]
  rw [hof, hof, lower, String.toList_ofList, trim_toLower_eq_iff]

lemma normalName_of_trimmed {s : String} (h : trimmed s = s) : normalName s = lower s := by
  rw [normalName, h]

end Metric

lemma MetricName.exists_normalName {v : Value} {s : String}
    (h : MetricName.ofValue? v = some (.text s)) : ∃ t, s = Metric.normalName t := by
  cases v with
  | text t =>
    simp only [ofValue?, Option.some.injEq, text.injEq] at h
    exact ⟨t, h.symm⟩
  | bytes bs => simp [ofValue?] at h
  | _ => simp only [ofValue?, reduceCtorEq] at h

namespace Metrics

variable {ms : Metrics} {calls : List (Value × Option Metric)}

/-! ### Registering -/

/-- The name and the metric that a call registers, if it registers any. -/
def registered? (call : Value × Option Metric) : Option (MetricName × Metric) :=
  match MetricName.ofValue? call.1, call.2 with
  | some name, some m => if name.isEmpty then none else some (name, m)
  | _, _ => none

/-- The metrics after some calls, of which those that fail change nothing. -/
def after (calls : List (Value × Option Metric)) : Metrics :=
  calls.foldl (fun ms call => (ms.register call.1 call.2).toOption.getD ms) builtin

/-- What was registered, the built-in metrics first. -/
def history (calls : List (Value × Option Metric)) : List (MetricName × Metric) :=
  builtin.entries ++ calls.filterMap registered?

/-- The metric registered last under a name that is the same once trimmed and in lower case. -/
def latest? (calls : List (Value × Option Metric)) (name : String) : Option Metric :=
  (history calls).reverse.lookup (.text (Metric.normalName name))

/-- A value that gives a name is a text or bytes, and when it is empty so is the name. -/
lemma exists_truthy {v : Value} {name : MetricName} (h : MetricName.ofValue? v = some name) :
    ∃ b, v.truthy = .ok b ∧ (b = false → name.isEmpty = true) := by
  cases v with
  | text s =>
    cases h
    refine ⟨_, rfl, fun hs => ?_⟩
    obtain rfl : s = "" := by simpa using hs
    decide
  | bytes bs =>
    cases h
    refine ⟨_, rfl, fun hbs => ?_⟩
    obtain rfl : bs = [] := by simpa using hbs
    rfl
  | _ => cases h

/-- **One call** adds what it registers, or changes nothing. -/
theorem register_eq (ms : Metrics) (v : Value) (m : Option Metric) :
    (ms.register v m).toOption.getD ms =
      (registered? (v, m)).elim ms fun e => ms.insert e.1 e.2 := by
  unfold register registered?
  dsimp only
  rcases hname : MetricName.ofValue? v with _ | name
  · rcases v.truthy with e | b
    · rfl
    · cases b <;> rfl
  · obtain ⟨b, hb, hempty⟩ := exists_truthy hname
    rw [hb]
    rcases hblank : name.isEmpty with _ | _
    · obtain rfl : b = true := by
        cases b with
        | true => rfl
        | false => simp [hempty rfl] at hblank
      cases m <;> simp [hblank, bind, Except.bind, Except.toOption, throw, throwThe,
        MonadExceptOf.throw, pure, Except.pure]
    · cases b <;> cases m <;> simp [hblank, bind, Except.bind, Except.toOption, throw, throwThe,
        MonadExceptOf.throw]

lemma ofValue?_of_registered? {call : Value × Option Metric} {e : MetricName × Metric}
    (h : registered? call = some e) : MetricName.ofValue? call.1 = some e.1 := by
  unfold registered? at h
  split at h
  · rename_i hname _
    split at h
    · cases h
    · cases h
      exact hname
  · cases h

lemma lookup_filter_ne (entries : List (MetricName × Metric)) (name key : MetricName) :
    (entries.filter (·.1 ≠ name)).lookup key = if key = name then none else entries.lookup key := by
  induction entries with
  | nil => simp
  | cons e entries ih =>
    by_cases hname : e.1 = name
    · rw [List.filter_cons_of_neg (by simpa using hname), ih, lookup_entry, hname]
      grind
    · rw [List.filter_cons_of_pos (by simpa using hname), lookup_entry, lookup_entry, ih]
      grind

lemma lookup_insert (ms : Metrics) (name key : MetricName) (m : Metric) :
    (ms.insert name m).entries.lookup key =
      if key = name then some m else ms.entries.lookup key := by
  rw [insert, List.lookup_append, lookup_filter_ne, lookup_entry, List.lookup_nil]
  by_cases h : key = name <;> simp [h]

/-- **Any number of calls**: a name leads to what was registered last under it. -/
theorem lookup_after (calls : List (Value × Option Metric)) (key : MetricName) :
    (after calls).entries.lookup key = (history calls).reverse.lookup key := by
  induction calls using List.reverseRecOn with
  | nil =>
    simp only [after, history, builtin, List.foldl_nil, List.filterMap_nil, List.append_nil,
      List.reverse_cons, List.reverse_nil, List.nil_append, List.cons_append, lookup_entry]
    grind
  | append_singleton calls call ih =>
    have hlast : (history (calls ++ [call])).reverse =
        (registered? call).toList ++ (history calls).reverse := by
      cases h : registered? call <;> simp [history, h]
    have hafter : after (calls ++ [call]) =
        (registered? call).elim (after calls) fun e => (after calls).insert e.1 e.2 := by
      rw [after, List.foldl_append, ← after]
      exact register_eq _ _ _
    rw [hlast, hafter]
    cases registered? call with
    | none => exact ih
    | some e =>
      rw [Option.toList_some, List.singleton_append, lookup_entry, ← ih]
      exact lookup_insert _ _ _ _

/-! ### Names -/

/-- Whether all names are texts. Only then can they be listed. -/
def Listable (calls : List (Value × Option Metric)) : Prop :=
  ∀ e ∈ history calls, e.1.text?.isSome = true

/-- The names after some calls are those that were registered. -/
lemma exists_entry_after {key : MetricName} :
    (∃ e ∈ (after calls).entries, e.1 = key) ↔ ∃ e ∈ history calls, e.1 = key := by
  rw [← isSome_lookup, lookup_after, isSome_lookup]
  simp

lemma exists_names :
    (∃ names, ms.names = .ok names) ↔ ∀ e ∈ ms.entries, e.1.text?.isSome = true := by
  have hle := List.length_filterMap_le (fun e : MetricName × Metric => e.1.text?) ms.entries
  rw [← List.filterMap_length_eq_length]
  unfold names
  dsimp only
  split
  · exact ⟨nofun, fun h => by omega⟩
  · exact ⟨fun _ => by omega, fun _ => ⟨_, rfl⟩⟩

lemma exists_names_after : (∃ names, (after calls).names = .ok names) ↔ Listable calls := by
  rw [exists_names, Listable]
  constructor
  · intro h e he
    obtain ⟨e', he', hname⟩ := exists_entry_after.mpr ⟨e, he, rfl⟩
    exact hname ▸ h e' he'
  · intro h e he
    obtain ⟨e', he', hname⟩ := exists_entry_after.mp ⟨e, he, rfl⟩
    exact hname ▸ h e' he'

/-- Names were trimmed when they were registered. -/
lemma trimmed_of_mem_history {e : MetricName × Metric} (he : e ∈ history calls) {s : String}
    (hs : e.1 = .text s) : trimmed s = s := by
  rcases List.mem_append.mp he with he | he
  · simp only [builtin, List.mem_cons, List.not_mem_nil, or_false] at he
    obtain rfl | rfl | rfl := he <;> cases hs <;> decide +kernel
  · obtain ⟨call, -, hcall⟩ := List.mem_filterMap.mp he
    obtain ⟨t, rfl⟩ := MetricName.exists_normalName (hs ▸ ofValue?_of_registered? hcall)
    exact Metric.trimmed_normalName t

/-! ### Places that take a name -/

lemma find?_after (calls : List (Value × Option Metric)) (m : String) :
    (after calls).find? (.text m) = latest? calls m := lookup_after calls _

/-- Names that are equal up to blanks and case find the same. -/
lemma find?_lower (ms : Metrics) (m : String) :
    ms.find? (.text (lower m)) = ms.find? (.text m) := by
  simp only [find?, MetricName.ofValue?, Metric.normalName_lower]

lemma defaultMetric_setAll (settings : Settings) (m : String) :
    (settings.setAll [("DOCVEC_DEFAULT_METRIC", m)]).defaultMetric = lower m := by
  simp [Settings.setAll, Settings.defaultMetric, Settings.valueOf]

/-- What is not found is told so, given that the names can be listed. -/
lemma get_error {names : List String} (hnames : ms.names = .ok names) {v : Value}
    (h : ms.find? v = none) :
    ∃ e, ms.get v = .error e ∧ e.errorClass = .unknownMetric := by
  refine ⟨.unknownMetric v.written names, ?_, rfl⟩
  rw [get, h, hnames]
  rfl

lemma metric_passes {m : String} : (∃ v, Check.metric ms (.text m) = .ok (.ok v)) ↔
    (ms.find? (.text m)).isSome = true ∧ ∃ names, ms.names = .ok names := by
  have hfind : ms.find? (.text m) = ms.entries.lookup (.text (Metric.normalName m)) := rfl
  rw [hfind]
  constructor
  · rintro ⟨v, h⟩
    obtain ⟨names, hnames, h⟩ := map_eq_ok.mp h
    obtain ⟨s, hs, rfl⟩ := map_eq_ok.mp h
    obtain ⟨htext, hrule⟩ := Check.text_of_textWith hs
    cases htext
    rw [Check.metricRule] at hrule
    split at hrule
    · rename_i hmem
      exact ⟨(mem_names hnames).mp (by simpa using hmem), names, hnames⟩
    · cases hrule
  · rintro ⟨hsome, names, hnames⟩
    exact ⟨.text m, Check.metric_text hnames ((mem_names hnames).mpr hsome)⟩

/-- **Queries**: a name passes with the other arguments exactly when it passes by itself and they
pass without it. -/
lemma check_passes {β : Type} {boundName : String} {bound : Value → Except Issue.Fault β}
    {a : NearArguments} {v : Value} :
    (∃ spec, NearSpec.check ms boundName bound { a with metric := v } = .ok spec) ↔
      (∃ spec, NearSpec.check ms boundName bound { a with metric := .null } = .ok spec) ∧
        ∃ w, Check.metric ms v = .ok (.ok w) := by
  constructor
  · rintro ⟨spec, h⟩
    obtain ⟨hfield, htarget, hbound, hmetric⟩ := NearSpec.of_check_eq_ok h
    exact ⟨⟨{ spec with metric := .null }, NearSpec.check_eq_ok htarget rfl hfield hbound⟩,
      spec.metric, hmetric⟩
  · rintro ⟨⟨spec, h⟩, w, hmetric⟩
    obtain ⟨hfield, htarget, hbound, -⟩ := NearSpec.of_check_eq_ok h
    exact ⟨{ spec with metric := w }, NearSpec.check_eq_ok htarget hmetric hfield hbound⟩

lemma no_complaint {settings : Settings} {names : List String} :
    (∀ text, "Invalid DOCVEC_DEFAULT_METRIC: " ++ text ∉ settings.issues names) ↔
      settings.defaultMetric ∈ names := by
  have hpath (text : String) :
      "Invalid DOCVEC_DEFAULT_METRIC: " ++ text ≠ "DOCVEC_DB_PATH must not be empty" := by
    intro h
    have hhead := congrArg (fun s => s.toList.head?) h
    simp at hhead
  unfold Settings.issues
  constructor
  · intro h
    by_contra hmem
    exact h settings.defaultMetric (by simp [hmem])
  · intro h text
    simp [h, hpath]

/-- The name of the default is looked up as it is written, which no blanks around it survive. -/
lemma lower_mem_names {names : List String} (hnames : (after calls).names = .ok names)
    {m : String} : lower m ∈ names ↔ (latest? calls m).isSome = true ∧ trimmed m = m := by
  rw [mem_names hnames]
  constructor
  · intro h
    obtain ⟨e, he, hname⟩ := exists_entry_after.mp (isSome_lookup.mp h)
    have htrimmed := Metric.trimmed_lower_iff.mp (trimmed_of_mem_history he hname)
    rw [← find?_after, find?, MetricName.ofValue?, Metric.normalName_of_trimmed htrimmed]
    exact ⟨h, htrimmed⟩
  · rintro ⟨hsome, htrimmed⟩
    rw [← find?_after, find?, MetricName.ofValue?, Metric.normalName_of_trimmed htrimmed] at hsome
    exact hsome

/-- **Settings**: no complaint is made about a default that is found and written without blanks
around it. -/
lemma settings_pass {settings : Settings} {m : String} (hm : settings.defaultMetric = lower m) :
    (∃ issues, (Environment.mk settings (after calls)).issues = .ok issues ∧
        ∀ text, "Invalid DOCVEC_DEFAULT_METRIC: " ++ text ∉ issues) ↔
      ((latest? calls m).isSome = true ∧ Listable calls) ∧ trimmed m = m := by
  have hissues {names : List String} (hnames : (after calls).names = .ok names) :
      (∀ text, "Invalid DOCVEC_DEFAULT_METRIC: " ++ text ∉ settings.issues names) ↔
        (latest? calls m).isSome = true ∧ trimmed m = m := by
    rw [no_complaint, hm, lower_mem_names hnames]
  constructor
  · rintro ⟨issues, h, hnone⟩
    obtain ⟨names, hnames, rfl⟩ := map_eq_ok.mp h
    obtain ⟨hsome, htrimmed⟩ := (hissues hnames).mp hnone
    exact ⟨⟨hsome, exists_names_after.mp ⟨names, hnames⟩⟩, htrimmed⟩
  · rintro ⟨⟨hsome, hlist⟩, htrimmed⟩
    obtain ⟨names, hnames⟩ := exists_names_after.mpr hlist
    exact ⟨_, map_eq_ok.mpr ⟨names, hnames, rfl⟩, (hissues hnames).mpr ⟨hsome, htrimmed⟩⟩

/-- **Names of metrics.** After any calls that register metrics, a name leads to the metric
registered last under it, of those that come to the same once trimmed and in lower case, and so
does the default when it is set to the name; both tell what they do not find. As long as names can
be listed, queries take the name exactly when it leads somewhere, and so do the settings except
that they complain about blanks around it. -/
theorem names_agree (calls : List (Value × Option Metric)) (settings : Settings) (m : String) :
    let ms := after calls
    let env : Environment := ⟨settings.setAll [("DOCVEC_DEFAULT_METRIC", m)], ms⟩
    let found := latest? calls m
    (∀ f, ms.get (.text m) = .ok f ↔ found = some f) ∧
    (∀ f, env.resolve .byDefault = .ok f ↔ found = some f) ∧
    (Listable calls → found = none →
      (∃ e, ms.get (.text m) = .error e ∧ e.errorClass = .unknownMetric) ∧
      ∃ e, env.resolve .byDefault = .error e ∧ e.errorClass = .unknownMetric) ∧
    (∀ a : NearArguments,
      ((∃ spec, NearSpec.within ms { a with metric := .text m } = .ok spec) ↔
        (∃ spec, NearSpec.within ms { a with metric := .null } = .ok spec) ∧
          found.isSome = true ∧ Listable calls) ∧
      ((∃ spec, NearSpec.nearest ms { a with metric := .text m } = .ok spec) ↔
        (∃ spec, NearSpec.nearest ms { a with metric := .null } = .ok spec) ∧
          found.isSome = true ∧ Listable calls)) ∧
    ((∃ issues, env.issues = .ok issues ∧
        ∀ text, "Invalid DOCVEC_DEFAULT_METRIC: " ++ text ∉ issues) ↔
      (found.isSome = true ∧ Listable calls) ∧ trimmed m = m) := by
  intro ms env found
  have hfound : ms.find? (.text m) = found := find?_after calls m
  have hdefault : env.resolve .byDefault = ms.get (.text (lower m)) :=
    congrArg (fun s => ms.get (.text s)) (defaultMetric_setAll settings m)
  have hlower : ms.find? (.text (lower m)) = found := (find?_lower ms m).trans hfound
  have hmetric : (∃ v, Check.metric ms (.text m) = .ok (.ok v)) ↔
      found.isSome = true ∧ Listable calls := by
    rw [metric_passes, hfound, exists_names_after]
  refine ⟨fun f => ?_, fun f => ?_, fun hlist hnone => ?_, fun a => ⟨?_, ?_⟩, ?_⟩
  · rw [get_eq_ok, hfound]
  · rw [hdefault, get_eq_ok, hlower]
  · obtain ⟨names, hnames⟩ := exists_names_after.mpr hlist
    rw [hdefault]
    exact ⟨get_error hnames (hfound.trans hnone), get_error hnames (hlower.trans hnone)⟩
  · exact check_passes.trans (and_congr_right fun _ => hmetric)
  · exact check_passes.trans (and_congr_right fun _ => hmetric)
  · exact settings_pass (defaultMetric_setAll settings m)

/-- Blanks around the default are the settings' own complaint. -/
example : (Environment.mk ⟨[("DOCVEC_DEFAULT_METRIC", " cosine ")]⟩ .builtin).issues.toOption =
    some ["Invalid DOCVEC_DEFAULT_METRIC:  cosine "] := by decide +kernel

end Metrics

end NearDoc
