import NearDoc.Proofs.Near.Kinds
import NearDoc.Proofs.Query.Demand
import NearDoc.Proofs.Sort.Kinds

/-!
Sort keys of two kinds, numbers and texts. However the documents are brought into an order, some
number is compared with some text as soon as a sort column holds both: a sort goes through every
column with all entries, and a selection compares each key with one that it keeps. Main statement:
the first pull of a plan with sort keys tells of keys that cannot be compared if a column of the
documents to be ordered holds a number and a text, and only then; but it may come first to an integer
that is too large beside a number of a floating-point type.
-/

namespace NearDoc

open scoped List

namespace Execution

variable {Q : Error → Prop} {entries : List Keyed} {position : Nat} {k : SortKey}

/-- The keys of one column are all texts, or none is. -/
def OneKind (position : Nat) (entries : List Keyed) : Prop :=
  ∀ a ∈ entries, ∀ b ∈ entries, (keyAt position a).isText = (keyAt position b).isText

lemma OneKind.perm {entries' : List Keyed} (h : OneKind position entries) (hp : entries' ~ entries) :
    OneKind position entries' := fun a ha b hb => h a (hp.subset ha) b (hp.subset hb)

/-- Entries that are sorted by one key have keys of one kind. -/
lemma sortByKey_meets {descending : Bool} (hk : k.descending = .bool descending)
    (h : Sort.Together Q (precedes position) entries) :
    Meets Q (fun m => m ~ entries ∧ OneKind position entries) (sortByKey position k entries) := by
  have hparts : Sort.Parts (fun e => (keyAt position e).isText) (precedes position) :=
    fun _ _ _ hlt => Value.isText_of_lt hlt
  simp only [sortByKey, k.isDescending_eq hk, Bind.bind, Except.bind]
  cases descending with
  | false =>
    have hmeets := Sort.sort_meets h
    rw [if_neg Bool.false_ne_true]
    rcases hsort : Sort.sort (precedes position) entries with e | m
    · exact hmeets.error hsort
    · exact ⟨hmeets.ok hsort, Sort.same_of_sort hparts hsort⟩
  | true =>
    have hmeets := Sort.sort_meets (h.perm (List.reverse_perm entries))
    rw [if_pos rfl]
    rcases hsort : Sort.sortDescending (precedes position) entries with e | m
    · exact hmeets.error (map_eq_error.mp hsort)
    · obtain ⟨m', hm', rfl⟩ := map_eq_ok.mp hsort
      have hperm : m'.reverse ~ entries :=
        (List.reverse_perm m').trans ((hmeets.ok hm').trans (List.reverse_perm entries))
      exact ⟨hperm, Sort.same_of_sortDescending hparts hsort⟩

/-- Every pass of a sort goes through all entries, so that every column is of one kind. -/
lemma sortFrom_meets {keys : List SortKey} (hk : ∀ k ∈ keys, ∃ b, k.descending = .bool b)
    (h : ∀ i < position + keys.length, Sort.Together Q (precedes i) entries) :
    Meets Q (fun m => m ~ entries ∧
        ∀ i, position ≤ i → i < position + keys.length → OneKind i entries)
      (sortFrom position keys entries) := by
  induction keys generalizing position with
  | nil => exact .of_ok ⟨.refl _, fun i hle hlt => by simp at hlt; omega⟩
  | cons k keys ih =>
    obtain ⟨⟨descending, hdescending⟩, hkeys⟩ := List.forall_mem_cons.mp hk
    rw [List.length_cons] at h ⊢
    have hlater : ∀ i < position + 1 + keys.length, Sort.Together Q (precedes i) entries :=
      fun i hi => h i (by omega)
    refine (ih hkeys hlater).bind fun m hrest => ?_
    obtain ⟨hm, hkinds⟩ := hrest
    have hfirst := sortByKey_meets hdescending ((h position (by omega)).perm hm)
    refine hfirst.imp fun m' hpass => ⟨hpass.1.trans hm, fun i hle hlt => ?_⟩
    rcases Nat.eq_or_lt_of_le hle with rfl | hgt
    · exact hpass.2.perm hm.symm
    · exact hkinds i hgt (by omega)

end Execution

namespace Plan

open Execution

variable {env : Environment} {store : Store} {p b : Plan} {ds : List Value} {k : SortKey}
variable {d : Value}

/-- The documents that are brought into an order: those admitted that have all sort keys. -/
def ranking (env : Environment) (p : Plan) (ds : List Value) : List Value :=
  (ds.filter (p.passes env)).filter (p.hasKeys env)

/-- Every sort key is undefined or null, a number that has a place, or a text. -/
def Sortable (env : Environment) (p : Plan) (ds : List Value) : Prop :=
  ∀ k ∈ p.order, ∀ d ∈ ds, k.expr.valueOn env d = .undefined ∨ k.expr.valueOn env d = .null ∨
    (k.expr.valueOn env d).IsNumeral ∨ (k.expr.valueOn env d).IsText

/-- Some sort column of the documents to be ordered holds a number and a text. -/
def Mixes (env : Environment) (p : Plan) (ds : List Value) : Prop :=
  ∃ k ∈ p.order, ∃ d ∈ p.ranking env ds, ∃ d' ∈ p.ranking env ds,
    (k.expr.valueOn env d).IsNumeral ∧ (k.expr.valueOn env d').IsText

/-- Some sort column of the documents to be ordered holds a number of a floating-point type and an
integer that is too large beside it. -/
def Oversized (env : Environment) (p : Plan) (ds : List Value) : Prop :=
  ∃ k ∈ p.order, ∃ d ∈ p.ranking env ds, ∃ d' ∈ p.ranking env ds,
    (k.expr.valueOn env d).Overflows (k.expr.valueOn env d')

/-- Two keys do not compare, which makes some column mixed or oversized. -/
def Clashes (env : Environment) (p : Plan) (ds : List Value) (e : Error) : Prop :=
  (∃ s t, e = .incomparable "<" s t) ∧ p.Mixes env ds ∨
    e = .integerTooLarge ∧ p.Oversized env ds

/-- Bringing the documents into an order fails over mixed or oversized columns, and it succeeds only
if none is mixed. -/
def Notices (env : Environment) (p : Plan) (ds : List Value) (outcome : Except Error (List Value)) :
    Prop :=
  Meets (fun e => e = .keysNotComparable ∧ p.Mixes env ds ∨
      e = .integerTooLarge ∧ p.Oversized env ds)
    (fun shown => ¬ p.Mixes env ds ∧ ∀ d ∈ shown, d ∈ ds) outcome

lemma Clashes.notices {e : Error} (h : p.Clashes env ds e) :
    p.Notices env ds (.error (asOrderError e)) := by
  obtain ⟨⟨s, t, rfl⟩, hmixes⟩ | ⟨rfl, hoversized⟩ := h
  · exact .inl ⟨rfl, hmixes⟩
  · exact .inr ⟨rfl, hoversized⟩

lemma mem_of_ranking (hd : d ∈ p.ranking env ds) : d ∈ ds :=
  (List.mem_filter.mp (List.mem_filter.mp hd).1).1

namespace Sortable

variable (h : p.Sortable env ds)
include h

lemma isKey (hk : k ∈ p.order) (hd : d ∈ p.ranking env ds) : (k.expr.valueOn env d).IsKey := by
  have hhas := List.all_eq_true.mp (List.mem_filter.mp hd).2 k hk
  rcases h k hk d (mem_of_ranking hd) with hundefined | hnull | hkey
  · simp [hundefined, Value.isUndefined] at hhas
  · simp [hnull, Value.isNull] at hhas
  · exact hkey

/-- Keys of two kinds are a number and a text. -/
lemma mixes_iff : p.Mixes env ds ↔ ∃ k ∈ p.order, ∃ d ∈ p.ranking env ds, ∃ d' ∈ p.ranking env ds,
    (k.expr.valueOn env d).isText ≠ (k.expr.valueOn env d').isText := by
  constructor
  · rintro ⟨k, hk, d, hd, d', hd', hnumber, htext⟩
    exact ⟨k, hk, d, hd, d', hd', by simp [hnumber.isText, htext.isText]⟩
  · rintro ⟨k, hk, d, hd, d', hd', hne⟩
    rcases h.isKey hk hd with hnumber | htext <;> rcases h.isKey hk hd' with hnumber' | htext'
    · exact absurd (hnumber.isText.trans hnumber'.isText.symm) hne
    · exact ⟨k, hk, d, hd, d', hd', hnumber, htext'⟩
    · exact ⟨k, hk, d', hd', d, hd, hnumber', htext⟩
    · exact absurd (htext.isText.trans htext'.isText.symm) hne

/-- Two keys of a column that do not compare make it mixed or oversized. -/
lemma clashes (hk : k ∈ p.order) {d' : Value} (hd : d ∈ p.ranking env ds)
    (hd' : d' ∈ p.ranking env ds) {e : Error}
    (hclash : (k.expr.valueOn env d).Clash (k.expr.valueOn env d') e) : p.Clashes env ds e := by
  have hfails : ∀ {d d'}, d ∈ p.ranking env ds → d' ∈ p.ranking env ds →
      (k.expr.valueOn env d).eqv (k.expr.valueOn env d') = .error e ∨
        (k.expr.valueOn env d).lt (k.expr.valueOn env d') = .error e → p.Clashes env ds e := by
    intro d d' hd hd' hfail
    obtain ⟨hne, htold⟩ | ⟨htold, hover | hover⟩ :=
      Value.error_of_isKey (h.isKey hk hd) (h.isKey hk hd') hfail
    · exact .inl ⟨htold, h.mixes_iff.mpr ⟨k, hk, d, hd, d', hd', hne⟩⟩
    · exact .inr ⟨htold, k, hk, d, hd, d', hd', hover⟩
    · exact .inr ⟨htold, k, hk, d', hd', d, hd, hover⟩
  exact hclash.elim (hfails hd hd') (hfails hd' hd)

/-- The keys of a column clash only in this way, be it one of several in a sort or the only one of a
selection. -/
lemma together (hk : k ∈ p.order) :
    Value.Together (p.Clashes env ds) ((p.ranking env ds).map fun d => k.expr.valueOn env d) :=
  List.pairwise_map.mpr (List.pairwise_of_forall_mem_list fun _ hd _ hd' _ hclash =>
    h.clashes hk hd hd' hclash)

end Sortable

/-! ### A sort -/

lemma together_withKeys (h : p.Sortable env ds) {i : Nat} (hi : i < p.order.length) :
    Sort.Together (p.Clashes env ds) (precedes i)
      ((p.ranking env ds).map (p.withKeys env)) := by
  have hk : p.order[i]? = some (p.order[i]) := List.getElem?_eq_getElem hi
  have htogether := List.pairwise_map.mp (h.together (List.getElem_mem hi))
  refine List.pairwise_map.mpr (htogether.imp fun hclash => ?_)
  simp only [Sort.FailsAs, precedes, keyAt_withKeys hk]
  exact ⟨fun e he => hclash e (.inl (.inr he)), fun e he => hclash e (.inr (.inr he))⟩

/-- A sort succeeds on columns of one kind only. -/
lemma sorted_notices (hp : p.Declared) (he : p.Evaluates env ds) (h : p.Sortable env ds) :
    p.Notices env ds (sorted env p ds).outcome := by
  have hcolumns : ∀ i < 0 + p.order.length, Sort.Together (p.Clashes env ds) (precedes i)
      ((p.ranking env ds).map (p.withKeys env)) :=
    fun i hi => together_withKeys h (by simpa using hi)
  have hmeets := sortFrom_meets hp.descending hcolumns
  have hpull : (pullKeyed env p ds).outcome =
      .ok ((p.ranking env ds).map (p.withKeys env)) := pullKeyed_eq he
  simp only [sorted, hpull, Except.bind]
  rcases hsort : sortFrom 0 p.order ((p.ranking env ds).map (p.withKeys env)) with e | m
  · exact (hmeets.error hsort).notices
  · obtain ⟨hperm, hkind⟩ := hmeets.ok hsort
    refine ⟨fun hmixes => ?_, fun d hd => ?_⟩
    · obtain ⟨k, hk, d, hd, d', hd', hne⟩ := h.mixes_iff.mp hmixes
      obtain ⟨i, hi⟩ := List.mem_iff_getElem?.mp hk
      have hlt : i < 0 + p.order.length := by
        simpa using (List.getElem?_eq_some_iff.mp hi).1
      have hsame := hkind i (Nat.zero_le i) hlt _ (List.mem_map_of_mem hd) _ (List.mem_map_of_mem hd')
      rw [keyAt_withKeys hi, keyAt_withKeys hi] at hsame
      exact hne hsame
    · obtain ⟨entry, hentry, rfl⟩ := List.mem_map.mp hd
      obtain ⟨d', hd', rfl⟩ := List.mem_map.mp (hperm.subset hentry)
      exact mem_of_ranking hd'

/-! ### A selection -/

lemma ranked_ranking (he : p.Evaluates env ds) (hk : p.order = [k]) :
    ds.filterMap (Selector.ranked? (soleKey env p k.expr)) =
      (p.ranking env ds).map fun d => (k.expr.valueOn env d, d) :=
  keyed_soleKey he hk

/-- A selection that has room for an entry succeeds on keys of one kind only. -/
lemma smallest_notices (he : p.Evaluates env ds) (h : p.Sortable env ds)
    (hk : p.order = [k]) {n : Int} (hn : p.limit = .int n) (hpos : 0 < n) :
    p.Notices env ds (smallest env p k.expr ds).outcome := by
  have htogether : Value.Together (p.Clashes env ds)
      ((ds.filterMap (Selector.ranked? (soleKey env p k.expr))).map Prod.fst) := by
    rw [ranked_ranking he hk, List.map_map]
    exact h.together (by simp [hk])
  have hmeets := Selector.select_meets
    (fun d hd e hfail => absurd (fails_of_soleKey hk hfail) (not_fails he hd e)) htogether
    (.upTo n.toNat) nofun
  rw [smallest, selectCount_eq hn]
  dsimp only
  rcases hselect : (Selector.select (soleKey env p k.expr) (.upTo n.toNat) ds).outcome with e | ranked
  · exact (hmeets.error hselect).notices
  · refine ⟨fun hmixes => ?_, fun d hd => ?_⟩
    · obtain ⟨k', hk', d, hd, d', hd', hne⟩ := h.mixes_iff.mp hmixes
      obtain rfl : k' = k := by simpa [hk] using hk'
      obtain ⟨text, hkind⟩ := Selector.exists_kind_of_select (by omega) hselect
      rw [ranked_ranking he hk] at hkind
      exact hne ((hkind _ (List.mem_map_of_mem hd)).trans (hkind _ (List.mem_map_of_mem hd')).symm)
    · obtain ⟨pair, hpair, rfl⟩ := List.mem_map.mp hd
      have hranked := (hmeets.ok hselect).subset hpair
      rw [ranked_ranking he hk] at hranked
      obtain ⟨d', hd', rfl⟩ := List.mem_map.mp hranked
      exact mem_of_ranking hd'

/-! ### The first pull -/

/-- A plan with sort keys and room for a row sorts, or it keeps the smallest keys. -/
lemma strategy_of_order (hp : p.Declared) (hne : p.order ≠ []) (hlimit : p.AdmitsRow) :
    p.strategy = .ok .sort ∨ p.strategy = .ok .topK := by
  rw [strategy_eq hp.typed]
  rcases hlimit with hnull | ⟨n, hpos, hn⟩
  · exact .inl (by simp [hnull, Value.isNull, hne])
  · have hroom : p.cutAt ≠ some 0 := by
      simp only [cutAt, hn, ne_eq, Option.some.injEq]
      omega
    rw [if_neg (by simp [hn, Value.isNull]), if_neg hroom]
    rcases hk : p.order with _ | ⟨k, _ | ⟨k', keys⟩⟩
    · exact absurd hk hne
    · cases k.descending.isTrue <;> simp
    · exact .inl rfl

/-- However a plan brings the documents into an order, it succeeds on columns of one kind only. -/
lemma start_notices {source : Source} (hp : p.Declared) (hne : p.order ≠ []) (hlimit : p.AdmitsRow)
    (hopen : (openSource store source).1 = .ok ds) (he : p.Evaluates env ds)
    (h : p.Sortable env ds) :
    ∃ pass, ({ plan := p, phase := .waiting source } : Execution).start env store =
        ({ plan := p, phase := .waiting source } : Execution).deliver env pass ∧
      p.Notices env ds pass.outcome := by
  have hroom : ∀ n : Int, p.limit = .int n → 0 < n := by
    rintro n hn
    rcases hlimit with hnull | ⟨m, hpos, hm⟩
    · cases hnull.symm.trans hn
    · cases hm.symm.trans hn
      omega
  rcases strategy_of_order hp hne hlimit with hs | hs
  · refine ⟨cut p.limit (sorted env p ds), start_of_sort env rfl hs hopen, ?_⟩
    refine (sorted_notices hp he h).bind fun shown hnotices => ?_
    obtain ⟨hmixes, hshown⟩ := hnotices
    rw [rowCount_eq hp hroom]
    refine .of_ok ⟨hmixes, fun d hd => hshown d ?_⟩
    rcases hcut : p.cutAt with _ | n
    · simpa [hcut] using hd
    · rw [hcut] at hd
      exact List.mem_of_mem_take hd
  · obtain ⟨k, n, hk, -, hn, hpos⟩ := shape_of_topK hp hs
    exact ⟨smallest env p k.expr ds, start_of_topK env rfl hs hk hopen,
      smallest_notices he h hk hn hpos⟩

/-- **Mixed keys**: the first pull of a plan with sort keys and room for a row, on documents on which
nothing fails and whose keys are numbers and texts, if they are there, tells of keys that cannot be
compared only if a column of the documents to be ordered holds a number and a text. Where one does it
tells so, and where none does it gives rows, unless it comes first to an integer that is too large
beside a number of a floating-point type. -/
theorem execute_mixedKeys {params : Params} {source : Source} {step : Cursor.Step}
    {wanted : Option Nat} (hp : p.Declared) (hne : p.order ≠ []) (hlimit : p.AdmitsRow)
    (hbind : p.bind env params = .ok b) (hopen : (openSource store source).1 = .ok ds)
    (he : b.Evaluates env ds) (h : b.Sortable env ds) (hstep : step.wanted? = some wanted) :
    ∃ c, p.execute env params (some source) = .ok c ∧
      ((c.perform env store step).2 = .error .keysNotComparable → b.Mixes env ds) ∧
      (b.Mixes env ds → (c.perform env store step).2 = .error .keysNotComparable ∨
        (c.perform env store step).2 = .error .integerTooLarge ∧ b.Oversized env ds) ∧
      (¬ b.Mixes env ds → (∃ rows, (c.perform env store step).2 = .ok rows) ∨
        (c.perform env store step).2 = .error .integerTooLarge ∧ b.Oversized env ds) := by
  obtain ⟨hdeclared, hlabelled⟩ := hp.bind hbind
  obtain ⟨hsame, hdirections⟩ := kept_of_bind hbind
  have hleaves : b.AdmitsRow := by rwa [AdmitsRow, hsame]
  have hordered : b.order ≠ [] := fun hnil => by
    rw [hnil] at hdirections
    exact hne (List.forall₂_nil_right_iff.mp hdirections)
  refine ⟨.ofPlan b source, ?_, ?_⟩
  · simp only [execute, hbind, Bind.bind, Except.bind]
    rfl
  obtain ⟨pass, hstart, hpass⟩ := start_notices hdeclared hordered hleaves hopen he h
  have hpull := perform_of_deliver hstep hstart
  rcases houtcome : pass.outcome with e | shown
  · rw [houtcome] at hpull
    rw [show ((Cursor.ofPlan b source).perform env store step).2 = .error e from hpull]
    obtain ⟨rfl, hmixes⟩ | ⟨rfl, hoversized⟩ := hpass.error houtcome
    · exact ⟨fun _ => hmixes, fun _ => .inl rfl, fun hnone => absurd hmixes hnone⟩
    · refine ⟨fun htold => ?_, fun _ => .inr ⟨rfl, hoversized⟩, fun _ => .inr ⟨rfl, hoversized⟩⟩
      cases htold
  · obtain ⟨hnone, hshown⟩ := hpass.ok houtcome
    rw [houtcome] at hpull
    rcases hreply : ((Cursor.ofPlan b source).perform env store step).2 with e | rows
    · obtain ⟨d, hd, hrow⟩ := hpull e hreply
      cases (row_eq he hdeclared hlabelled (hshown d hd)).symm.trans hrow
    · refine ⟨fun htold => ?_, fun hmixes => absurd hmixes hnone, fun _ => .inl ⟨rows, rfl⟩⟩
      cases htold

/-- The documents by one key. -/
def byKey (limit : Value) : Plan := { order := [{ expr := .field "a" }], limit }

/-- A document with a key. -/
def ofKey (v : Value) : Value := .object [("a", v)]

section

variable {limit v w : Value} {vs : List Value}

lemma eval_ofKey (v : Value) : (Expr.field "a").eval {} (ofKey v) = .ok v := rfl

lemma declared_byKey (h : limit = .null ∨ ∃ n : Int, limit = .int n ∧ n ≤ greatestCount) :
    (byKey limit).Declared := ⟨h, by simp [byKey], by simp [byKey]⟩

lemma evaluates_byKey (limit : Value) (vs : List Value) :
    (byKey limit).Evaluates {} (vs.map ofKey) := by
  refine ⟨by simp [byKey], fun k hk d hd => ?_, by simp [byKey]⟩
  obtain rfl := List.mem_singleton.mp hk
  obtain ⟨v, -, rfl⟩ := List.mem_map.mp hd
  exact ⟨v, eval_ofKey v⟩

lemma sortable_byKey (limit : Value) (h : ∀ v ∈ vs, v.IsKey) :
    (byKey limit).Sortable {} (vs.map ofKey) := by
  intro k hk d hd
  obtain rfl := List.mem_singleton.mp hk
  obtain ⟨v, hv, rfl⟩ := List.mem_map.mp hd
  exact .inr (.inr (h v hv))

lemma mem_ranking_byKey (limit : Value) (hv : v ∈ vs) (hkey : v.IsKey) :
    ofKey v ∈ (byKey limit).ranking {} (vs.map ofKey) := by
  refine List.mem_filter.mpr ⟨List.mem_filter.mpr ⟨List.mem_map_of_mem hv, rfl⟩, ?_⟩
  obtain ⟨n, hn, -⟩ | ⟨s, rfl⟩ := hkey
  · cases v <;> first | rfl | cases hn
  · rfl

lemma mixes_byKey (limit : Value) (hv : v ∈ vs) (hw : w ∈ vs) (hnumber : v.IsNumeral)
    (htext : w.IsText) : (byKey limit).Mixes {} (vs.map ofKey) :=
  ⟨_, List.mem_cons_self, _, mem_ranking_byKey limit hv (.inl hnumber), _,
    mem_ranking_byKey limit hw (.inr htext), hnumber, htext⟩

end

/-- Two numbers with a text between them. -/
def mixed : List Value := [.int 1, .text "x", .int 2]

/-- A single row is asked for, and the text is noticed all the same. -/
theorem execute_mixedKeys_mixed :
    (byKey (.int 1)).Declared ∧ (byKey (.int 1)).AdmitsRow ∧
      (byKey (.int 1)).Evaluates {} (mixed.map ofKey) ∧
      (byKey (.int 1)).Sortable {} (mixed.map ofKey) ∧
      ∃ c, (byKey (.int 1)).execute {} [] (some (.documents (mixed.map ofKey))) = .ok c ∧
        (c.perform {} {} .next).2 = .error .keysNotComparable := by
  have hdeclared := declared_byKey (.inr ⟨1, rfl, by decide⟩)
  have hroom : (byKey (.int 1)).AdmitsRow := .inr ⟨1, by decide, rfl⟩
  have hevaluates := evaluates_byKey (.int 1) mixed
  have hsortable : (byKey (.int 1)).Sortable {} (mixed.map ofKey) := by
    refine sortable_byKey (.int 1) ?_
    simp only [mixed, List.mem_cons, List.not_mem_nil, or_false, forall_eq_or_imp, forall_eq]
    exact ⟨.inl (Value.isNumeral_int 1), .inr ⟨"x", rfl⟩, .inl (Value.isNumeral_int 2)⟩
  have hmixes : (byKey (.int 1)).Mixes {} (mixed.map ofKey) :=
    mixes_byKey (.int 1) (by simp [mixed]) (by simp [mixed]) (Value.isNumeral_int 1) ⟨"x", rfl⟩
  have hsized : ¬ (byKey (.int 1)).Oversized {} (mixed.map ofKey) := by
    rintro ⟨k, hk, -, -, d, hd, i, s, -, hs, -⟩
    obtain rfl := List.mem_singleton.mp hk
    obtain ⟨v, hv, rfl⟩ := List.mem_map.mp (mem_of_ranking hd)
    simp only [mixed, List.mem_cons, List.not_mem_nil, or_false] at hv
    rcases hv with rfl | rfl | rfl <;> cases hs
  have hopen : (openSource {} (.documents (mixed.map ofKey))).1 = .ok (mixed.map ofKey) := rfl
  have hstep : Cursor.Step.next.wanted? = some (some 1) := rfl
  obtain ⟨c, hc, -, hnoticed, -⟩ := execute_mixedKeys hdeclared (by simp [byKey]) hroom rfl hopen
    hevaluates hsortable hstep
  have htold := (hnoticed hmixes).resolve_right fun htold => hsized htold.2
  exact ⟨hdeclared, hroom, hevaluates, hsortable, c, hc, htold⟩

/-- An integer beyond all floating-point numbers. -/
def beyondReals : Int := 10 ^ 400

/-- A number of a floating-point type, an integer that is too large beside it, and a text. -/
def oversized : List Value :=
  [.scalar ⟨.float 32, .real (.ofInt 1)⟩, .int beyondReals, .text "x"]

/-- An integer that is too large is refused before the text is come to, so that mixed keys are not
always told. -/
theorem not_execute_mixedKeys_oversized :
    ¬ ∀ (p b : Plan) (env : Environment) (store : Store) (params : Params) (source : Source)
      (ds : List Value) (step : Cursor.Step) (wanted : Option Nat), p.Declared → p.order ≠ [] →
      p.AdmitsRow → p.bind env params = .ok b → (openSource store source).1 = .ok ds →
      b.Evaluates env ds → b.Sortable env ds → step.wanted? = some wanted →
      ∃ c, p.execute env params (some source) = .ok c ∧
        ((c.perform env store step).2 = .error .keysNotComparable ↔ b.Mixes env ds) := by
  intro h
  have hnumber : (Value.scalar ⟨.float 32, .real (.ofInt 1)⟩).IsNumeral :=
    ⟨_, rfl, Binary64.exists_place_ofInt 1⟩
  have hsortable : (byKey .null).Sortable {} (oversized.map ofKey) := by
    refine sortable_byKey .null ?_
    simp only [oversized, List.mem_cons, List.not_mem_nil, or_false, forall_eq_or_imp, forall_eq]
    exact ⟨.inl hnumber, .inl (Value.isNumeral_int _), .inr ⟨"x", rfl⟩⟩
  have hmixes : (byKey .null).Mixes {} (oversized.map ofKey) :=
    mixes_byKey .null (by simp [oversized]) (by simp [oversized]) hnumber ⟨"x", rfl⟩
  have hopen : (openSource {} (.documents (oversized.map ofKey))).1 = .ok (oversized.map ofKey) :=
    rfl
  obtain ⟨c, hc, hiff⟩ := h (byKey .null) _ {} {} [] _ _ .next (some 1) (declared_byKey (.inl rfl))
    (by simp [byKey]) (.inl rfl) rfl hopen (evaluates_byKey .null oversized) hsortable rfl
  have hcursor : c = .ofPlan (byKey .null) (.documents (oversized.map ofKey)) :=
    (Except.ok.inj hc).symm
  have hfail : ((Cursor.ofPlan (byKey .null) (.documents (oversized.map ofKey))).perform {} {}
      .next).2.map (fun _ => ()) = .error .integerTooLarge := by decide +kernel
  rw [← hcursor] at hfail
  cases (hiff.mpr hmixes).symm.trans (map_eq_error.mp hfail)

end Plan

end NearDoc
