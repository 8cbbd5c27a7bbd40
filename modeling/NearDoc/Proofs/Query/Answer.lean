import NearDoc.Proofs.Expr.Binding
import NearDoc.Proofs.Near.Select
import NearDoc.Proofs.Outcome
import NearDoc.Proofs.Query.Reference
import NearDoc.Proofs.Query.Rows

/-!
Carrying out a plan answers what the plan should. Each strategy brings the documents into their
final order in its own way: a selection for one ascending key and a limit, one stable pass for each
key otherwise, and a scan that stops at the limit when there are no keys. Main statement: whatever
the strategy, all rows of a run are the reference answer.
-/

namespace NearDoc

open NearDoc.Sort

namespace Plan

/-- A plan whose limit, directions and names are of their declared types. -/
structure Declared (p : Plan) : Prop where
  limit : p.limit = .null ∨ ∃ n : Int, p.limit = .int n ∧ n ≤ greatestCount
  descending : ∀ k ∈ p.order, ∃ b, k.descending = .bool b
  givenName : ∀ columns ∈ p.columns, ∀ c ∈ columns,
    c.givenName = .null ∨ ∃ s, c.givenName = .text s

/-- A plan whose limit and directions are of the types they are declared with. -/
structure Typed (p : Plan) : Prop where
  limit : p.limit = .null ∨ ∃ n : Int, p.limit = .int n
  descending : ∀ k ∈ p.order, ∃ b, k.descending = .bool b

/-- No expression of a plan fails on the documents. -/
structure Evaluates (env : Environment) (p : Plan) (ds : List Value) : Prop where
  predicate : ∀ e ∈ p.predicate, ∀ d ∈ ds, ∃ v, e.eval env d = .ok v
  keys : ∀ k ∈ p.order, ∀ d ∈ ds, ∃ v, k.expr.eval env d = .ok v
  columns : ∀ columns ∈ p.columns, ∀ c ∈ columns, ∀ d ∈ ds, ∃ v, c.expr.eval env d = .ok v

/-- The keys of each sort column that are neither undefined nor null have an order. -/
def Comparable (env : Environment) (p : Plan) (ds : List Value) : Prop :=
  ∀ k ∈ p.order, ∃ K, Value.OrderedKeys K ∧
    ∀ d ∈ ds, k.expr.valueOn env d ≠ .undefined → k.expr.valueOn env d ≠ .null →
      K (k.expr.valueOn env d)

/-- Every column has a text for a label. -/
def Labelled (p : Plan) : Prop :=
  ∀ columns ∈ p.columns, ∀ c ∈ columns, ∃ s, c.expr.label = .text s

end Plan

section

variable {env : Environment} {store : Store} {p : Plan} {ds : List Value} {d : Value}

lemma Expr.valueOn_eq {e : Expr} {v : Value} (h : e.eval env d = .ok v) : e.valueOn env d = v := by
  rw [Expr.valueOn, h]

lemma Expr.eval_eq {e : Expr} (h : ∃ v, e.eval env d = .ok v) :
    e.eval env d = .ok (e.valueOn env d) := by
  obtain ⟨v, hv⟩ := h
  rw [hv, valueOn_eq hv]

lemma SortKey.isDescending_eq {k : SortKey} {b : Bool} (h : k.descending = .bool b) :
    k.isDescending = .ok b := by
  cases b <;> simp [SortKey.isDescending, h, Value.index?]

/-- A column and what binding makes of it. -/
structure Column.BindsTo (env : Environment) (params : Params) (c b : Column) : Prop where
  givenName : b.givenName = c.givenName
  expr : c.expr.bind env params = .ok b.expr

namespace Plan

/-! ### Bound plans -/

/-- An expression that is bound has a text for a label. -/
lemma exists_label_of_bind {params : Params} {e e' : Expr} (h : e.bind env params = .ok e') :
    ∃ s, e'.label = .text s := by
  rw [Expr.label_of_bind e h]
  cases e <;> exact ⟨_, rfl⟩

/-- Columns are bound one by one. -/
lemma columns_of_bind {params : Params} {bound : Plan} (h : p.bind env params = .ok bound) :
    Option.Rel (List.Forall₂ (Column.BindsTo env params)) p.columns bound.columns := by
  obtain ⟨_, -, h⟩ := bind_eq_ok.mp h
  obtain ⟨_, -, h⟩ := bind_eq_ok.mp h
  obtain ⟨columns, hcolumns, h⟩ := bind_eq_ok.mp h
  cases h
  rcases hp : p.columns with _ | cs
  · rw [hp] at hcolumns
    cases hcolumns
    exact .none
  · rw [hp] at hcolumns
    obtain ⟨bs, hbs, hsome⟩ := bind_eq_ok.mp hcolumns
    cases hsome
    refine .some ((forall₂_of_mapM hbs).imp fun c b hb => ?_)
    obtain ⟨e, he, hb⟩ := bind_eq_ok.mp hb
    cases hb
    exact ⟨rfl, he⟩

/-- Binding keeps the limit and the directions of the sort keys. -/
lemma kept_of_bind {params : Params} {bound : Plan} (h : p.bind env params = .ok bound) :
    bound.limit = p.limit ∧
      List.Forall₂ (fun k b => b.descending = k.descending) p.order bound.order := by
  obtain ⟨predicate, -, h⟩ := bind_eq_ok.mp h
  obtain ⟨order, horder, h⟩ := bind_eq_ok.mp h
  obtain ⟨columns, -, h⟩ := bind_eq_ok.mp h
  cases h
  refine ⟨rfl, (forall₂_of_mapM horder).imp fun k b hb => ?_⟩
  obtain ⟨e, -, hb⟩ := bind_eq_ok.mp hb
  cases hb
  rfl

/-- Binding changes expressions only. -/
theorem Declared.bind {params : Params} {b : Plan} (h : p.Declared)
    (hb : p.bind env params = .ok b) : b.Declared ∧ b.Labelled := by
  have hnamed : ∀ cs ∈ b.columns, ∀ c ∈ cs,
      (c.givenName = .null ∨ ∃ s, c.givenName = .text s) ∧ ∃ s, c.expr.label = .text s := by
    intro cs hcs c hc
    have hcolumns := columns_of_bind hb
    rw [Option.mem_def.mp hcs] at hcolumns
    generalize hp : p.columns = given at hcolumns
    cases hcolumns with
    | some hbinds =>
      obtain ⟨c', hc', hbound⟩ := exists_mem_of_forall₂ hbinds hc
      rw [hbound.givenName]
      exact ⟨h.givenName _ hp c' hc', exists_label_of_bind hbound.expr⟩
  obtain ⟨hlimit, hdirections⟩ := kept_of_bind hb
  refine ⟨⟨hlimit ▸ h.limit, fun k hk => ?_, fun cs hcs c hc => (hnamed cs hcs c hc).1⟩,
    fun cs hcs c hc => (hnamed cs hcs c hc).2⟩
  obtain ⟨k', hk', hsame⟩ := exists_mem_of_forall₂ hdirections hk
  exact hsame ▸ h.descending k' hk'

/-! ### One document -/

lemma admitted_eq (h : p.Evaluates env ds) (hd : d ∈ ds) :
    Execution.admitted env p d = .ok (p.passes env d) := by
  unfold Execution.admitted passes
  cases hp : p.predicate with
  | none => rfl
  | some e =>
    simp only [Expr.admits, Expr.eval_eq (h.predicate e hp d hd)]
    rfl

lemma evalEach_eq {es : List Expr} (h : ∀ e ∈ es, ∃ v, e.eval env d = .ok v) :
    Expr.evalEach env d es = .ok (es.map fun e => e.valueOn env d) := by
  induction es with
  | nil => rfl
  | cons e es ih =>
    rw [List.forall_mem_cons] at h
    rw [Expr.evalEach, Expr.eval_eq h.1]
    simp only [ih h.2, Except.map, List.map_cons]

/-- The sort keys of a document with the document. -/
def withKeys (env : Environment) (p : Plan) (d : Value) : Execution.Keyed :=
  (p.order.map fun k => k.expr.valueOn env d, d)

lemma keyAt_withKeys {i : Nat} {k : SortKey} (hk : p.order[i]? = some k) (d : Value) :
    Execution.keyAt i (p.withKeys env d) = k.expr.valueOn env d := by
  simp [Execution.keyAt, withKeys, hk]

lemma keyed?_eq (h : p.Evaluates env ds) (hd : d ∈ ds) :
    Execution.keyed? env p d =
      .ok (if p.passes env d && p.hasKeys env d then some (p.withKeys env d) else none) := by
  have hkeys : Expr.evalEach env d (p.order.map SortKey.expr) =
      .ok (p.order.map fun k => k.expr.valueOn env d) := by
    rw [evalEach_eq fun e he => ?_, List.map_map]
    · rfl
    · obtain ⟨k, hk, rfl⟩ := List.mem_map.mp he
      exact h.keys k hk d hd
  have hany : ((p.order.map fun k => k.expr.valueOn env d).any fun v =>
      v.isUndefined || v.isNull) = !p.hasKeys env d := by
    simp [hasKeys, List.any_map, List.all_eq_not_any_not, Function.comp_def]
  rw [Execution.keyed?, admitted_eq h hd, hkeys]
  simp only [Bind.bind, Except.bind, pure, Except.pure, hany]
  cases p.passes env d <;> cases p.hasKeys env d <;> rfl

lemma pullKeyed_eq (h : p.Evaluates env ds) :
    (Execution.pullKeyed env p ds).outcome =
      .ok (((ds.filter (p.passes env)).filter (p.hasKeys env)).map (p.withKeys env)) := by
  suffices hsub : ∀ l, (∀ d ∈ l, d ∈ ds) → (Execution.pullKeyed env p l).outcome =
      .ok (((l.filter (p.passes env)).filter (p.hasKeys env)).map (p.withKeys env)) from
    hsub ds fun _ hd => hd
  intro l hl
  induction l with
  | nil => rfl
  | cons d l ih =>
    rw [List.forall_mem_cons] at hl
    simp only [Execution.pullKeyed, keyed?_eq h hl.1, ih hl.2, Except.map]
    cases hp : p.passes env d <;> cases hk : p.hasKeys env d <;> simp [hp, hk]

lemma name_eq {c : Column} (hname : c.givenName = .null ∨ ∃ s, c.givenName = .text s)
    (hlabel : ∃ s, c.expr.label = .text s) : c.name = .ok (.text c.shownName) := by
  obtain ⟨label, hlabel⟩ := hlabel
  rcases hname with hnull | ⟨s, hs⟩
  · simp [Column.name, Column.shownName, hnull, hlabel, Value.truthy, Value.toText, Bind.bind,
      Except.bind, pure, Except.pure]
  · rcases hemp : s.isEmpty with _ | _ <;>
    simp [Column.name, Column.shownName, hs, hlabel, hemp, Value.truthy, Value.toText, Bind.bind,
      Except.bind, pure, Except.pure]

lemma project_eq (h : p.Evaluates env ds) (hp : p.Declared) (hl : p.Labelled)
    {columns : List Column} (hc : columns ∈ p.columns) (hd : d ∈ ds) :
    Execution.project env columns d = .ok (cells env columns d).lastOfEach := by
  rw [← Fields.ofList_eq_lastOfEach, Fields.ofList, cells, List.foldl_filterMap]
  refine foldlM_eq_ok fun c hm row => ?_
  have hname := name_eq (hp.givenName columns hc c hm) (hl columns hc c hm)
  rw [Expr.eval_eq (h.columns columns hc c hm d hd)]
  generalize c.expr.valueOn env d = v
  cases v with
  | undefined => rfl
  | _ => simp only [Bind.bind, Except.bind, hname, Execution.rowName, pure, Except.pure]

lemma row_eq (h : p.Evaluates env ds) (hp : p.Declared) (hl : p.Labelled) (hd : d ∈ ds) :
    Execution.row env p d = .ok (p.shownRow env d) := by
  unfold Execution.row shownRow
  cases hc : p.columns with
  | none => rfl
  | some columns =>
    simp only [project_eq h hp hl hc hd, Except.map]

lemma shown_eq (h : p.Evaluates env ds) (hp : p.Declared) (hl : p.Labelled) {l : List Value}
    (hm : ∀ d ∈ l, d ∈ ds) : p.shown env l = ⟨l.map (p.shownRow env), none⟩ := by
  induction l with
  | nil => rfl
  | cons d l ih =>
    rw [List.forall_mem_cons] at hm
    simp only [shown, row_eq h hp hl hm.1, ih hm.2, List.map_cons]

lemma scanned_eq (h : p.Evaluates env ds) (hp : p.Declared) (hl : p.Labelled) {l : List Value}
    (hm : ∀ d ∈ l, d ∈ ds) (left : Option Nat) :
    p.scanned env left l =
      ⟨(left.elim (l.filter (p.passes env)) (l.filter (p.passes env)).take).map (p.shownRow env),
        none⟩ := by
  induction l generalizing left with
  | nil => rcases left with _ | _ | n <;> simp [scanned]
  | cons d l ih =>
    rw [List.forall_mem_cons] at hm
    rcases left with _ | _ | n
    · rcases hpass : p.passes env d with _ | _ <;>
      simp [scanned, admitted_eq h hm.1, row_eq h hp hl hm.1, ih hm.2, hpass]
    · simp [scanned]
    · rcases hpass : p.passes env d with _ | _ <;>
      simp [scanned, admitted_eq h hm.1, row_eq h hp hl hm.1, ih hm.2, hpass]

/-! ### Order -/

lemma Comparable.exists_keys (h : p.Comparable env ds) {k : SortKey} (hk : k ∈ p.order) :
    ∃ K, Value.OrderedKeys K ∧ ∀ d ∈ ds, p.hasKeys env d → K (k.expr.valueOn env d) := by
  obtain ⟨K, hK, hkeys⟩ := h k hk
  refine ⟨K, hK, fun d hd hhas => ?_⟩
  have := List.all_eq_true.mp hhas k hk
  simp only [Bool.not_eq_true', Bool.or_eq_false_iff] at this
  refine hkeys d hd (fun hu => ?_) fun hn => ?_
  · simp [hu, Value.isUndefined] at this
  · simp [hn, Value.isNull] at this

lemma totalPreorderOn_orders (h : p.Comparable env ds) {k : SortKey} (hk : k ∈ p.order) :
    TotalPreorderOn (fun d => d ∈ ds ∧ p.hasKeys env d) (k.orders env) := by
  obtain ⟨K, hK, hkeys⟩ := h.exists_keys hk
  have hmem : ∀ d, d ∈ ds ∧ p.hasKeys env d → K (k.expr.valueOn env d) := fun d hd =>
    hkeys d hd.1 hd.2
  have hasc := hK.total.comap (fun d => k.expr.valueOn env d) hmem
  unfold SortKey.orders
  cases k.descending.isTrue
  · exact hasc
  · exact hasc.flip

lemma totalPreorderOn_ordersBy (h : p.Comparable env ds) {keys : List SortKey}
    (hk : ∀ k ∈ keys, k ∈ p.order) :
    TotalPreorderOn (fun d => d ∈ ds ∧ p.hasKeys env d) (ordersBy env keys) := by
  induction keys with
  | nil => exact ⟨fun _ _ _ _ => rfl, fun _ _ _ _ _ _ _ _ => rfl⟩
  | cons k keys ih =>
    rw [List.forall_mem_cons] at hk
    exact (totalPreorderOn_orders h hk.1).lexicographic (ih hk.2)

/-- One pass sorts by one key, in its direction. -/
lemma sortByKey_eq (hp : p.Declared) (h : p.Comparable env ds) {position : Nat} {k : SortKey}
    (hk : p.order[position]? = some k) {l : List Value}
    (hl : ∀ d ∈ l, d ∈ ds ∧ p.hasKeys env d) :
    Execution.sortByKey position k (l.map (p.withKeys env)) =
      .ok ((l.mergeSort (k.orders env)).map (p.withKeys env)) := by
  have hkm : k ∈ p.order := List.mem_of_getElem? hk
  obtain ⟨b, hb⟩ := hp.descending k hkm
  obtain ⟨K, hK, hkeys⟩ := h.exists_keys hkm
  have hat : ∀ d, Execution.keyAt position (p.withKeys env d) = k.expr.valueOn env d :=
    keyAt_withKeys hk
  have hmem : ∀ e ∈ l.map (p.withKeys env), K (Execution.keyAt position e) := by
    intro e he
    obtain ⟨d, hd, rfl⟩ := List.mem_map.mp he
    rw [hat]
    exact hkeys d (hl d hd).1 (hl d hd).2
  have hdec : Decides (fun e => K (Execution.keyAt position e)) (Execution.precedes position)
      fun a b => (Execution.keyAt position a).atMost (Execution.keyAt position b) :=
    fun a b ha hb => hK.lt_eq ha hb
  have htotal := hK.total.comap (Execution.keyAt position) fun _ h => h
  simp only [Execution.sortByKey, SortKey.isDescending_eq hb, Bind.bind, Except.bind]
  cases b
  · simp only [Bool.false_eq_true, if_false]
    rw [sort_eq_mergeSort hdec htotal hmem]
    congr 1
    refine (List.map_mergeSort fun a _ b _ => ?_).symm
    simp [SortKey.orders, hb, Value.isTrue, hat]
  · simp only [if_true]
    rw [sortDescending_eq_mergeSort hdec htotal hmem]
    congr 1
    refine (List.map_mergeSort fun a _ b _ => ?_).symm
    simp [SortKey.orders, hb, Value.isTrue, hat]

/-- **Passes**: one stable pass for each key, the last key first, sorts by all of them. -/
theorem sortFrom_eq (hp : p.Declared) (h : p.Comparable env ds) {position : Nat}
    {keys : List SortKey} (hkeys : p.order.drop position = keys) {l : List Value}
    (hl : ∀ d ∈ l, d ∈ ds ∧ p.hasKeys env d) :
    Execution.sortFrom position keys (l.map (p.withKeys env)) =
      .ok ((l.mergeSort (ordersBy env keys)).map (p.withKeys env)) := by
  induction keys generalizing position with
  | nil =>
    have hself : l.mergeSort (ordersBy env []) = l :=
      List.mergeSort_of_pairwise (List.pairwise_of_forall fun _ _ => rfl)
    rw [hself]
    rfl
  | cons k keys ih =>
    have hk : p.order[position]? = some k := by
      have : (p.order.drop position)[0]? = p.order[position + 0]? := List.getElem?_drop
      rw [hkeys] at this
      simpa using this.symm
    have hrest : p.order.drop (position + 1) = keys := by
      rw [← List.drop_drop, hkeys]
      rfl
    have hsub : ∀ k ∈ keys, k ∈ p.order := fun k hk =>
      List.mem_of_mem_drop (hrest ▸ hk : k ∈ p.order.drop (position + 1))
    simp only [Execution.sortFrom, ih hrest, Bind.bind, Except.bind]
    rw [sortByKey_eq hp h hk fun d hd => hl d (List.mem_mergeSort.mp hd),
      (totalPreorderOn_orders h (List.mem_of_getElem? hk)).mergeSort_mergeSort
        (totalPreorderOn_ordersBy h hsub) hl]
    rfl

lemma sorted_eq (hp : p.Declared) (he : p.Evaluates env ds) (h : p.Comparable env ds) :
    (Execution.sorted env p ds).outcome =
      .ok (((ds.filter (p.passes env)).filter (p.hasKeys env)).mergeSort
        (ordersBy env p.order)) := by
  have hl : ∀ d ∈ (ds.filter (p.passes env)).filter (p.hasKeys env),
      d ∈ ds ∧ p.hasKeys env d := fun d hd => by
    simp only [List.mem_filter] at hd
    exact ⟨hd.1.1, hd.2⟩
  simp only [Execution.sorted, pullKeyed_eq he, Except.bind,
    sortFrom_eq hp h (show p.order.drop 0 = p.order from List.drop_zero) hl]
  simp [withKeys, Function.comp_def]

/-! ### Selection -/

lemma soleKey_eq (he : p.Evaluates env ds) {k : SortKey} (hk : k ∈ p.order) (hd : d ∈ ds) :
    Execution.soleKey env p k.expr d =
      .ok (if p.passes env d && !(k.expr.valueOn env d).isNull then k.expr.valueOn env d
        else .undefined) := by
  rw [Execution.soleKey, admitted_eq he hd, Expr.eval_eq (he.keys k hk d hd)]
  simp only [Bind.bind, Except.bind, pure, Except.pure]
  cases p.passes env d <;> cases (k.expr.valueOn env d).isNull <;> rfl

lemma keyed_soleKey (he : p.Evaluates env ds) {k : SortKey} (hk : p.order = [k]) :
    Selector.keyed (Execution.soleKey env p k.expr) ds =
      ((ds.filter (p.passes env)).filter (p.hasKeys env)).map
        fun d => (k.expr.valueOn env d, d) := by
  suffices hsub : ∀ l, (∀ d ∈ l, d ∈ ds) → Selector.keyed (Execution.soleKey env p k.expr) l =
      ((l.filter (p.passes env)).filter (p.hasKeys env)).map fun d => (k.expr.valueOn env d, d) from
    hsub ds fun _ hd => hd
  intro l hl
  induction l with
  | nil => rfl
  | cons d l ih =>
    rw [List.forall_mem_cons] at hl
    have hsole := soleKey_eq he (k := k) (by simp [hk]) hl.1
    have hhas : p.hasKeys env d =
        !((k.expr.valueOn env d).isUndefined || (k.expr.valueOn env d).isNull) := by
      simp [hasKeys, hk]
    rw [List.filter_filter] at ih ⊢
    rcases hmem : p.hasKeys env d && p.passes env d with _ | _
    · -- no key, so the document is passed over
      have hundef : Execution.soleKey env p k.expr d = .ok .undefined := by
        rw [hsole]
        split
        · rename_i hpass
          simp only [Bool.and_eq_true, Bool.not_eq_true'] at hpass
          simp only [hhas, hpass.1, hpass.2, Bool.or_false, Bool.and_true, Bool.not_eq_false']
            at hmem
          cases hv : k.expr.valueOn env d <;> simp_all [Value.isUndefined]
        · rfl
      rw [List.filter_cons_of_neg (by simp [hmem]), ← ih hl.2]
      simp [Selector.keyed, hundef]
    · simp only [Bool.and_eq_true, hhas, Bool.not_eq_true', Bool.or_eq_false_iff] at hmem
      have hdef : Execution.soleKey env p k.expr d = .ok (k.expr.valueOn env d) := by
        rw [hsole]
        simp [hmem]
      have hne : k.expr.valueOn env d ≠ .undefined := fun hu => by
        simp [hu, Value.isUndefined] at hmem
      rw [Selector.keyed_cons hdef hne, ih hl.2, List.filter_cons_of_pos (by simp [hhas, hmem])]
      rfl

lemma smallest_eq (he : p.Evaluates env ds) (h : p.Comparable env ds)
    {k : SortKey} (hk : p.order = [k]) (hasc : k.descending = .bool false) {n : Int}
    (hn : p.limit = .int n) :
    (Execution.smallest env p k.expr ds).outcome =
      .ok ((((ds.filter (p.passes env)).filter (p.hasKeys env)).mergeSort
        (ordersBy env p.order)).take n.toNat) := by
  have hkm : k ∈ p.order := by simp [hk]
  obtain ⟨K, hK, hkeys⟩ := h k hkm
  have hin : Selector.KeysIn K (Execution.soleKey env p k.expr) ds := by
    intro d hd v hv hne
    rw [soleKey_eq he hkm hd] at hv
    split at hv
    · rename_i hpass
      cases hv
      refine hkeys d hd hne fun hnull => ?_
      simp [hnull, Value.isNull] at hpass
    · cases hv
      exact absurd rfl hne
  have hsel := Selector.select_eq hK n.toNat hin fun d hd => ⟨_, soleKey_eq he hkm hd⟩
  have hcount : Selector.selectCount (Execution.soleKey env p k.expr) p.limit ds =
      Selector.select (Execution.soleKey env p k.expr) (.upTo n.toNat) ds := by
    rw [hn, Selector.selectCount, Selector.ofValue_int]
  have horder : ordersBy env p.order = fun a b =>
      (k.expr.valueOn env a).atMost (k.expr.valueOn env b) := by
    funext a b
    simp [hk, ordersBy, lexicographic, SortKey.orders, hasc, Value.isTrue]
  have hmap := List.map_mergeSort (f := fun d => (k.expr.valueOn env d, d))
    (l := (ds.filter (p.passes env)).filter (p.hasKeys env))
    (r := fun a b => (k.expr.valueOn env a).atMost (k.expr.valueOn env b))
    (s := fun a b => a.1.atMost b.1) fun _ _ _ _ => rfl
  simp only [Execution.smallest, hcount, hsel, keyed_soleKey he hk, ← hmap, horder, List.map_take,
    List.map_map]
  simp [Function.comp_def]

/-! ### Strategies -/

/-- The number of rows at which a plan is cut. -/
def cutAt (p : Plan) : Option Nat :=
  match p.limit with
  | .int n => some n.toNat
  | _ => none

lemma rowCount_eq (hp : p.Declared) (hpos : ∀ n : Int, p.limit = .int n → 0 < n) :
    rowCount p.limit = .ok p.cutAt := by
  rcases hp.limit with hnull | ⟨n, hn, hmax⟩
  · simp [hnull, rowCount, cutAt, Value.isNull]
  · have := hpos n hn
    have hnot : ¬(n < 0 ∨ greatestCount < n) := by omega
    simp [hn, rowCount, cutAt, Value.isNull, Value.index?, hnot]

lemma limited_eq (hp : p.Declared) (l : List Value) : p.limited l = p.cutAt.elim l l.take := by
  rcases hp.limit with hnull | ⟨n, hn, -⟩
  · simp [limited, cutAt, hnull]
  · have hmax : (max n 0).toNat = n.toNat := by omega
    simp [limited, cutAt, hn, hmax]

/-- A run of a plan that has started, ready to yield the reference answer. -/
structure Ready (env : Environment) (p : Plan) (ds : List Value) (x : Execution) : Prop where
  yields : Execution.Yields env x (p.answer env ds) none
  enough : (p.answer env ds).length ≤ x.remaining

lemma ready_of_delivering (hp : p.Declared) (hl : p.Labelled) (he : p.Evaluates env ds)
    {x : Execution} {l : List Value} (hx : x.plan = p) (hphase : x.phase = .delivering l)
    (hl' : p.limited (p.arranged env (ds.filter (p.passes env))) = l) : p.Ready env ds x := by
  have hmem : ∀ d ∈ l, d ∈ ds := by
    intro d hd
    rw [← hl', limited_eq hp] at hd
    have harr : d ∈ p.arranged env (ds.filter (p.passes env)) := by
      cases hc : p.cutAt with
      | none => simpa [hc] using hd
      | some n =>
        rw [hc] at hd
        exact List.mem_of_mem_take hd
    unfold arranged at harr
    split at harr
    · exact (List.mem_filter.mp harr).1
    · exact (List.mem_filter.mp (List.mem_filter.mp (List.mem_mergeSort.mp harr)).1).1
  have hyields : Execution.Yields env x _ _ := Execution.yields_delivering hphase
  rw [hx, shown_eq he hp hl hmem] at hyields
  refine ⟨by rwa [answer, hl'], ?_⟩
  rw [answer, hl', Execution.remaining, hphase, List.length_map]

lemma ready_of_streaming (hp : p.Declared) (hl : p.Labelled) (he : p.Evaluates env ds)
    {x : Execution} (hx : x.plan = p) (hphase : x.phase = .streaming ds p.cutAt)
    (horder : p.order = []) : p.Ready env ds x := by
  have hyields : Execution.Yields env x _ _ := Execution.yields_streaming hphase
  rw [hx, scanned_eq he hp hl fun _ hd => hd] at hyields
  have hanswer : p.answer env ds =
      (p.cutAt.elim (ds.filter (p.passes env)) (ds.filter (p.passes env)).take).map
        (p.shownRow env) := by
    simp only [answer, arranged, horder, limited_eq hp]
  refine ⟨by rwa [hanswer], ?_⟩
  rw [hanswer, Execution.remaining, hphase, List.length_map]
  have hlen := List.length_filter_le (p.passes env) ds
  cases p.cutAt with
  | none => exact hlen
  | some n =>
    simp only [Option.elim_some, List.length_take]
    omega

lemma arranged_eq (hne : p.order ≠ []) (l : List Value) :
    p.arranged env l = (l.filter (p.hasKeys env)).mergeSort (ordersBy env p.order) := by
  unfold arranged
  split
  · contradiction
  · rfl

lemma start_empty (hp : p.Declared) (hl : p.Labelled) (he : p.Evaluates env ds)
    (hs : p.strategy = .ok .empty) {n : Int} (hn : p.limit = .int n) (hle : n ≤ 0) :
    ∃ x, (p.waiting ds).start env store = (x, none) ∧ p.Ready env ds x := by
  refine ⟨{ plan := p, phase := .delivering [] }, ?_, ready_of_delivering hp hl he rfl rfl ?_⟩
  · simp only [Execution.start, waiting, hs, Execution.startAs]
  · have hzero : (max n 0).toNat = 0 := by omega
    simp [limited, hn, hzero]

lemma start_stream (hp : p.Declared) (hl : p.Labelled) (he : p.Evaluates env ds)
    (hs : p.strategy = .ok .stream) (hpos : ∀ n : Int, p.limit = .int n → 0 < n)
    (horder : p.order = []) :
    ∃ x, (p.waiting ds).start env store = (x, none) ∧ p.Ready env ds x := by
  refine ⟨{ plan := p, phase := .streaming ds p.cutAt }, ?_,
    ready_of_streaming hp hl he rfl rfl horder⟩
  simp only [Execution.start, waiting, hs, Execution.startAs, rowCount_eq hp hpos,
    Execution.startOn, Execution.openSource]

lemma exists_deliver (hp : p.Declared) (hl : p.Labelled) (he : p.Evaluates env ds)
    {pass : Pass (Except Error (List Value))}
    (hpass : pass.outcome = .ok (p.limited (p.arranged env (ds.filter (p.passes env))))) :
    ∃ x, (p.waiting ds).deliver env pass = (x, none) ∧ p.Ready env ds x :=
  ⟨{ p.waiting ds with
      scanned := (p.waiting ds).scanned + pass.pulled
      phase := .delivering (p.limited (p.arranged env (ds.filter (p.passes env)))) },
    by simp only [Execution.deliver, hpass], ready_of_delivering hp hl he rfl rfl rfl⟩

lemma start_topK (hp : p.Declared) (hl : p.Labelled) (he : p.Evaluates env ds)
    (h : p.Comparable env ds) (hs : p.strategy = .ok .topK) {k : SortKey} (hk : p.order = [k])
    (hasc : k.descending = .bool false) {n : Int} (hn : p.limit = .int n) :
    ∃ x, (p.waiting ds).start env store = (x, none) ∧ p.Ready env ds x := by
  have hstart : (p.waiting ds).start env store =
      (p.waiting ds).deliver env (Execution.smallest env p k.expr ds) :=
    Execution.start_of_topK env rfl hs hk rfl
  rw [hstart]
  refine exists_deliver hp hl he ?_
  rw [smallest_eq he h hk hasc hn, arranged_eq (by simp [hk]), limited_eq hp]
  simp [cutAt, hn]

lemma start_sort (hp : p.Declared) (hl : p.Labelled) (he : p.Evaluates env ds)
    (h : p.Comparable env ds) (hs : p.strategy = .ok .sort)
    (hpos : ∀ n : Int, p.limit = .int n → 0 < n) (hne : p.order ≠ []) :
    ∃ x, (p.waiting ds).start env store = (x, none) ∧ p.Ready env ds x := by
  have hstart : (p.waiting ds).start env store =
      (p.waiting ds).deliver env (Execution.cut p.limit (Execution.sorted env p ds)) :=
    Execution.start_of_sort env rfl hs rfl
  rw [hstart]
  refine exists_deliver hp hl he ?_
  simp only [Execution.cut, sorted_eq hp he h, rowCount_eq hp hpos, Bind.bind, Except.bind,
    limited_eq hp, arranged_eq hne]
  rfl

lemma Declared.typed (hp : p.Declared) : p.Typed where
  limit := hp.limit.imp_right fun ⟨n, hn, _⟩ => ⟨n, hn⟩
  descending := hp.descending

/-- A plan of the declared types has a strategy. -/
lemma strategy_eq (hp : p.Typed) :
    p.strategy = .ok (
      if p.limit.isNull then if p.order.isEmpty then .stream else .sort
      else if p.cutAt = some 0 then .empty
      else match p.order with
        | [] => .stream
        | [k] => if k.descending.isTrue then .sort else .topK
        | _ => .sort) := by
  rcases hp.limit with hnull | ⟨n, hn⟩
  · rcases horder : p.order with _ | ⟨k, _ | ⟨k', keys⟩⟩
    · simp [strategy, hnull, Value.isNull, horder, pure, Except.pure]
    · obtain ⟨b, hb⟩ := hp.descending k (by simp [horder])
      cases b <;> simp [strategy, hnull, Value.isNull, horder, hb, Value.truthy, Bind.bind,
        Except.bind, pure, Except.pure]
    · simp [strategy, hnull, Value.isNull, horder, pure, Except.pure]
  · have hzero : n.toNat = 0 ↔ n ≤ 0 := by omega
    by_cases hle : n ≤ 0
    · simp [strategy, hn, Value.isNull, Value.relate_le_int, cutAt, hzero, hle, Bind.bind,
        Except.bind, pure, Except.pure]
    · rcases horder : p.order with _ | ⟨k, _ | ⟨k', keys⟩⟩
      · simp [strategy, hn, Value.isNull, Value.relate_le_int, cutAt, hzero, hle, horder, Bind.bind,
          Except.bind, pure, Except.pure]
      · obtain ⟨b, hb⟩ := hp.descending k (by simp [horder])
        cases b <;> simp [strategy, hn, Value.isNull, Value.relate_le_int, cutAt, hzero, hle,
          horder, hb, Value.truthy, Value.isTrue, Bind.bind, Except.bind, pure, Except.pure]
      · simp [strategy, hn, Value.isNull, Value.relate_le_int, cutAt, hzero, hle, horder, Bind.bind,
          Except.bind, pure, Except.pure]

/-- **Strategies**: however a run starts, it is ready to yield the reference answer. -/
theorem exists_start (store : Store) (hp : p.Declared) (hl : p.Labelled) (he : p.Evaluates env ds)
    (h : p.Comparable env ds) :
    ∃ x, (p.waiting ds).start env store = (x, none) ∧ p.Ready env ds x := by
  have hs := strategy_eq hp.typed
  rcases hp.limit with hnull | ⟨n, hn, -⟩
  · have hpos : ∀ n : Int, p.limit = .int n → 0 < n := by simp [hnull]
    rcases horder : p.order with _ | ⟨k, keys⟩
    · exact start_stream hp hl he (by simpa [hnull, Value.isNull, horder] using hs) hpos horder
    · exact start_sort hp hl he h (by simpa [hnull, Value.isNull, horder] using hs) hpos
        (by simp [horder])
  · simp only [hn, Value.isNull, Bool.false_eq_true, if_false, cutAt, Option.some.injEq] at hs
    by_cases hle : n ≤ 0
    · rw [if_pos (by omega)] at hs
      exact start_empty hp hl he hs hn hle
    · have hpos : ∀ m : Int, p.limit = .int m → 0 < m := by
        intro m hm
        rw [hn] at hm
        cases hm
        omega
      rw [if_neg (by omega)] at hs
      rcases horder : p.order with _ | ⟨k, _ | ⟨k', keys⟩⟩
      · exact start_stream hp hl he (by simpa [horder] using hs) hpos horder
      · rcases hp.descending k (by simp [horder]) with ⟨b, hb⟩
        cases b
        · exact start_topK hp hl he h (by simpa [horder, hb, Value.isTrue] using hs) horder hb hn
        · exact start_sort hp hl he h (by simpa [horder, hb, Value.isTrue] using hs) hpos
            (by simp [horder])
      · exact start_sort hp hl he h (by simpa [horder] using hs) hpos (by simp [horder])

/-- **Execution**: whatever the strategy, the rows of a plan are its reference answer. -/
theorem execute_fetch {params : Params} {b : Plan} (hp : p.Declared)
    (hb : p.bind env params = .ok b) (he : b.Evaluates env ds) (hc : b.Comparable env ds) :
    ∃ c, p.execute env params (some (.documents ds)) = .ok c ∧
      (c.fetch env store none).2 = .ok (b.answer env ds) := by
  obtain ⟨hd, hl⟩ := hp.bind hb
  obtain ⟨x, hx, hready⟩ := exists_start store hd hl he hc
  refine ⟨.ofPlan b (.documents ds), ?_, Cursor.fetch_of_yields hx hready.yields hready.enough⟩
  simp only [execute, hb, Bind.bind, Except.bind]
  rfl

/-! ### Ties and missing keys -/

/-- A document with a name and a size. -/
def sized (name : String) (size : Int) : Value :=
  .object [("name", .text name), ("size", .int size)]

def tiedSizes : List Value :=
  [sized "b" 1, sized "a" 2, .object [("name", .text "c")], sized "d" 2, sized "a" 1, sized "e" 7]

/-- The three largest, by name where sizes are equal, but for one name. -/
def largestThree : Plan :=
  { predicate := some (.compare (.unequal false) (.field "name") (.literal (.text "e")))
    order := [{ expr := .field "size", descending := .bool true }, { expr := .field "name" }]
    limit := .int 3
    columns := some [{ expr := .field "name" }, { expr := .field "size", givenName := .text "s" }] }

lemma declared_largestThree : largestThree.Declared where
  limit := .inr ⟨3, rfl, by decide⟩
  descending := by simp [largestThree]
  givenName := by simp [largestThree]

lemma bind_largestThree : largestThree.bind {} [] = .ok largestThree := rfl

lemma evaluates_largestThree : largestThree.Evaluates {} tiedSizes where
  predicate := by
    rintro e ⟨⟩ d hd
    simp only [tiedSizes, List.mem_cons, List.not_mem_nil, or_false] at hd
    rcases hd with rfl | rfl | rfl | rfl | rfl | rfl <;> exact ⟨_, rfl⟩
  keys := by
    intro k hk d hd
    simp only [largestThree, tiedSizes, List.mem_cons, List.not_mem_nil, or_false] at hk hd
    rcases hk with rfl | rfl <;> rcases hd with rfl | rfl | rfl | rfl | rfl | rfl <;> exact ⟨_, rfl⟩
  columns := by
    rintro columns ⟨⟩ c hc d hd
    simp only [tiedSizes, List.mem_cons, List.not_mem_nil, or_false] at hc hd
    rcases hc with rfl | rfl <;> rcases hd with rfl | rfl | rfl | rfl | rfl | rfl <;> exact ⟨_, rfl⟩

lemma comparable_largestThree : largestThree.Comparable {} tiedSizes := by
  intro k hk
  simp only [largestThree, List.mem_cons, List.not_mem_nil, or_false] at hk
  rcases hk with rfl | rfl
  · refine ⟨_, Value.orderedKeys_isPlaced, fun d hd hne _ => ?_⟩
    simp only [tiedSizes, List.mem_cons, List.not_mem_nil, or_false] at hd
    rcases hd with rfl | rfl | rfl | rfl | rfl | rfl
    all_goals first | exact absurd rfl hne | exact ⟨_, _, rfl, rfl⟩
  · refine ⟨_, Value.orderedKeys_isText, fun d hd _ _ => ?_⟩
    simp only [tiedSizes, List.mem_cons, List.not_mem_nil, or_false] at hd
    rcases hd with rfl | rfl | rfl | rfl | rfl | rfl <;> exact ⟨_, rfl⟩

lemma answer_largestThree : largestThree.answer {} tiedSizes =
    [.object [("name", .text "a"), ("s", .int 2)], .object [("name", .text "d"), ("s", .int 2)],
      .object [("name", .text "a"), ("s", .int 1)]] := by
  have hsize : ∀ s i, (Expr.field "size").valueOn {} (sized s i) = .int i := fun _ _ => rfl
  have hname : ∀ s i, (Expr.field "name").valueOn {} (sized s i) = .text s := fun _ _ => rfl
  have hkept : (tiedSizes.filter (largestThree.passes {})).filter (largestThree.hasKeys {}) =
      [sized "b" 1, sized "a" 2, sized "d" 2, sized "a" 1] := rfl
  have harranged : largestThree.arranged {} (tiedSizes.filter (largestThree.passes {})) =
      [sized "a" 2, sized "d" 2, sized "a" 1, sized "b" 1] := by
    rw [arranged_eq (by simp [largestThree]), hkept]
    simp [largestThree, ordersBy, lexicographic, SortKey.orders, Value.isTrue, hsize, hname,
      Value.atMost_int, Value.atMost_text, Text.compareText, Text.compareCodes, List.mergeSort,
      List.cons_merge_cons]
    rfl
  rw [answer, harranged]
  rfl

theorem execute_fetch_largestThree :
    largestThree.Declared ∧ largestThree.bind {} [] = .ok largestThree ∧
      largestThree.Evaluates {} tiedSizes ∧ largestThree.Comparable {} tiedSizes ∧
      ∃ c, largestThree.execute {} [] (some (.documents tiedSizes)) = .ok c ∧
        (c.fetch {} {} none).2 =
          .ok [.object [("name", .text "a"), ("s", .int 2)],
            .object [("name", .text "d"), ("s", .int 2)],
            .object [("name", .text "a"), ("s", .int 1)]] := by
  refine ⟨declared_largestThree, bind_largestThree, evaluates_largestThree,
    comparable_largestThree, ?_⟩
  obtain ⟨c, hc, hfetch⟩ : ∃ c,
      largestThree.execute {} [] (some (.documents tiedSizes)) = .ok c ∧
        (c.fetch {} {} none).2 = .ok (largestThree.answer {} tiedSizes) :=
    execute_fetch declared_largestThree bind_largestThree evaluates_largestThree
      comparable_largestThree
  exact ⟨c, hc, by rw [hfetch, answer_largestThree]⟩

end Plan

end

end NearDoc
