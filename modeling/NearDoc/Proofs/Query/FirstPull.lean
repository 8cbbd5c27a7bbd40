import NearDoc.Proofs.Near.Failure
import NearDoc.Proofs.Query.Lifecycle

/-!
How the first pull of an ordered plan fails. With one ascending key a plan without a limit is sorted
and one with a limit keeps the smallest keys; either way every document is read in scan order before
the first row is there. Main statement: what the first document that cannot be read raises is what
the first pull raises, but for a type error under a limit, which is told as keys that cannot be
compared; and that is told else only of two keys that cannot be.
-/

namespace NearDoc

open scoped List

namespace Plan

open Execution

/-- Reading a document fails: the predicate does on it, or a sort key on a document admitted. -/
inductive Fails (env : Environment) (p : Plan) (d : Value) (e : Error) : Prop where
  | predicate (h : admitted env p d = .error e)
  | key {k : SortKey} (hadmitted : admitted env p d = .ok true) (hk : k ∈ p.order)
      (h : k.expr.eval env d = .error e)

/-- The first sort key of a document, if the document is admitted and has its sort keys. -/
def keyOf? (env : Environment) (p : Plan) (d : Value) : Option Value :=
  match keyed? env p d with
  | .ok (some (v :: _, _)) => some v
  | _ => none

/-- What a pull raises for a failure of reading a document: under a limit a type error, but for
those of vectors, is taken for one of comparing keys. -/
def raised (p : Plan) (e : Error) : Error :=
  if !p.limit.isNull && e.errorClass.isA .typeError && !e.errorClass.isA .vector then
    .keysNotComparable
  else e

/-- What reading a document comes to, for a plan with one key. -/
inductive Reading (env : Environment) (p : Plan) (k : Expr) (d : Value) : Prop where
  | fails {e : Error} (h : p.Fails env d e) (hkeyed : keyed? env p d = .error e)
      (hsole : soleKey env p k d = .error e)
  | passes (hkeyed : keyed? env p d = .ok none) (hsole : soleKey env p k d = .ok .undefined)
  | keyed {v : Value} (hv : v ≠ .undefined) (hkeyed : keyed? env p d = .ok (some ([v], d)))
      (hsole : soleKey env p k d = .ok v)

variable {env : Environment} {store : Store} {p : Plan} {k : SortKey} {d : Value} {e : Error}
variable {ds : List Value} {Q : Error → Prop}

/-! ### One document -/

lemma reading (hk : p.order = [k]) (env : Environment) (d : Value) : p.Reading env k.expr d := by
  have hmem : k ∈ p.order := by simp [hk]
  rcases hadm : admitted env p d with e | _ | _
  · exact .fails (.predicate hadm) (by simp [keyed?, hadm, Bind.bind, Except.bind])
      (by simp [soleKey, hadm, Bind.bind, Except.bind])
  · exact .passes (by simp [keyed?, hadm, Bind.bind, Except.bind, pure, Except.pure])
      (by simp [soleKey, hadm, Bind.bind, Except.bind, pure, Except.pure])
  · rcases hv : k.expr.eval env d with e | v
    · exact .fails (.key hadm hmem hv)
        (by simp [keyed?, hadm, hk, Expr.evalEach, hv, Bind.bind, Except.bind])
        (by simp [soleKey, hadm, hv, Bind.bind, Except.bind])
    · have hkeyed : keyed? env p d =
          .ok (if v.isUndefined || v.isNull then none else some ([v], d)) := by
        simp [keyed?, hadm, hk, Expr.evalEach, hv, Bind.bind, Except.bind, Except.map, pure,
          Except.pure]
      have hsole : soleKey env p k.expr d = .ok (if v.isNull then .undefined else v) := by
        simp [soleKey, hadm, hv, Bind.bind, Except.bind, pure, Except.pure]
      cases v with
      | undefined => exact .passes hkeyed hsole
      | null => exact .passes hkeyed hsole
      | _ => exact .keyed (by simp) hkeyed hsole

lemma Fails.keyed? (hk : p.order = [k]) (h : p.Fails env d e) :
    Execution.keyed? env p d = .error e := by
  cases h with
  | predicate hadm => simp [Execution.keyed?, hadm, Bind.bind, Except.bind]
  | key hadm hmem hv =>
    obtain rfl : _ = k := by simpa [hk] using hmem
    simp [Execution.keyed?, hadm, hk, Expr.evalEach, hv, Bind.bind, Except.bind]

lemma Fails.soleKey (hk : p.order = [k]) (h : p.Fails env d e) :
    Execution.soleKey env p k.expr d = .error e := by
  cases h with
  | predicate hadm => simp [Execution.soleKey, hadm, Bind.bind, Except.bind]
  | key hadm hmem hv =>
    obtain rfl : _ = k := by simpa [hk] using hmem
    simp [Execution.soleKey, hadm, hv, Bind.bind, Except.bind]

/-! ### All documents are sorted -/

/-- An entry for the sort, if the document has one. -/
def entryOf? (env : Environment) (p : Plan) (d : Value) : Option Keyed :=
  (Execution.keyed? env p d).toOption.join

/-- Every document is read before the keys are compared. -/
lemma pullKeyed_fails (hk : p.order = [k]) {before rest : List Value} (h : p.Fails env d e)
    (hbefore : ∀ d' ∈ before, ∀ e', ¬ p.Fails env d' e') :
    (pullKeyed env p (before ++ d :: rest)).outcome = .error e := by
  induction before with
  | nil =>
    rw [List.nil_append, pullKeyed, h.keyed? hk]
  | cons d' before ih =>
    obtain ⟨hd', hbefore⟩ := List.forall_mem_cons.mp hbefore
    have hrest := ih hbefore
    rw [List.cons_append, pullKeyed]
    cases reading hk env d' with
    | fails hfails => exact absurd hfails (hd' _)
    | passes hkeyed =>
      rw [hkeyed]
      exact congrArg (Except.map _) hrest
    | keyed _ hkeyed =>
      rw [hkeyed]
      exact congrArg (Except.map _) hrest

lemma pullKeyed_meets (hk : p.order = [k]) (h : ∀ d ∈ ds, ∀ e, p.Fails env d e → Q e) :
    Meets Q (fun entries => entries = ds.filterMap (p.entryOf? env))
      (pullKeyed env p ds).outcome := by
  induction ds with
  | nil => exact .of_ok rfl
  | cons d ds ih =>
    obtain ⟨hd, hds⟩ := List.forall_mem_cons.mp h
    rw [pullKeyed]
    cases reading hk env d with
    | fails hfails hkeyed =>
      rw [hkeyed]
      exact hd _ hfails
    | passes hkeyed =>
      have hnone : p.entryOf? env d = none := by simp [entryOf?, hkeyed, Except.toOption]
      rw [hkeyed, List.filterMap_cons_none hnone]
      exact (ih hds).map
    | @keyed v _ hkeyed =>
      have hsome : p.entryOf? env d = some ([v], d) := by simp [entryOf?, hkeyed, Except.toOption]
      rw [hkeyed, List.filterMap_cons_some hsome]
      exact ((ih hds).imp fun entries he => congrArg (([v], d) :: ·) he).map

lemma keys_entries (hk : p.order = [k]) (ds : List Value) :
    (ds.filterMap (p.entryOf? env)).map (keyAt 0) = ds.filterMap (p.keyOf? env) := by
  rw [List.map_filterMap]
  refine List.filterMap_congr fun d _ => ?_
  cases reading hk env d with
  | fails _ hkeyed | passes hkeyed => simp [entryOf?, keyOf?, hkeyed, Except.toOption]
  | keyed _ hkeyed => simp [entryOf?, keyOf?, hkeyed, Except.toOption, keyAt]

/-- A sort by an ascending key fails as the reading of a document does, or as the comparison of two
keys does, told as one of an order. -/
lemma sorted_meets (hk : p.order = [k]) (hasc : k.descending = .bool false)
    {Q' : Error → Prop} (hQ : ∀ e, Q' e → Q (asOrderError e))
    (h : ∀ d ∈ ds, ∀ e, p.Fails env d e → Q e)
    (hkeys : Value.Together Q' (ds.filterMap (p.keyOf? env))) :
    Meets Q (fun shown => shown ⊆ ds) (sorted env p ds).outcome := by
  refine (pullKeyed_meets hk h).bind fun entries hentries => ?_
  have hsort : sortFrom 0 p.order entries = Sort.sort (precedes 0) entries := by
    simp [hk, sortFrom, sortByKey, SortKey.isDescending, hasc, Value.index?, Bind.bind, Except.bind]
  have htogether : Sort.Together Q' (precedes 0) entries := by
    rw [← keys_entries hk, ← hentries] at hkeys
    refine (List.pairwise_map.mp hkeys).imp fun {a b} hab => ⟨fun e he => ?_, fun e he => ?_⟩
    · exact hab e (.inl (.inr he))
    · exact hab e (.inr (.inr he))
  have hmeets := Sort.sort_meets htogether
  rw [hsort]
  split
  · rename_i sortedEntries hok
    refine .of_ok fun d hd => ?_
    obtain ⟨entry, hentry, rfl⟩ := List.mem_map.mp hd
    have hin : entry ∈ ds.filterMap (p.entryOf? env) :=
      hentries ▸ (hmeets.ok hok).subset hentry
    obtain ⟨d', hd', hsome⟩ := List.mem_filterMap.mp hin
    cases reading hk env d' with
    | fails _ hkeyed | passes hkeyed => simp [entryOf?, hkeyed, Except.toOption] at hsome
    | keyed _ hkeyed =>
      obtain rfl : (_, d') = entry := by simpa [entryOf?, hkeyed, Except.toOption] using hsome
      exact hd'
  · rename_i e hfail
    exact hQ e (hmeets.error hfail)

/-! ### The smallest keys are kept -/

lemma ranked?_soleKey (hk : p.order = [k]) (env : Environment) (d : Value) :
    Selector.ranked? (soleKey env p k.expr) d = (p.keyOf? env d).map fun v => (v, d) := by
  cases reading hk env d with
  | fails _ hkeyed hsole | passes hkeyed hsole => simp [Selector.ranked?, keyOf?, hkeyed, hsole]
  | keyed hv hkeyed hsole =>
    simp only [Selector.ranked?, keyOf?, hkeyed, hsole, Option.map_some]

lemma keys_ranked (hk : p.order = [k]) (ds : List Value) :
    (ds.filterMap (Selector.ranked? (soleKey env p k.expr))).map Prod.fst =
      ds.filterMap (p.keyOf? env) := by
  rw [List.map_filterMap]
  refine List.filterMap_congr fun d _ => ?_
  rw [ranked?_soleKey hk, Option.map_map]
  exact Option.map_id_apply

/-- A key that cannot be read is that of a document whose reading fails. -/
lemma fails_of_soleKey (hk : p.order = [k]) (h : soleKey env p k.expr d = .error e) :
    p.Fails env d e := by
  cases reading hk env d with
  | fails hfails _ hsole =>
    cases hsole.symm.trans h
    exact hfails
  | passes _ hsole | keyed _ _ hsole => cases hsole.symm.trans h

lemma selectCount_eq {n : Int} (hn : p.limit = .int n) (ds : List Value) :
    Selector.selectCount (soleKey env p k.expr) p.limit ds =
      Selector.select (soleKey env p k.expr) (.upTo n.toNat) ds := by
  rw [hn, Selector.selectCount, Selector.ofValue_int]

/-- What stops the reading stops the selection, if the keys read before it compare. -/
lemma smallest_fails (hk : p.order = [k]) {n : Int} (hn : p.limit = .int n) (hpos : 1 ≤ n)
    {before rest : List Value} (h : p.Fails env d e)
    (hbefore : ∀ d' ∈ before, ∀ e', ¬ p.Fails env d' e')
    (hkeys : Value.Together (fun _ => False) (before.filterMap (p.keyOf? env))) :
    (smallest env p k.expr (before ++ d :: rest)).outcome = .error (asOrderError e) := by
  have hroom : n.toNat ≠ 0 := by omega
  have hread : ∀ d' ∈ before, ∀ e', soleKey env p k.expr d' ≠ .error e' := fun d' hd' e' he' =>
    hbefore d' hd' e' (fails_of_soleKey hk he')
  rw [← keys_ranked hk] at hkeys
  rw [smallest, selectCount_eq hn, Selector.select_stops hroom hread hkeys (h.soleKey hk)]

/-- A selection by an ascending key fails as the reading of a document or the comparison of two keys
does, told as one of an order. -/
lemma smallest_meets (hk : p.order = [k]) {n : Int} (hn : p.limit = .int n)
    {Q' : Error → Prop} (hQ : ∀ e, Q' e → Q (asOrderError e))
    (h : ∀ d ∈ ds, ∀ e, p.Fails env d e → Q' e)
    (hkeys : Value.Together Q' (ds.filterMap (p.keyOf? env))) :
    Meets Q (fun shown => shown ⊆ ds) (smallest env p k.expr ds).outcome := by
  have hselect := Selector.select_meets
    (fun d hd e he => h d hd e (fails_of_soleKey hk he)) (by rwa [keys_ranked hk])
    (.upTo n.toNat) nofun
  rw [smallest, selectCount_eq hn]
  dsimp only
  split
  · rename_i ranked hok
    refine .of_ok fun d hd => ?_
    obtain ⟨pair, hpair, rfl⟩ := List.mem_map.mp hd
    obtain ⟨d', hd', hsome⟩ := List.mem_filterMap.mp ((hselect.ok hok).subset hpair)
    rw [ranked?_soleKey hk] at hsome
    obtain ⟨v, -, rfl⟩ := Option.map_eq_some_iff.mp hsome
    exact hd'
  · rename_i e hfail
    exact hQ e (hselect.error hfail)

/-! ### The first pull -/

/-- A run that has started fails as it yields. -/
lemma eq_of_collect_error {x : Execution} {rows : List Value} {failure : Option Error}
    (h : Yields env x rows failure) {fuel : Nat} {wanted : Option Nat}
    (he : (collect env fuel wanted x).2 = .error e) : failure = some e := by
  induction fuel generalizing x rows wanted with
  | zero => cases he
  | succ fuel ih =>
    by_cases hwanted : wanted = some 0
    · subst hwanted
      cases he
    · rw [collect_succ env fuel x hwanted] at he
      cases h with
      | done hadv => simp [hadv] at he
      | failed hadv => simpa [hadv] using he
      | row hadv hrest =>
        rw [hadv] at he
        dsimp only at he
        generalize hb : collect env fuel _ _ = b at he
        obtain ⟨x', e' | rs⟩ := b
        · obtain rfl : e' = e := Except.error.inj he
          exact ih hrest (congrArg Prod.snd hb)
        · cases he

/-- Documents in their final order fail to be shown only as one of them does. -/
lemma exists_row_of_shown (h : (p.shown env ds).failure = some e) :
    ∃ d ∈ ds, row env p d = .error e := by
  induction ds with
  | nil => cases h
  | cons d ds ih =>
    rw [shown] at h
    split at h
    · rename_i e' hrow
      obtain rfl : e' = e := Option.some.inj h
      exact ⟨d, by simp, hrow⟩
    · obtain ⟨d', hd', hrow⟩ := ih h
      exact ⟨d', by simp [hd'], hrow⟩

/-- All documents in the order of a plan with one key, cut at its limit. -/
def ordering (env : Environment) (p : Plan) (k : SortKey) (ds : List Value) :
    Pass (Except Error (List Value)) :=
  if p.limit.isNull then cut p.limit (sorted env p ds) else smallest env p k.expr ds

/-- A limit that is not there or leaves room for a row. -/
def AdmitsRow (p : Plan) : Prop := p.limit = .null ∨ ∃ n : Int, 1 ≤ n ∧ p.limit = .int n

lemma start_ordering {source : Source} (hk : p.order = [k]) (hasc : k.descending = .bool false)
    (hlimit : p.AdmitsRow) (hopen : (openSource store source).1 = .ok ds) (env : Environment) :
    ({ plan := p, phase := .waiting source } : Execution).start env store =
      ({ plan := p, phase := .waiting source } : Execution).deliver env (p.ordering env k ds) := by
  have htyped : p.Typed := by
    refine ⟨hlimit.imp_right fun ⟨n, _, hn⟩ => ⟨n, hn⟩, fun k' hk' => ?_⟩
    obtain rfl : k' = k := by simpa [hk] using hk'
    exact ⟨false, hasc⟩
  have hstrategy := strategy_eq htyped
  rcases hlimit with hnull | ⟨n, hpos, hn⟩
  · simp only [hnull, Value.isNull, hk, if_true, List.isEmpty_cons, Bool.false_eq_true,
      if_false] at hstrategy
    rw [ordering, if_pos (by rw [hnull]; rfl)]
    exact start_of_sort env rfl hstrategy hopen
  · have hcut : p.cutAt ≠ some 0 := by
      simp only [cutAt, hn, ne_eq, Option.some.injEq]
      omega
    simp only [hn, Value.isNull, hk, hasc, Value.isTrue, hcut, Bool.false_eq_true,
      if_false] at hstrategy
    rw [ordering, if_neg (by simp [hn, Value.isNull])]
    exact start_of_topK env rfl hstrategy hk hopen

/-- The first pull of a run that brings documents into order raises what that fails with, and else
only what the rows do that are shown. -/
lemma perform_of_deliver {source : Source} {step : Cursor.Step} {wanted : Option Nat}
    {pass : Pass (Except Error (List Value))} (hstep : step.wanted? = some wanted)
    (hstart : ({ plan := p, phase := .waiting source } : Execution).start env store =
      ({ plan := p, phase := .waiting source } : Execution).deliver env pass) :
    match pass.outcome with
    | .error e => ((Cursor.ofPlan p source).perform env store step).2 = .error e
    | .ok shown => ∀ e, ((Cursor.ofPlan p source).perform env store step).2 = .error e →
        ∃ d ∈ shown, row env p d = .error e := by
  have hne := Cursor.wanted?_ne_zero hstep
  rw [Cursor.perform_of_wanted hstep]
  simp only [Cursor.fetch, Cursor.ofPlan, Bool.false_or, hne, decide_false, Bool.false_eq_true,
    if_false, hstart, deliver]
  rcases pass.outcome with e | shown
  · rfl
  · exact fun e he => exists_row_of_shown (eq_of_collect_error (yields_delivering rfl) he)

/-- A plan with one ascending key has one when it is bound. -/
lemma order_of_bind {b : Plan} {params : Params} {key : Expr} (hp : p.order = [{ expr := key }])
    (hbind : p.bind env params = .ok b) : ∃ key', b.order = [{ expr := key' }] := by
  have hdirections := (kept_of_bind hbind).2
  rw [hp, List.forall₂_cons_left_iff] at hdirections
  obtain ⟨⟨key', descending⟩, rest, hsame, hrest, horder⟩ := hdirections
  cases hsame
  rw [List.forall₂_nil_left_iff.mp hrest] at horder
  exact ⟨key', horder⟩

lemma raised_of_null (h : p.limit = .null) (e : Error) : p.raised e = e := by
  simp [raised, h, Value.isNull]

lemma raised_of_int {n : Int} (h : p.limit = .int n) (e : Error) :
    p.raised e = asOrderError e := by
  simp [raised, h, Value.isNull, asOrderError]

/-- The ordering stops at the first document that cannot be read. -/
lemma ordering_fails (hk : p.order = [k]) (hlimit : p.AdmitsRow) {before rest : List Value}
    (h : p.Fails env d e) (hbefore : ∀ d' ∈ before, ∀ e', ¬ p.Fails env d' e')
    (hkeys : Value.Together (fun _ => False) (before.filterMap (p.keyOf? env))) :
    (p.ordering env k (before ++ d :: rest)).outcome = .error (p.raised e) := by
  rcases hlimit with hnull | ⟨n, hpos, hn⟩
  · have hsorted : (sorted env p (before ++ d :: rest)).outcome = .error e := by
      simp only [sorted, pullKeyed_fails hk h hbefore, Except.bind]
    rw [raised_of_null hnull]
    simp only [ordering, hnull, Value.isNull, if_true, cut, hsorted]
    rfl
  · rw [raised_of_int hn]
    simp only [ordering, hn, Value.isNull, Bool.false_eq_true, if_false]
    exact smallest_fails hk hn hpos h hbefore hkeys

/-- The ordering tells of keys that cannot be compared only if there are some, or if the reading of
a document comes to that, and it shows only documents that it was given. -/
lemma ordering_meets (hk : p.order = [k]) (hasc : k.descending = .bool false) (hlimit : p.AdmitsRow)
    (h : ∀ d ∈ ds, ∀ e, p.Fails env d e → p.raised e ≠ .keysNotComparable)
    (hkeys : Value.Together (fun e => asOrderError e ≠ .keysNotComparable)
      (ds.filterMap (p.keyOf? env))) :
    Meets (· ≠ .keysNotComparable) (fun shown => shown ⊆ ds) (p.ordering env k ds).outcome := by
  rcases hlimit with hnull | ⟨n, -, hn⟩
  · simp only [raised_of_null hnull] at h
    have hsorted := sorted_meets (Q := (· ≠ .keysNotComparable)) hk hasc (fun _ he => he) h hkeys
    simp only [ordering, hnull, Value.isNull, if_true, cut]
    exact hsorted.bind fun shown hshown => hshown
  · simp only [raised_of_int hn] at h
    simp only [ordering, hn, Value.isNull, Bool.false_eq_true, if_false]
    exact smallest_meets hk hn (fun _ he => he) h hkeys

/-- **The first pull** of a plan with one ascending key raises what the first document raises that
cannot be read, if the keys read before it compare; under a limit it takes a type error that is none
of vectors for keys that cannot be compared. It tells of such keys else only where the comparison of
two documents' keys is told so, or the reading or the showing of a document itself is. -/
theorem execute_firstPull {b : Plan} {params : Params} {source : Source} {key : Expr} {c : Cursor}
    {step : Cursor.Step} {wanted : Option Nat} (horder : p.order = [{ expr := key }])
    (hlimit : p.AdmitsRow) (hbind : p.bind env params = .ok b)
    (hc : p.execute env params (some source) = .ok c)
    (hopen : (openSource store source).1 = .ok ds) (hstep : step.wanted? = some wanted) :
    (∀ before d rest e, ds = before ++ d :: rest → b.Fails env d e →
      (∀ d' ∈ before, ∀ e', ¬ b.Fails env d' e') →
      (∀ k k' e', [k, k'] <+ before.filterMap (b.keyOf? env) → ¬ k.Clash k' e') →
      (c.perform env store step).2 = .error (b.raised e)) ∧
    ((c.perform env store step).2 = .error .keysNotComparable →
      (∃ k k' e, [k, k'] <+ ds.filterMap (b.keyOf? env) ∧ k.Clash k' e ∧
        asOrderError e = .keysNotComparable) ∨
      (∃ d ∈ ds, ∃ e, b.Fails env d e ∧ b.raised e = .keysNotComparable) ∨
      ∃ d ∈ ds, row env b d = .error .keysNotComparable) := by
  obtain ⟨b', hbind', hb'⟩ := bind_eq_ok.mp hc
  obtain rfl : b = b' := Except.ok.inj (hbind.symm.trans hbind')
  obtain rfl : Cursor.ofPlan b source = c := Except.ok.inj hb'
  obtain ⟨key', hk⟩ := order_of_bind horder hbind
  have hleaves : b.AdmitsRow := by rwa [AdmitsRow, (kept_of_bind hbind).1]
  have hpull := perform_of_deliver hstep (start_ordering hk rfl hleaves hopen env)
  refine ⟨?_, fun htold => ?_⟩
  · rintro before d rest e rfl hfails hbefore hkeys
    have htogether : Value.Together (fun _ => False) (before.filterMap (b.keyOf? env)) :=
      List.pairwise_iff_forall_sublist.mpr fun hsub e' he' => hkeys _ _ e' hsub he'
    rw [ordering_fails hk hleaves hfails hbefore htogether] at hpull
    exact hpull
  · by_contra hnone
    obtain ⟨hclash, hread, hshow⟩ : (∀ k k' e, [k, k'] <+ ds.filterMap (b.keyOf? env) →
        k.Clash k' e → asOrderError e ≠ .keysNotComparable) ∧
        (∀ d ∈ ds, ∀ e, b.Fails env d e → b.raised e ≠ .keysNotComparable) ∧
        ∀ d ∈ ds, row env b d ≠ .error .keysNotComparable := by
      push Not at hnone
      exact hnone
    have hmeets := ordering_meets hk rfl hleaves hread
      (List.pairwise_iff_forall_sublist.mpr fun hsub e he => hclash _ _ e hsub he)
    rcases hordering : (b.ordering env { expr := key' } ds).outcome with e | shown
    · rw [hordering] at hpull
      have htold' : Except.error e = Except.error .keysNotComparable := hpull.symm.trans htold
      exact hmeets.error hordering (Except.error.inj htold')
    · rw [hordering] at hpull
      obtain ⟨d, hd, hrow⟩ := hpull _ htold
      exact hshow d (hmeets.ok hordering hd) hrow

/-- A metric that answers null, which is no distance. -/
def nullMetric : Environment := { metrics := Metrics.builtin.insert (.text "m") (.constant .null) }

def origin : Embedding := ⟨[.zero], by simp, by decide +kernel⟩

/-- A plan by the distance from a vector, and the plan with that distance prepared. -/
def byDistance (prepared : Option Prepared) (limit : Value) : Plan :=
  let arguments := [.field "v", .literal (.embedding origin), .literal (.text "m")]
  { order := [{ expr := .call (.distance true (.int 3)) arguments prepared }], limit }

/-- The failure of the metric is a type error: it is raised as it is without a limit, and taken for
one of comparing keys with a limit, though there is only one document. -/
theorem execute_firstPull_nullMetric :
    (∃ c, (byDistance none .null).execute nullMetric []
        (some (.documents [.object [("v", .embedding origin)]])) = .ok c ∧
      (c.perform nullMetric {} .next).2 = .error (.notRealNumber "NoneType")) ∧
    ∃ c, (byDistance none (.int 1)).execute nullMetric []
        (some (.documents [.object [("v", .embedding origin)]])) = .ok c ∧
      (c.perform nullMetric {} .next).2 = .error .keysNotComparable := by
  have hfails : ∀ limit, (byDistance (some (.ofField ⟨"v", origin, .constant .null⟩)) limit).Fails
      nullMetric (.object [("v", .embedding origin)]) (.notRealNumber "NoneType") :=
    fun limit => .key rfl List.mem_cons_self rfl
  have hpull : ∀ limit, (byDistance none limit).AdmitsRow →
      ∃ c, (byDistance none limit).execute nullMetric []
          (some (.documents [.object [("v", .embedding origin)]])) = .ok c ∧
        (c.perform nullMetric {} .next).2 = .error
          ((byDistance (some (.ofField ⟨"v", origin, .constant .null⟩)) limit).raised
            (.notRealNumber "NoneType")) := by
    intro limit hlimit
    have hbind : (byDistance none limit).bind nullMetric [] =
        .ok (byDistance (some (.ofField ⟨"v", origin, .constant .null⟩)) limit) := rfl
    have hopen : (openSource {} (.documents [.object [("v", .embedding origin)]])).1 =
        .ok ([] ++ .object [("v", .embedding origin)] :: []) := rfl
    have hstep : Cursor.Step.next.wanted? = some (some 1) := rfl
    exact ⟨_, rfl, (execute_firstPull rfl hlimit hbind rfl hopen hstep).1 [] _ [] _ rfl
      (hfails limit) (by simp) (by simp)⟩
  exact ⟨hpull .null (.inl rfl), hpull (.int 1) (.inr ⟨1, by decide, rfl⟩)⟩

end Plan

end NearDoc
