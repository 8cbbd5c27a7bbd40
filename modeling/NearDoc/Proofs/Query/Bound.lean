import NearDoc.Proofs.Expr.Bound
import NearDoc.Proofs.Near.Failure
import NearDoc.Proofs.Query.Turns

/-!
Executed queries are fully bound. Whatever a cursor is asked for, on any documents, its run evaluates
expressions of the bound plan only, and all else that it does fails for other reasons than a missing
binding. Main statement: binding closes every expression, and no cursor of an executed plan fails
for want of a binding.
-/

namespace NearDoc

open FailsOnly

/-! ### Plans -/

namespace Plan

/-- The expressions of a plan. -/
def exprs (p : Plan) : List Expr :=
  p.predicate.toList ++ p.order.map SortKey.expr ++ (p.columns.getD []).map Column.expr

variable {env : Environment} {params : Params} {p b : Plan} {e : Expr} {Q : Error → Prop}

/-- Every expression of a bound plan was bound. -/
lemma exists_of_mem_exprs_bind (h : p.bind env params = .ok b) (he : e ∈ b.exprs) :
    ∃ e' ∈ p.exprs, e'.bind env params = .ok e := by
  have hcolumns := columns_of_bind h
  obtain ⟨predicate, hpredicate, h⟩ := bind_eq_ok.mp h
  obtain ⟨order, horder, h⟩ := bind_eq_ok.mp h
  obtain ⟨columns, -, h⟩ := bind_eq_ok.mp h
  cases h
  simp only [exprs, List.mem_append, List.mem_map, Option.mem_toList] at he ⊢
  rcases he with (he | ⟨k, hk, rfl⟩) | ⟨c, hc, rfl⟩
  · rcases hp : p.predicate with _ | e'
    · rw [hp] at hpredicate
      cases hpredicate
      cases he
    · rw [hp] at hpredicate
      obtain ⟨e'', he'', hsome⟩ := bind_eq_ok.mp hpredicate
      cases hsome
      cases he
      exact ⟨e', .inl (.inl rfl), he''⟩
  · obtain ⟨k', hk', hbind⟩ := exists_mem_of_forall₂ (forall₂_of_mapM horder) hk
    obtain ⟨e', he', heq⟩ := bind_eq_ok.mp hbind
    cases heq
    exact ⟨k'.expr, .inl (.inr ⟨k', hk', rfl⟩), he'⟩
  · dsimp only at hcolumns hc
    generalize p.columns = given at hcolumns ⊢
    cases hcolumns with
    | none => cases hc
    | some hpairs =>
      obtain ⟨c', hc', hbind⟩ := exists_mem_of_forall₂ hpairs hc
      exact ⟨c'.expr, .inr ⟨c', hc', rfl⟩, hbind.expr⟩

/-- What a run of the plan does fails in one way only: its expressions do, and so does what fails
for other reasons than a missing binding. -/
structure Confines (env : Environment) (Q : Error → Prop) (p : Plan) : Prop where
  other : ∀ e, e.isUnbound = false → Q e
  eval : ∀ expr ∈ p.exprs, ∀ d, FailsOnly Q (expr.eval env d)

lemma Confines.of_never {α : Type} {x : Except Error α} (h : p.Confines env Q)
    (hx : NeverUnbound x) : FailsOnly Q x :=
  hx.imp h.other

lemma neverUnbound_rowCount (count : Value) : NeverUnbound (rowCount count) := by
  unfold rowCount
  split
  · exact of_ok _
  · split
    · split
      · exact of_error rfl
      · exact of_ok _
    · exact of_error rfl

lemma neverUnbound_strategy (p : Plan) : NeverUnbound p.strategy := by
  unfold strategy
  dsimp only
  split
  · refine (Value.neverUnbound_relate .le _ _).bind fun isNone => ?_
    split
    · exact of_ok _
    · split
      · exact of_ok _
      · exact (Value.neverUnbound_truthy _).bind fun descending => by split <;> exact of_ok _
      · exact of_ok _
  · split
    · exact of_ok _
    · exact (Value.neverUnbound_truthy _).bind fun descending => by split <;> exact of_ok _
    · exact of_ok _

end Plan

namespace Execution

variable {env : Environment} {store : Store} {p : Plan} {x : Execution} {d : Value}
variable {Q : Error → Prop}

/-! ### Documents -/

lemma failsOnly_admitted (h : p.Confines env Q) (d : Value) : FailsOnly Q (admitted env p d) := by
  unfold admitted
  split
  · exact of_ok _
  · rename_i e he
    exact (h.eval e (by simp [Plan.exprs, he]) d).map

lemma failsOnly_pullAdmitted (h : p.Confines env Q) (ds : List Value) :
    FailsOnly Q (pullAdmitted env p ds).outcome := by
  induction ds with
  | nil => exact of_ok _
  | cons d ds ih =>
    unfold pullAdmitted
    split
    · rename_i e he
      exact of_error (failsOnly_admitted h d e he)
    · exact of_ok _
    · exact ih

lemma failsOnly_keyed? (h : p.Confines env Q) (d : Value) : FailsOnly Q (keyed? env p d) := by
  have hkeys : FailsOnly Q (Expr.evalEach env d (p.order.map SortKey.expr)) := by
    intro e he
    obtain ⟨k, hk, hfail⟩ := Expr.exists_mem_of_evalEach_error he
    exact h.eval k (by simp [Plan.exprs, List.mem_map.mp hk]) d e hfail
  refine (failsOnly_admitted h d).bind fun admits => ?_
  split
  · exact of_ok _
  · exact hkeys.bind fun keys => of_ok _

lemma failsOnly_pullKeyed (h : p.Confines env Q) (ds : List Value) :
    FailsOnly Q (pullKeyed env p ds).outcome := by
  induction ds with
  | nil => exact of_ok _
  | cons d ds ih =>
    unfold pullKeyed
    split
    · rename_i e he
      exact of_error (failsOnly_keyed? h d e he)
    · exact ih.map

lemma failsOnly_soleKey (h : p.Confines env Q) {key : Expr} {d : Value}
    (hkey : FailsOnly Q (key.eval env d)) : FailsOnly Q (soleKey env p key d) := by
  refine (failsOnly_admitted h d).bind fun admits => ?_
  split
  · exact of_ok _
  · exact hkey.bind fun v => of_ok _

/-! ### Order -/

lemma together (h : p.Confines env Q) (keys : List Value) : Value.Together Q keys := by
  refine List.pairwise_of_forall fun a b e he => h.other e ?_
  rcases he with (he | he) | he | he
  · exact Value.neverUnbound_eqv a b e he
  · exact Value.neverUnbound_relate .lt a b e he
  · exact Value.neverUnbound_eqv b a e he
  · exact Value.neverUnbound_relate .lt b a e he

lemma failsOnly_sortByKey (h : p.Confines env Q) (position : Nat) (key : SortKey)
    (entries : List Keyed) : FailsOnly Q (sortByKey position key entries) := by
  have hsort : ∀ entries, FailsOnly Q (Sort.sort (precedes position) entries) := fun entries =>
    of_meets (Sort.sort_meets (List.pairwise_of_forall fun a b =>
      ⟨h.of_never (Value.neverUnbound_relate .lt _ _),
        h.of_never (Value.neverUnbound_relate .lt _ _)⟩))
  have hdirection : NeverUnbound key.isDescending := by
    unfold SortKey.isDescending
    split
    · exact of_error rfl
    · split
      · exact of_ok _
      · exact of_error rfl
  refine (h.of_never hdirection).bind fun descending => ?_
  split
  · exact (hsort _).map
  · exact hsort _

lemma failsOnly_sortFrom (h : p.Confines env Q) (position : Nat) (keys : List SortKey)
    (entries : List Keyed) : FailsOnly Q (sortFrom position keys entries) := by
  induction keys generalizing position with
  | nil => exact of_ok _
  | cons key keys ih => exact (ih _).bind (failsOnly_sortByKey h position key)

lemma asOrderError_of (h : p.Confines env Q) {e : Error} (he : Q e) : Q (asOrderError e) := by
  unfold asOrderError
  split
  · exact h.other _ rfl
  · exact he

lemma failsOnly_sorted (h : p.Confines env Q) (ds : List Value) :
    FailsOnly Q (sorted env p ds).outcome := by
  refine (failsOnly_pullKeyed h ds).bind fun entries => ?_
  split
  · exact of_ok _
  · rename_i e he
    exact of_error (asOrderError_of h (failsOnly_sortFrom h 0 p.order entries e he))

lemma failsOnly_smallest (h : p.Confines env Q) {key : Expr}
    (hkey : ∀ d, FailsOnly Q (key.eval env d)) (ds : List Value) :
    FailsOnly Q (smallest env p key ds).outcome := by
  have hroom : NeverUnbound (Room.ofValue p.limit) := by
    refine (Value.neverUnbound_relate .le _ _).bind fun isNone => ?_
    split
    · exact of_ok _
    · split <;> first | exact of_ok _ | exact of_error rfl
  have hselect : FailsOnly Q
      (Selector.selectCount (soleKey env p key) p.limit ds).outcome := by
    unfold Selector.selectCount
    split
    · rename_i e he
      exact of_error (h.other e (hroom e he))
    · rename_i room _
      exact of_meets (Selector.select_meets (fun d _ => failsOnly_soleKey h (hkey d))
        (together h _) room fun _ => h.other _ rfl)
  unfold smallest
  dsimp only
  split
  · exact of_ok _
  · rename_i e he
    exact of_error (asOrderError_of h (hselect e he))

/-! ### Rows -/

lemma failsOnly_row (h : p.Confines env Q) (d : Value) : FailsOnly Q (row env p d) := by
  unfold row
  split
  · exact of_ok _
  · rename_i columns hcolumns
    refine FailsOnly.map (FailsOnly.foldlM (fun c hc fields => ?_) [])
    have hexpr : c.expr ∈ p.exprs := by
      simp only [Plan.exprs, hcolumns, Option.getD_some, List.mem_append]
      exact .inr (List.mem_map_of_mem hc)
    have hname : NeverUnbound (c.name >>= rowName) := by
      refine ((Value.neverUnbound_truthy _).bind fun given => of_ok _).bind fun name => ?_
      unfold rowName
      split
      · exact of_ok _
      · exact of_ok _
      · split
        · exact of_ok _
        · exact of_error rfl
    refine (h.eval c.expr hexpr d).bind fun v => ?_
    split
    · exact of_ok _
    · rw [← bind_assoc]
      exact (h.of_never hname).bind fun name => of_ok _

/-! ### Runs -/

lemma failsOnly_deliver {pass : Pass (Except Error (List Value))} (h : FailsOnly Q pass.outcome)
    (x : Execution) : ∀ e, (x.deliver env pass).2 = some e → Q e := by
  intro e he
  unfold deliver at he
  dsimp only at he
  split at he
  · rename_i e' hfail
    cases he
    exact h e hfail
  · cases he

lemma failsOnly_startOn {source : Source} {go : List Value → Execution → Execution × Option Error}
    (h : p.Confines env Q) (hgo : ∀ ds, ∀ e, (go ds x).2 = some e → Q e) :
    ∀ e, (x.startOn env store source go).2 = some e → Q e := by
  intro e he
  unfold startOn at he
  split at he
  · exact hgo _ e he
  · rename_i e' records hopen
    cases he
    cases source with
    | documents => cases hopen
    | collection name =>
      unfold openSource at hopen
      dsimp only at hopen
      split at hopen
      · cases hopen
      · rename_i e' hread
        cases hopen
        exact h.other e (Store.neverUnbound_documents store name e hread)

/-- A start fails in one way only. -/
lemma failsOnly_start (h : x.plan.Confines env Q) : ∀ e, (x.start env store).2 = some e → Q e := by
  intro e he
  unfold start at he
  split at he
  · split at he
    · rename_i s hstrategy
      cases s with
      | empty => cases he
      | stream =>
        simp only [startAs] at he
        split at he
        · rename_i e' hcount
          cases he
          exact h.other e (Plan.neverUnbound_rowCount _ e hcount)
        · exact failsOnly_startOn h (fun _ _ hnone => by cases hnone) e he
      | topK =>
        have hkey : ∀ d, FailsOnly Q
            (((x.plan.order.map SortKey.expr).headD (.literal .null)).eval env d) := by
          intro d
          rcases horder : x.plan.order with _ | ⟨k, ks⟩
          · exact of_ok _
          · exact h.eval k.expr (by simp [Plan.exprs, horder]) d
        exact failsOnly_startOn h
          (fun ds => failsOnly_deliver (failsOnly_smallest h hkey ds) x) e he
      | sort =>
        have hcut : ∀ ds, FailsOnly Q (cut x.plan.limit (sorted env x.plan ds)).outcome := fun ds =>
          (failsOnly_sorted h ds).bind fun shown =>
            (h.of_never (Plan.neverUnbound_rowCount _)).bind fun count => of_ok _
        exact failsOnly_startOn h (fun ds => failsOnly_deliver (hcut ds) x) e he
    · rename_i e' hstrategy
      cases he
      exact h.other e (Plan.neverUnbound_strategy _ e hstrategy)
  · cases he

/-- A turn fails in one way only. -/
lemma failsOnly_advance (h : x.plan.Confines env Q) : FailsOnly Q (x.advance env).2 := by
  have hemit : ∀ (d : Value) (y : Execution), y.plan = x.plan → FailsOnly Q (emit env d y).2 := by
    intro d y hy
    have hrow := failsOnly_row h d
    rw [← hy] at hrow
    unfold emit
    dsimp only
    split
    · exact of_ok _
    · rename_i e he
      exact of_error (hrow e he)
  unfold advance
  split
  · exact of_ok _
  · exact of_ok _
  · exact of_ok _
  · exact of_ok _
  · exact hemit _ _ rfl
  · rename_i rest left _ _
    have hpull := failsOnly_pullAdmitted h rest
    dsimp only
    split
    · rename_i e he
      exact of_error (hpull e he)
    · exact of_ok _
    · exact hemit _ _ rfl

lemma plan_advance (env : Environment) (x : Execution) : (x.advance env).1.plan = x.plan := by
  have hturn := turnsTo env x
  generalize (x.advance env).1 = y, (x.advance env).2 = reply at hturn ⊢
  cases hturn with
  | idle => rfl
  | shown h | lost h | done h | failed h => exact h.plan

/-- By induction on the turns, in which the plan stays. -/
lemma failsOnly_collect (h : x.plan.Confines env Q) (fuel : Nat) (wanted : Option Nat) :
    FailsOnly Q (collect env fuel wanted x).2 := by
  induction fuel generalizing x wanted with
  | zero => exact of_ok _
  | succ fuel ih =>
    by_cases hwanted : wanted = some 0
    · subst hwanted
      exact of_ok _
    · have hadvance := failsOnly_advance h
      have hplan := plan_advance env x
      rw [collect_succ env fuel x hwanted]
      generalize x.advance env = turn at hadvance hplan
      obtain ⟨y, e | _ | r⟩ := turn
      · exact of_error (hadvance e rfl)
      · exact of_ok _
      · have hrest := ih (x := y) (hplan ▸ h) (wanted.map (· - 1))
        dsimp only
        generalize collect env fuel (wanted.map (· - 1)) y = rest at hrest
        obtain ⟨z, e | rs⟩ := rest
        · exact of_error (hrest e rfl)
        · exact of_ok _

end Execution

/-! ### Cursors -/

namespace Cursor

open Execution

variable {env : Environment} {Q : Error → Prop} {c : Cursor}

lemma failsOnly_fetch {store : Store} (h : c.execution.plan.Confines env Q) (wanted : Option Nat) :
    FailsOnly Q (c.fetch env store wanted).2 := by
  unfold fetch
  split
  · exact of_ok _
  · have hstart : ∀ e, (c.execution.start env store).2 = some e → Q e := failsOnly_start h
    obtain ⟨hplan, -⟩ := start_kept env store c.execution
    generalize c.execution.start env store = started at hstart hplan
    obtain ⟨x, _ | e⟩ := started
    · exact failsOnly_collect (hplan ▸ h) _ wanted
    · exact of_error (hstart e rfl)

lemma failsOnly_perform {store : Store} (h : c.execution.plan.Confines env Q) (step : Step) :
    FailsOnly Q (c.perform env store step).2 := by
  cases step with
  | next | fetchOne =>
    rw [perform_of_wanted rfl]
    exact failsOnly_fetch h _
  | fetchMany size =>
    change FailsOnly Q (c.fetchMany env store size).2
    unfold fetchMany
    split
    · rename_i e he
      exact of_error (h.other e (Plan.neverUnbound_rowCount size e he))
    · exact failsOnly_fetch h _
  | fetchAll => exact failsOnly_fetch h none
  | close | leave => exact of_ok _

/-- By induction on the steps, in which the plan stays. -/
lemma failsOnly_replies {moments : List Moment} (hmoments : ∀ m ∈ moments, m.env = env)
    (h : c.execution.plan.Confines env Q) : ∀ reply ∈ replies moments c, FailsOnly Q reply := by
  induction moments generalizing c with
  | nil => exact nofun
  | cons m moments ih =>
    rw [List.forall_mem_cons] at hmoments
    obtain ⟨rfl, hmoments⟩ := hmoments
    rw [replies, List.forall_mem_cons]
    have hplan := (settles_perform m c).plan.1
    exact ⟨failsOnly_perform h m.step, ih hmoments (hplan ▸ h)⟩

end Cursor

/-! ### Closed queries -/

/-- Binding an expression closes it. -/
structure Expr.Closes (env : Environment) (params : Params) (e : Expr) : Prop where
  /-- At any depth there is no parameter left and no call that was not prepared. -/
  closed : ∀ b, e.bind env params = .ok b → ∀ x ∈ b.parts, (∀ name, x ≠ .param name) ∧
    ∀ op es prepared, x = .call op es prepared → prepared.isSome = true
  /-- No document makes it fail for want of a binding, unless the function of an operator or of a
  metric raises such a failure by itself. -/
  evaluated : ∀ b, e.bind env params = .ok b → ∀ d err, b.eval env d = .error err →
    err.isUnbound = true → e.Raises env err
  /-- Bound again, whatever the parameters, it comes to the same on every document. -/
  again : ∀ b, e.bind env params = .ok b → ∀ others : Params,
    ∃ b', b.bind env others = .ok b' ∧ ∀ d, b'.eval env d = b.eval env d
  /-- It can be bound if every parameter is given and every operator prepares its arguments. -/
  succeeds : (∀ name, .param name ∈ e.parts → params.Gives name) →
    (∀ op es before, .call op es before ∈ e.parts →
      ∀ es', Expr.bindEach env params es = .ok es' → ∃ p, op.prepare env es' = .ok p) →
    ∃ b, e.bind env params = .ok b
  /-- It cannot be bound if a parameter is not given. -/
  fails : ∀ name, .param name ∈ e.parts → ¬params.Gives name →
    ∃ err, e.bind env params = .error err

lemma Expr.closes (env : Environment) (params : Params) (e : Expr) : e.Closes env params where
  closed b hb x hx := by
    have hbound := bound_of_bind hb x hx
    refine ⟨fun name heq => ?_, fun op es prepared heq => ?_⟩
    · subst heq
      exact hbound
    · subst heq
      obtain ⟨p, rfl, -⟩ := hbound
      rfl
  evaluated b hb d err herr hunbound :=
    .of_bind hb (raises_of_eval (bound_of_bind hb) herr hunbound)
  again b hb others := ⟨b, bind_of_bound (bound_of_bind hb) others, fun _ => rfl⟩
  succeeds hparams hcalls := by
    refine (exists_bind_iff e).mpr fun x hx => ?_
    cases x with
    | param name => exact hparams name hx
    | call op es before => exact hcalls op es before hx
    | _ => trivial
  fails name hname hmissing := by
    rcases hbind : e.bind env params with err | b
    · exact ⟨err, rfl⟩
    · exact absurd ((exists_bind_iff e).mp ⟨b, hbind⟩ _ hname) hmissing

/-- **Closed queries**: binding closes every expression, and a cursor of an executed plan never
fails for want of a binding, unless the function of an operator that the plan calls, or of a metric,
raises such a failure by itself. -/
theorem Plan.execute_closed (env : Environment) :
    (∀ (params : Params) (e : Expr), e.Closes env params) ∧
      ∀ (p : Plan) (params : Params) (source : Option Source) (c : Cursor),
        p.execute env params source = .ok c →
        ∀ moments : List Cursor.Moment, (∀ m ∈ moments, m.env = env) →
          ∀ err, .error err ∈ c.replies moments → err.isUnbound = true →
            ∃ e ∈ p.exprs, e.Raises env err := by
  refine ⟨Expr.closes env, fun p params source c hexecute moments hmoments err herr => ?_⟩
  obtain ⟨bound, hbind, hcursor⟩ := bind_eq_ok.mp hexecute
  have hplan : c.execution.plan = bound := by
    rcases source with _ | source
    · obtain ⟨name, -, hc⟩ := bind_eq_ok.mp hcursor
      cases hc
      rfl
    · cases hcursor
      rfl
  have hconfines : c.execution.plan.Confines env
      fun err => err.isUnbound = true → ∃ e ∈ p.exprs, e.Raises env err := by
    refine ⟨fun e he hunbound => absurd (he.symm.trans hunbound) Bool.false_ne_true, ?_⟩
    intro expr hexpr d err herr hunbound
    obtain ⟨e, he, hbound⟩ := exists_of_mem_exprs_bind hbind (hplan ▸ hexpr)
    exact ⟨e, he, (Expr.closes env params e).evaluated expr hbound d err herr hunbound⟩
  exact Cursor.failsOnly_replies hmoments hconfines _ herr err rfl

end NearDoc
