import NearDoc.Proofs.Expr.Binding

/-!
Distance calls that were prepared. Binding settles what it can: with a literal target and literals
behind it the target is cast and the metric looked up once, and a plain field is looked up by
itself. Main statement: whichever way a call was prepared, on every document it comes to what the
operator answers for the values of its arguments, failures included.
-/

namespace NearDoc

namespace Operator

/-- How a distance call is prepared, by its bound arguments. -/
inductive PreparedAs (env : Environment) (namesMetric : Bool) : List Expr → Prepared → Prop where
  /-- Target or metric may depend on the document. -/
  | perDocument {first target : Expr} {rest : List Expr}
      (h : ∃ e ∈ target :: rest, e.literal? = none) :
      PreparedAs env namesMetric (first :: target :: rest) .perDocument
  /-- A plain field is measured against a fixed target. -/
  | ofField {path : String} {v : Value} {values : List Value} {target : Embedding} {metric : Metric}
      (htarget : Embedding.ofValue v = .ok target)
      (hmetric : (metricRef namesMetric values).bind env.resolve = .ok metric) :
      PreparedAs env namesMetric (.field path :: .literal v :: values.map .literal)
        (.ofField ⟨path, target, metric⟩)
  /-- Anything else is measured against a fixed target. -/
  | ofTarget {first : Expr} {v : Value} {values : List Value} {target : Embedding} {metric : Metric}
      (hfirst : ∀ path, first ≠ .field path) (htarget : Embedding.ofValue v = .ok target)
      (hmetric : (metricRef namesMetric values).bind env.resolve = .ok metric) :
      PreparedAs env namesMetric (first :: .literal v :: values.map .literal)
        (.ofTarget target metric)

variable {env : Environment} {namesMetric : Bool} {arguments : List Expr} {prepared : Prepared}

lemma literal?_eq_some {e : Expr} {v : Value} : e.literal? = some v ↔ e = .literal v := by
  cases e <;> simp [Expr.literal?]

lemma mapM_literal?_eq_some {es : List Expr} {values : List Value} :
    es.mapM Expr.literal? = some values ↔ es = values.map .literal := by
  induction es generalizing values with
  | nil => cases values <;> simp
  | cons e es ih =>
    simp only [List.mapM_cons, Option.bind_eq_bind, Option.bind_eq_some_iff, literal?_eq_some, ih]
    cases values <;> simp

lemma exists_of_mapM_literal?_eq_none {es : List Expr} (h : es.mapM Expr.literal? = none) :
    ∃ e ∈ es, e.literal? = none := by
  induction es with
  | nil => simp at h
  | cons e es ih =>
    rcases he : e.literal? with _ | v
    · exact ⟨e, by simp, he⟩
    · rcases hes : es.mapM Expr.literal? with _ | values
      · obtain ⟨e', he', hnone⟩ := ih hes
        exact ⟨e', by simp [he'], hnone⟩
      · simp [List.mapM_cons, he, hes] at h

/-- A preparation that succeeds is one of three. -/
lemma preparedAs_of_prepare {arity : Value}
    (h : (Operator.distance namesMetric arity).prepare env arguments = .ok prepared) :
    PreparedAs env namesMetric arguments prepared := by
  rw [prepare] at h
  rcases arguments with _ | ⟨first, _ | ⟨target, rest⟩⟩
  · cases h
  · cases h
  · simp only [prepareDistance] at h
    rcases htarget : target.literal? with _ | v
    · rw [htarget] at h
      cases h
      exact .perDocument ⟨target, by simp, htarget⟩
    · rcases hrest : rest.mapM Expr.literal? with _ | values
      · rw [htarget, hrest] at h
        cases h
        obtain ⟨e, he, hnone⟩ := exists_of_mapM_literal?_eq_none hrest
        exact .perDocument ⟨e, by simp [he], hnone⟩
      · rw [htarget, hrest] at h
        obtain ⟨cast, hcast, h⟩ := bind_eq_ok.mp h
        obtain ⟨ref, href, h⟩ := bind_eq_ok.mp h
        obtain ⟨metric, hmetric, h⟩ := bind_eq_ok.mp h
        have hsettled : (metricRef namesMetric values).bind env.resolve = .ok metric :=
          bind_eq_ok.mpr ⟨ref, href, hmetric⟩
        obtain rfl := literal?_eq_some.mp htarget
        obtain rfl := mapM_literal?_eq_some.mp hrest
        split at h
        · cases h
          exact .ofField hcast hsettled
        · rename_i hfirst
          cases h
          exact .ofTarget hfirst hcast hsettled

/-- The distance of a value to a fixed target. -/
def measured (target : Embedding) (metric : Metric) (v : Value) : Except Error Value :=
  (Embedding.ofStored v).bind fun stored =>
    stored.elim (.ok .undefined) fun stored => (metric.distance stored target).map .real

/-- With target and metric settled the operator measures its first value. -/
lemma apply_eq_measured {arity stored v : Value} {values : List Value} {target : Embedding}
    {metric : Metric} (htarget : Embedding.ofValue v = .ok target)
    (hmetric : (metricRef namesMetric values).bind env.resolve = .ok metric) :
    (Operator.distance namesMetric arity).apply env (stored :: v :: values) =
      measured target metric stored := by
  obtain ⟨ref, href, hresolve⟩ := bind_eq_ok.mp hmetric
  have hdistance : ∀ w, env.distance ref w target = metric.distance w target := fun w => by
    rw [Environment.distance, hresolve]
    rfl
  rw [apply, applyDistance, measured, htarget, href]
  rcases Embedding.ofStored stored with e | _ | w
  · rfl
  · rfl
  · simp only [Bind.bind, Except.bind, hdistance, Option.elim_some, pure, Except.pure]
    cases metric.distance w target <;> rfl

lemma evalEach_literals (env : Environment) (d : Value) (values : List Value) :
    Expr.evalEach env d (values.map .literal) = .ok values := by
  induction values with
  | nil => rfl
  | cons v values ih =>
    rw [List.map_cons, Expr.evalEach, Expr.eval, ih]
    rfl

/-- The values of arguments of which only the first depends on the document. -/
lemma evalEach_settled (env : Environment) (d : Value) (first : Expr) (v : Value)
    (values : List Value) :
    Expr.evalEach env d (first :: .literal v :: values.map .literal) =
      (first.eval env d).map (· :: v :: values) := by
  rw [Expr.evalEach, Expr.evalEach, Expr.eval, evalEach_literals]
  rcases first.eval env d with e | w <;> rfl

end Operator

namespace Expr

open Operator

variable {env : Environment} {params : Params} {namesMetric : Bool} {arguments : List Expr}

/-- A prepared call comes to what the operator answers for the values of the arguments. -/
lemma eval_of_preparedAs {prepared : Prepared} (h : PreparedAs env namesMetric arguments prepared)
    (arity d : Value) :
    (Expr.call (.distance namesMetric arity) arguments (some prepared)).eval env d =
      (evalEach env d arguments).bind ((Operator.distance namesMetric arity).apply env) := by
  cases h with
  | perDocument => rfl
  | @ofField path v values target metric htarget hmetric =>
    rw [evalEach_settled, Expr.eval, Expr.eval, DistanceKey.ofDocument, Embedding.extract]
    rcases d.atPath path with e | w
    · rfl
    · simp only [Except.map, Except.bind, apply_eq_measured htarget hmetric, measured]
      rcases Embedding.ofStored w with e | _ | stored <;> rfl
  | @ofTarget first v values target metric _ htarget hmetric =>
    rw [evalEach_settled, Expr.eval]
    rcases first.eval env d with e | w
    · rfl
    · simp only [Except.map, Except.bind, apply_eq_measured htarget hmetric, measured]
      rcases Embedding.ofStored w with e | _ | stored <;> rfl

/-- **Prepared calls**: a distance call that could be bound was prepared as its bound arguments
allow, and on every document it comes to what the operator answers for their values. -/
theorem eval_bind_distance {arity : Value} {before : Option Prepared} {bound : Expr}
    (h : bind env params (.call (.distance namesMetric arity) arguments before) = .ok bound) :
    ∃ arguments' prepared, bindEach env params arguments = .ok arguments' ∧
      bound = .call (.distance namesMetric arity) arguments' (some prepared) ∧
      PreparedAs env namesMetric arguments' prepared ∧
      ∀ d, bound.eval env d =
        (evalEach env d arguments').bind ((Operator.distance namesMetric arity).apply env) := by
  obtain ⟨arguments', prepared, harguments, hprepare, rfl⟩ := bind_call_eq_ok.mp h
  have hprepared := preparedAs_of_prepare hprepare
  exact ⟨arguments', prepared, harguments, rfl, hprepared, eval_of_preparedAs hprepared arity⟩

/-- The target is a parameter, and the metric is named in another case and between blanks. -/
theorem eval_bind_distance_namedOddly :
    ∃ bound, bind {} [("t", .list [.int 1, .real .zero])]
        (.call (.distance true (.int 3))
          [.field "v", .param (.text "t"), .literal (.text " EuClidean\n")] none) = .ok bound ∧
      ∃ arguments' prepared, bindEach {} [("t", .list [.int 1, .real .zero])]
          [.field "v", .param (.text "t"), .literal (.text " EuClidean\n")] = .ok arguments' ∧
        bound = .call (.distance true (.int 3)) arguments' (some prepared) ∧
        PreparedAs {} true arguments' prepared ∧
        ∀ d, bound.eval {} d =
          (evalEach {} d arguments').bind ((Operator.distance true (.int 3)).apply {}) := by
  obtain ⟨bound, h⟩ := exists_of_isOk (x := bind {} [("t", .list [.int 1, .real .zero])]
    (.call (.distance true (.int 3))
      [.field "v", .param (.text "t"), .literal (.text " EuClidean\n")] none)) (by decide +kernel)
  exact ⟨bound, h, eval_bind_distance h⟩

end Expr

end NearDoc
