import NearDoc.Proofs.Near.Execution
import NearDoc.Proofs.Query.Naming
import NearDoc.Query.Builder

/-!
A question for the documents near a target: those within a distance, or the nearest ones. It can be
asked of the documents directly, and it is a plan, in which the target and the distance are given
by expressions. Main statement: the plan delivers what the direct search finds.
-/

namespace NearDoc

/-- How near documents should be: within a distance, or among so many. -/
inductive Reach where
  | within (most : Binary64)
  | nearest (k : Int)

/-- Without the name of a metric the default one is meant. -/
structure Question where
  field : String
  target : Value
  metric : Option String
  reach : Reach

namespace Question

variable (q : Question)

def metricValue : Value := q.metric.elim .null .text

/-- The question asked directly. -/
def search (env : Environment) (ds : List Value) : Except Error (Found Value) :=
  match q.reach with
  | .within most =>
    (Near.filter env ds q.field q.target (.real most) (.named q.metricValue) none).map (·.outcome)
  | .nearest k =>
    (Near.topK env ds q.field q.target (.int k) (.named q.metricValue) none).map (·.outcome)

/-- Field and target are of use, the names of metrics are texts, and the one that is meant is known
and measures numbers; a distance is finite. -/
structure Askable (env : Environment) (key : DistanceKey) : Prop where
  field : IsName q.field
  make : DistanceKey.make env q.field q.target (.named q.metricValue) = .ok key
  measures : key.Measures
  names : ∃ names, env.metrics.names = .ok names
  finite : ∀ most, q.reach = .within most → most.isFinite

/-! ### The plan -/

def arity : Int := if q.metric.isSome then 3 else 2

def operator : Operator := .distance q.metric.isSome (.int q.arity)

/-- The field, the target and the name of the metric, if it has one. -/
def arguments (target : Expr) : List Expr :=
  .field q.field :: target :: q.metric.toList.map fun m => .literal (.text m)

/-- The distance to a target that an expression gives. -/
def measure (target : Expr) : Expr := .call q.operator (q.arguments target) none

/-- The plan of the question, with expressions for the target and for a distance. -/
def plan (collection : Value) (target : Expr) (most : Binary64 → Expr) : Plan :=
  match q.reach with
  | .within x =>
    { collection, predicate := some (.compare (.order .le) (q.measure target) (most x)) }
  | .nearest k => { collection, order := [⟨q.measure target, .bool false⟩], limit := .int k }

/-- What the direct search finds. -/
def found (key : DistanceKey) (ds : List Value) : Found Value :=
  match q.reach with
  | .within most => (key.within (.real most) none ds).outcome
  | .nearest k => Plan.ranked (Selector.select key.ofDocument (.upTo k.toNat) ds).outcome

variable {q} {env : Environment} {key : DistanceKey} {ds : List Value}

namespace Askable

lemma target_eq (h : q.Askable env key) : Embedding.ofValue q.target = .ok key.target ∧
    env.resolve (.named q.metricValue) = .ok key.metric ∧ key.field = q.field := by
  obtain ⟨target, htarget, hkey⟩ := bind_eq_ok.mp h.make
  obtain ⟨metric, hmetric, hkey⟩ := bind_eq_ok.mp hkey
  cases hkey
  exact ⟨htarget, hmetric, rfl⟩

lemma segments (h : q.Askable env key) : ∃ parts, Path.segments key.field = .ok parts := by
  rw [h.target_eq.2.2]
  exact h.field.segments

end Askable

lemma search_eq_found (h : q.Askable env key) : q.search env ds = .ok (q.found key ds) := by
  unfold search found
  cases q.reach with
  | within most =>
    simp only [Near.filter, h.make, Bind.bind, Except.bind]
    rfl
  | nearest k =>
    simp only [Near.topK, h.make, Selector.selectCount, Selector.ofValue_int, Bind.bind,
      Except.bind]
    rcases (Selector.select key.ofDocument (.upTo k.toNat) ds).outcome with err | hits <;> rfl

/-- **Failures**: what is found ends at a document that is refused, if it does not end by itself. -/
theorem exists_refused (h : q.Askable env key) :
    ∀ e ∈ (q.found key ds).failure, ∃ d ∈ ds, key.Refuses d e := by
  intro e he
  unfold found at he
  split at he
  · exact Plan.exists_refused_within h.segments h.measures he
  · rename_i k _
    rcases hout : (Selector.select key.ofDocument (.upTo k.toNat) ds).outcome with err | hits
    · rw [hout] at he
      cases he
      exact Plan.exists_refused_select h.segments h.measures hout
    · rw [hout] at he
      cases he

lemma bindEach_arguments {params : Params} {target target' : Expr}
    (htarget : target.bind env params = .ok target') :
    Expr.bindEach env params (q.arguments target) = .ok (q.arguments target') := by
  unfold arguments
  cases q.metric <;> simp [Expr.bindEach, Expr.bind, htarget, Except.map]

lemma prepare_arguments (h : q.Askable env key) {v : Value}
    (hv : Embedding.ofValue v = .ok key.target) :
    q.operator.prepare env (q.arguments (.literal v)) = .ok (.ofField key) := by
  obtain ⟨-, hmetric, hfield⟩ := h.target_eq
  have hvalues : (q.metric.toList.map fun m => Expr.literal (.text m)).mapM Expr.literal? =
      some (q.metric.toList.map .text) := by
    cases q.metric <;> rfl
  have href : Operator.metricRef q.metric.isSome (q.metric.toList.map .text) =
      .ok (.named q.metricValue) := by
    unfold metricValue
    cases q.metric <;> rfl
  simp only [operator, arguments, Operator.prepare, Operator.prepareDistance, Expr.literal?,
    hvalues, hv, href, hmetric, ← hfield, Bind.bind, Except.bind]
  rfl

/-- Bound to a vector for its target, the distance is that of the key. -/
lemma bind_measure (h : q.Askable env key) {params : Params} {target : Expr} {v : Value}
    (htarget : target.bind env params = .ok (.literal v))
    (hv : Embedding.ofValue v = .ok key.target) :
    ∃ e, (q.measure target).bind env params = .ok e ∧ ∀ d, e.eval env d = key.ofDocument d := by
  refine ⟨.call q.operator (q.arguments (.literal v)) (some (.ofField key)), ?_,
    fun d => by simp only [Expr.eval]⟩
  rw [measure, Expr.bind, bindEach_arguments htarget]
  simp only [Except.bind, prepare_arguments h hv, Except.map]

/-- **The plan** delivers what the direct search finds. -/
theorem answers_plan (store : Store) (h : q.Askable env key) {params : Params} {target : Expr}
    {v : Value} {most : Binary64 → Expr} (collection : Value)
    (htarget : target.bind env params = .ok (.literal v))
    (hv : Embedding.ofValue v = .ok key.target)
    (hmost : ∀ x, q.reach = .within x → (most x).bind env params = .ok (.literal (.real x))) :
    Answers env store ((q.plan collection target most).execute env params (some (.documents ds)))
      (q.found key ds) := by
  obtain ⟨e, he, heval⟩ := bind_measure h htarget hv
  unfold plan found
  rcases hreach : q.reach with x | k
  · have hpredicate : Expr.bind env params (.compare (.order .le) (q.measure target) (most x)) =
        .ok (e.within x) := by
      simp [Expr.bind, he, hmost x hreach, Except.map, Expr.within]
    have hbind : Plan.bind
        { collection, predicate := some (.compare (.order .le) (q.measure target) (most x)) }
          env params = .ok { collection, predicate := some (e.within x) } := by
      simp [Plan.bind, Plan.mapExprs, hpredicate, Bind.bind, Except.bind, pure, Except.pure]
    simp only [Plan.execute, hbind, Bind.bind, Except.bind]
    exact Plan.answers_within store h.segments h.measures heval rfl rfl rfl rfl
  · have hbind : Plan.bind
        { collection, order := [⟨q.measure target, .bool false⟩], limit := .int k } env params =
          .ok { collection, order := [⟨e, .bool false⟩], limit := .int k } := by
      simp [Plan.bind, Plan.mapExprs, he, Bind.bind, Except.bind, pure, Except.pure]
    simp only [Plan.execute, hbind, Bind.bind, Except.bind]
    exact Plan.answers_nearest store h.segments h.measures heval rfl rfl rfl rfl

end Question

end NearDoc
