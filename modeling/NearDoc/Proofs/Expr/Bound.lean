import NearDoc.Proofs.Expr.Connective
import NearDoc.Proofs.Expr.Parts
import NearDoc.Proofs.Expr.Prepared
import NearDoc.Proofs.Value.Unbound

/-!
Bound expressions. What binding gives has no parameter in it and no call that was not prepared; it
does not fail for want of a binding, and binding it again gives it again. Main statement: so it is,
and binding succeeds just when every parameter has a value and every operator prepares its calls.
-/

namespace NearDoc

/-! ### Operators -/

namespace Operator

/-- A function that came with an operator, or with a metric that a distance is measured by, raises
a failure of its own. -/
inductive Raises (env : Environment) : Operator → Error → Prop where
  | function {name : String} {arity : Value} {f : List Value → Except Error Value}
      {values : List Value} {e : Error} (h : f values = .error e) :
      Raises env (.custom name arity f) e
  | metric {namesMetric : Bool} {arity : Value} {name : MetricName}
      {f : Embedding → Embedding → Except Error Value} {stored target : Embedding} {e : Error}
      (hknown : (name, .custom f) ∈ env.metrics.entries) (h : f stored target = .error e) :
      Raises env (.distance namesMetric arity) e

variable {env : Environment} {op : Operator} {values : List Value} {e : Error}

/-- The metric is one that is known. -/
lemma exists_mem_of_resolve {name : Value} {m : Metric} (h : env.resolve (.named name) = .ok m) :
    ∃ n, (n, m) ∈ env.metrics.entries := by
  have hget : ∀ v, env.metrics.get v = .ok m → ∃ n, (n, m) ∈ env.metrics.entries := by
    intro v hv
    unfold Metrics.get at hv
    split at hv
    · rename_i found hfind
      cases hv
      obtain ⟨n, -, hlookup⟩ := Option.bind_eq_some_iff.mp hfind
      obtain ⟨front, rest, hentries, -⟩ := List.lookup_eq_some_iff.mp hlookup
      exact ⟨n, by simp [hentries]⟩
    · obtain ⟨names, -, hv⟩ := bind_eq_ok.mp hv
      cases hv
  unfold Environment.resolve at h
  split at h
  · cases h
    contradiction
  · exact hget _ h
  · exact hget _ h

lemma neverUnbound_resolve (env : Environment) (metric : MetricRef) :
    NeverUnbound (env.resolve metric) := by
  have hget : ∀ v, NeverUnbound (env.metrics.get v) := by
    intro v
    unfold Metrics.get
    split
    · exact .of_ok _
    · refine FailsOnly.bind ?_ fun names => .of_error rfl
      unfold Metrics.names
      dsimp only
      split
      · exact .of_error rfl
      · exact .of_ok _
  unfold Environment.resolve
  split
  · exact .of_ok _
  · exact hget _
  · exact hget _

lemma neverUnbound_metricRef (namesMetric : Bool) (values : List Value) :
    NeverUnbound (metricRef namesMetric values) := by
  unfold metricRef
  split
  · exact .of_ok _
  · split
    · exact .of_error rfl
    · exact .of_ok _
    · exact .of_error rfl

/-- The values of a call refer to a metric by its name. -/
lemma exists_named_of_metricRef {namesMetric : Bool} {ref : MetricRef}
    (h : metricRef namesMetric values = .ok ref) : ∃ name, ref = .named name := by
  unfold metricRef at h
  split at h
  · cases h
    exact ⟨_, rfl⟩
  · split at h
    · cases h
    · cases h
      exact ⟨_, rfl⟩
    · cases h

/-- A distance fails for want of a binding only if the function of a custom metric does. -/
lemma exists_custom_of_distance {m : Metric} {v w : Embedding} (h : m.distance v w = .error e)
    (hunbound : e.isUnbound = true) : ∃ f, m = .custom f ∧ f v w = .error e := by
  unfold Metric.distance at h
  split at h
  · rcases bind_eq_error.mp h with happly | ⟨r, -, hreal⟩
    · cases m with
      | custom f => exact ⟨f, rfl, happly⟩
      | cosine | euclidean | dot => cases happly
    · cases (Value.neverUnbound_toReal r e hreal).symm.trans hunbound
  · cases h
    cases hunbound

/-- An operator fails for want of a binding only if its own function does. -/
lemma raises_of_apply (h : op.apply env values = .error e) (hunbound : e.isUnbound = true) :
    op.Raises env e := by
  cases op with
  | custom name arity f => exact .function h
  | distance namesMetric arity =>
    change applyDistance env namesMetric values = .error e at h
    have hnot : ∀ {α : Type} {x : Except Error α}, NeverUnbound x → x ≠ .error e := fun hx he =>
      Bool.false_ne_true ((hx e he).symm.trans hunbound)
    rcases values with _ | ⟨stored, _ | ⟨target, rest⟩⟩
    · cases h
      cases hunbound
    · cases h
      cases hunbound
    · rcases bind_eq_error.mp h with h | ⟨stored, -, h⟩
      · exact absurd h (hnot (Embedding.neverUnbound_ofStored _))
      rcases bind_eq_error.mp h with h | ⟨target, -, h⟩
      · exact absurd h (hnot (Embedding.neverUnbound_ofValue _))
      rcases bind_eq_error.mp h with h | ⟨metric, hmetric, h⟩
      · exact absurd h (hnot (neverUnbound_metricRef _ _))
      obtain ⟨name, rfl⟩ := exists_named_of_metricRef hmetric
      rcases stored with _ | stored
      · cases h
      rcases bind_eq_error.mp h with h | ⟨r, -, h⟩
      · rcases bind_eq_error.mp h with h | ⟨m, hm, h⟩
        · exact absurd h (hnot (neverUnbound_resolve env _))
        · obtain ⟨f, rfl, hf⟩ := exists_custom_of_distance h hunbound
          obtain ⟨n, hn⟩ := exists_mem_of_resolve hm
          exact .metric hn hf
      · cases h

end Operator

namespace Params

variable {params : Params} {name : Value}

/-- A parameter of this name has a value. -/
def Gives (params : Params) (name : Value) : Prop :=
  ∃ s v, name = .text s ∧ params.lookup s = some v

lemma find_eq_ok : (∃ v, params.find name = .ok v) ↔ params.Gives name := by
  cases name with
  | text s =>
    have hfind :
        params.find (.text s) = (params.lookup s).elim (.error (.parameterMissing s)) .ok := rfl
    rw [hfind, Gives]
    rcases hs : params.lookup s with _ | v <;> simp [hs]
  | _ => simp [find, Gives]

end Params

namespace Expr

open Operator

variable {env : Environment} {params : Params} {e x b : Expr} {es es' : List Expr}

/-! ### What binding gives -/

/-- Nothing is left to bind at the top of an expression. -/
def IsBound (env : Environment) : Expr → Prop
  | .param _ => False
  | .call op es prepared => ∃ p, prepared = some p ∧ op.prepare env es = .ok p
  | _ => True

/-- Nothing is left to bind in an expression. -/
def Bound (env : Environment) (e : Expr) : Prop := ∀ x ∈ e.parts, x.IsBound env

lemma Bound.self (h : e.Bound env) : e.IsBound env := h e (self_mem_parts e)

lemma Bound.operand (h : e.Bound env) (hx : x ∈ e.operands) : x.Bound env := fun y hy =>
  h y (mem_parts_of_operand hx hy)

lemma isBound_of_bind (h : e.bind env params = .ok b) : b.IsBound env := by
  cases e with
  | field | literal =>
    rw [bind] at h
    cases h
    trivial
  | param =>
    obtain ⟨v, -, rfl⟩ := bind_param_eq_ok.mp h
    trivial
  | compare =>
    obtain ⟨left', right', -, -, rfl⟩ := bind_compare_eq_ok.mp h
    trivial
  | all =>
    obtain ⟨es', -, rfl⟩ := bind_all_eq_ok.mp h
    trivial
  | any =>
    obtain ⟨es', -, rfl⟩ := bind_any_eq_ok.mp h
    trivial
  | not =>
    obtain ⟨e', -, rfl⟩ := bind_not_eq_ok.mp h
    trivial
  | call =>
    obtain ⟨es', prepared, -, hprepare, rfl⟩ := bind_call_eq_ok.mp h
    exact ⟨prepared, rfl, hprepare⟩

/-- Nothing is left to bind after binding. -/
lemma bound_of_bind (h : e.bind env params = .ok b) : b.Bound env := by
  induction e using byOperands generalizing b with
  | step e ih =>
    intro x hx
    rcases mem_parts.mp hx with rfl | ⟨operand, hoperand, hx⟩
    · exact isBound_of_bind h
    · obtain ⟨e', he', hbind⟩ := exists_mem_of_forall₂ (operands_of_bind h) hoperand
      exact ih e' he' hbind x hx

/-- A bound expression is bound to itself, whatever the parameters. -/
lemma bind_of_bound (h : e.Bound env) (params : Params) : e.bind env params = .ok e := by
  induction e using byOperands with
  | step e ih =>
    have hoperands : ∀ x ∈ e.operands, x.bind env params = .ok x := fun x hx =>
      ih x hx (h.operand hx)
    have heach : bindEach env params e.operands = .ok e.operands := bindEach_eq_ok.mpr
      (List.forall₂_same.mpr hoperands)
    have hself := h.self
    cases e with
    | field | literal => rfl
    | param => exact hself.elim
    | compare op left right =>
      rw [operands, List.forall_mem_cons, List.forall_mem_singleton] at hoperands
      exact bind_compare_eq_ok.mpr ⟨left, right, hoperands.1, hoperands.2, rfl⟩
    | all es => exact bind_all_eq_ok.mpr ⟨es, heach, rfl⟩
    | any es => exact bind_any_eq_ok.mpr ⟨es, heach, rfl⟩
    | not e =>
      rw [operands, List.forall_mem_singleton] at hoperands
      exact bind_not_eq_ok.mpr ⟨e, hoperands, rfl⟩
    | call op es prepared =>
      obtain ⟨p, rfl, hprepare⟩ := hself
      exact bind_call_eq_ok.mpr ⟨es, p, heach, hprepare, rfl⟩

/-! ### When binding succeeds -/

/-- Binding meets no obstacle at the top of an expression: a parameter has a value, and the operator
of a call prepares the bound arguments. -/
def CanBind (env : Environment) (params : Params) : Expr → Prop
  | .param name => params.Gives name
  | .call op es _ => ∀ es', bindEach env params es = .ok es' → ∃ p, op.prepare env es' = .ok p
  | _ => True

lemma exists_bindEach (h : ∀ x ∈ es, ∃ b, x.bind env params = .ok b) :
    ∃ es', bindEach env params es = .ok es' := by
  induction es with
  | nil => exact ⟨[], rfl⟩
  | cons e es ih =>
    rw [List.forall_mem_cons] at h
    obtain ⟨b, hb⟩ := h.1
    obtain ⟨es', hes⟩ := ih h.2
    exact ⟨b :: es', bindEach_eq_ok.mpr (.cons hb (bindEach_eq_ok.mp hes))⟩

lemma canBind_of_bind (h : e.bind env params = .ok b) : e.CanBind env params := by
  cases e with
  | param name =>
    obtain ⟨v, hfind, -⟩ := bind_param_eq_ok.mp h
    exact Params.find_eq_ok.mp ⟨v, hfind⟩
  | call op es before =>
    obtain ⟨es', prepared, hes, hprepare, -⟩ := bind_call_eq_ok.mp h
    intro es'' hes'
    cases hes.symm.trans hes'
    exact ⟨prepared, hprepare⟩
  | _ => trivial

lemma exists_bind_of_operands (hself : e.CanBind env params)
    (h : ∀ x ∈ e.operands, ∃ b, x.bind env params = .ok b) : ∃ b, e.bind env params = .ok b := by
  have heach := exists_bindEach h
  cases e with
  | field | literal => exact ⟨_, rfl⟩
  | param name =>
    obtain ⟨v, hfind⟩ := Params.find_eq_ok.mpr hself
    exact ⟨_, bind_param_eq_ok.mpr ⟨v, hfind, rfl⟩⟩
  | compare op left right =>
    rw [operands, List.forall_mem_cons, List.forall_mem_singleton] at h
    obtain ⟨⟨left', hleft⟩, right', hright⟩ := h
    exact ⟨_, bind_compare_eq_ok.mpr ⟨left', right', hleft, hright, rfl⟩⟩
  | all es =>
    obtain ⟨es', hes⟩ := heach
    exact ⟨_, bind_all_eq_ok.mpr ⟨es', hes, rfl⟩⟩
  | any es =>
    obtain ⟨es', hes⟩ := heach
    exact ⟨_, bind_any_eq_ok.mpr ⟨es', hes, rfl⟩⟩
  | not e =>
    rw [operands, List.forall_mem_singleton] at h
    obtain ⟨e', he⟩ := h
    exact ⟨_, bind_not_eq_ok.mpr ⟨e', he, rfl⟩⟩
  | call op es before =>
    obtain ⟨es', hes⟩ := heach
    obtain ⟨prepared, hprepare⟩ := hself es' hes
    exact ⟨_, bind_call_eq_ok.mpr ⟨es', prepared, hes, hprepare, rfl⟩⟩

/-- **Binding** succeeds just when nothing in the expression stands against it. -/
theorem exists_bind_iff (e : Expr) :
    (∃ b, e.bind env params = .ok b) ↔ ∀ x ∈ e.parts, x.CanBind env params := by
  induction e using byOperands with
  | step e ih =>
    constructor
    · rintro ⟨b, hb⟩ x hx
      rcases mem_parts.mp hx with rfl | ⟨operand, hoperand, hx⟩
      · exact canBind_of_bind hb
      · obtain ⟨b', -, hb'⟩ := exists_mem_of_forall₂ (operands_of_bind hb).flip hoperand
        exact (ih operand hoperand).mp ⟨b', hb'⟩ x hx
    · intro h
      refine exists_bind_of_operands (h e (self_mem_parts e)) fun operand hoperand => ?_
      exact (ih operand hoperand).mpr fun x hx => h x (mem_parts_of_operand hoperand hx)

/-! ### What fails on a document -/

/-- An operator that an expression calls raises a failure by its own function. -/
def Raises (env : Environment) (e : Expr) (err : Error) : Prop :=
  ∃ op es prepared, .call op es prepared ∈ e.parts ∧ op.Raises env err

lemma Raises.of_operand {err : Error} (hx : x ∈ e.operands) (h : x.Raises env err) :
    e.Raises env err := by
  obtain ⟨op, es, prepared, hcall, hraises⟩ := h
  exact ⟨op, es, prepared, mem_parts_of_operand hx hcall, hraises⟩

/-- Only a call is bound to a call, and of the same operator. -/
lemma exists_call_of_bind {op : Operator} {prepared : Option Prepared}
    (h : e.bind env params = .ok (.call op es prepared)) :
    ∃ es' before, e = .call op es' before := by
  cases e with
  | field | literal => cases h
  | param =>
    obtain ⟨_, -, heq⟩ := bind_param_eq_ok.mp h
    cases heq
  | compare =>
    obtain ⟨_, _, -, -, heq⟩ := bind_compare_eq_ok.mp h
    cases heq
  | all =>
    obtain ⟨_, -, heq⟩ := bind_all_eq_ok.mp h
    cases heq
  | any =>
    obtain ⟨_, -, heq⟩ := bind_any_eq_ok.mp h
    cases heq
  | not =>
    obtain ⟨_, -, heq⟩ := bind_not_eq_ok.mp h
    cases heq
  | call op' es' before =>
    obtain ⟨_, _, -, -, heq⟩ := bind_call_eq_ok.mp h
    cases heq
    exact ⟨es', before, rfl⟩

/-- A bound expression calls operators that the expression called before. -/
lemma Raises.of_bind {err : Error} (h : e.bind env params = .ok b) (hb : b.Raises env err) :
    e.Raises env err := by
  induction e using byOperands generalizing b with
  | step e ih =>
    obtain ⟨op, es, prepared, hcall, hraises⟩ := hb
    rcases mem_parts.mp hcall with rfl | ⟨operand, hoperand, hcall⟩
    · obtain ⟨es', before, rfl⟩ := exists_call_of_bind h
      exact ⟨op, es', before, self_mem_parts _, hraises⟩
    · obtain ⟨e', he', hbind⟩ := exists_mem_of_forall₂ (operands_of_bind h) hoperand
      exact (ih e' he' hbind ⟨op, es, prepared, hcall, hraises⟩).of_operand he'

/-- A prepared call comes to what its operator answers for the values of the arguments. -/
lemma eval_prepared {op : Operator} {prepared : Prepared} (h : op.prepare env es = .ok prepared)
    (d : Value) :
    (Expr.call op es (some prepared)).eval env d = (evalEach env d es).bind (op.apply env) := by
  cases op with
  | custom =>
    cases h
    rfl
  | distance namesMetric arity => exact eval_of_preparedAs (preparedAs_of_prepare h) arity d

lemma exists_mem_of_evalEach_error {d : Value} {err : Error}
    (h : evalEach env d es = .error err) : ∃ x ∈ es, x.eval env d = .error err := by
  induction es with
  | nil => cases h
  | cons e es ih =>
    rw [evalEach] at h
    split at h
    · rename_i err' he
      cases h
      exact ⟨e, List.mem_cons_self, he⟩
    · obtain ⟨x, hx, hfail⟩ := ih (map_eq_error.mp h)
      exact ⟨x, List.mem_cons_of_mem e hx, hfail⟩

lemma neverUnbound_decide (c : Comparator) (v w : Value) : NeverUnbound (c.decide v w) := by
  have happly : NeverUnbound (c.apply v w) := by
    cases c with
    | equal => exact Value.neverUnbound_eqv v w
    | unequal => exact (Value.neverUnbound_eqv v w).map
    | order r => exact Value.neverUnbound_relate r v w
  unfold Comparator.decide
  split
  case h_5 =>
    split
    · exact .of_ok _
    · rename_i e he
      split
      · exact .of_ok _
      · exact .of_error (happly e he)
  all_goals exact .of_ok _

/-- A connective fails as one of its operands does. -/
lemma exists_mem_of_junction_error (stop : Bool) {d : Value} {err : Error}
    (h : (junction stop es).eval env d = .error err) : ∃ x ∈ es, x.eval env d = .error err := by
  rw [eval_junction, connect_eq_error] at h
  obtain ⟨before, after, hsplit, -⟩ := h
  exact List.mem_map.mp (hsplit ▸ List.mem_append_right before List.mem_cons_self)

/-- **Closed evaluation**: a bound expression fails for want of a binding only as the function of an
operator that it calls does. -/
theorem raises_of_eval (hbound : e.Bound env) {d : Value} {err : Error}
    (h : e.eval env d = .error err) (hunbound : err.isUnbound = true) : e.Raises env err := by
  have hnot : ∀ {α : Type} {x : Except Error α}, NeverUnbound x → x ≠ .error err := fun hx he =>
    Bool.false_ne_true ((hx err he).symm.trans hunbound)
  induction e using byOperands with
  | step e ih =>
    have hoperand : ∀ x ∈ e.operands, x.eval env d = .error err → e.Raises env err :=
      fun x hx hx' => (ih x hx (hbound.operand hx) hx').of_operand hx
    have hself := hbound.self
    cases e with
    | field path => exact absurd h (hnot (Value.neverUnbound_atPath d path))
    | literal => cases h
    | param => exact hself.elim
    | compare op left right =>
      rw [eval] at h
      split at h
      · rename_i err' hleft
        cases h
        exact hoperand left (by simp [operands]) hleft
      · cases h
      · rcases bind_eq_error.mp h with hright | ⟨w, -, hdecide⟩
        · exact hoperand right (by simp [operands]) hright
        · exact absurd hdecide (hnot (neverUnbound_decide op _ w))
    | all es =>
      obtain ⟨x, hx, hfail⟩ := exists_mem_of_junction_error false h
      exact hoperand x hx hfail
    | any es =>
      obtain ⟨x, hx, hfail⟩ := exists_mem_of_junction_error true h
      exact hoperand x hx hfail
    | not e => exact hoperand e (by simp [operands]) (map_eq_error.mp h)
    | call op es prepared =>
      obtain ⟨p, rfl, hprepare⟩ := hself
      rw [eval_prepared hprepare] at h
      rcases bind_eq_error.mp h with heach | ⟨values, -, happly⟩
      · obtain ⟨x, hx, hfail⟩ := exists_mem_of_evalEach_error heach
        exact hoperand x hx hfail
      · exact ⟨op, es, some p, self_mem_parts _, raises_of_apply happly hunbound⟩

end Expr

end NearDoc
