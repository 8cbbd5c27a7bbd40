import NearDoc.Proofs.Expr.Connective
import NearDoc.Proofs.Expr.Prepared
import Mathlib.Logic.Relation

/-!
Logical rewriting. Negation may be pushed through a connective, two negations over what comes to a
truth value may go, and a connective directly inside itself may be opened up, at every place of an
expression and any number of times. Main statement: no document tells the difference, failures
included, and none does when the expression was rewritten before its parameters were given.
-/

namespace NearDoc

namespace Expr

/-- Whether an expression is a connective or a comparison, which come to truth values only. -/
def isLogical : Expr → Bool
  | .all _ | .any _ | .not _ | .compare .. => true
  | _ => false

/-- One step of rewriting, at one place of an expression. -/
inductive Rewrites : Expr → Expr → Prop where
  /-- De Morgan: negation is pushed through a connective. -/
  | pushNot (stop : Bool) (es : List Expr) :
      Rewrites (.not (junction stop es)) (junction (!stop) (es.map .not))
  /-- Two negations over a connective or a comparison go. -/
  | doubleNot {e : Expr} (h : e.isLogical = true) : Rewrites (.not (.not e)) e
  /-- A connective directly inside itself is opened up. -/
  | flatten (stop : Bool) (before inner after : List Expr) :
      Rewrites (junction stop (before ++ junction stop inner :: after))
        (junction stop (before ++ (inner ++ after)))
  | underNot {e e' : Expr} (h : Rewrites e e') : Rewrites (.not e) (.not e')
  | inJunction (stop : Bool) (before after : List Expr) {e e' : Expr} (h : Rewrites e e') :
      Rewrites (junction stop (before ++ e :: after)) (junction stop (before ++ e' :: after))
  | inLeft (op : Comparator) (right : Expr) {e e' : Expr} (h : Rewrites e e') :
      Rewrites (.compare op e right) (.compare op e' right)
  | inRight (op : Comparator) (left : Expr) {e e' : Expr} (h : Rewrites e e') :
      Rewrites (.compare op left e) (.compare op left e')
  | inCall (operator : Operator) (before after : List Expr) (prepared : Option Prepared)
      {e e' : Expr} (h : Rewrites e e') :
      Rewrites (.call operator (before ++ e :: after) prepared)
        (.call operator (before ++ e' :: after) prepared)

variable {env : Environment} {params : Params} {d : Value} {a b : Expr}

/-! ### On a document -/

lemma truth_of_decide {c : Comparator} {v w r : Value} (h : c.decide v w = .ok r) :
    r.truth = r := by
  unfold Comparator.decide at h
  repeat' split at h
  all_goals cases h <;> rfl

/-- A connective or a comparison comes to a truth value or to nothing. -/
lemma truth_of_logical {e : Expr} (he : e.isLogical = true) {v : Value}
    (h : e.eval env d = .ok v) : v.truth = v := by
  cases e with
  | compare op left right =>
    rw [eval] at h
    split at h
    · cases h
    · cases h
      rfl
    · obtain ⟨w, -, hw⟩ := bind_eq_ok.mp h
      exact truth_of_decide hw
  | all es => exact truth_of_connect ((eval_junction false es).symm.trans h)
  | any es => exact truth_of_connect ((eval_junction true es).symm.trans h)
  | not e =>
    obtain ⟨w, -, rfl⟩ := map_eq_ok.mp h
    cases w <;> rfl
  | field | literal | param | call => cases he

lemma map_truth_of_logical {e : Expr} (he : e.isLogical = true) :
    (e.eval env d).map Value.truth = e.eval env d := by
  rcases h : e.eval env d with err | v
  · rfl
  · exact congrArg Except.ok (truth_of_logical he h)

/-- The values of arguments are told by what each comes to. -/
lemma evalEach_congr {es es' : List Expr} (h : es.map (eval env d) = es'.map (eval env d)) :
    evalEach env d es = evalEach env d es' := by
  induction es generalizing es' with
  | nil =>
    cases es' with
    | nil => rfl
    | cons e' es' => cases h
  | cons e es ih =>
    cases es' with
    | nil => cases h
    | cons e' es' =>
      obtain ⟨he, hes⟩ := List.cons.inj h
      rw [evalEach, evalEach, he, ih hes]

/-- A call is told by what each argument comes to. -/
lemma eval_call_congr (operator : Operator) (prepared : Option Prepared) {es es' : List Expr}
    (h : es.map (eval env d) = es'.map (eval env d)) :
    (Expr.call operator es prepared).eval env d = (Expr.call operator es' prepared).eval env d := by
  rcases prepared with _ | _ | key | ⟨target, metric⟩
  · rfl
  · rw [eval, eval, evalEach_congr h]
  · rfl
  · rcases es with _ | ⟨e, es⟩ <;> rcases es' with _ | ⟨e', es'⟩
    · rfl
    · cases h
    · cases h
    · rw [eval, eval, (List.cons.inj h).1]

/-- One step of rewriting changes nothing of what an expression comes to. -/
lemma eval_of_rewrites (h : Rewrites a b) : a.eval env d = b.eval env d := by
  induction h with
  | pushNot stop es =>
    rw [eval_junction, List.map_map]
    exact (congrArg (Except.map negate) (eval_junction _ es)).trans
      ((connect_negate _).trans (by rw [List.map_map]; rfl))
  | @doubleNot e h =>
    calc (Expr.not (.not e)).eval env d
        = (e.eval env d).map Value.truth := by
          rw [eval, eval]
          rcases e.eval env d with err | v
          · rfl
          · exact congrArg Except.ok (negate_negate v)
      _ = e.eval env d := map_truth_of_logical h
  | flatten stop before inner after =>
    rw [eval_junction, eval_junction]
    simp only [List.map_append, List.map_cons, eval_junction]
    exact connect_flatten _ _ _
  | underNot _ ih => rw [eval, eval, ih]
  | inJunction stop before after _ ih =>
    rw [eval_junction, eval_junction, List.map_append, List.map_append, List.map_cons,
      List.map_cons, ih]
  | inLeft op right _ ih => rw [eval, eval, ih]
  | inRight op left _ ih => rw [eval, eval, ih]
  | inCall operator before after prepared _ ih =>
    refine eval_call_congr operator prepared ?_
    rw [List.map_append, List.map_append, List.map_cons, List.map_cons, ih]

/-! ### Before binding -/

lemma bind_junction (stop : Bool) (es : List Expr) :
    (junction stop es).bind env params = (bindEach env params es).map (junction stop) := by
  cases stop <;> rfl

lemma bindEach_not (es : List Expr) :
    bindEach env params (es.map .not) = (bindEach env params es).map (·.map .not) := by
  induction es with
  | nil => rfl
  | cons e es ih =>
    rw [List.map_cons, bindEach, bind, ih, bindEach]
    rcases e.bind env params with err | e'
    · rfl
    · rcases bindEach env params es with err | es' <;> rfl

lemma bindEach_append (es es' : List Expr) :
    bindEach env params (es ++ es') =
      (bindEach env params es).bind fun bs => (bindEach env params es').map (bs ++ ·) := by
  induction es with
  | nil =>
    rw [List.nil_append, bindEach]
    rcases bindEach env params es' with err | bs <;> rfl
  | cons e es ih =>
    rw [List.cons_append, bindEach, ih, bindEach]
    rcases e.bind env params with err | e'
    · rfl
    · rcases bindEach env params es with err | bs
      · rfl
      · rcases bindEach env params es' with err | bs' <;> rfl

/-- Outcomes that fail alike or have related values. -/
def Alike (R : Expr → Expr → Prop) (x y : Except Error Expr) : Prop :=
  (∃ err, x = .error err ∧ y = .error err) ∨ ∃ a b, x = .ok a ∧ y = .ok b ∧ R a b

namespace Alike

variable {R : Expr → Expr → Prop}

lemma error (err : Error) : Alike R (.error err) (.error err) := .inl ⟨err, rfl, rfl⟩

lemma ok (h : R a b) : Alike R (.ok a) (.ok b) := .inr ⟨a, b, rfl, rfl, h⟩

lemma bind_eq {α : Type} {x y : Except Error Expr} (h : Alike R x y) {f : Expr → Except Error α}
    (hf : ∀ a b, R a b → f a = f b) : x.bind f = y.bind f := by
  obtain ⟨err, rfl, rfl⟩ | ⟨a, b, rfl, rfl, h⟩ := h
  · rfl
  · exact hf a b h

end Alike

lemma isLogical_of_bind {e : Expr} (he : e.isLogical = true) (h : e.bind env params = .ok b) :
    b.isLogical = true := by
  cases e with
  | compare op left right =>
    obtain ⟨_, _, -, -, rfl⟩ := bind_compare_eq_ok.mp h
    rfl
  | all es =>
    obtain ⟨_, -, rfl⟩ := bind_all_eq_ok.mp h
    rfl
  | any es =>
    obtain ⟨_, -, rfl⟩ := bind_any_eq_ok.mp h
    rfl
  | not e =>
    obtain ⟨_, -, rfl⟩ := bind_not_eq_ok.mp h
    rfl
  | field | literal | param | call => cases he

/-- What is rewritten, and what it is rewritten to, has parts: it is no literal and no field. -/
def isCompound : Expr → Bool
  | .field _ | .literal _ | .param _ => false
  | _ => true

lemma isCompound_junction (stop : Bool) (es : List Expr) : (junction stop es).isCompound = true := by
  cases stop <;> rfl

lemma isCompound_of_rewrites (h : Rewrites a b) :
    a.isCompound = true ∧ b.isCompound = true := by
  cases h with
  | doubleNot h =>
    refine ⟨rfl, ?_⟩
    cases b with
    | field | literal | param | call => cases h
    | compare | all | any | not => rfl
  | pushNot => exact ⟨rfl, isCompound_junction _ _⟩
  | flatten | inJunction => exact ⟨isCompound_junction _ _, isCompound_junction _ _⟩
  | underNot | inLeft | inRight | inCall => exact ⟨rfl, rfl⟩

lemma literal?_of_isCompound {e : Expr} (h : e.isCompound = true) : e.literal? = none := by
  cases e <;> first | rfl | cases h

/-- How a call is prepared depends on its literals and on the field it measures. -/
lemma prepare_congr (operator : Operator) (before after : List Expr) (ha : a.isCompound = true)
    (hb : b.isCompound = true) :
    operator.prepare env (before ++ a :: after) = operator.prepare env (before ++ b :: after) := by
  cases operator with
  | custom => rfl
  | distance namesMetric arity =>
    have hla := literal?_of_isCompound ha
    have hlb := literal?_of_isCompound hb
    rw [Operator.prepare, Operator.prepare]
    rcases before with _ | ⟨first, _ | ⟨target, before⟩⟩
    · cases after with
      | nil => rfl
      | cons target rest =>
        -- only a field in first place is told apart from the rest
        simp only [List.nil_append, Operator.prepareDistance]
        cases a <;> cases ha <;> cases b <;> cases hb <;> rfl
    · simp only [List.cons_append, List.nil_append, Operator.prepareDistance, hla, hlb]
    · have hrest (e : Expr) (he : e.literal? = none) :
          (before ++ e :: after).mapM literal? = none := by
        by_contra hsome
        obtain ⟨values, hvalues⟩ := Option.ne_none_iff_exists'.mp hsome
        have hmem : e ∈ values.map literal := by
          rw [← Operator.mapM_literal?_eq_some.mp hvalues]
          simp
        obtain ⟨v, -, rfl⟩ := List.mem_map.mp hmem
        cases he
      simp only [List.cons_append, Operator.prepareDistance, hrest a hla, hrest b hlb]

/-- Rewriting before binding is rewriting after it. -/
lemma bind_of_rewrites (h : Rewrites a b) :
    Alike Rewrites (a.bind env params) (b.bind env params) := by
  induction h with
  | pushNot stop es =>
    rw [bind, bind_junction, bind_junction, bindEach_not]
    rcases bindEach env params es with err | bs
    · exact .error err
    · exact .ok (.pushNot stop bs)
  | @doubleNot e h =>
    rw [bind, bind]
    rcases hb : e.bind env params with err | b
    · exact .error err
    · exact .ok (.doubleNot (isLogical_of_bind h hb))
  | flatten stop before inner after =>
    rw [bind_junction, bind_junction, bindEach_append, bindEach_append, bindEach_append, bindEach,
      bind_junction]
    rcases bindEach env params before with err | before'
    · exact .error err
    · rcases bindEach env params inner with err | inner'
      · exact .error err
      · rcases bindEach env params after with err | after'
        · exact .error err
        · exact .ok (.flatten stop before' inner' after')
  | underNot _ ih =>
    rw [bind, bind]
    obtain ⟨err, ha, hb⟩ | ⟨a', b', ha, hb, h⟩ := ih <;> rw [ha, hb]
    · exact .error err
    · exact .ok (.underNot h)
  | inJunction stop before after _ ih =>
    rw [bind_junction, bind_junction, bindEach_append, bindEach_append, bindEach, bindEach]
    rcases bindEach env params before with err | before'
    · exact .error err
    · obtain ⟨err, ha, hb⟩ | ⟨a', b', ha, hb, h⟩ := ih <;> rw [ha, hb]
      · exact .error err
      · rcases bindEach env params after with err | after'
        · exact .error err
        · exact .ok (.inJunction stop before' after' h)
  | inLeft op right _ ih =>
    rw [bind, bind]
    obtain ⟨err, ha, hb⟩ | ⟨a', b', ha, hb, h⟩ := ih <;> rw [ha, hb]
    · exact .error err
    · rcases right.bind env params with err | right'
      · exact .error err
      · exact .ok (.inLeft op right' h)
  | inRight op left _ ih =>
    rw [bind, bind]
    rcases left.bind env params with err | left'
    · exact .error err
    · obtain ⟨err, ha, hb⟩ | ⟨a', b', ha, hb, h⟩ := ih <;> rw [ha, hb]
      · exact .error err
      · exact .ok (.inRight op left' h)
  | inCall operator before after prepared _ ih =>
    rw [bind, bind, bindEach_append, bindEach_append, bindEach, bindEach]
    rcases bindEach env params before with err | before'
    · exact .error err
    · obtain ⟨err, ha, hb⟩ | ⟨a', b', ha, hb, h⟩ := ih <;> rw [ha, hb]
      · exact .error err
      · rcases bindEach env params after with err | after'
        · exact .error err
        · obtain ⟨hca, hcb⟩ := isCompound_of_rewrites h
          simp only [Except.bind, Except.map, prepare_congr operator before' after' hca hcb]
          rcases operator.prepare env (before' ++ b' :: after') with err | prepared'
          · exact .error err
          · exact .ok (.inCall operator before' after' (some prepared') h)

/-! ### Any number of steps -/

/-- Rewriting in steps, one way or the other, keeps whatever each step keeps. -/
lemma eq_of_eqvGen {α : Type} {f : Expr → α} (hf : ∀ a b, Rewrites a b → f a = f b)
    (h : Relation.EqvGen Rewrites a b) : f a = f b := by
  induction h with
  | rel a b h => exact hf a b h
  | refl a => rfl
  | symm a b _ ih => exact ih.symm
  | trans a b c _ _ ih ih' => exact ih.trans ih'

/-- What a connective makes of its operands on a document. -/
structure Connects (env : Environment) (d : Value) (stop : Bool) (es : List Expr) : Prop where
  /-- An operand that is neither true nor false counts as undefined. -/
  counts : ∀ before e after v, es = before ++ e :: after → e.eval env d = .ok v →
    v ≠ .bool true → v ≠ .bool false →
      (junction stop es).eval env d =
        (junction stop (before ++ .literal .undefined :: after)).eval env d
  /-- The connective fails as soon as an operand does that no operand before it makes needless. -/
  raises : (∃ err, (junction stop es).eval env d = .error err) ↔
    ∃ before e after, es = before ++ e :: after ∧ (∃ err, e.eval env d = .error err) ∧
      ∀ x ∈ before, x.eval env d ≠ .ok (.bool stop)
  /-- The failure is that of the first operand that fails. -/
  failure : ∀ err, (junction stop es).eval env d = .error err ↔
    ∃ before e after, es = before ++ e :: after ∧ e.eval env d = .error err ∧
      ∀ x ∈ before, ∃ v, x.eval env d = .ok v ∧ v ≠ .bool stop
  /-- Without a failure one operand decides, or all do. -/
  value : ∀ vs : List Value, es.map (eval env d) = vs.map .ok →
    (junction stop es).eval env d =
      .ok (if some stop ∈ vs.map Value.truth? then .bool stop
        else if none ∈ vs.map Value.truth? then .undefined else .bool !stop)
  /-- Without a failure the order of the operands does not matter. -/
  order : (∀ e ∈ es, ∃ v, e.eval env d = .ok v) → ∀ es', es.Perm es' →
    (junction stop es).eval env d = (junction stop es').eval env d

lemma junction_counts {stop : Bool} {before after : List Expr} {e : Expr} {v : Value}
    (he : e.eval env d = .ok v) (htrue : v ≠ .bool true) (hfalse : v ≠ .bool false) :
    (junction stop (before ++ e :: after)).eval env d =
      (junction stop (before ++ .literal .undefined :: after)).eval env d := by
  have hv : v.truth? = none := by
    rcases h : v.truth? with _ | _ | _
    · rfl
    · exact absurd (Value.truth?_eq_some.mp h) hfalse
    · exact absurd (Value.truth?_eq_some.mp h) htrue
  rw [eval_junction, eval_junction, List.map_append, List.map_append, List.map_cons, List.map_cons,
    he, eval]
  refine connect_append_congr (fun u => ?_) _
  rw [connect, connect, hv, Value.truth?_undefined]

lemma junction_failure {stop : Bool} {es : List Expr} {err : Error} :
    (junction stop es).eval env d = .error err ↔
      ∃ before e after, es = before ++ e :: after ∧ e.eval env d = .error err ∧
        ∀ x ∈ before, ∃ v, x.eval env d = .ok v ∧ v ≠ .bool stop := by
  rw [eval_junction, connect_eq_error]
  constructor
  · rintro ⟨outcomes, rest, hes, hbefore⟩
    obtain ⟨before, tail, rfl, rfl, htail⟩ := List.map_eq_append_iff.mp hes
    obtain ⟨e, after, rfl, he, rfl⟩ := List.map_eq_cons_iff.mp htail
    exact ⟨before, e, after, rfl, he, fun x hx => hbefore _ (List.mem_map_of_mem hx)⟩
  · rintro ⟨before, e, after, rfl, he, hbefore⟩
    refine ⟨before.map (eval env d), after.map (eval env d), by simp [he], ?_⟩
    simpa using hbefore

lemma connects (env : Environment) (d : Value) (stop : Bool) (es : List Expr) :
    Connects env d stop es where
  counts := by
    rintro before e after v rfl he htrue hfalse
    exact junction_counts he htrue hfalse
  raises := by
    constructor
    · rintro ⟨err, h⟩
      obtain ⟨before, e, after, hes, he, hbefore⟩ := junction_failure.mp h
      refine ⟨before, e, after, hes, ⟨err, he⟩, fun x hx hstop => ?_⟩
      obtain ⟨v, hv, hne⟩ := hbefore x hx
      exact hne (Except.ok.inj (hv.symm.trans hstop))
    · rintro ⟨before, e, after, rfl, ⟨err, he⟩, hbefore⟩
      rw [eval_junction, List.map_append, List.map_cons, he]
      exact exists_connect_error (by simpa using hbefore)
  failure := fun _ => junction_failure
  value := fun vs h => by
    rw [eval_junction, h, connect_ok]
    simp
  order := fun h es' hperm => by
    choose! value hvalue using h
    have hes : es.map (eval env d) = (es.map value).map .ok := by
      rw [List.map_map]
      exact List.map_congr_left hvalue
    have hes' : es'.map (eval env d) = (es'.map value).map .ok := by
      rw [List.map_map]
      exact List.map_congr_left fun e he => hvalue e (hperm.mem_iff.mpr he)
    rw [eval_junction, eval_junction, hes, hes', connect_perm (hperm.map value)]

/-- **Logical rewriting** keeps what an expression comes to on a document, failures included, and
may as well come before binding. Connectives and comparisons come to true, false or undefined;
operands that come to something else count as undefined; a connective fails if and only if an
operand does that no operand before it makes needless; and without a failure the order of its
operands does not matter. -/
theorem logical_rewriting (env : Environment) (params : Params) (d : Value) :
    (∀ a b, Relation.EqvGen Rewrites a b →
      a.eval env d = b.eval env d ∧
      (a.bind env params).bind (eval env d) = (b.bind env params).bind (eval env d)) ∧
    (∀ (e : Expr) (v : Value), e.isLogical = true → e.eval env d = .ok v →
      v = .bool true ∨ v = .bool false ∨ v = .undefined) ∧
    (∀ (e : Expr) (v : Value), e.eval env d = .ok v → v ≠ .bool true → v ≠ .bool false →
      (Expr.not e).eval env d = .ok .undefined) ∧
    ∀ stop es, Connects env d stop es := by
  refine ⟨fun a b h => ⟨?_, ?_⟩, fun e v he h => ?_, fun e v h htrue hfalse => ?_,
    connects env d⟩
  · exact eq_of_eqvGen (fun _ _ => eval_of_rewrites) h
  · exact eq_of_eqvGen
      (fun _ _ h => (bind_of_rewrites h).bind_eq fun _ _ => eval_of_rewrites) h
  · rw [← truth_of_logical he h]
    exact v.truth_cases
  · rw [eval, h]
    rcases v with _ | (_ | _) <;> first | rfl | contradiction

/-- A guard: two negations around a disjunction whose second operand lacks its parameter. -/
def guarded : Expr :=
  .not (.all [.compare (.equal false) (.field "a") (.literal (.int 2)),
    .not (.any [.field "b", .param (.text "p")])])

/-- The guard with its negations pushed inwards and its disjunctions in one. -/
def opened : Expr :=
  .any [.not (.compare (.equal false) (.field "a") (.literal (.int 2))), .field "b",
    .param (.text "p")]

/-- De Morgan, then two negations less, then one disjunction less. -/
lemma guarded_eqvGen_opened : Relation.EqvGen Rewrites guarded opened := by
  let first : Expr := .not (.compare (.equal false) (.field "a") (.literal (.int 2)))
  let inner : List Expr := [.field "b", .param (.text "p")]
  have hpush : Rewrites guarded (.any [first, .not (.not (.any inner))]) := .pushNot false _
  have hdouble : Rewrites (.any [first, .not (.not (.any inner))]) (.any [first, .any inner]) :=
    .inJunction true [first] [] (.doubleNot rfl)
  have hflatten : Rewrites (.any [first, .any inner]) opened := .flatten true [first] inner []
  exact (Relation.EqvGen.rel _ _ hpush).trans _ _ _
    ((Relation.EqvGen.rel _ _ hdouble).trans _ _ _ (.rel _ _ hflatten))

/-- Where the guard does not hold the missing parameter is met, before and after. -/
theorem logical_rewriting_guarded :
    guarded.eval {} (.object [("a", .int 2)]) = opened.eval {} (.object [("a", .int 2)]) ∧
      (opened.eval {} (.object [("a", .int 2)])).isOk = false :=
  ⟨((logical_rewriting {} [] _).1 _ _ guarded_eqvGen_opened).1, by decide +kernel⟩

end Expr

end NearDoc
