import NearDoc.Expr.Bind
import NearDoc.Expr.Written
import NearDoc.Proofs.Outcome

/-!
What binding makes of an expression. Main statements, one for each kind of expression: it is bound
part by part and keeps its kind, a parameter apart, which becomes the literal of its value, in its
label as well.
-/

namespace NearDoc

namespace Expr

variable {env : Environment} {params : Params} {b left right operand : Expr}
variable {es arguments : List Expr}

lemma bind_param_eq_ok {name : Value} :
    bind env params (.param name) = .ok b ↔ ∃ v, params.find name = .ok v ∧ .literal v = b :=
  map_eq_ok

lemma bind_compare_eq_ok {op : Comparator} :
    bind env params (.compare op left right) = .ok b ↔
      ∃ left' right', bind env params left = .ok left' ∧ bind env params right = .ok right' ∧
        .compare op left' right' = b := by
  rw [bind]
  rcases bind env params left with e | left'
  · simp
  · simp [map_eq_ok]

lemma bind_all_eq_ok :
    bind env params (.all es) = .ok b ↔ ∃ es', bindEach env params es = .ok es' ∧ .all es' = b :=
  map_eq_ok

lemma bind_any_eq_ok :
    bind env params (.any es) = .ok b ↔ ∃ es', bindEach env params es = .ok es' ∧ .any es' = b :=
  map_eq_ok

lemma bind_not_eq_ok :
    bind env params (.not operand) = .ok b ↔
      ∃ operand', bind env params operand = .ok operand' ∧ .not operand' = b :=
  map_eq_ok

lemma bind_call_eq_ok {op : Operator} {before : Option Prepared} :
    bind env params (.call op arguments before) = .ok b ↔
      ∃ arguments' prepared, bindEach env params arguments = .ok arguments' ∧
        op.prepare env arguments' = .ok prepared ∧ .call op arguments' (some prepared) = b := by
  rw [bind]
  rcases bindEach env params arguments with e | arguments'
  · simp [Except.bind]
  · simp [Except.bind, map_eq_ok]

/-! ### Labels -/

/-- Whether a parameter stands in the label of an expression. -/
def showsParam : Expr → Bool
  | .param _ => true
  | .compare _ left right => left.showsParam || right.showsParam
  | _ => false

/-- The label of an expression with a literal in the place of each parameter. -/
def boundLabel : Expr → Value
  | .param _ => (literal .null).label
  | .compare op left right =>
    .text (left.boundLabel.inserted ++ " " ++ op.symbol ++ " " ++ right.boundLabel.inserted)
  | e => e.label

/-- A label without a parameter in it stays. -/
lemma boundLabel_eq (e : Expr) (h : e.showsParam = false) : e.boundLabel = e.label := by
  match e with
  | .compare op left right =>
    obtain ⟨hleft, hright⟩ := Bool.or_eq_false_iff.mp h
    rw [boundLabel, label, boundLabel_eq left hleft, boundLabel_eq right hright]
  | .param _ => cases h
  | .field _ | .literal _ | .all _ | .any _ | .not _ | .call .. => rfl

/-- Binding puts literals in the place of parameters, in the label as well. -/
theorem label_of_bind (e : Expr) {b : Expr} (h : e.bind env params = .ok b) :
    b.label = e.boundLabel := by
  match e with
  | .field _ | .literal _ =>
    rw [bind] at h
    cases h
    rfl
  | .param _ =>
    obtain ⟨v, -, rfl⟩ := bind_param_eq_ok.mp h
    rfl
  | .compare op left right =>
    obtain ⟨left', right', hleft, hright, rfl⟩ := bind_compare_eq_ok.mp h
    rw [label, boundLabel, label_of_bind left hleft, label_of_bind right hright]
  | .all _ =>
    obtain ⟨_, -, rfl⟩ := bind_all_eq_ok.mp h
    rfl
  | .any _ =>
    obtain ⟨_, -, rfl⟩ := bind_any_eq_ok.mp h
    rfl
  | .not _ =>
    obtain ⟨_, -, rfl⟩ := bind_not_eq_ok.mp h
    rfl
  | .call .. =>
    obtain ⟨_, _, -, -, rfl⟩ := bind_call_eq_ok.mp h
    rfl

end Expr

end NearDoc
