import Mathlib.Data.List.Forall2
import NearDoc.Proofs.Expr.Binding

/-!
The parts of an expression: the expression itself and its operands at any depth. Main statements:
what holds of an expression as soon as it holds of its operands, holds of all expressions; and
binding goes through the operands one by one.
-/

namespace NearDoc

namespace Expr

/-- What an expression is made of. -/
def operands : Expr → List Expr
  | .compare _ left right => [left, right]
  | .all es | .any es | .call _ es _ => es
  | .not e => [e]
  | .field _ | .literal _ | .param _ => []

mutual

/-- The expression and all its operands at any depth. -/
def parts (e : Expr) : List Expr :=
  e :: match e with
    | .compare _ left right => parts left ++ parts right
    | .all es | .any es | .call _ es _ => partsEach es
    | .not e => parts e
    | _ => []
termination_by structural e

def partsEach (es : List Expr) : List Expr :=
  match es with
  | [] => []
  | e :: es => parts e ++ partsEach es
termination_by structural es

end

variable {e x : Expr} {es : List Expr}

lemma mem_partsEach : x ∈ partsEach es ↔ ∃ e ∈ es, x ∈ e.parts := by
  induction es with
  | nil => simp [partsEach]
  | cons e es ih => simp [partsEach, ih]

/-- A part of an expression is the expression or a part of an operand. -/
lemma mem_parts : x ∈ e.parts ↔ x = e ∨ ∃ operand ∈ e.operands, x ∈ operand.parts := by
  cases e <;> simp [parts, operands, mem_partsEach]

lemma self_mem_parts (e : Expr) : e ∈ e.parts := mem_parts.mpr (.inl rfl)

lemma mem_parts_of_operand {operand : Expr} (ho : operand ∈ e.operands) (hx : x ∈ operand.parts) :
    x ∈ e.parts :=
  mem_parts.mpr (.inr ⟨operand, ho, hx⟩)

mutual

/-- **Expressions by their operands**: what holds of an expression as soon as it holds of its
operands, holds of all expressions. -/
theorem byOperands {P : Expr → Prop} (step : ∀ e, (∀ operand ∈ e.operands, P operand) → P e)
    (e : Expr) : P e := by
  refine step e ?_
  match e with
  | .compare _ left right =>
    rw [operands, List.forall_mem_cons, List.forall_mem_singleton]
    exact ⟨byOperands step left, byOperands step right⟩
  | .all es | .any es | .call _ es _ => exact byOperandsEach step es
  | .not e =>
    rw [operands, List.forall_mem_singleton]
    exact byOperands step e
  | .field _ | .literal _ | .param _ => exact nofun
termination_by structural e

theorem byOperandsEach {P : Expr → Prop} (step : ∀ e, (∀ operand ∈ e.operands, P operand) → P e)
    (es : List Expr) : ∀ e ∈ es, P e := by
  match es with
  | [] => exact nofun
  | e :: es =>
    rw [List.forall_mem_cons]
    exact ⟨byOperands step e, byOperandsEach step es⟩
termination_by structural es

end

/-! ### Binding operand by operand -/

variable {env : Environment} {params : Params} {b : Expr} {es' : List Expr}

lemma bindEach_eq_mapM (es : List Expr) : bindEach env params es = es.mapM (bind env params) := by
  induction es with
  | nil => rfl
  | cons e es ih =>
    rw [bindEach, List.mapM_cons, ih]
    rcases e.bind env params with err | b
    · rfl
    · rcases es.mapM (bind env params) with err | bs <;> rfl

/-- All operands are bound if each is. -/
lemma bindEach_eq_ok :
    bindEach env params es = .ok es' ↔
      List.Forall₂ (fun e b => e.bind env params = .ok b) es es' := by
  rw [bindEach_eq_mapM]
  exact ⟨forall₂_of_mapM, mapM_of_forall₂⟩

/-- Binding binds the operands. -/
lemma operands_of_bind (h : e.bind env params = .ok b) :
    List.Forall₂ (fun e b => e.bind env params = .ok b) e.operands b.operands := by
  cases e with
  | field | literal =>
    rw [bind] at h
    cases h
    exact .nil
  | param =>
    obtain ⟨v, -, rfl⟩ := bind_param_eq_ok.mp h
    exact .nil
  | compare =>
    obtain ⟨left', right', hleft, hright, rfl⟩ := bind_compare_eq_ok.mp h
    exact .cons hleft (.cons hright .nil)
  | all =>
    obtain ⟨es', hes, rfl⟩ := bind_all_eq_ok.mp h
    exact bindEach_eq_ok.mp hes
  | any =>
    obtain ⟨es', hes, rfl⟩ := bind_any_eq_ok.mp h
    exact bindEach_eq_ok.mp hes
  | not =>
    obtain ⟨e', he, rfl⟩ := bind_not_eq_ok.mp h
    exact .cons he .nil
  | call =>
    obtain ⟨es', prepared, hes, -, rfl⟩ := bind_call_eq_ok.mp h
    exact bindEach_eq_ok.mp hes

end Expr

end NearDoc
