import Mathlib.Data.List.Forall2
import Mathlib.Tactic.Common
import NearDoc.Value.Basic

/-!
The parts of a value: the value itself and what it holds at any depth. Main statement: what holds of
a value as soon as it holds of all that the value holds, holds of all values.
-/

namespace NearDoc

namespace Value

mutual

/-- The value and all that it holds at any depth, the items of arrays as scalars. -/
def parts (v : Value) : List Value :=
  v :: match v with
    | .list xs | .tuple xs => partsList xs
    | .object fields => partsFields fields
    | .embedding e => e.components.map .real
    | .array a => a.items.map fun n => .scalar ⟨a.element, n⟩
    | _ => []
termination_by structural v

def partsList (xs : List Value) : List Value :=
  match xs with
  | [] => []
  | x :: xs => parts x ++ partsList xs
termination_by structural xs

def partsFields (fields : List (String × Value)) : List Value :=
  match fields with
  | [] => []
  | (_, x) :: fields => parts x ++ partsFields fields
termination_by structural fields

end

/-- What a value holds itself. -/
def held : Value → List Value
  | .list xs | .tuple xs => xs
  | .object fields => fields.map (·.2)
  | .embedding e => e.components.map .real
  | .array a => a.items.map fun n => .scalar ⟨a.element, n⟩
  | _ => []

variable {v w : Value} {xs ys : List Value} {fields : List (String × Value)}

lemma mem_partsList : w ∈ partsList xs ↔ ∃ x ∈ xs, w ∈ x.parts := by
  induction xs with
  | nil => simp [partsList]
  | cons x xs ih => simp [partsList, ih]

lemma mem_partsFields : w ∈ partsFields fields ↔ ∃ f ∈ fields, w ∈ f.2.parts := by
  induction fields with
  | nil => simp [partsFields]
  | cons f fields ih => simp [partsFields, ih]

/-- A part of a value is the value or a part of what it holds. -/
lemma mem_parts : w ∈ v.parts ↔ w = v ∨ ∃ x ∈ v.held, w ∈ x.parts := by
  cases v with
  | list xs | tuple xs => rw [parts, List.mem_cons, mem_partsList, held]
  | object fields =>
    rw [parts, List.mem_cons, mem_partsFields, held]
    simp only [List.mem_map, exists_exists_and_eq_and]
  | embedding e =>
    rw [parts, held]
    simp [parts, eq_comm (b := w)]
  | array a =>
    rw [parts, held]
    simp [parts, eq_comm (b := w)]
  | _ => simp [parts, held]

lemma self_mem_parts (v : Value) : v ∈ v.parts := mem_parts.mpr (.inl rfl)

lemma mem_parts_of_held {x : Value} (hx : x ∈ v.held) (hw : w ∈ x.parts) : w ∈ v.parts :=
  mem_parts.mpr (.inr ⟨x, hx, hw⟩)

mutual

/-- **Values by what they hold**: what holds of a value as soon as it holds of all that the value
holds, holds of all values. -/
theorem byHeld {P : Value → Prop} (step : ∀ v, (∀ x ∈ v.held, P x) → P v) (v : Value) : P v := by
  refine step v ?_
  match v with
  | .list xs | .tuple xs => exact byHeldList step xs
  | .object fields =>
    rw [held, List.forall_mem_map]
    exact byHeldFields step fields
  | .embedding e =>
    rw [held, List.forall_mem_map]
    exact fun x _ => step _ nofun
  | .array a =>
    rw [held, List.forall_mem_map]
    exact fun n _ => step _ nofun
  | .null | .bool _ | .int _ | .real _ | .text _ | .bytes _ | .scalar _ | .undefined => exact nofun
termination_by structural v

theorem byHeldList {P : Value → Prop} (step : ∀ v, (∀ x ∈ v.held, P x) → P v) (xs : List Value) :
    ∀ x ∈ xs, P x := by
  match xs with
  | [] => exact nofun
  | x :: xs =>
    rw [List.forall_mem_cons]
    exact ⟨byHeld step x, byHeldList step xs⟩
termination_by structural xs

theorem byHeldFields {P : Value → Prop} (step : ∀ v, (∀ x ∈ v.held, P x) → P v)
    (fields : List (String × Value)) : ∀ f ∈ fields, P f.2 := by
  match fields with
  | [] => exact nofun
  | (_, x) :: fields =>
    rw [List.forall_mem_cons]
    exact ⟨byHeld step x, byHeldFields step fields⟩
termination_by structural fields

end

/-! ### Another order of fields -/

/-- A plain value with the fields of objects, each name once, in another order, at any depth. -/
inductive Reorders : Value → Value → Prop where
  | refl (v : Value) : Reorders v v
  | trans {u v w : Value} (h : Reorders u v) (h' : Reorders v w) : Reorders u w
  | fields {fs gs : Fields} (h : fs.Perm gs) (hnames : (fs.map (·.1)).Nodup) :
      Reorders (.object fs) (.object gs)
  | item (before after : List Value) {v w : Value} (h : Reorders v w) :
      Reorders (.list (before ++ v :: after)) (.list (before ++ w :: after))
  | field (before after : Fields) (name : String) {v w : Value} (h : Reorders v w) :
      Reorders (.object (before ++ (name, v) :: after)) (.object (before ++ (name, w) :: after))

/-- Items may be reordered one by one. -/
lemma Reorders.list (h : List.Forall₂ Reorders xs ys) : Reorders (.list xs) (.list ys) := by
  suffices hfront : ∀ front, Reorders (.list (front ++ xs)) (.list (front ++ ys)) from hfront []
  induction h with
  | nil => exact fun front => .refl _
  | @cons x y xs ys hxy _ ih =>
    intro front
    have hrest := ih (front ++ [y])
    rw [List.append_assoc, List.append_assoc] at hrest
    exact .trans (.item front xs hxy) hrest

/-- The values of fields may be reordered one by one. -/
lemma Reorders.object {fs gs : Fields}
    (h : List.Forall₂ (fun f g : String × Value => f.1 = g.1 ∧ Reorders f.2 g.2) fs gs) :
    Reorders (.object fs) (.object gs) := by
  suffices hfront : ∀ front, Reorders (.object (front ++ fs)) (.object (front ++ gs)) from hfront []
  induction h with
  | nil => exact fun front => .refl _
  | @cons f g fs gs hfg _ ih =>
    intro front
    obtain ⟨name, v⟩ := f
    obtain ⟨_, w⟩ := g
    obtain ⟨rfl, hvw⟩ : name = _ ∧ Reorders v w := hfg
    have hrest := ih (front ++ [(name, w)])
    rw [List.append_assoc, List.append_assoc] at hrest
    exact .trans (.field front fs name hvw) hrest

end Value

end NearDoc
