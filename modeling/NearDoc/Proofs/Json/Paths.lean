import NearDoc.Proofs.Json.Stored
import NearDoc.Vector.Cast

/-!
Paths into a value that is read back. A path leads to what is read back of what it led to, unless it
goes into what was an embedding: there it led nowhere, and now it leads to a number at most. Main
statement: what a value is cast to, the value that is read back in its place holds.
-/

namespace NearDoc

open Text Number

namespace Value

/-- An object has each name once; arrays and numbers of declared type are left out. -/
def IsUntypedNode : Value → Prop
  | .object fields => (fields.map (·.1)).Nodup
  | .array _ | .scalar _ => False
  | _ => True

/-- A value without declared types at any depth. -/
def IsUntyped (v : Value) : Prop := ∀ w ∈ v.parts, w.IsUntypedNode

variable {v x : Value} {xs : List Value}

lemma IsUntyped.self (h : v.IsUntyped) : v.IsUntypedNode := h v (self_mem_parts v)

lemma IsUntyped.held (h : v.IsUntyped) (hx : x ∈ v.held) : x.IsUntyped := fun w hw =>
  h w (mem_parts_of_held hx hw)

lemma IsUntyped.wellFormed (h : v.IsUntyped) : ∀ w ∈ v.parts, w.WellFormed := fun w hw => by
  have hnode := h w hw
  cases w <;> first | exact hnode | exact trivial | exact hnode.elim

lemma isUntyped_undefined : Value.undefined.IsUntyped := by
  simp [IsUntyped, parts, IsUntypedNode]

/-- A step leads to what a value holds, if it leads anywhere. -/
lemma step_eq_undefined_or_mem (v : Value) (segment : List Char) :
    v.step segment = .undefined ∨ v.step segment ∈ v.held := by
  cases v with
  | object fields =>
    rcases hfind : fields.lookup (String.ofList segment) with _ | x
    · exact .inl (by rw [step, hfind, Option.getD_none])
    · obtain ⟨front, rest, rfl, -⟩ := List.lookup_eq_some_iff.mp hfind
      refine .inr ?_
      rw [step, hfind, held]
      simp
  | list xs | tuple xs =>
    rcases hitem : (Path.index? segment).bind (xs[·]?) with _ | x
    · exact .inl (by rw [step, hitem, Option.getD_none])
    · obtain ⟨i, -, hi⟩ := Option.bind_eq_some_iff.mp hitem
      refine .inr ?_
      rw [step, hitem, held]
      exact List.mem_of_getElem? hi
  | _ => exact .inl rfl

lemma IsUntyped.step (h : v.IsUntyped) (segment : List Char) : (v.step segment).IsUntyped := by
  rcases step_eq_undefined_or_mem v segment with hnone | hmem
  · rw [hnone]
    exact isUntyped_undefined
  · exact h.held hmem

lemma IsUntyped.follow (h : v.IsUntyped) (segments : List (List Char)) :
    (v.follow segments).IsUntyped := by
  induction segments generalizing v with
  | nil => exact h
  | cons segment segments ih => exact ih (h.step segment)

end Value

namespace Json

variable {v w : Value}

/-- What stands in the place of a value once it is read back: what the value is read back as, and a
number where there was none, in what was an embedding. -/
inductive Replaces : Value → Value → Prop where
  | reread (v : Value) : Replaces v (readBack v)
  | component (x : Binary64) : Replaces .undefined (.real x)

/-- A field of an object that is read back is what is read back of the field. -/
lemma get?_readBackFields {fields : Fields} (hnames : (fields.map (·.1)).Nodup) (name : String) :
    Fields.get? (Fields.ofList (sortByName (readBackFields fields))) name =
      (Fields.get? fields name).map readBack := by
  have hsorted := nodup_readBackFields hnames
  calc Fields.get? (Fields.ofList (sortByName (readBackFields fields))) name
      = Fields.get? (sortByName (readBackFields fields)) name := by
        rw [Fields.ofList_of_nodup hsorted]
    _ = Fields.get? (readBackFields fields) name :=
        Fields.get?_of_perm (perm_sortByName _) hsorted name
    _ = (Fields.get? fields name).map readBack := by
        rw [readBackFields_eq, Fields.get?_map]

/-- An item of a list that is read back is what is read back of the item. -/
lemma getD_item (xs : List Value) (i? : Option Nat) :
    (i?.bind ((xs.map readBack)[·]?)).getD .undefined =
      readBack ((i?.bind (xs[·]?)).getD .undefined) := by
  rcases i? with _ | i
  · rfl
  · rw [Option.bind_some, Option.bind_some, List.getElem?_map]
    cases xs[i]? <;> rfl

/-- A step into an object whose field is read back. -/
lemma replaces_field {fields back : Fields} {segment : List Char}
    (h : Fields.get? back (String.ofList segment) =
      (Fields.get? fields (String.ofList segment)).map readBack) :
    Replaces ((Value.object fields).step segment) ((Value.object back).step segment) := by
  change Replaces ((Fields.get? fields _).getD .undefined) ((Fields.get? back _).getD .undefined)
  rw [h]
  cases Fields.get? fields (String.ofList segment) with
  | none => exact .reread .undefined
  | some x => exact .reread x

/-- **One step**: it leads to what replaces what it led to. -/
theorem Replaces.step (h : Replaces v w) (hv : v.IsUntyped) (segment : List Char) :
    Replaces (v.step segment) (w.step segment) := by
  cases h with
  | component x => exact .reread .undefined
  | reread =>
    cases v with
    | list xs | tuple xs =>
      rw [readBack, readBackList_eq, Value.step, Value.step, getD_item]
      exact .reread _
    | object fields =>
      exact replaces_field (get?_readBackFields hv.self _)
    | embedding e =>
      have hnowhere : (Value.embedding e).step segment = .undefined := rfl
      rw [hnowhere, readBack_embedding, Value.step]
      rcases Path.index? segment with _ | i
      · exact .reread .undefined
      · rw [Option.bind_some, List.getElem?_map]
        cases e.components[i]? with
        | none => exact .reread .undefined
        | some x => exact .component _
    | array a => exact hv.self.elim
    | scalar s => exact hv.self.elim
    | _ => exact .reread .undefined

/-- **Any number of steps**: so do they. -/
theorem Replaces.follow (h : Replaces v w) (hv : v.IsUntyped) (segments : List (List Char)) :
    Replaces (v.follow segments) (w.follow segments) := by
  induction segments generalizing v w with
  | nil => exact h
  | cons segment segments ih => exact ih (h.step hv segment) (hv.step segment)

end Json

/-! ### Casts -/

namespace Embedding

variable {v w : Value} {xs : List Value}

/-- The embedding that the value at a declared path is cast to, if there is a value. -/
def ofDeclared (v : Value) : Except Error (Option Embedding) :=
  match v with
  | .undefined => .ok none
  | v => (ofValue v).map some

/-- The embedding at a declared path of a document. -/
def declared (document : Value) (path : String) : Except Error (Option Embedding) :=
  (document.atPath path).bind ofDeclared

lemma ofDeclared_of_ne (h : v ≠ .undefined) : ofDeclared v = (ofValue v).map some := by
  cases v <;> first | rfl | contradiction

/-- Items that pass are numbers, and they pass as they are. -/
lemma numbersFrom_eq_ok {i : Nat} {ys : List Value} (h : numbersFrom i xs = .ok ys) :
    ys = xs ∧ ∀ x ∈ xs, ∃ n, x.realNumber? = some n := by
  induction xs generalizing i ys with
  | nil =>
    cases h
    exact ⟨rfl, by simp⟩
  | cons x xs ih =>
    rw [numbersFrom] at h
    rcases hx : x.realNumber? with _ | n
    · rw [hx] at h
      cases h
    · rw [hx] at h
      obtain ⟨zs, hzs, rfl⟩ := map_eq_ok.mp h
      obtain ⟨rfl, hall⟩ := ih hzs
      exact ⟨rfl, List.forall_mem_cons.mpr ⟨⟨n, hx⟩, hall⟩⟩

/-- A number without a declared type is read back as itself. -/
lemma readBack_of_realNumber? {n : Number} (hv : v.IsUntyped) (h : v.realNumber? = some n) :
    Json.readBack v = v := by
  cases v with
  | real x => rw [Json.readBack, Json.reread_eq]
  | int i => rfl
  | scalar s => exact hv.self.elim
  | _ => cases h

/-- Items that are cast are read back as they are. -/
lemma map_readBack_of_ofValues {e : Embedding} (hxs : ∀ x ∈ xs, x.IsUntyped)
    (h : ofValues xs = .ok e) : xs.map Json.readBack = xs := by
  obtain ⟨ys, hnumbers, -⟩ := bind_eq_ok.mp h
  obtain ⟨-, hall⟩ := numbersFrom_eq_ok hnumbers
  calc xs.map Json.readBack
      = xs.map id := List.map_congr_left fun x hx => by
        obtain ⟨n, hn⟩ := hall x hx
        exact readBack_of_realNumber? (hxs x hx) hn
    _ = xs := List.map_id xs

lemma numbersFrom_map_real (i : Nat) (cs : List Binary64) :
    numbersFrom i (cs.map Value.real) = .ok (cs.map .real) := by
  induction cs generalizing i with
  | nil => rfl
  | cons c cs ih =>
    rw [List.map_cons, numbersFrom, ih]
    rfl

/-- The components of an embedding are cast to it. -/
lemma ofValues_components (e : Embedding) : ofValues (e.components.map .real) = .ok e := by
  have hround : (e.components.map Value.real).mapM componentOf = .ok e.components := by
    rw [List.mapM_map]
    have hsame : ∀ x ∈ e.components, (componentOf ∘ Value.real) x = .ok (id x) := fun x hx =>
      congrArg Except.ok (e.allComponents x hx).2
    rw [mapM_eq_ok hsame, List.map_id]
  have hempty : (e.components.map Value.real).isEmpty = false := by
    simpa using e.nonempty
  have hof : ofComponents? e.components = some e := dif_pos ⟨e.nonempty, e.allComponents⟩
  simp only [ofValues, numbersFrom_map_real, hempty, hround, ofRounded, hof, bind, Except.bind,
    Bool.false_eq_true, if_false]

/-- What a value is cast to, what is read back of it is cast to. -/
lemma ofValue_readBack {e : Embedding} (hv : v.IsUntyped) (h : ofValue v = .ok e) :
    ofValue (Json.readBack v) = .ok e := by
  cases v with
  | embedding e' =>
    cases h
    rw [Json.readBack_embedding]
    exact ofValues_components e
  | list xs | tuple xs =>
    have hitems : ∀ x ∈ xs, x.IsUntyped := fun x hx => hv.held hx
    rw [Json.readBack, Json.readBackList_eq, map_readBack_of_ofValues hitems h]
    exact h
  | text s => exact h
  | array a => exact hv.self.elim
  | _ => cases h

/-- **Casts**: what a declared value is cast to, the value in its place holds. -/
theorem ofStored_of_replaces {found : Option Embedding} (h : Json.Replaces v w) (hv : v.IsUntyped)
    (hcast : ofDeclared v = .ok found) : ofStored w = .ok found := by
  cases h with
  | component x =>
    cases hcast
    rfl
  | reread =>
    by_cases hundefined : v = .undefined
    · subst hundefined
      cases hcast
      rfl
    · rw [ofDeclared_of_ne hundefined] at hcast
      obtain ⟨e, he, rfl⟩ := map_eq_ok.mp hcast
      rw [ofStored, ofValue_readBack hv he]

end Embedding

end NearDoc
