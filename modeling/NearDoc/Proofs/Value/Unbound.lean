import NearDoc.Proofs.Outcome
import NearDoc.Proofs.Value.Parts
import NearDoc.Store.Basic
import NearDoc.Value.Order
import NearDoc.Vector.Cast

/-!
Failures for want of a binding: of a parameter without a value, and of a call that was not prepared.
Main statements: no value brings one about. Looking it up, casting, converting, comparing and
reading it fails for other reasons if at all.
-/

namespace NearDoc

/-- The failure of a parameter without a value, or of a call that was not prepared. -/
def Error.isUnbound (e : Error) : Bool :=
  e.errorClass = .unboundParameter || match e with
    | .callNotBound _ => true
    | _ => false

/-- If a computation fails, then not for want of a binding. -/
abbrev NeverUnbound {α : Type} (x : Except Error α) : Prop := FailsOnly (·.isUnbound = false) x

open FailsOnly

/-! ### Looking up and converting -/

namespace Value

lemma neverUnbound_atPath (v : Value) (path : String) : NeverUnbound (v.atPath path) := by
  refine FailsOnly.map ?_
  unfold Path.segments
  dsimp only
  split
  · exact of_error rfl
  · split
    · exact of_error rfl
    · exact of_ok _

lemma neverUnbound_truthy (v : Value) : NeverUnbound v.truthy := by
  unfold truthy
  split
  case h_12 => split <;> first | exact of_ok _ | exact of_error rfl
  all_goals exact of_ok _

lemma neverUnbound_realOfInt (i : Int) : NeverUnbound (realOfInt i) := by
  unfold realOfInt
  generalize Binary64.ofInt i = x
  dsimp only
  split
  · exact of_ok x
  · exact of_error rfl

lemma neverUnbound_realOfNumber (n : Number) : NeverUnbound (realOfNumber n) := by
  cases n with
  | int i => exact neverUnbound_realOfInt i
  | real x => exact of_ok _

lemma neverUnbound_elim_numeral {x : Option Binary64} {written : String} :
    NeverUnbound (x.elim (.error (.notNumeral written)) .ok) := by
  cases x with
  | none => exact of_error rfl
  | some x => exact of_ok x

lemma neverUnbound_toReal (v : Value) : NeverUnbound v.toReal := by
  unfold toReal
  split
  · exact neverUnbound_realOfInt _
  · exact neverUnbound_realOfInt _
  · exact of_ok _
  · exact neverUnbound_realOfNumber _
  · exact neverUnbound_elim_numeral
  · split
    · exact neverUnbound_elim_numeral
    · exact of_error rfl
  · split
    · exact of_error rfl
    · exact of_error rfl
    · exact neverUnbound_realOfNumber _
  · exact of_error rfl

end Value

/-! ### Casting -/

namespace Embedding

lemma neverUnbound_ofRounded (xs : List Binary64) : NeverUnbound (ofRounded xs) := by
  unfold ofRounded
  split
  · exact of_ok _
  · split <;> exact of_error rfl

lemma neverUnbound_componentOf (v : Value) : NeverUnbound (componentOf v) := by
  unfold componentOf
  split
  case h_1 i =>
    generalize Binary64.ofInt i = x
    dsimp only
    split
    · exact of_ok x.toSingle
    · exact of_error rfl
  all_goals first | exact of_ok _ | exact of_error rfl

lemma neverUnbound_numbersFrom (index : Nat) (xs : List Value) :
    NeverUnbound (numbersFrom index xs) := by
  induction xs generalizing index with
  | nil => exact of_ok _
  | cons x xs ih =>
    rw [numbersFrom]
    split
    · exact of_error rfl
    · exact (ih _).map

lemma neverUnbound_ofValues (xs : List Value) : NeverUnbound (ofValues xs) := by
  have hcomponents : ∀ ys : List Value, NeverUnbound (ys.mapM componentOf) := fun ys =>
    .mapM fun y _ => neverUnbound_componentOf y
  refine (neverUnbound_numbersFrom 0 xs).bind fun ys => ?_
  split
  · exact of_error rfl
  · exact (hcomponents ys).bind neverUnbound_ofRounded

lemma neverUnbound_parseBracketed (s : String) : NeverUnbound (parseBracketed s) := by
  unfold parseBracketed
  dsimp only
  split
  · split
    · exact of_ok _
    all_goals exact of_error rfl
  · exact of_error rfl

lemma neverUnbound_ofArray (a : TypedArray) : NeverUnbound (ofArray a) := by
  unfold ofArray
  split
  · exact of_error rfl
  · split
    · exact of_error rfl
    · exact neverUnbound_ofRounded _

lemma neverUnbound_ofValue (v : Value) : NeverUnbound (ofValue v) := by
  cases v with
  | text s => exact (neverUnbound_parseBracketed s).bind neverUnbound_ofValues
  | array a => exact neverUnbound_ofArray a
  | list xs | tuple xs => exact neverUnbound_ofValues xs
  | embedding e => exact of_ok e
  | _ => exact of_error rfl

lemma neverUnbound_ofStored (v : Value) : NeverUnbound (ofStored v) := by
  unfold ofStored
  split
  · exact of_ok _
  · rename_i e he
    split
    · exact of_ok _
    · exact of_error (neverUnbound_ofValue v e he)

end Embedding

/-! ### Comparing -/

namespace Operand

lemma neverUnbound_listShape (v : Value) : NeverUnbound (listShape v) := by
  unfold listShape
  dsimp only
  split
  · exact of_error rfl
  · split
    · exact of_ok _
    · split <;> exact of_error rfl

lemma neverUnbound_ofValue (v : Value) : NeverUnbound (ofValue v) := by
  cases v with
  | list | tuple => exact (neverUnbound_listShape _).bind fun _ => of_ok _
  | _ => exact of_ok _

lemma neverUnbound_toType (t : ElementType) (n : Number) : NeverUnbound (toType t n) := by
  unfold toType
  split
  · exact of_ok _
  · split
    · split
      · exact of_ok _
      · exact of_error rfl
    · split
      · exact of_error rfl
      · exact of_ok _

lemma neverUnbound_align (o other : Operand) : NeverUnbound (o.align other) := by
  unfold align
  split
  · refine FailsOnly.mapM fun item _ => ?_
    split
    · exact (neverUnbound_toType _ _).map
    · exact of_ok _
  · exact of_ok _

lemma neverUnbound_relate (r : Relation) (a b : Operand) {refusal : Error}
    (h : refusal.isUnbound = false) : NeverUnbound (a.relate r b refusal) := by
  have hthrow : ∀ {β : Type} (f : Unit → Except Error β) {e : Error}, e.isUnbound = false →
      NeverUnbound ((throw e : Except Error Unit) >>= f) := fun f e he => of_error he
  unfold relate
  dsimp only
  split
  · exact hthrow _ h
  · refine (neverUnbound_align a b).bind fun m => (neverUnbound_align b a).bind fun n => ?_
    split
    · exact of_error rfl
    · split
      · exact hthrow _ rfl
      · split
        · exact hthrow _ h
        · split
          · exact of_ok _
          · exact of_error rfl

end Operand

namespace Value

lemma neverUnbound_relateDeclared (r : Relation) (a b : Value) :
    NeverUnbound (relateDeclared r a b) := by
  refine (Operand.neverUnbound_ofValue a).bind fun x =>
    (Operand.neverUnbound_ofValue b).bind fun y => ?_
  split
  · exact Operand.neverUnbound_relate _ _ _ rfl
  · exact Operand.neverUnbound_relate _ _ _ rfl

lemma neverUnbound_eqFlat (a b : Value) : NeverUnbound (eqFlat a b) := by
  unfold eqFlat
  split
  · exact neverUnbound_relateDeclared _ a b
  · split
    case h_6 => split <;> exact of_ok _
    all_goals exact of_ok _

lemma neverUnbound_relateFlat (r : OrderRelation) (a b : Value) :
    NeverUnbound (relateFlat r a b) := by
  unfold relateFlat
  dsimp only
  split
  · exact neverUnbound_relateDeclared _ a b
  · split
    · exact of_ok _
    · exact of_ok _
    · split
      · exact of_ok _
      · exact of_error rfl

lemma neverUnbound_eqvList {xs : List Value} (h : ∀ x ∈ xs, ∀ y, NeverUnbound (x.eqv y))
    (ys : List Value) : NeverUnbound (eqvList xs ys) := by
  induction xs generalizing ys with
  | nil => cases ys <;> exact of_ok _
  | cons x xs ih =>
    rw [List.forall_mem_cons] at h
    cases ys with
    | nil => exact of_ok _
    | cons y ys =>
      rw [eqvList]
      split
      · exact ih h.2 ys
      · split
        · exact ih h.2 ys
        · exact h.1 y

lemma neverUnbound_eqvFields {fs : Fields} (h : ∀ f ∈ fs, ∀ y, NeverUnbound (f.2.eqv y))
    (gs : Fields) : NeverUnbound (eqvFields fs gs) := by
  induction fs with
  | nil => exact of_ok _
  | cons f fs ih =>
    obtain ⟨name, x⟩ := f
    rw [List.forall_mem_cons] at h
    rw [eqvFields]
    split
    · exact of_ok _
    · rename_i y _
      split
      · exact ih h.2
      · split
        · exact ih h.2
        · exact h.1 y

lemma neverUnbound_eqv (a b : Value) : NeverUnbound (a.eqv b) := by
  induction a using byHeld generalizing b with
  | step a ih =>
    unfold eqv
    split
    · split
      · exact neverUnbound_eqvList ih _
      · exact of_ok _
    · exact neverUnbound_eqvList ih _
    · split
      · exact neverUnbound_eqvFields (fun f hf => ih f.2 (List.mem_map_of_mem hf)) _
      · exact of_ok _
    · exact neverUnbound_eqFlat _ _

lemma neverUnbound_relateList {r : OrderRelation} {xs : List Value}
    (h : ∀ x ∈ xs, ∀ y, NeverUnbound (x.relate r y)) (ys : List Value) :
    NeverUnbound (relateList r xs ys) := by
  induction xs generalizing ys with
  | nil => cases ys <;> exact of_ok _
  | cons x xs ih =>
    rw [List.forall_mem_cons] at h
    cases ys with
    | nil => exact of_ok _
    | cons y ys =>
      rw [relateList]
      split
      · exact ih h.2 ys
      · split
        · exact ih h.2 ys
        · exact h.1 y
        · rename_i e he
          exact of_error (neverUnbound_eqv x y e he)

lemma neverUnbound_relate (r : OrderRelation) (a b : Value) : NeverUnbound (a.relate r b) := by
  induction a using byHeld generalizing b with
  | step a ih =>
    unfold relate
    split
    · exact neverUnbound_relateList ih _
    · exact neverUnbound_relateList ih _
    · exact neverUnbound_relateFlat r _ _

end Value

/-! ### Reading stored text -/

namespace Json

lemma neverUnbound_readQuoted (s : List Char) : NeverUnbound (readQuoted s) := by
  unfold readQuoted
  split
  · exact of_ok _
  · exact of_error rfl

lemma neverUnbound_readNumber (negative : Bool) (s : List Char) :
    NeverUnbound (readNumber negative s) := by
  have hinteger : ∀ ds, NeverUnbound (readInteger negative ds) := by
    intro ds
    unfold readInteger
    split
    · exact of_error rfl
    · split
      · exact of_ok _
      · exact of_error rfl
  unfold readNumber
  split
  · exact of_error rfl
  · dsimp only
    split
    · exact (hinteger _).map
    · split
      · exact of_ok _
      · exact of_error rfl

lemma neverUnbound_readPlain (s : List Char) : NeverUnbound (readPlain s) := by
  unfold readPlain
  split
  · exact of_ok _
  · split <;> exact neverUnbound_readNumber _ _

/-- By induction on the depth that is allowed, for values, items and fields together. -/
lemma neverUnbound_readers (fuel : Nat) :
    (∀ room s, NeverUnbound (readValue fuel room s)) ∧
      (∀ room s, NeverUnbound (readItems fuel room s)) ∧
      ∀ room s, NeverUnbound (readFields fuel room s) := by
  induction fuel with
  | zero =>
    refine ⟨fun _ s => ?_, fun _ s => ?_, fun _ s => ?_⟩
    · exact of_error rfl
    · exact of_error rfl
    · exact of_error rfl
  | succ fuel ih =>
    obtain ⟨hvalue, hitems, hfields⟩ := ih
    refine ⟨fun room s => ?_, fun room s => ?_, fun room s => ?_⟩
    · unfold readValue
      split
      · exact (neverUnbound_readQuoted _).map
      · split
        · exact of_error rfl
        · split
          · exact of_ok _
          · exact (hitems _ _).map
      · split
        · exact of_error rfl
        · split
          · exact of_ok _
          · exact (hfields _ _).map
      · exact neverUnbound_readPlain _
    · unfold readItems
      split
      · rename_i e he
        exact of_error (hvalue room s e he)
      · split
        · exact of_ok _
        · exact (hitems _ _).map
        · exact of_error rfl
    · unfold readFields
      split
      · rename_i rest
        split
        · rename_i e he
          exact of_error (neverUnbound_readQuoted rest e he)
        · split
          · split
            · rename_i e he
              exact of_error (hvalue room _ e he)
            · split
              · exact of_ok _
              · exact (hfields _ _).map
              · exact of_error rfl
          · exact of_error rfl
      · exact of_error rfl

lemma neverUnbound_decode (s : String) : NeverUnbound (decode s) := by
  unfold decode read readWithin
  split
  · rename_i e he
    exact of_error ((neverUnbound_readers _).1 _ _ e he)
  · split
    · exact of_ok _
    · exact of_error rfl

end Json

namespace Store

lemma neverUnbound_documents (store : Store) (collection : Value) :
    NeverUnbound (store.documents collection) := by
  have htable : NeverUnbound store.table := by
    unfold table
    split
    · exact of_error rfl
    · exact of_ok _
  have hname : NeverUnbound (CollectionName.ofValue collection) := by
    unfold CollectionName.ofValue
    split
    case h_5 =>
      split
      · exact of_ok _
      · exact of_error rfl
    case h_9 => exact of_error rfl
    all_goals exact of_ok _
  have hdocument : ∀ r : Row, NeverUnbound r.document := fun r =>
    (Json.neverUnbound_decode r.body).bind fun v => by
      split
      · exact of_ok _
      · exact of_error rfl
  refine FailsOnly.bind ?_ fun rows => .mapM fun r _ => hdocument r
  exact (htable.bind fun rows => hname.bind fun name => of_ok _).bind fun _ => of_ok _

end Store

end NearDoc
