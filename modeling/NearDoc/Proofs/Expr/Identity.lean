import NearDoc.Expr.Written
import NearDoc.Proofs.Value.Equivalence

/-!
When two expressions count as one. Fields are compared by path and literals by type and value, and
the hash of a literal is taken of its value as it is written; equal values may be written in
several ways. Main statement: equality of fields and literals is an equivalence relation, and equal
ones share a hash when their values have one form, that is when they are written with numbers of the
same types, zeros of the same signs and names in the same order.
-/

namespace NearDoc

/-- The sign is a minus. -/
def Binary64.isNegative : Binary64 → Bool
  | .infinite negative | .finite negative _ _ => negative
  | .nan _ => false

/-- Equal numbers of one sign are one. -/
lemma Binary64.eq_of_eq {x y : Binary64} (h : x.eq y = true) (hsign : x.isNegative = y.isNegative) :
    x = y := by
  obtain ⟨p, hx, hy⟩ := Number.eq_iff_place.mp h
  have hplace : x.place? = y.place? := hx.trans hy.symm
  cases x with
  | nan => cases hx
  | infinite m =>
    cases y with
    | nan => cases hy
    | infinite n => exact congrArg infinite hsign
    | finite n b hb => cases m <;> cases hplace
  | finite m a ha =>
    cases y with
    | nan => cases hy
    | infinite n => cases n <;> cases hplace
    | finite n b hb =>
      obtain rfl : m = n := hsign
      have hsigned : signed m a = signed m b := Place.units.inj (Option.some.inj hplace)
      have hunits : a = b := by
        unfold signed at hsigned
        split at hsigned <;> omega
      subst hunits
      rfl

namespace Embedding

/-- The components that are written. -/
def shown (v : Embedding) : List Binary64 :=
  if v.dimension ≤ 8 then v.components else v.components.take 4

variable {v w : Embedding}

lemma written_eq (v : Embedding) : v.written =
    if v.dimension ≤ 8 then
      "Vector([" ++ ", ".intercalate (v.shown.map fun x => String.ofList (Number.writeReal x)) ++ "])"
    else
      "Vector([" ++ ", ".intercalate (v.shown.map fun x => String.ofList (Number.writeShort x)) ++
        ", ...], dimension=" ++ toString v.dimension ++ ")" := by
  unfold written shown
  split <;> rfl

/-- Embeddings that are the same are written alike if the signs of what is written are. -/
lemma written_eq_of_same (h : v.same w = true)
    (hsigns : v.shown.map Binary64.isNegative = w.shown.map Binary64.isNegative) :
    v.written = w.written := by
  have hpairs := same_iff.mp h
  have hdimension : v.dimension = w.dimension := hpairs.length_eq
  have hshown : List.Forall₂ (fun x y : Binary64 => x.eq y = true) v.shown w.shown := by
    unfold shown
    rw [hdimension]
    split
    · exact hpairs
    · exact List.forall₂_take 4 hpairs
  have heq : v.shown = w.shown := by
    generalize v.shown = xs at hshown hsigns
    generalize w.shown = ys at hshown hsigns
    induction hshown with
    | nil => rfl
    | cons hxy _ ih =>
      obtain ⟨hsign, hrest⟩ := List.cons.inj hsigns
      rw [Binary64.eq_of_eq hxy hsign, ih hrest]
  rw [written_eq, written_eq, heq, hdimension]

end Embedding

namespace Value

mutual

/-- Two values have one form: they are of one type, as are the values that they hold at the same
places, zeros have the same signs, and fields the same names in the same order. Of embeddings only
what is written counts. -/
def sameForm (v w : Value) : Bool :=
  match v, w with
  | .null, .null | .undefined, .undefined => true
  | .bool _, .bool _ | .int _, .int _ | .text _, .text _ | .bytes _, .bytes _ => true
  | .real x, .real y => x.isNegative == y.isNegative
  | .list xs, .list ys | .tuple xs, .tuple ys => sameForms xs ys
  | .object fs, .object gs => sameFields fs gs
  | .embedding v, .embedding w =>
    v.shown.map Binary64.isNegative == w.shown.map Binary64.isNegative
  | _, _ => false
termination_by structural v

def sameForms (xs ys : List Value) : Bool :=
  match xs, ys with
  | [], [] => true
  | x :: xs, y :: ys => sameForm x y && sameForms xs ys
  | _, _ => false
termination_by structural xs

def sameFields (fs gs : List (String × Value)) : Bool :=
  match fs, gs with
  | [], [] => true
  | (m, x) :: fs, (n, y) :: gs => m == n && sameForm x y && sameFields fs gs
  | _, _ => false
termination_by structural fs

end

variable {v w : Value} {xs ys : List Value} {fs gs : Fields}

lemma sameForms_iff : sameForms xs ys = true ↔ List.Forall₂ (fun x y => x.sameForm y = true) xs ys := by
  induction xs generalizing ys with
  | nil => cases ys <;> simp [sameForms]
  | cons x xs ih => cases ys <;> simp [sameForms, ih]

lemma sameFields_iff : sameFields fs gs = true ↔
    List.Forall₂ (fun f g => f.1 = g.1 ∧ f.2.sameForm g.2 = true) fs gs := by
  induction fs generalizing gs with
  | nil => cases gs <;> simp [sameFields]
  | cons f fs ih => cases gs <;> simp [sameFields, ih, and_assoc]

lemma eq_of_equals {m n : Number} (hv : v.number? = some m) (hw : w.number? = some n)
    (h : v.Equals w) : m.eq n = true :=
  Except.ok.inj ((eqv_of_number? hv hw).symm.trans h)

/-- Two values are written alike. -/
def WrittenAlike (v w : Value) : Prop := v.written = w.written ∧ v.isWritable = w.isWritable

lemma writtenAlike_items (h : List.Forall₂ WrittenAlike xs ys) :
    writtenList xs = writtenList ys ∧ areWritable xs = areWritable ys := by
  induction h with
  | nil => exact ⟨rfl, rfl⟩
  | cons hxy _ ih => simp only [writtenList, areWritable, hxy.1, hxy.2, ih.1, ih.2, and_self]

lemma writtenAlike_fields (h : List.Forall₂ (fun f g => f.1 = g.1 ∧ WrittenAlike f.2 g.2) fs gs) :
    writtenFields fs = writtenFields gs ∧ fieldsAreWritable fs = fieldsAreWritable gs := by
  induction h with
  | nil => exact ⟨rfl, rfl⟩
  | cons hfg _ ih =>
    simp only [writtenFields, fieldsAreWritable, hfg.1, hfg.2.1, hfg.2.2, ih.1, ih.2, and_self]

/-- Values that hold no others, and are no embeddings. -/
def isFlat : Value → Bool
  | .null | .undefined | .bool _ | .int _ | .real _ | .text _ | .bytes _ => true
  | _ => false

/-- Flat values that are equal and have one form are one. -/
lemma eq_of_sameForm (hflat : v.isFlat = true) (h : v.Equals w) (hform : v.sameForm w = true) :
    v = w := by
  cases v with
  | null | undefined => cases w <;> first | rfl | cases hform
  | bool b =>
    cases w with
    | bool c =>
      have hbc : (Number.int (if b then 1 else 0)).eq (.int (if c then 1 else 0)) = true :=
        eq_of_equals rfl rfl h
      rw [Number.eq_int, decide_eq_true_iff] at hbc
      cases b <;> cases c <;> first | rfl | cases hbc
    | _ => cases hform
  | int i =>
    cases w with
    | int j =>
      have hij : (Number.int i).eq (.int j) = true := eq_of_equals rfl rfl h
      rw [Number.eq_int, decide_eq_true_iff] at hij
      rw [hij]
    | _ => cases hform
  | real x =>
    cases w with
    | real y => rw [Binary64.eq_of_eq (eq_of_equals rfl rfl h) (beq_iff_eq.mp hform)]
    | _ => cases hform
  | text s =>
    cases w with
    | text t => exact congrArg text (of_decide_eq_true (Except.ok.inj h))
    | _ => cases hform
  | bytes s =>
    cases w with
    | bytes t => exact congrArg bytes (of_decide_eq_true (Except.ok.inj h))
    | _ => cases hform
  | _ => cases hflat

/-- What is held at the same places by values that are equal and have one form is written alike, if
that goes for each two of the values held. -/
def AlikeWithin (v : Value) : Prop :=
  ∀ x ∈ v.held, ∀ y : Value, y.Settled → x.Equals y → x.sameForm y = true → x.WrittenAlike y

lemma AlikeWithin.items (h : v.AlikeWithin) (hw : w.Settled) (hxs : ∀ x ∈ xs, x ∈ v.held)
    (hys : ∀ y ∈ ys, y ∈ w.held) (hequal : List.Forall₂ Equals xs ys)
    (hforms : sameForms xs ys = true) : List.Forall₂ WrittenAlike xs ys := by
  refine List.forall₂_iff_zip.mpr ⟨hequal.length_eq, fun {x y} hxy => ?_⟩
  obtain ⟨hx, hy⟩ := List.of_mem_zip hxy
  exact h x (hxs x hx) y (hw.held (hys y hy)) (List.forall₂_zip hequal hxy)
    (List.forall₂_zip (sameForms_iff.mp hforms) hxy)

/-- Equal objects have each field at one place if the names stand in one order. -/
lemma AlikeWithin.fields (h : (object fs).AlikeWithin) (hv : (object fs).Settled)
    (hw : (object gs).Settled) (hequal : (object fs).Equals (object gs))
    (hforms : sameFields fs gs = true) :
    List.Forall₂ (fun f g => f.1 = g.1 ∧ WrittenAlike f.2 g.2) fs gs := by
  have hforms := sameFields_iff.mp hforms
  obtain ⟨-, hfields⟩ := (equals_object hv).mp hequal
  refine List.forall₂_iff_zip.mpr ⟨hforms.length_eq, fun {f g} hfg => ?_⟩
  obtain ⟨hf, hg⟩ := List.of_mem_zip hfg
  obtain ⟨hname, hform⟩ := List.forall₂_zip hforms hfg
  obtain ⟨y, hget, hvalue⟩ := hfields f hf
  rw [hname, (Fields.get?_eq_some_iff hw.self).mpr hg, Option.some.injEq] at hget
  have hheld := List.mem_map_of_mem (f := Prod.snd) hg
  exact ⟨hname, h _ (List.mem_map_of_mem (f := Prod.snd) hf) _ (hw.held hheld) (hget ▸ hvalue) hform⟩

/-- **Form**: settled values that are equal and have one form are written alike. -/
theorem writtenAlike_of_sameForm (hv : v.Settled) (hw : w.Settled) (h : v.Equals w)
    (hform : v.sameForm w = true) : WrittenAlike v w := by
  induction v using byHeld generalizing w with
  | step v ih =>
    have hwithin : v.AlikeWithin := fun x hx y hy => ih x hx (hv.held hx) hy
    cases v with
    | list xs =>
      cases w with
      | list ys =>
        obtain ⟨hwritten, hwritable⟩ := writtenAlike_items
          (hwithin.items hw (fun _ => id) (fun _ => id) ((equals_list hv).mp h) hform)
        exact ⟨congrArg (enclose "[" "]") hwritten, hwritable⟩
      | _ => cases hform
    | tuple xs =>
      cases w with
      | tuple ys =>
        obtain ⟨hwritten, hwritable⟩ := writtenAlike_items
          (hwithin.items hw (fun _ => id) (fun _ => id) ((equals_tuple hv).mp h) hform)
        exact ⟨congrArg encloseTuple hwritten, hwritable⟩
      | _ => cases hform
    | object fs =>
      cases w with
      | object gs =>
        obtain ⟨hwritten, hwritable⟩ :=
          writtenAlike_fields (hwithin.fields hv hw h hform)
        exact ⟨congrArg (enclose "\x7b" "\x7d") hwritten, hwritable⟩
      | _ => cases hform
    | embedding e =>
      cases w with
      | embedding f =>
        have heqv : (embedding e).eqv (embedding f) = .ok (e.same f) := rfl
        have hsame : e.same f = true := Except.ok.inj (heqv.symm.trans h)
        exact ⟨Embedding.written_eq_of_same hsame (beq_iff_eq.mp hform), rfl⟩
      | _ => cases hform
    | array | scalar => exact hv.self.elim
    | _ =>
      obtain rfl := eq_of_sameForm rfl h hform
      exact ⟨rfl, rfl⟩

end Value

/-- The hash of a text is always the same. -/
lemma HashKey.same_ofText (s : String) : (ofText s).same (ofText s) = true := by
  unfold ofText ofBytes
  dsimp only
  split <;> simp [same]

namespace Expr

variable {a b c : Expr}

/-- A field, or a literal with a settled value. -/
def IsNode : Expr → Prop
  | .field _ => True
  | .literal v => v.Settled
  | _ => False

lemma isNode_of_isJson {v : Value} (h : v.IsJson) : (literal v).IsNode := h.settled

lemma isNode_embedding (v : Embedding) : (literal (.embedding v)).IsNode :=
  Value.settled_embedding v

/-- Two literals have values of one form; two fields always have one form. -/
def sameForm : Expr → Expr → Bool
  | .field _, .field _ => true
  | .literal v, .literal w => v.sameForm w
  | _, _ => false

lemma sameType_iff {v w : Value} :
    sameType v w = true ↔ v.isDeclared = w.isDeclared ∧ v.typeName = w.typeName := by
  simp [sameType]

lemma same_literal {v w : Value} : (literal v).same (literal w) = .ok true ↔
    sameType v w = true ∧ v.Equals w := by
  unfold same
  dsimp only
  split <;> simp_all [Value.Equals]

lemma exists_same (ha : a.IsNode) (hb : b.IsNode) : ∃ r, a.same b = .ok r := by
  cases a <;> cases b <;> first | exact ⟨_, rfl⟩ | skip
  unfold same
  dsimp only
  split
  · exact Value.exists_eqv ha hb
  · exact ⟨_, rfl⟩

lemma same_refl (ha : a.IsNode) : a.same a = .ok true := by
  cases a with
  | field path => exact congrArg Except.ok (decide_eq_true rfl)
  | literal v => exact same_literal.mpr ⟨sameType_iff.mpr ⟨rfl, rfl⟩, .refl ha⟩
  | _ => exact ha.elim

/-- Expressions that are the same are fields with one path or literals with equal values. -/
lemma cases_of_same (h : a.same b = .ok true) :
    (∃ path, a = field path ∧ b = field path) ∨
      ∃ v w, a = literal v ∧ b = literal w ∧ sameType v w = true ∧ v.Equals w := by
  cases a <;> cases b <;>
    first
      | cases h
      | exact .inr ⟨_, _, rfl, rfl, same_literal.mp h⟩
      | exact .inl ⟨_, rfl, congrArg field (of_decide_eq_true (Except.ok.inj h)).symm⟩

lemma same_symm (ha : a.IsNode) (hb : b.IsNode) (h : a.same b = .ok true) :
    b.same a = .ok true := by
  rcases cases_of_same h with ⟨path, rfl, rfl⟩ | ⟨v, w, rfl, rfl, htype, heq⟩
  · exact same_refl trivial
  · obtain ⟨hdeclared, hname⟩ := sameType_iff.mp htype
    exact same_literal.mpr ⟨sameType_iff.mpr ⟨hdeclared.symm, hname.symm⟩, heq.symm ha hb⟩

lemma same_trans (ha : a.IsNode) (hb : b.IsNode) (hc : c.IsNode) (hab : a.same b = .ok true)
    (hbc : b.same c = .ok true) : a.same c = .ok true := by
  rcases cases_of_same hab with ⟨path, rfl, rfl⟩ | ⟨v, w, rfl, rfl, htype, heq⟩
  · exact hbc
  · rcases cases_of_same hbc with ⟨path, hfield, -⟩ | ⟨w', u, hw, rfl, htype', heq'⟩
    · cases hfield
    · cases hw
      obtain ⟨hdeclared, hname⟩ := sameType_iff.mp htype
      obtain ⟨hdeclared', hname'⟩ := sameType_iff.mp htype'
      exact same_literal.mpr ⟨sameType_iff.mpr ⟨hdeclared.trans hdeclared', hname.trans hname'⟩,
        heq.trans ha hb hc heq'⟩

/-- Equal expressions of one form have one key for their hash, or both have none. -/
lemma hashKey?_eq (ha : a.IsNode) (hb : b.IsNode) (h : a.same b = .ok true)
    (hform : a.sameForm b = true) : b.hashKey? = a.hashKey? := by
  rcases cases_of_same h with ⟨path, rfl, rfl⟩ | ⟨v, w, rfl, rfl, -, heq⟩
  · rfl
  · obtain ⟨hwritten, hwritable⟩ := Value.writtenAlike_of_sameForm ha hb heq hform
    simp only [hashKey?, hwritten, hwritable]

/-- An expression that has a hash has one hash. -/
lemma sameHash_self (ha : a.IsNode) (hhash : a.hashKey?.isOk = true) : a.sameHash a = .ok true := by
  have htuple : ∀ s t, (HashKey.tuple [.ofText s, .ofText t]).same
      (.tuple [.ofText s, .ofText t]) = true := fun s t => by
    simp [HashKey.same, HashKey.sameEach, HashKey.same_ofText]
  cases a with
  | field path => exact congrArg Except.ok (htuple "field" path)
  | literal v =>
    by_cases hwritable : v.isWritable = true
    · simp only [sameHash, hashKey?, hwritable, if_true]
      exact congrArg Except.ok (htuple "literal" v.written)
    · simp [hashKey?, hwritable, Except.isOk, Except.toBool] at hhash
  | _ => exact ha.elim

/-- **Identity**: to be the same is an equivalence relation on fields and literals, which is always
decided, and those that are the same share a hash, if there is one, when their values have one
form. -/
theorem same_equivalence (ha : a.IsNode) (hb : b.IsNode) :
    (∃ r, a.same b = .ok r) ∧
      (a.same a = .ok true ∧ (a.same b = .ok true → b.same a = .ok true) ∧
        ∀ c : Expr, c.IsNode → a.same b = .ok true → b.same c = .ok true → a.same c = .ok true) ∧
      (a.same b = .ok true → a.sameForm b = true → a.hashKey?.isOk = true →
        a.sameHash b = .ok true) := by
  refine ⟨exists_same ha hb, ⟨same_refl ha, same_symm ha hb, fun c hc => same_trans ha hb hc⟩, ?_⟩
  intro h hform hhash
  have hself := sameHash_self ha hhash
  unfold sameHash at hself ⊢
  rwa [hashKey?_eq ha hb h hform]

/-- Eight zeros and a zero behind them, which may be negative. -/
def nineZeros (negative : Bool) : Embedding where
  components := List.replicate 8 .zero ++ [if negative then .neg .zero else .zero]
  nonempty := by simp
  allComponents := by
    have hzeros : IsComponent .zero ∧ IsComponent (.neg .zero) := by decide +kernel
    cases negative <;> simp [hzeros]

/-- Only the first components of a long embedding are written, so that the sign of a zero behind
them does not count; the sign of a number does. -/
theorem same_equivalence_zeros :
    (literal (.embedding (nineZeros true))).sameHash (literal (.embedding (nineZeros false))) =
        .ok true ∧
      (literal (.real .zero)).same (literal (.real (.neg .zero))) = .ok true ∧
      (literal (.real (.neg .zero))).same (literal (.real .zero)) = .ok true ∧
      (literal (.real .zero)).sameHash (literal (.real (.neg .zero))) = .ok false := by
  have hjson (x : Binary64) (hx : (Number.real x).HasPlace) : (Value.real x).IsJson := by
    simpa [Value.IsJson, Value.parts, Value.IsJsonNode] using hx
  have hplaces : (Number.real .zero).HasPlace ∧ (Number.real (.neg .zero)).HasPlace :=
    ⟨Option.isSome_iff_exists.mp (by decide +kernel),
      Option.isSome_iff_exists.mp (by decide +kernel)⟩
  have hsame : (literal (.real .zero)).same (literal (.real (.neg .zero))) = .ok true := by
    decide +kernel
  obtain ⟨-, ⟨-, hsymm, -⟩, -⟩ := same_equivalence (isNode_of_isJson (hjson _ hplaces.1))
    (isNode_of_isJson (hjson _ hplaces.2))
  obtain ⟨-, -, hhash⟩ := same_equivalence (isNode_embedding (nineZeros true))
    (isNode_embedding (nineZeros false))
  exact ⟨hhash (by decide +kernel) (by decide +kernel) (by decide +kernel), hsame, hsymm hsame,
    by decide +kernel⟩

end Expr

end NearDoc
