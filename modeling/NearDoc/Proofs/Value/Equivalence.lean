import NearDoc.Proofs.Value.Trichotomy

/-!
Equality of settled values as a relation. Numbers of all kinds, truth values among them, are equal
when they have one place on the number line, and fields may come in any order. Main statement: even
so, a value equals itself, and values that equal a third one equal each other.
-/

namespace NearDoc

/-- Pairs of a relation that is transitive on the items are put together one by one. -/
lemma forall₂_trans {α : Type} {R : α → α → Prop} {xs ys zs : List α}
    (h : ∀ x ∈ xs, ∀ y ∈ ys, ∀ z ∈ zs, R x y → R y z → R x z) (hxy : List.Forall₂ R xs ys)
    (hyz : List.Forall₂ R ys zs) : List.Forall₂ R xs zs := by
  induction hxy generalizing zs with
  | nil => exact hyz
  | cons hxy _ ih =>
    cases hyz with
    | cons hyz hrest =>
      refine .cons (h _ (by simp) _ (by simp) _ (by simp) hxy hyz) (ih ?_ hrest)
      exact fun x hx y hy z hz =>
        h x (List.mem_cons_of_mem _ hx) y (List.mem_cons_of_mem _ hy) z (List.mem_cons_of_mem _ hz)

namespace Number

variable {l m n : Number}

lemma eq_iff_place : m.eq n = true ↔ ∃ p, m.place? = some p ∧ n.place? = some p := by
  unfold eq
  rcases m.place? with _ | p <;> rcases n.place? with _ | q <;> simp [eq_comm]

lemma eq_refl (h : n.HasPlace) : n.eq n = true :=
  have ⟨p, hp⟩ := h
  eq_iff_place.mpr ⟨p, hp, hp⟩

lemma eq_trans (hlm : l.eq m = true) (hmn : m.eq n = true) : l.eq n = true := by
  obtain ⟨p, hl, hm⟩ := eq_iff_place.mp hlm
  obtain ⟨q, hm', hn⟩ := eq_iff_place.mp hmn
  obtain rfl : p = q := Option.some.inj (hm.symm.trans hm')
  exact eq_iff_place.mpr ⟨p, hl, hn⟩

end Number

namespace Embedding

variable {u v w : Embedding}

lemma hasPlace {x : Binary64} (hx : x ∈ v.components) : (Number.real x).HasPlace := by
  have hfinite := (v.allComponents x hx).1
  cases x with
  | finite => exact ⟨_, rfl⟩
  | infinite | nan => cases hfinite

/-- Embeddings are the same when their components are equal one by one. -/
lemma same_iff : v.same w = true ↔
    List.Forall₂ (fun x y : Binary64 => x.eq y = true) v.components w.components := by
  rw [List.forall₂_iff_zip, same, Bool.and_eq_true, decide_eq_true_iff, List.all_eq_true]
  simp only [dimension, Prod.forall]

lemma same_refl (v : Embedding) : v.same v = true :=
  same_iff.mpr (List.forall₂_same.mpr fun _ hx => Number.eq_refl (hasPlace hx))

lemma same_trans (huv : u.same v = true) (hvw : v.same w = true) : u.same w = true :=
  same_iff.mpr (forall₂_trans (fun _ _ _ _ _ _ => Number.eq_trans) (same_iff.mp huv)
    (same_iff.mp hvw))

end Embedding

namespace Value

variable {a b c : Value} {xs ys zs : List Value} {fs gs hs : Fields}

lemma settled_embedding (v : Embedding) : (embedding v).Settled := by
  intro w hw
  rcases mem_parts.mp hw with rfl | ⟨x, hx, hw⟩
  · trivial
  · obtain ⟨x, hcomponent, rfl⟩ := List.mem_map.mp hx
    rcases mem_parts.mp hw with rfl | ⟨_, hnone, _⟩
    · exact Embedding.hasPlace hcomponent
    · cases hnone

/-! ### What holds no others -/

lemma eqFlat_trans (ha : a.IsSettled) (hb : b.IsSettled) (hc : c.IsSettled)
    (hab : eqFlat a b = .ok true) (hbc : eqFlat b c = .ok true) : eqFlat a c = .ok true := by
  cases a <;> cases b <;>
    first
      | exact ha.elim
      | exact hb.elim
      | exact absurd (Except.ok.inj hab) Bool.false_ne_true
      | cases c <;>
          first
            | exact hc.elim
            | exact absurd (Except.ok.inj hbc) Bool.false_ne_true
            | exact congrArg Except.ok (Number.eq_trans (Except.ok.inj hab) (Except.ok.inj hbc))
            | exact congrArg Except.ok
                (Embedding.same_trans (Except.ok.inj hab) (Except.ok.inj hbc))
            | exact congrArg Except.ok (decide_eq_true
                ((of_decide_eq_true (Except.ok.inj hab)).trans
                  (of_decide_eq_true (Except.ok.inj hbc))))
            | rfl

/-! ### Values -/

/-- A settled value equals itself. -/
theorem Equals.refl (ha : a.Settled) : a.Equals a := by
  induction a using byHeld with
  | step a ih =>
    have hitems : ∀ {xs : List Value}, (∀ x ∈ xs, x ∈ a.held) → List.Forall₂ Equals xs xs :=
      fun hxs => List.forall₂_same.mpr fun x hx => ih x (hxs x hx) (ha.held (hxs x hx))
    cases a with
    | list xs => exact (equals_list ha).mpr (hitems fun _ => id)
    | tuple xs => exact (equals_tuple ha).mpr (hitems fun _ => id)
    | object fs =>
      refine (equals_object ha).mpr ⟨rfl, fun f hf => ⟨f.2, ?_, ?_⟩⟩
      · exact (Fields.get?_eq_some_iff ha.self).mpr hf
      · exact ih _ (List.mem_map_of_mem hf) (ha.held (List.mem_map_of_mem hf))
    | array | scalar => exact ha.self.elim
    | embedding v => exact congrArg Except.ok v.same_refl
    | real x => exact congrArg Except.ok (Number.eq_refl ha.self)
    | int i => exact congrArg Except.ok (Number.eq_refl ⟨_, rfl⟩)
    | bool b => exact congrArg Except.ok (Number.eq_refl ⟨_, rfl⟩)
    | text | bytes => exact congrArg Except.ok (decide_eq_true rfl)
    | null | undefined => rfl

/-- What equals a collection is a collection of its kind. -/
lemma Equals.exists_of_list (ha : a.IsSettled) (h : a.Equals (list ys)) : ∃ xs, a = list xs := by
  cases a <;> first | exact ha.elim | exact ⟨_, rfl⟩ | cases h

lemma Equals.exists_of_tuple (ha : a.IsSettled) (h : a.Equals (tuple ys)) : ∃ xs, a = tuple xs := by
  cases a <;> first | exact ha.elim | exact ⟨_, rfl⟩ | cases h

lemma Equals.exists_of_object (ha : a.IsSettled) (h : a.Equals (object gs)) :
    ∃ fs, a = object fs := by
  cases a <;> first | exact ha.elim | exact ⟨_, rfl⟩ | cases h

/-- Settled values that equal a third one equal each other. -/
theorem Equals.trans (ha : a.Settled) (hb : b.Settled) (hc : c.Settled) (hab : a.Equals b)
    (hbc : b.Equals c) : a.Equals c := by
  induction a using byHeld generalizing b c with
  | step a ih =>
    cases b with
    | list ys =>
      obtain ⟨xs, rfl⟩ := hab.exists_of_list ha.self
      obtain ⟨zs, rfl⟩ := (hbc.symm hb hc).exists_of_list hc.self
      refine (equals_list ha).mpr (forall₂_trans (fun x hx y hy z hz => ?_)
        ((equals_list ha).mp hab) ((equals_list hb).mp hbc))
      exact ih x hx (ha.held hx) (hb.held hy) (hc.held hz)
    | tuple ys =>
      obtain ⟨xs, rfl⟩ := hab.exists_of_tuple ha.self
      obtain ⟨zs, rfl⟩ := (hbc.symm hb hc).exists_of_tuple hc.self
      refine (equals_tuple ha).mpr (forall₂_trans (fun x hx y hy z hz => ?_)
        ((equals_tuple ha).mp hab) ((equals_tuple hb).mp hbc))
      exact ih x hx (ha.held hx) (hb.held hy) (hc.held hz)
    | object gs =>
      obtain ⟨fs, rfl⟩ := hab.exists_of_object ha.self
      obtain ⟨hs, rfl⟩ := (hbc.symm hb hc).exists_of_object hc.self
      obtain ⟨hlength, hfields⟩ := (equals_object ha).mp hab
      obtain ⟨hlength', hfields'⟩ := (equals_object hb).mp hbc
      refine (equals_object ha).mpr ⟨hlength.trans hlength', fun f hf => ?_⟩
      obtain ⟨y, hy, hfy⟩ := hfields f hf
      have hmem : (f.1, y) ∈ gs := (Fields.get?_eq_some_iff hb.self).mp hy
      obtain ⟨z, hz, hyz⟩ := hfields' _ hmem
      have hmem' : (f.1, z) ∈ hs := (Fields.get?_eq_some_iff hc.self).mp hz
      have hheld := List.mem_map_of_mem (f := Prod.snd) hf
      exact ⟨z, hz, ih f.2 hheld (ha.held hheld) (hb.held (List.mem_map_of_mem hmem))
        (hc.held (List.mem_map_of_mem hmem')) hfy hyz⟩
    | _ =>
      -- none of the three is a collection
      have hflat := fun hab' hbc' => eqFlat_trans ha.self hb.self hc.self hab' hbc'
      cases a <;>
        first
          | exact ha.self.elim
          | exact hb.self.elim
          | exact absurd (Except.ok.inj hab) Bool.false_ne_true
          | exact hflat hab hbc

end Value

end NearDoc
