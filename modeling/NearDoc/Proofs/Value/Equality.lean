import NearDoc.Proofs.Value.Fields
import NearDoc.Proofs.Value.Parts
import NearDoc.Proofs.Value.Threshold

/-!
Equality of values that compare by content. A NaN differs from itself, an array has no single truth
value, and of fields with one name only the first is found; values that hold none of these at any
depth are equal or not, and it does not matter which of them stands first. Main statement: so it is,
with lists equal item by item and objects equal name by name.
-/

namespace NearDoc

/-- Two embeddings are the same whichever stands first. -/
lemma Embedding.same_comm (v w : Embedding) : v.same w = w.same v := by
  unfold same
  have hall : ∀ xs ys : List Binary64, (xs.zip ys).all (fun p => p.1.eq p.2) =
      (ys.zip xs).all fun p => p.1.eq p.2 := by
    intro xs ys
    induction xs generalizing ys with
    | nil => cases ys <;> rfl
    | cons x xs ih =>
      cases ys with
      | nil => rfl
      | cons y ys =>
        have hxy : x.eq y = y.eq x := Number.eq_swap _ _
        rw [List.zip_cons_cons, List.zip_cons_cons, List.all_cons, List.all_cons, ih ys, hxy]
  rw [hall, decide_eq_decide.mpr (eq_comm (a := v.dimension))]

namespace Value

/-- A value that is of no declared type, is no NaN and has no field twice, whatever it holds. -/
def IsSettled : Value → Prop
  | .array _ | .scalar _ => False
  | .real x => (Number.real x).HasPlace
  | .object fields => (fields.map (·.1)).Nodup
  | _ => True

/-- A value that is settled at any depth. -/
def Settled (v : Value) : Prop := ∀ w ∈ v.parts, w.IsSettled

/-- Two values count as equal. -/
def Equals (a b : Value) : Prop := a.eqv b = .ok true

variable {a b x y : Value} {xs ys : List Value} {fs gs : Fields}

lemma Settled.self (h : a.Settled) : a.IsSettled := h a (self_mem_parts a)

lemma Settled.held (h : a.Settled) (hx : x ∈ a.held) : x.Settled := fun w hw =>
  h w (mem_parts_of_held hx hw)

/-- No settled value is marked. -/
lemma IsSettled.isSame (h : x.IsSettled) (y : Value) : x.isSame y = false := by
  cases x with
  | real x =>
    obtain ⟨p, hp⟩ := h
    cases x <;> cases y <;> first | rfl | cases hp
  | array | scalar => cases h
  | _ => cases y <;> rfl

/-! ### What holds no others -/

lemma exists_eqFlat (ha : a.IsSettled) (hb : b.IsSettled) : ∃ r, eqFlat a b = .ok r := by
  cases a <;> cases b <;> first | exact ha.elim | exact hb.elim | exact ⟨_, rfl⟩

lemma eqFlat_comm (ha : a.IsSettled) (hb : b.IsSettled) : eqFlat a b = eqFlat b a := by
  cases a <;> cases b <;>
    first
      | exact ha.elim
      | exact hb.elim
      | exact Eq.refl (Except.ok false)
      | exact congrArg Except.ok (Number.eq_swap _ _)
      | exact congrArg Except.ok (decide_eq_decide.mpr eq_comm)
      | exact congrArg Except.ok (Embedding.same_comm _ _)
      | rfl

/-! ### Items -/

lemma eqvList_cons (hx : x.IsSettled) (y : Value) (xs ys : List Value) :
    eqvList (x :: xs) (y :: ys) =
      match x.eqv y with
      | .ok true => eqvList xs ys
      | r => r := by
  rw [eqvList, hx.isSame]
  rfl

/-- Items are equal one by one. -/
lemma eqvList_eq_true (hxs : ∀ x ∈ xs, x.IsSettled) :
    eqvList xs ys = .ok true ↔ List.Forall₂ Equals xs ys := by
  induction xs generalizing ys with
  | nil => cases ys <;> simp [eqvList]
  | cons x xs ih =>
    rw [List.forall_mem_cons] at hxs
    cases ys with
    | nil => simp [eqvList]
    | cons y ys =>
      rw [eqvList_cons hxs.1, List.forall₂_cons, ← ih hxs.2]
      rcases hxy : x.eqv y with e | _ | _ <;> simp [Equals, hxy]

lemma exists_eqvList (hxs : ∀ x ∈ xs, x.IsSettled) (h : ∀ x ∈ xs, ∀ y ∈ ys, ∃ r, x.eqv y = .ok r) :
    ∃ r, eqvList xs ys = .ok r := by
  induction xs generalizing ys with
  | nil => cases ys <;> exact ⟨_, rfl⟩
  | cons x xs ih =>
    rw [List.forall_mem_cons] at hxs
    cases ys with
    | nil => exact ⟨_, rfl⟩
    | cons y ys =>
      rw [List.forall_mem_cons] at h
      obtain ⟨r, hr⟩ := h.1 y (by simp)
      rw [eqvList_cons hxs.1, hr]
      cases r
      · exact ⟨false, rfl⟩
      · exact ih hxs.2 fun x hx y hy => h.2 x hx y (by simp [hy])

/-! ### Fields -/

lemma eqvFields_cons (name : String) (hx : x.IsSettled) (fs gs : Fields) :
    eqvFields ((name, x) :: fs) gs =
      match gs.get? name with
      | none => .ok false
      | some y =>
        match x.eqv y with
        | .ok true => eqvFields fs gs
        | r => r := by
  rw [eqvFields, Fields.get?]
  rcases gs.lookup name with _ | y
  · rfl
  · exact if_neg (by simp [hx.isSame])

/-- Each field is equal to the one of its name. -/
lemma eqvFields_eq_true (hfs : ∀ f ∈ fs, f.2.IsSettled) :
    eqvFields fs gs = .ok true ↔ ∀ f ∈ fs, ∃ y, gs.get? f.1 = some y ∧ f.2.Equals y := by
  induction fs with
  | nil => simp [eqvFields]
  | cons f fs ih =>
    obtain ⟨name, x⟩ := f
    rw [List.forall_mem_cons] at hfs ⊢
    rw [eqvFields_cons name hfs.1, ← ih hfs.2]
    rcases hget : gs.get? name with _ | y
    · simp
    · rcases hxy : x.eqv y with e | _ | _ <;> simp [Equals, hxy]

lemma exists_eqvFields (hfs : ∀ f ∈ fs, f.2.IsSettled)
    (h : ∀ f ∈ fs, ∀ y, gs.get? f.1 = some y → ∃ r, f.2.eqv y = .ok r) :
    ∃ r, eqvFields fs gs = .ok r := by
  induction fs with
  | nil => exact ⟨_, rfl⟩
  | cons f fs ih =>
    obtain ⟨name, x⟩ := f
    rw [List.forall_mem_cons] at hfs h
    rw [eqvFields_cons name hfs.1]
    rcases hget : gs.get? name with _ | y
    · exact ⟨false, rfl⟩
    · obtain ⟨r, hr⟩ := h.1 y hget
      dsimp only at hr ⊢
      rw [hr]
      cases r
      · exact ⟨false, rfl⟩
      · exact ih hfs.2 h.2

/-! ### Values -/

lemma equals_list (hxs : (list xs).Settled) :
    (list xs).Equals (list ys) ↔ List.Forall₂ Equals xs ys := by
  have hitems : ∀ x ∈ xs, x.IsSettled := fun x hx => (hxs.held hx).self
  unfold Equals
  rw [eqv]
  split_ifs with hlength
  · exact eqvList_eq_true hitems
  · exact iff_of_false (by rintro ⟨⟩) fun h => hlength h.length_eq

lemma equals_tuple (hxs : (tuple xs).Settled) :
    (tuple xs).Equals (tuple ys) ↔ List.Forall₂ Equals xs ys :=
  eqvList_eq_true fun _ hx => (hxs.held hx).self

lemma equals_object (hfs : (object fs).Settled) :
    (object fs).Equals (object gs) ↔
      fs.length = gs.length ∧ ∀ f ∈ fs, ∃ y, gs.get? f.1 = some y ∧ f.2.Equals y := by
  have hfields : ∀ f ∈ fs, f.2.IsSettled := fun f hf => (hfs.held (List.mem_map_of_mem hf)).self
  rw [← eqvFields_eq_true hfields]
  unfold Equals
  rw [eqv]
  split_ifs with hlength
  · exact ⟨fun h => ⟨hlength, h⟩, And.right⟩
  · exact iff_of_false (by rintro ⟨⟩) fun h => hlength h.1

/-- Settled values are equal or not. -/
lemma exists_eqv (ha : a.Settled) (hb : b.Settled) : ∃ r, a.eqv b = .ok r := by
  induction a using byHeld generalizing b with
  | step a ih =>
    have hflat := exists_eqFlat ha.self hb.self
    cases a with
    | list xs =>
      cases b with
      | list ys =>
        rw [eqv]
        split_ifs
        · exact exists_eqvList (fun x hx => (ha.held hx).self) fun _ hx _ hy =>
            ih _ hx (ha.held hx) (hb.held hy)
        · exact ⟨false, rfl⟩
      | _ => exact hflat
    | tuple xs =>
      cases b with
      | tuple ys =>
        exact exists_eqvList (fun x hx => (ha.held hx).self) fun _ hx _ hy =>
          ih _ hx (ha.held hx) (hb.held hy)
      | _ => exact hflat
    | object fs =>
      cases b with
      | object gs =>
        have hheld : ∀ f ∈ fs, f.2 ∈ (object fs).held := fun f hf => List.mem_map_of_mem hf
        rw [eqv]
        split_ifs
        · refine exists_eqvFields (fun f hf => (ha.held (hheld f hf)).self) fun f hf y hy => ?_
          have hmem : (f.1, y) ∈ gs := (Fields.get?_eq_some_iff hb.self).mp hy
          exact ih _ (hheld f hf) (ha.held (hheld f hf)) (hb.held (List.mem_map_of_mem hmem))
        · exact ⟨false, rfl⟩
      | _ => exact hflat
    | _ => cases b <;> exact hflat

/-- Objects that are equal are so from the other side. -/
lemma equals_object_symm (ha : (object fs).Settled) (hb : (object gs).Settled)
    (ih : ∀ x ∈ (object fs).held, ∀ {y : Value}, y.Settled → x.Equals y → y.Equals x)
    (h : (object fs).Equals (object gs)) : (object gs).Equals (object fs) := by
  obtain ⟨hlength, hfields⟩ := (equals_object ha).mp h
  have hnames : fs.map (·.1) ⊆ gs.map (·.1) := by
    intro name hname
    obtain ⟨f, hf, rfl⟩ := List.mem_map.mp hname
    obtain ⟨y, hget, -⟩ := hfields f hf
    exact List.mem_map.mpr ⟨_, (Fields.get?_eq_some_iff hb.self).mp hget, rfl⟩
  -- as many names, none of them twice, so no name is left over
  have hperm : (fs.map (·.1)).Perm (gs.map (·.1)) :=
    (List.subperm_of_subset ha.self hnames).perm_of_length_le (by simp [hlength])
  refine (equals_object hb).mpr ⟨hlength.symm, fun g hg => ?_⟩
  obtain ⟨f, hf, hname⟩ := List.mem_map.mp (hperm.mem_iff.mpr (List.mem_map_of_mem hg))
  obtain ⟨y, hget, heq⟩ := hfields f hf
  have hy : some y = some g.2 := by
    rw [← hget, hname]
    exact (Fields.get?_eq_some_iff hb.self).mpr hg
  obtain rfl : y = g.2 := Option.some.inj hy
  refine ⟨f.2, ?_, ih _ (List.mem_map_of_mem hf) (hb.held (List.mem_map_of_mem hg)) heq⟩
  rw [← hname]
  exact (Fields.get?_eq_some_iff ha.self).mpr hf

lemma Equals.symm (ha : a.Settled) (hb : b.Settled) (h : a.Equals b) : b.Equals a := by
  induction a using byHeld generalizing b with
  | step a ih =>
    have hflat := eqFlat_comm ha.self hb.self
    have hitems : ∀ {xs ys : List Value}, (∀ x ∈ xs, x ∈ a.held) → (∀ y ∈ ys, y ∈ b.held) →
        List.Forall₂ Equals xs ys → List.Forall₂ Equals ys xs := by
      intro xs ys hxs hys hpairs
      refine (List.forall₂_iff_zip.mpr ⟨hpairs.length_eq, fun {x y} hxy => ?_⟩).flip
      obtain ⟨hx, hy⟩ := List.of_mem_zip hxy
      have hheld := hxs x hx
      exact ih x hheld (ha.held hheld) (hb.held (hys y hy)) (List.forall₂_zip hpairs hxy)
    cases a with
    | list xs =>
      cases b with
      | list ys =>
        exact (equals_list hb).mpr (hitems (fun _ => id) (fun _ => id) ((equals_list ha).mp h))
      | _ => exact hflat.symm.trans h
    | tuple xs =>
      cases b with
      | tuple ys =>
        exact (equals_tuple hb).mpr (hitems (fun _ => id) (fun _ => id) ((equals_tuple ha).mp h))
      | _ => exact hflat.symm.trans h
    | object fs =>
      cases b with
      | object gs => exact equals_object_symm ha hb (fun x hx _ hy => ih x hx (ha.held hx) hy) h
      | _ => exact hflat.symm.trans h
    | _ => cases b <;> exact hflat.symm.trans h

/-- **Equality**: settled values are equal or not, whichever stands first. -/
theorem eqv_comm (ha : a.Settled) (hb : b.Settled) : a.eqv b = b.eqv a := by
  obtain ⟨r, hr⟩ := exists_eqv ha hb
  obtain ⟨s, hs⟩ := exists_eqv hb ha
  have hsame : r = true ↔ s = true := by
    constructor
    · rintro rfl
      exact Except.ok.inj (hs.symm.trans (Equals.symm ha hb hr))
    · rintro rfl
      exact Except.ok.inj (hr.symm.trans (Equals.symm hb ha hs))
  rw [hr, hs, Bool.eq_iff_iff.mpr hsame]

end Value

end NearDoc
