import Mathlib.Tactic.Common

/-!
Computations that may fail: when one made of several parts succeeds, its parts have, and when it
fails, one of them has.
-/

namespace NearDoc

variable {ε α β : Type}

lemma exists_of_isOk {x : Except ε α} (h : x.isOk = true) : ∃ a, x = .ok a := by
  cases x with
  | error e => cases h
  | ok a => exact ⟨a, rfl⟩

lemma bind_eq_ok {x : Except ε α} {f : α → Except ε β} {b : β} :
    x >>= f = .ok b ↔ ∃ a, x = .ok a ∧ f a = .ok b := by
  cases x with
  | error e => exact ⟨nofun, fun ⟨_, h, _⟩ => nomatch h⟩
  | ok a =>
    constructor
    · exact fun h => ⟨a, rfl, h⟩
    · rintro ⟨_, ha, h⟩
      cases ha
      exact h

lemma bind_eq_error {x : Except ε α} {f : α → Except ε β} {e : ε} :
    x >>= f = .error e ↔ x = .error e ∨ ∃ a, x = .ok a ∧ f a = .error e := by
  cases x with
  | error e' =>
    constructor
    · rintro ⟨⟩
      exact .inl rfl
    · rintro (h | ⟨_, h, _⟩)
      · exact congrArg Except.error (Except.error.inj h)
      · cases h
  | ok a =>
    constructor
    · exact fun h => .inr ⟨a, rfl, h⟩
    · rintro (h | ⟨_, ha, h⟩)
      · cases h
      · cases ha
        exact h

lemma map_eq_ok {x : Except ε α} {f : α → β} {b : β} :
    x.map f = .ok b ↔ ∃ a, x = .ok a ∧ f a = b := by
  cases x <;> simp [Except.map]

lemma map_eq_error {x : Except ε α} {f : α → β} {e : ε} : x.map f = .error e ↔ x = .error e := by
  cases x <;> simp [Except.map]

/-- Members that were made are the outcomes of the step, one by one. -/
lemma forall₂_of_mapM {f : α → Except ε β} {l : List α} {m : List β} (h : l.mapM f = .ok m) :
    List.Forall₂ (fun a b => f a = .ok b) l m := by
  induction l generalizing m with
  | nil =>
    cases h
    exact .nil
  | cons a l ih =>
    rw [List.mapM_cons, bind_eq_ok] at h
    obtain ⟨b, hb, h⟩ := h
    obtain ⟨bs, hbs, h⟩ := bind_eq_ok.mp h
    cases h
    exact .cons hb (ih hbs)

/-- Outcomes of the step, one by one, are made together. -/
lemma mapM_of_forall₂ {f : α → Except ε β} {l : List α} {m : List β}
    (h : List.Forall₂ (fun a b => f a = .ok b) l m) : l.mapM f = .ok m := by
  induction h with
  | nil => rfl
  | cons hb _ ih =>
    rw [List.mapM_cons, hb, ih]
    rfl

/-- Whatever is on the one side of a pairing is paired with something on the other. -/
lemma exists_mem_of_forall₂ {R : α → β → Prop} {l : List α} {m : List β} (h : List.Forall₂ R l m)
    {b : β} (hb : b ∈ m) : ∃ a ∈ l, R a b := by
  induction h with
  | nil => cases hb
  | @cons a b' l m hab _ ih =>
    rcases List.mem_cons.mp hb with rfl | hb
    · exact ⟨a, by simp, hab⟩
    · obtain ⟨a', ha', hab'⟩ := ih hb
      exact ⟨a', by simp [ha'], hab'⟩

/-- Steps fail together only as one of them does. -/
lemma exists_mem_of_mapM_error {f : α → Except ε β} {l : List α} {e : ε}
    (h : l.mapM f = .error e) : ∃ a ∈ l, f a = .error e := by
  induction l with
  | nil => cases h
  | cons a l ih =>
    rw [List.mapM_cons] at h
    rcases bind_eq_error.mp h with ha | ⟨b, -, h⟩
    · exact ⟨a, by simp, ha⟩
    · rcases bind_eq_error.mp h with hl | ⟨bs, -, h⟩
      · obtain ⟨x, hx, hxe⟩ := ih hl
        exact ⟨x, by simp [hx], hxe⟩
      · cases h

/-- Steps that all succeed succeed together. -/
lemma mapM_eq_ok {f : α → Except ε β} {g : α → β} {l : List α} (h : ∀ a ∈ l, f a = .ok (g a)) :
    l.mapM f = .ok (l.map g) := by
  induction l with
  | nil => rfl
  | cons a l ih =>
    rw [List.forall_mem_cons] at h
    rw [List.mapM_cons, h.1, ih h.2]
    rfl

lemma foldlM_eq_ok {f : β → α → Except ε β} {g : β → α → β} {l : List α} {b : β}
    (h : ∀ a ∈ l, ∀ b, f b a = .ok (g b a)) : l.foldlM f b = .ok (l.foldl g b) := by
  induction l generalizing b with
  | nil => rfl
  | cons a l ih =>
    rw [List.forall_mem_cons] at h
    rw [List.foldlM_cons, h.1, List.foldl_cons, ← ih h.2]
    rfl

/-- An outcome that is a failure of one kind or a value of another. -/
def Meets (Q : ε → Prop) (R : α → Prop) : Except ε α → Prop
  | .error e => Q e
  | .ok a => R a

namespace Meets

variable {Q : ε → Prop} {R S : α → Prop} {T : β → Prop} {x : Except ε α}

lemma of_ok {a : α} (h : R a) : Meets Q R (.ok a) := h

/-- An outcome is met as soon as its failures are. -/
lemma of_forall (h : ∀ e, x = .error e → Q e) : Meets Q (fun _ => True) x := by
  cases x with
  | error e => exact h e rfl
  | ok a => trivial

lemma error (h : Meets Q R x) {e : ε} (hx : x = .error e) : Q e := by
  subst hx
  exact h

lemma ok (h : Meets Q R x) {a : α} (hx : x = .ok a) : R a := by
  subst hx
  exact h

lemma imp (h : Meets Q R x) (hRS : ∀ a, R a → S a) : Meets Q S x := by
  cases x with
  | error e => exact h
  | ok a => exact hRS a h

lemma map {f : α → β} (h : Meets Q (fun a => T (f a)) x) : Meets Q T (x.map f) := by
  cases x <;> exact h

lemma bind {f : α → Except ε β} (h : Meets Q R x) (hf : ∀ a, R a → Meets Q T (f a)) :
    Meets Q T (x >>= f) := by
  cases x with
  | error e => exact h
  | ok a => exact hf a h

end Meets

/-- An outcome of which only the failures matter: they are of one kind. -/
def FailsOnly (Q : ε → Prop) (x : Except ε α) : Prop := ∀ e, x = .error e → Q e

namespace FailsOnly

variable {Q Q' : ε → Prop} {R : α → Prop} {x : Except ε α}

lemma of_ok (a : α) : FailsOnly Q (.ok a : Except ε α) := nofun

lemma of_error {e : ε} (h : Q e) : FailsOnly Q (.error e : Except ε α) := by
  rintro _ ⟨⟩
  exact h

lemma of_meets (h : Meets Q R x) : FailsOnly Q x := fun _ => h.error

lemma imp (h : FailsOnly Q x) (hQ : ∀ e, Q e → Q' e) : FailsOnly Q' x := fun e he => hQ e (h e he)

lemma bind {f : α → Except ε β} (h : FailsOnly Q x) (hf : ∀ a, FailsOnly Q (f a)) :
    FailsOnly Q (x >>= f) := fun e he =>
  (bind_eq_error.mp he).elim (h e) fun ⟨a, _, hfail⟩ => hf a e hfail

lemma map {f : α → β} (h : FailsOnly Q x) : FailsOnly Q (x.map f) := fun e he =>
  h e (map_eq_error.mp he)

lemma mapM {f : α → Except ε β} {l : List α} (h : ∀ a ∈ l, FailsOnly Q (f a)) :
    FailsOnly Q (l.mapM f) := fun e he => by
  obtain ⟨a, ha, hfail⟩ := exists_mem_of_mapM_error he
  exact h a ha e hfail

lemma foldlM {f : β → α → Except ε β} {l : List α} (h : ∀ a ∈ l, ∀ b, FailsOnly Q (f b a)) (b : β) :
    FailsOnly Q (l.foldlM f b) := by
  induction l generalizing b with
  | nil => exact of_ok b
  | cons a l ih =>
    rw [List.forall_mem_cons] at h
    rw [List.foldlM_cons]
    exact (h.1 b).bind (ih h.2)

end FailsOnly

end NearDoc
