import NearDoc.Near.Distance
import NearDoc.Proofs.Outcome
import NearDoc.Proofs.Text.Trim

/-!
The distance of a document to a fixed target. Main statements: it is undefined or a number, unless
the document stores a vector of another dimension or a text that the reader has no room for, with an
integer too long or brackets too deep; and the Euclidean metric answers numbers only.
-/

namespace NearDoc

namespace Embedding

/-- The failure says that a value is no vector. -/
def NoVector (e : Error) : Prop := e.errorClass.isA .vector = true

lemma noVector_of_numbersFrom {xs : List Value} {i : Nat} {e : Error}
    (h : numbersFrom i xs = .error e) : NoVector e := by
  induction xs generalizing i with
  | nil => cases h
  | cons x xs ih =>
    rw [numbersFrom] at h
    split at h
    · cases h
      rfl
    · rcases hrest : numbersFrom (i + 1) xs with e' | ys
      · rw [hrest] at h
        cases h
        exact ih hrest
      · rw [hrest] at h
        cases h

lemma noVector_of_componentOf {v : Value} {e : Error} (h : componentOf v = .error e) :
    NoVector e := by
  unfold componentOf at h
  split at h
  · dsimp only at h
    split at h <;> cases h
    rfl
  all_goals cases h
  rfl

lemma noVector_of_ofRounded {xs : List Binary64} {e : Error} (h : ofRounded xs = .error e) :
    NoVector e := by
  unfold ofRounded at h
  split at h
  · cases h
  · cases h
    split <;> rfl

lemma noVector_of_ofValues {xs : List Value} {e : Error} (h : ofValues xs = .error e) :
    NoVector e := by
  rcases bind_eq_error.mp h with hnumbers | ⟨ys, -, h⟩
  · exact noVector_of_numbersFrom hnumbers
  · split at h
    · rcases bind_eq_error.mp h with hempty | ⟨_, hempty, -⟩
      · cases hempty
        rfl
      · cases hempty
    · rcases bind_eq_error.mp h with hmap | ⟨zs, -, h⟩
      · obtain ⟨y, -, hy⟩ := exists_mem_of_mapM_error hmap
        exact noVector_of_componentOf hy
      · exact noVector_of_ofRounded h

lemma noVector_of_ofArray {a : TypedArray} {e : Error} (h : ofArray a = .error e) :
    NoVector e := by
  unfold ofArray at h
  split at h
  · cases h
    rfl
  · split at h
    · cases h
      rfl
    · exact noVector_of_ofRounded h

/-- The failure is one of the reader's own: an integer is too long, or brackets nest too deep. -/
def NoRoom (e : Error) : Prop := (∃ n, e = .tooManyDigits n) ∨ ∃ what, e = .nestedTooDeep what

/-- Only the reader's own failures make a bracketed text fail by itself. -/
lemma noVector_of_parseBracketed {s : String} {e : Error} (h : parseBracketed s = .error e) :
    NoVector e ∨ NoRoom e := by
  unfold parseBracketed at h
  dsimp only at h
  split at h
  · split at h
    · cases h
    · cases h
      exact .inr (.inl ⟨_, rfl⟩)
    · cases h
      exact .inr (.inr ⟨_, rfl⟩)
    · cases h
      exact .inl rfl
  · cases h
    exact .inl rfl

lemma noVector_of_ofValue {v : Value} {e : Error} (h : ofValue v = .error e) :
    NoVector e ∨ NoRoom e := by
  unfold ofValue at h
  split at h
  · cases h
  · rename_i s
    rcases hs : parseBracketed s with e' | xs
    · rw [hs] at h
      cases h
      exact noVector_of_parseBracketed hs
    · rw [hs] at h
      exact .inl (noVector_of_ofValues h)
  · exact .inl (noVector_of_ofArray h)
  · exact .inl (noVector_of_ofValues h)
  · exact .inl (noVector_of_ofValues h)
  · cases h
    exact .inl rfl

/-- A stored value fails to be read only over what the reader has no room for. -/
lemma noRoom_of_ofStored {v : Value} {e : Error} (h : ofStored v = .error e) : NoRoom e := by
  unfold ofStored at h
  split at h
  · cases h
  · rename_i e' he
    split at h
    · cases h
    · rename_i hclass
      cases h
      exact (noVector_of_ofValue he).resolve_left hclass

/-- What the reader has no room for makes a stored text fail. -/
lemma ofStored_of_noRoom {body : List Char} {e : Error} (hroom : NoRoom e)
    (hfirst : body.head? = some '[') (hlast : body.getLast? = some ']')
    (hread : Json.readWithin nestingLimit body = .error e) :
    ofStored (.text (String.ofList body)) = .error e := by
  have htrim : Text.trim body = body :=
    Text.trim_of_first_last hfirst hlast (by decide) (by decide)
  have hparse : parseBracketed (String.ofList body) = .error e := by
    rw [parseBracketed, String.toList_ofList, htrim, if_pos (by simp [hfirst, hlast]), hread]
    rcases hroom with ⟨n, rfl⟩ | ⟨what, rfl⟩ <;> rfl
  rw [ofStored, ofValue, hparse]
  rcases hroom with ⟨n, rfl⟩ | ⟨what, rfl⟩ <;> rfl

end Embedding

namespace DistanceKey

/-- The metric answers a number for the target and any vector of its dimension. -/
def Measures (key : DistanceKey) : Prop :=
  ∀ stored : Embedding, stored.dimension = key.target.dimension →
    ∃ x p, key.metric.distance stored key.target = .ok x ∧ x.place? = some p

/-- Why a document has no distance, not even an undefined one. -/
inductive Refuses (key : DistanceKey) (d : Value) : Error → Prop where
  | dimension {stored : Embedding} (h : Embedding.extract d key.field = .ok (some stored))
      (hne : stored.dimension ≠ key.target.dimension) :
      Refuses key d (.dimensionMismatch key.target.dimension stored.dimension)
  | digits {n : Nat} (h : Embedding.extract d key.field = .error (.tooManyDigits n)) :
      Refuses key d (.tooManyDigits n)
  | nesting {what : String} (h : Embedding.extract d key.field = .error (.nestedTooDeep what)) :
      Refuses key d (.nestedTooDeep what)

variable {key : DistanceKey} {d : Value}

/-- **Distances**: a document has none, a number, or it is refused. -/
theorem ofDocument_cases (hfield : ∃ parts, Path.segments key.field = .ok parts)
    (h : key.Measures) (d : Value) :
    key.ofDocument d = .ok .undefined ∨
      (∃ x p, key.ofDocument d = .ok (.real x) ∧ x.place? = some p) ∨
      ∃ e, key.ofDocument d = .error e ∧ key.Refuses d e := by
  obtain ⟨parts, hparts⟩ := hfield
  have hextract : Embedding.extract d key.field = Embedding.ofStored (d.follow parts) := by
    simp [Embedding.extract, Value.atPath, hparts, Except.map, Except.bind]
  rcases hstored : Embedding.extract d key.field with e | _ | stored
  · have hrefused : key.ofDocument d = .error e := by
      rw [ofDocument, hstored]
      rfl
    obtain ⟨n, rfl⟩ | ⟨what, rfl⟩ := Embedding.noRoom_of_ofStored (hextract ▸ hstored)
    · exact .inr (.inr ⟨_, hrefused, .digits hstored⟩)
    · exact .inr (.inr ⟨_, hrefused, .nesting hstored⟩)
  · left
    rw [ofDocument, hstored]
    rfl
  · right
    by_cases hdim : stored.dimension = key.target.dimension
    · obtain ⟨x, p, hx, hp⟩ := h stored hdim
      refine .inl ⟨x, p, ?_, hp⟩
      simp only [ofDocument, hstored, Bind.bind, Except.bind, hx]
      rfl
    · have hdistance : key.metric.distance stored key.target =
          .error (.dimensionMismatch key.target.dimension stored.dimension) := by
        rw [Metric.distance, if_neg hdim]
      refine .inr ⟨_, ?_, .dimension hstored hdim⟩
      simp only [ofDocument, hstored, Bind.bind, Except.bind, hdistance]

end DistanceKey

/-! ### The Euclidean metric -/

namespace Binary64

/-- A number that has no sign. -/
def IsMagnitude (x : Binary64) : Prop :=
  x = .infinite false ∨ ∃ units h, x = .finite false units h

variable {x y : Binary64}

lemma roundTo_cases (f : Number.Format) (negative : Bool) (num den : Nat) :
    roundTo f negative num den = .infinite negative ∨
      ∃ units h, roundTo f negative num den = .finite negative units h := by
  unfold roundTo
  dsimp only
  split
  · rename_i h
    exact .inr ⟨_, h.2, rfl⟩
  · exact .inl rfl

lemma isMagnitude_ofUnits (num den : Nat) : IsMagnitude (ofUnits false num den) :=
  roundTo_cases .double false num den

lemma IsMagnitude.exists_place (h : IsMagnitude x) : ∃ p, x.place? = some p := by
  rcases h with rfl | ⟨units, h, rfl⟩ <;> exact ⟨_, rfl⟩

lemma IsMagnitude.add (hx : IsMagnitude x) (hy : IsMagnitude y) : IsMagnitude (x + y) := by
  rcases hx with rfl | ⟨a, ha, rfl⟩ <;> rcases hy with rfl | ⟨b, hb, rfl⟩
  · exact .inl rfl
  · exact .inl rfl
  · exact .inl rfl
  · have hsign : (if signed false a + signed false b = 0 then false && false
        else decide (signed false a + signed false b < 0)) = false := by
      simp only [signed, Bool.false_eq_true, if_false]
      split
      · rfl
      · simp only [decide_eq_false_iff_not]
        omega
    show IsMagnitude (Binary64.add _ _)
    rw [Binary64.add, hsign]
    exact isMagnitude_ofUnits _ _

lemma isMagnitude_mul_self (h : ∀ mark, x ≠ .nan mark) : IsMagnitude (x * x) := by
  cases x with
  | nan mark => exact absurd rfl (h mark)
  | infinite n => cases n <;> exact .inl rfl
  | finite n units hfits =>
    show IsMagnitude (mul _ _)
    rw [mul, Bool.xor_self]
    exact isMagnitude_ofUnits _ _

lemma IsMagnitude.sqrt (h : IsMagnitude x) : IsMagnitude x.sqrt := by
  rcases h with rfl | ⟨units, hfits, rfl⟩
  · exact .inl rfl
  · unfold Binary64.sqrt
    simp only [Bool.false_eq_true, if_false]
    split
    · exact .inr ⟨units, hfits, rfl⟩
    · exact isMagnitude_ofUnits _ _

/-- The difference of two finite numbers is a number. -/
lemma sub_ne_nan (hx : x.isFinite) (hy : y.isFinite) (mark : Nat) : x - y ≠ .nan mark := by
  have hsub : x - y = add x (neg y) := rfl
  rw [hsub]
  cases x <;> cases y <;> simp only [isFinite, Bool.false_eq_true] at hx hy
  rename_i m a ha n b hb
  rw [neg, add, ofUnits]
  obtain h | ⟨units, hfits, h⟩ := roundTo_cases .double _ (signed m a + signed (!n) b).natAbs 1
  · rw [h]
    simp
  · rw [h]
    simp

end Binary64

/-- **The Euclidean metric** measures every target. -/
theorem DistanceKey.measures_euclidean (field : String) (target : Embedding) :
    DistanceKey.Measures ⟨field, target, .euclidean⟩ := by
  intro stored hdim
  have hnumbers : ∀ x ∈ stored.difference target, ∀ mark, x ≠ .nan mark := by
    intro x hx
    obtain ⟨p, hp, rfl⟩ := List.mem_map.mp hx
    have hmem := List.of_mem_zip hp
    exact Binary64.sub_ne_nan (stored.allComponents _ hmem.1).1 (target.allComponents _ hmem.2).1
  have hsum (xs : List Binary64) (hxs : ∀ x ∈ xs, ∀ mark, x ≠ .nan mark) (sum : Binary64)
      (h : sum.IsMagnitude) : (xs.foldl (fun sum x => sum + x * x) sum).IsMagnitude := by
    induction xs generalizing sum with
    | nil => exact h
    | cons x xs ih =>
      rw [List.forall_mem_cons] at hxs
      exact ih hxs.2 _ (h.add (Binary64.isMagnitude_mul_self hxs.1))
  have hdistance := (hsum _ hnumbers _ (Binary64.isMagnitude_ofUnits 0 1)).sqrt
  obtain ⟨p, hp⟩ := hdistance.exists_place
  refine ⟨Metric.euclideanDistance stored target, p, ?_, hp⟩
  rw [Metric.distance, if_pos hdim]
  rfl

end NearDoc
