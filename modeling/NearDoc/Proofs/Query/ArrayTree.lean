import NearDoc.Proofs.Query.Recognition

/-!
Derivations of arrays as data. A proof that words derive something does not tell how they do; a tree
does. Main statements: what the grammar lists has a tree, and no two trees stand over the same
words, whatever follows them.
-/

namespace NearDoc

/-- The digits that a numeral has after its sign. -/
def Word.digits (w : Word) : List Char := (Parser.takeMinus w.text.toList).2

/-- The integer that a numeral without point and exponent writes, however long it is. -/
def Word.integer? (w : Word) : Option Int :=
  (Number.readNat? w.digits).map fun n : Nat =>
    if (Parser.takeMinus w.text.toList).1 then -(n : Int) else n

/-- The word is no integer of more digits than are read. -/
def Word.Readable (w : Word) : Prop :=
  w.kind = .number → w.integer? ≠ none → w.digits.length ≤ Number.longestInteger

namespace Grammar

/-! ### Constants -/

/-- What a word that is a constant by itself means. -/
inductive Constant : Word → Value → Prop where
  | integer {s : String} {i : Int} (h : Word.integer? ⟨.number, s⟩ = some i) :
      Constant ⟨.number, s⟩ (.int i)
  | real {s : String} (h : Word.integer? ⟨.number, s⟩ = none) :
      Constant ⟨.number, s⟩ (.real ((Number.readReal? s.toList).getD .notANumber))
  | text {s : String} : Constant ⟨.text, s⟩ (Parser.textValue s)
  | truth {s : String} (b : Bool)
      (h : (Word.token ⟨.name, s⟩).keyword? = some (if b then "TRUE" else "FALSE")) :
      Constant ⟨.name, s⟩ (.bool b)
  | null {s : String} (h : (Word.token ⟨.name, s⟩).keyword? = some "NULL") :
      Constant ⟨.name, s⟩ .null

variable {w : Word} {u v : Value}

/-- An integer is read, unless it has too many digits. -/
lemma integer?_eq (w : Word) : Parser.integer? w.text.toList = w.integer?.map fun i =>
    if Number.longestInteger < w.digits.length then .error (.tooManyDigits w.digits.length)
    else .ok i := by
  rw [Word.integer?, Word.digits]
  rcases hn : Number.readNat? (Parser.takeMinus w.text.toList).2 with _ | n <;>
    simp [Parser.integer?, hn]

/-- A constant is read, unless it is an integer of too many digits. -/
theorem constant?_eq_ok :
    Parser.constant? w.token = some (.ok v) ↔ Constant w v ∧ w.Readable := by
  obtain ⟨kind, s⟩ := w
  have hint := integer?_eq ⟨kind, s⟩
  constructor
  · intro h
    cases kind with
    | number =>
      simp only [Parser.constant?, Word.token, Option.some.injEq, Parser.numberValue, hint] at h
      rcases hi : Word.integer? ⟨.number, s⟩ with _ | i
      · simp only [hi, Option.map_none, Except.ok.injEq] at h
        exact ⟨h ▸ .real hi, fun _ hne => absurd hi hne⟩
      · simp only [hi, Option.map_some] at h
        split at h
        · cases h
        · rename_i hlen
          cases h
          exact ⟨.integer hi, fun _ _ => Nat.not_lt.mp hlen⟩
    | text =>
      cases h
      exact ⟨.text, fun hkind => by cases hkind⟩
    | name =>
      refine ⟨?_, fun hkind => by cases hkind⟩
      simp only [Parser.constant?, Word.token] at h
      split at h
      · rename_i hk
        cases h
        exact .truth true hk
      · rename_i hk
        cases h
        exact .truth false hk
      · rename_i hk
        cases h
        exact .null hk
      · cases h
    | _ => cases h
  · rintro ⟨h, hread⟩
    cases h with
    | @integer s i h =>
      have hlen := Nat.not_lt.mpr (hread rfl (by simp [h]))
      simp [Parser.constant?, Word.token, Parser.numberValue, hint, h, hlen, Except.map]
    | @real s h => simp [Parser.constant?, Word.token, Parser.numberValue, hint, h]
    | text => rfl
    | truth b h =>
      simp only [Parser.constant?, Word.token] at h ⊢
      cases b <;> simp [h]
    | null h =>
      simp only [Parser.constant?, Word.token] at h ⊢
      simp [h]

lemma Constant.unique (h : Constant w u) (h' : Constant w v) : u = v := by
  cases h with
  | integer h =>
    cases h' with
    | integer h' => cases h.symm.trans h'; rfl
    | real h' => cases h.symm.trans h'
  | real h =>
    cases h' with
    | integer h' => cases h'.symm.trans h
    | real => rfl
  | text =>
    cases h'
    rfl
  | truth b h =>
    cases h' with
    | truth b' h' =>
      have := h.symm.trans h'
      cases b <;> cases b' <;> simp_all
    | null h' =>
      have := h.symm.trans h'
      cases b <;> simp_all
  | null h =>
    cases h' with
    | truth b' h' =>
      have := h.symm.trans h'
      cases b' <;> simp_all
    | null => rfl

/-- A constant begins nothing else. -/
lemma Constant.word (h : Constant w v) :
    w.kind ≠ .punct ∧ w.kind ≠ .param ∧ (w.kind = .name → w.token.keyword? ≠ none) ∧
      w.token.keyword? ≠ some "NOT" := by
  cases h with
  | truth b h => cases b <;> simp [h]
  | null h => simp [h]
  | _ => simp [Token.keyword?, Word.token]

/-! ### Trees of arrays -/

inductive ArrayTree : ArrayPart → Type where
  | constant (w : Word) (v : Value) : ArrayTree .element
  | nested (t : ArrayTree .array) : ArrayTree .element
  | last (t : ArrayTree .element) : ArrayTree .elements
  | more (t : ArrayTree .element) (ts : ArrayTree .elements) : ArrayTree .elements
  | empty : ArrayTree .array
  | nonempty (ts : ArrayTree .elements) : ArrayTree .array

namespace ArrayTree

variable {p : ArrayPart}

/-- The words that the tree stands over. -/
def words {p : ArrayPart} : ArrayTree p → List Word
  | .constant w _ => [w]
  | .nested t => mark "[" :: t.words
  | .last t => t.words ++ [mark "]"]
  | .more t ts => t.words ++ mark "," :: ts.words
  | .empty => [mark "]"]
  | .nonempty ts => ts.words

/-- What the tree lists. -/
def values {p : ArrayPart} : ArrayTree p → List Value
  | .constant _ v => [v]
  | .nested t | .last t => t.values
  | .more t ts => t.values ++ ts.values
  | .empty => [.list []]
  | .nonempty ts => [.list ts.values]

/-- Every constant means what it is said to mean. -/
def Conforms {p : ArrayPart} : ArrayTree p → Prop
  | .constant w v => Constant w v
  | .nested t | .last t => t.Conforms
  | .more t ts => t.Conforms ∧ ts.Conforms
  | .empty => True
  | .nonempty ts => ts.Conforms

/-- Only elements are several. -/
lemma exists_value (t : ArrayTree p) (hp : p ≠ .elements) : ∃ v, t.values = [v] := by
  induction t with
  | constant w v => exact ⟨v, rfl⟩
  | nested t ih => exact ih (by simp)
  | empty => exact ⟨_, rfl⟩
  | nonempty ts => exact ⟨_, rfl⟩
  | last | more => exact absurd rfl hp

theorem lists (t : ArrayTree p) (ht : t.Conforms) (hread : ∀ w ∈ t.words, w.Readable) :
    Lists p t.words t.values := by
  induction t with
  | constant w v => exact .constant (constant?_eq_ok.mpr ⟨ht, hread w (by simp [words])⟩)
  | nested t ih =>
    obtain ⟨v, hv⟩ := t.exists_value (by simp)
    have := ih ht fun w hw => hread w (by simp [words, hw])
    rw [values, hv] at *
    exact .nested this
  | last t ih =>
    obtain ⟨v, hv⟩ := t.exists_value (by simp)
    have := ih ht fun w hw => hread w (by simp [words, hw])
    rw [values, hv] at *
    exact .last this
  | more t ts ih ihs =>
    obtain ⟨v, hv⟩ := t.exists_value (by simp)
    have h := ih ht.1 fun w hw => hread w (by simp [words, hw])
    have hs := ihs ht.2 fun w hw => hread w (by simp [words, hw])
    rw [values, hv] at *
    exact .more h hs
  | empty => exact .empty
  | nonempty ts ih => exact .nonempty (ih ht hread)

/-- Elements do not begin with the bracket that closes an array. -/
lemma exists_cons (t : ArrayTree p) (ht : t.Conforms) (hp : p ≠ .array) :
    ∃ w ws, t.words = w :: ws ∧ w ≠ mark "]" := by
  induction t with
  | constant w v =>
    refine ⟨w, [], rfl, ?_⟩
    rintro rfl
    exact (Constant.word ht).1 rfl
  | nested t ih => exact ⟨_, _, rfl, by decide⟩
  | last t ih =>
    obtain ⟨w, ws, hws, hw⟩ := ih ht (by simp)
    exact ⟨w, ws ++ [mark "]"], by simp [words, hws], hw⟩
  | more t ts ih =>
    obtain ⟨w, ws, hws, hw⟩ := ih ht.1 (by simp)
    exact ⟨w, ws ++ mark "," :: ts.words, by simp [words, hws], hw⟩
  | empty => exact absurd rfl hp
  | nonempty ts ih => exact absurd rfl hp

/-- A part of an array tells where it ends. -/
theorem unique (t t' : ArrayTree p) (ht : t.Conforms) (ht' : t'.Conforms) {r z : List Word}
    (h : t.words ++ r = t'.words ++ z) : t = t' ∧ r = z := by
  induction t generalizing r z with
  | constant w v =>
    cases t' with
    | constant w' v' =>
      obtain ⟨rfl, rfl⟩ := List.cons.inj h
      exact ⟨by rw [Constant.unique ht ht'], rfl⟩
    | nested t' => exact absurd ((List.cons.inj h).1 ▸ rfl) (Constant.word ht).1
  | nested t ih =>
    cases t' with
    | constant w' v' => exact absurd ((List.cons.inj h).1 ▸ rfl) (Constant.word ht').1
    | nested t' =>
      obtain ⟨rfl, rfl⟩ := ih t' ht ht' (List.cons.inj h).2
      exact ⟨rfl, rfl⟩
  | last t ih =>
    cases t' with
    | last t' =>
      obtain ⟨rfl, hr⟩ := ih t' ht ht' (by simpa [words] using h)
      exact ⟨rfl, (List.cons.inj hr).2⟩
    | more t' ts' =>
      obtain ⟨-, hr⟩ := ih t' ht ht'.1
        (r := mark "]" :: r) (z := mark "," :: (ts'.words ++ z)) (by simpa [words] using h)
      exact absurd (List.cons.inj hr).1 (by decide)
  | more t ts ih ihs =>
    cases t' with
    | last t' =>
      obtain ⟨-, hr⟩ := ih t' ht.1 ht'
        (r := mark "," :: (ts.words ++ r)) (z := mark "]" :: z) (by simpa [words] using h)
      exact absurd (List.cons.inj hr).1 (by decide)
    | more t' ts' =>
      obtain ⟨rfl, hr⟩ := ih t' ht.1 ht'.1
        (r := mark "," :: (ts.words ++ r)) (z := mark "," :: (ts'.words ++ z))
        (by simpa [words] using h)
      obtain ⟨rfl, rfl⟩ := ihs ts' ht.2 ht'.2 (List.cons.inj hr).2
      exact ⟨rfl, rfl⟩
  | empty =>
    cases t' with
    | empty => exact ⟨rfl, (List.cons.inj h).2⟩
    | nonempty ts' =>
      obtain ⟨w, ws, hws, hw⟩ := ts'.exists_cons ht' (by simp)
      rw [words, words, hws] at h
      exact absurd (List.cons.inj h).1.symm hw
  | nonempty ts ih =>
    cases t' with
    | empty =>
      obtain ⟨w, ws, hws, hw⟩ := ts.exists_cons ht (by simp)
      rw [words, words, hws] at h
      exact absurd (List.cons.inj h).1 hw
    | nonempty ts' =>
      obtain ⟨rfl, rfl⟩ := ih ts' ht ht' h
      exact ⟨rfl, rfl⟩

end ArrayTree

theorem exists_arrayTree {p : ArrayPart} {ws : List Word} {vs : List Value} (h : Lists p ws vs) :
    ∃ t : ArrayTree p, t.Conforms ∧ t.words = ws ∧ t.values = vs ∧ ∀ w ∈ ws, w.Readable := by
  induction h with
  | @constant w v h =>
    obtain ⟨hc, hread⟩ := constant?_eq_ok.mp h
    exact ⟨.constant w v, hc, rfl, rfl, List.forall_mem_singleton.mpr hread⟩
  | nested h ih =>
    obtain ⟨t, ht, rfl, hv, hread⟩ := ih
    exact ⟨.nested t, ht, rfl, hv, List.forall_mem_cons.mpr ⟨nofun, hread⟩⟩
  | last h ih =>
    obtain ⟨t, ht, rfl, hv, hread⟩ := ih
    exact ⟨.last t, ht, rfl, hv,
      List.forall_mem_append.mpr ⟨hread, List.forall_mem_singleton.mpr nofun⟩⟩
  | more h hs ih ihs =>
    obtain ⟨t, ht, rfl, hv, hread⟩ := ih
    obtain ⟨ts, hts, rfl, hvs, hreads⟩ := ihs
    refine ⟨.more t ts, ⟨ht, hts⟩, rfl, by simp [ArrayTree.values, hv, hvs], ?_⟩
    exact List.forall_mem_append.mpr ⟨hread, List.forall_mem_cons.mpr ⟨nofun, hreads⟩⟩
  | empty => exact ⟨.empty, trivial, rfl, rfl, List.forall_mem_singleton.mpr nofun⟩
  | nonempty h ih =>
    obtain ⟨t, ht, rfl, rfl, hread⟩ := ih
    exact ⟨.nonempty t, ht, rfl, rfl, hread⟩

end Grammar

end NearDoc
