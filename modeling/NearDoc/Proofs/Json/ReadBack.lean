import Mathlib.Data.List.Forall2
import NearDoc.Proofs.Json.Numeral
import NearDoc.Proofs.Json.Text
import NearDoc.Proofs.Outcome
import NearDoc.Proofs.Text.NameOrder
import NearDoc.Value.Plain

/-!
What the stored text of a value reads back as. Sequences, embeddings and arrays come back as lists,
numbers without a declared type, and the fields of an object in the order of their names. Main
statement: every value that has a text is read back from it.
-/

namespace NearDoc

namespace Value

mutual

/-- Every array has as many items as its axes have room for. -/
def Shaped (v : Value) : Prop :=
  match v with
  | .list xs | .tuple xs => ShapedList xs
  | .object fields => ShapedFields fields
  | .array a => a.items.length = a.shape.size
  | _ => True
termination_by structural v

def ShapedList (xs : List Value) : Prop :=
  match xs with
  | [] => True
  | x :: xs => Shaped x ∧ ShapedList xs
termination_by structural xs

def ShapedFields (fields : List (String × Value)) : Prop :=
  match fields with
  | [] => True
  | (_, x) :: fields => Shaped x ∧ ShapedFields fields
termination_by structural fields

end

end Value

namespace Json

open Text

/-- An item of an array as it is read back. -/
def rereadElement (t : ElementType) (n : Number) : Value :=
  if t = .bool then .bool (!n.eq (.int 0)) else rereadNumber n

mutual

/-- What the text of a value is read as. -/
def readBack (v : Value) : Value :=
  match v with
  | .real x => .real (reread x)
  | .list xs | .tuple xs => .list (readBackList xs)
  | .object fields => .object (Fields.ofList (sortByName (readBackFields fields)))
  | .embedding e => .list (e.components.map fun x => .real (reread x))
  | .array a => Value.nest a.shape (a.items.map (rereadElement a.element))
  | .scalar s => rereadElement s.element s.number
  | v => v
termination_by structural v

def readBackList (xs : List Value) : List Value :=
  match xs with
  | [] => []
  | x :: xs => readBack x :: readBackList xs
termination_by structural xs

def readBackFields (fields : List (String × Value)) : List (String × Value) :=
  match fields with
  | [] => []
  | (name, x) :: fields => (name, readBack x) :: readBackFields fields
termination_by structural fields

end

/-! ### One value -/

/-- A text is read as a value in front of anything that may follow one, where there is room for
brackets of that depth. Two steps of the recursion for each character are enough. -/
structure Reads (depth : Nat) (s : List Char) (v : Value) : Prop where
  head : ∃ c cs, s = c :: cs ∧ isSpace c = false ∧ c ≠ ']' ∧ c ≠ '\x7d'
  read : ∀ rest fuel room, Closes rest → 2 * s.length ≤ fuel → depth ≤ room →
    readValue fuel room (s ++ rest) = .ok (v, rest)

variable {s rest : List Char} {v : Value} {depth : Nat}

lemma Reads.mono {depth' : Nat} (h : Reads depth s v) (hle : depth ≤ depth') : Reads depth' s v :=
  ⟨h.head, fun rest fuel room hrest hfuel hroom =>
    h.read rest fuel room hrest hfuel (hle.trans hroom)⟩

lemma skipSpace_of_head {c : Char} {cs : List Char} (h : isSpace c = false) :
    skipSpace (c :: cs) = c :: cs := by
  simp [skipSpace, h]

/-- What does not begin as a text, a list or an object is a word or a numeral. -/
lemma reads_plain (hhead : ∃ c cs, s = c :: cs ∧ isSpace c = false ∧ c ≠ ']' ∧ c ≠ '\x7d' ∧
      c ≠ '"' ∧ c ≠ '[' ∧ c ≠ '\x7b')
    (hread : ∀ rest, Closes rest → readPlain (s ++ rest) = .ok (v, rest)) : Reads 0 s v := by
  obtain ⟨c, cs, rfl, hspace, hbracket, hbrace, hquote, hlist, hobject⟩ := hhead
  refine ⟨⟨c, cs, rfl, hspace, hbracket, hbrace⟩, fun rest fuel _ hrest hfuel _ => ?_⟩
  obtain ⟨fuel, rfl⟩ : ∃ n, fuel = n + 1 := ⟨fuel - 1, by simp at hfuel; omega⟩
  rw [List.cons_append, readValue]
  · exact hread rest hrest
  all_goals simp [hquote, hlist, hobject]

lemma reads_null : Reads 0 "null".toList .null :=
  reads_plain ⟨'n', _, rfl, by decide⟩ fun _ _ => rfl

lemma reads_true : Reads 0 "true".toList (.bool true) :=
  reads_plain ⟨'t', _, rfl, by decide⟩ fun _ _ => rfl

lemma reads_false : Reads 0 "false".toList (.bool false) :=
  reads_plain ⟨'f', _, rfl, by decide⟩ fun _ _ => rfl

lemma reads_number {n : Number} (h : writeNumber n = .ok s) : Reads 0 s (rereadNumber n) := by
  have hdigit : ∀ d < 10, isSpace (digitChar d) = false ∧ digitChar d ≠ ']' ∧
      digitChar d ≠ '\x7d' ∧ digitChar d ≠ '"' ∧ digitChar d ≠ '[' ∧ digitChar d ≠ '\x7b' := by
    decide
  refine reads_plain ?_ fun rest hrest => readPlain_writeNumber h hrest
  obtain ⟨c, cs, rfl, rfl | ⟨d, hd, rfl⟩⟩ := exists_writeNumber_cons h
  · exact ⟨'-', cs, rfl, by decide⟩
  · exact ⟨_, cs, rfl, hdigit d hd⟩

lemma reads_text (t : String) : Reads 0 (writeText t) (.text t) := by
  refine ⟨⟨'"', _, rfl, by decide⟩, fun rest fuel _ _ hfuel _ => ?_⟩
  obtain ⟨cs, heq, hread⟩ := readQuoted_writeText t rest
  obtain ⟨fuel, rfl⟩ : ∃ n, fuel = n + 1 := ⟨fuel - 1, by simp [writeText] at hfuel; omega⟩
  rw [heq, readValue, hread]
  rfl

/-! ### Lists -/

lemma closes_comma (rest : List Char) : Closes (',' :: rest) := by simp [Closes]

lemma closes_bracket (rest : List Char) : Closes (']' :: rest) := by simp [Closes]

lemma closes_brace (rest : List Char) : Closes ('\x7d' :: rest) := by simp [Closes]

/-- Items begin as the first of them. -/
lemma exists_writeItems_cons (c : Char) (cs : List Char) (ss : List (List Char)) :
    ∃ t, writeItems ((c :: cs) :: ss) = c :: t := by
  cases ss with
  | nil => exact ⟨cs, rfl⟩
  | cons s ss => exact ⟨_, rfl⟩

/-- Items after a comma begin after one blank. -/
lemma skipSpace_writeItems {c : Char} (hc : isSpace c = false) (cs : List Char)
    (ss : List (List Char)) (rest : List Char) :
    skipSpace (' ' :: (writeItems ((c :: cs) :: ss) ++ rest)) =
      writeItems ((c :: cs) :: ss) ++ rest := by
  obtain ⟨t, ht⟩ := exists_writeItems_cons c cs ss
  have hblank : isSpace ' ' = true := by decide
  simp [ht, skipSpace, hc, hblank]

/-- The items of a list are read up to its closing bracket. -/
lemma readItems_writeItems {ss : List (List Char)} {vs : List Value}
    (h : List.Forall₂ (Reads depth) ss vs) (hne : ss ≠ []) (rest : List Char) {fuel room : Nat}
    (hfuel : 2 * (writeItems ss).length + 1 ≤ fuel) (hroom : depth ≤ room) :
    readItems fuel room (writeItems ss ++ ']' :: rest) = .ok (vs, rest) := by
  induction h generalizing fuel with
  | nil => contradiction
  | @cons s v ss vs hs hss ih =>
    obtain ⟨fuel, rfl⟩ : ∃ n, fuel = n + 1 := ⟨fuel - 1, by omega⟩
    rcases ss with _ | ⟨s', ss⟩
    · cases hss
      have hread := hs.read (']' :: rest) fuel room (closes_bracket rest)
        (by simpa [writeItems] using hfuel) hroom
      simp only [writeItems, readItems, hread,
        skipSpace_of_head (show isSpace ']' = false by decide)]
    · obtain ⟨c, cs, rfl, hspace, -⟩ : ∃ c cs, s' = c :: cs ∧ isSpace c = false ∧ True := by
        cases hss with
        | cons hs' _ =>
          obtain ⟨c, cs, heq, hspace, -⟩ := hs'.head
          exact ⟨c, cs, heq, hspace, trivial⟩
      have hlen : 2 * (s.length + (writeItems ((c :: cs) :: ss)).length + 2) ≤ fuel := by
        simp only [writeItems, List.length_append, List.length_cons] at hfuel
        omega
      have hread := hs.read (',' :: ' ' :: (writeItems ((c :: cs) :: ss) ++ ']' :: rest)) fuel room
        (closes_comma _) (by omega) hroom
      have hitems := ih (by simp)
        (show 2 * (writeItems ((c :: cs) :: ss)).length + 1 ≤ fuel by omega)
      have hshape : writeItems (s :: (c :: cs) :: ss) ++ ']' :: rest =
          s ++ (',' :: ' ' :: (writeItems ((c :: cs) :: ss) ++ ']' :: rest)) := by
        simp [writeItems]
      rw [hshape]
      simp only [readItems, hread, skipSpace_of_head (show isSpace ',' = false by decide)]
      rw [skipSpace_writeItems hspace, hitems]
      rfl

/-- A list whose items are read is read. -/
lemma reads_bracket {ss : List (List Char)} {vs : List Value}
    (h : List.Forall₂ (Reads depth) ss vs) : Reads (depth + 1) (bracket ss) (.list vs) := by
  refine ⟨⟨'[', _, rfl, by decide⟩, fun rest fuel room _ hfuel hroom => ?_⟩
  simp only [bracket, List.length_cons, List.length_append, List.length_nil] at hfuel
  obtain ⟨fuel, rfl⟩ : ∃ n, fuel = n + 1 := ⟨fuel - 1, by omega⟩
  have hshape : bracket ss ++ rest = '[' :: (writeItems ss ++ ']' :: rest) := by simp [bracket]
  rw [hshape, readValue, if_neg (by omega)]
  rcases ss with _ | ⟨s, ss⟩
  · cases h
    simp only [writeItems, List.nil_append, skipSpace_of_head (show isSpace ']' = false by decide)]
  · have hitems := readItems_writeItems h (by simp) rest
      (show 2 * (writeItems (s :: ss)).length + 1 ≤ fuel by omega) (show depth ≤ room - 1 by omega)
    obtain ⟨c, cs, rfl, hspace, hbracket, -⟩ : ∃ c cs, s = c :: cs ∧ isSpace c = false ∧ c ≠ ']' ∧
        c ≠ '\x7d' := by
      cases h with
      | cons hs _ => exact hs.head
    obtain ⟨t, ht⟩ := exists_writeItems_cons c cs ss
    rw [ht, List.cons_append] at hitems ⊢
    rw [skipSpace_of_head hspace]
    split
    · rename_i heq
      exact absurd (List.cons.inj heq).1 hbracket
    · rw [hitems]
      rfl

/-! ### Objects -/

/-- A field is written as it is read. -/
def FieldReads (depth : Nat) (f : String × List Char) (g : String × Value) : Prop :=
  f.1 = g.1 ∧ Reads depth f.2 g.2

/-- What is read after a field, by what follows it. -/
def readAfter (fuel room : Nat) (f : String × Value) :
    List Char → Except Error (Fields × List Char)
  | '\x7d' :: rest => .ok ([f], rest)
  | ',' :: rest => (readFields fuel room (skipSpace rest)).map fun r => (f :: r.1, r.2)
  | _ => .error .malformedJson

lemma readFields_writeField {name : String} (hs : Reads depth s v) {tail : List Char}
    (htail : Closes tail) {fuel room : Nat} (hlen : 2 * s.length ≤ fuel) (hroom : depth ≤ room) :
    readFields (fuel + 1) room (writeField (name, s) ++ tail) =
      readAfter fuel room (name, v) (skipSpace tail) := by
  obtain ⟨t, heq, hread⟩ := readQuoted_writeText name (':' :: ' ' :: (s ++ tail))
  have hshape : writeField (name, s) ++ tail = '"' :: t := by
    rw [← heq]
    simp [writeField]
  obtain ⟨c, cs, hcons, hspace, -⟩ := hs.head
  have hskip : skipSpace (' ' :: (s ++ tail)) = s ++ tail := by
    have hblank : isSpace ' ' = true := by decide
    rw [hcons]
    simp [skipSpace, hspace, hblank]
  rw [hshape]
  simp only [readFields, hread, skipSpace_of_head (show isSpace ':' = false by decide), hskip,
    hs.read tail fuel room htail hlen hroom]
  rfl

/-- The fields of an object are read up to its closing brace. -/
lemma readFields_writeItems {fs : List (String × List Char)} {gs : List (String × Value)}
    (h : List.Forall₂ (FieldReads depth) fs gs) (hne : fs ≠ []) (rest : List Char) {fuel room : Nat}
    (hfuel : 2 * (writeItems (fs.map writeField)).length + 1 ≤ fuel) (hroom : depth ≤ room) :
    readFields fuel room (writeItems (fs.map writeField) ++ '\x7d' :: rest) = .ok (gs, rest) := by
  induction h generalizing fuel with
  | nil => contradiction
  | @cons f g fs gs hf hfs ih =>
    obtain ⟨fuel, rfl⟩ : ∃ n, fuel = n + 1 := ⟨fuel - 1, by omega⟩
    obtain ⟨name, s⟩ := f
    obtain ⟨_, v⟩ := g
    obtain ⟨rfl, hs⟩ : name = _ ∧ Reads depth s v := hf
    have hlen : s.length ≤ (writeField (name, s)).length := by
      simp only [writeField, List.length_append, List.length_cons]
      omega
    rcases fs with _ | ⟨f', fs⟩
    · cases hfs
      simp only [List.map_cons, List.map_nil, writeItems] at hfuel ⊢
      rw [readFields_writeField hs (closes_brace rest) (by omega) hroom,
        skipSpace_of_head (show isSpace '\x7d' = false by decide)]
      rfl
    · simp only [List.map_cons, writeItems, List.length_append, List.length_cons] at hfuel ih ⊢
      have hfields := ih (by simp)
        (show 2 * (writeItems (writeField f' :: fs.map writeField)).length + 1 ≤ fuel by omega)
      rw [List.append_assoc, List.cons_append, List.cons_append,
        readFields_writeField hs (closes_comma _) (by omega) hroom,
        skipSpace_of_head (show isSpace ',' = false by decide)]
      rw [show writeField f' = '"' :: _ from rfl] at hfields ⊢
      change Except.map _ (readFields fuel room
        (skipSpace (' ' :: (writeItems _ ++ '\x7d' :: rest)))) = _
      rw [skipSpace_writeItems (show isSpace '"' = false by decide), hfields]
      rfl

/-- An object whose fields are read is read; of two fields of one name the last one counts. -/
lemma reads_object {fs : List (String × List Char)} {gs : List (String × Value)}
    (h : List.Forall₂ (FieldReads depth) fs gs) :
    Reads (depth + 1) ('\x7b' :: writeItems (fs.map writeField) ++ ['\x7d'])
      (.object (Fields.ofList gs)) := by
  refine ⟨⟨'\x7b', _, rfl, by decide⟩, fun rest fuel room _ hfuel hroom => ?_⟩
  simp only [List.length_cons, List.length_append, List.length_nil] at hfuel
  obtain ⟨fuel, rfl⟩ : ∃ n, fuel = n + 1 := ⟨fuel - 1, by omega⟩
  have hshape : '\x7b' :: writeItems (fs.map writeField) ++ ['\x7d'] ++ rest =
      '\x7b' :: (writeItems (fs.map writeField) ++ '\x7d' :: rest) := by simp
  rw [hshape, readValue, if_neg (by omega)]
  rcases fs with _ | ⟨f, fs⟩
  · cases h
    rfl
  · have hfields := readFields_writeItems h (by simp) rest
      (show 2 * (writeItems ((f :: fs).map writeField)).length + 1 ≤ fuel by omega)
      (show depth ≤ room - 1 by omega)
    rw [List.map_cons] at hfields ⊢
    rw [show writeField f = '"' :: _ from rfl] at hfields ⊢
    obtain ⟨t, ht⟩ := exists_writeItems_cons '"' _ (fs.map writeField)
    rw [ht, List.cons_append] at hfields ⊢
    rw [skipSpace_of_head (by decide)]
    split
    · rename_i heq
      exact absurd (List.cons.inj heq).1 (by decide)
    · rw [hfields]
      rfl

/-! ### Arrays -/

/-- What holds of items and their texts, and of a list as soon as it holds of its items, holds of
items nested by their axes. -/
lemma rel_nest {R : List Char → Value → Prop}
    (hlist : ∀ ss vs, List.Forall₂ R ss vs → R (bracket ss) (.list vs)) {shape : Shape}
    {ss : List (List Char)} {vs : List Value} (h : List.Forall₂ R ss vs)
    (hlen : ss.length = shape.size) : R (nestItems shape ss) (Value.nest shape vs) := by
  induction shape generalizing ss vs with
  | nil =>
    obtain ⟨s, rfl⟩ := List.length_eq_one_iff.mp hlen
    cases h with
    | cons hs hnil =>
      cases hnil
      exact hs
  | cons axis axes ih =>
    have hsize : ss.length = axis * Shape.size axes := hlen
    refine hlist _ _ ?_
    rw [Shape.rows, Shape.rows, ← h.length_eq, List.map_map, List.map_map,
      List.forall₂_map_left_iff, List.forall₂_map_right_iff, List.forall₂_same]
    intro i hi
    have hpos : i + 1 ≤ axis := List.mem_range.mp hi
    have hwidth : ss.length / axis = Shape.size axes := by
      rw [hsize, Nat.mul_div_cancel_left _ (by omega)]
    -- every row is full
    have hrow : i * Shape.size axes + Shape.size axes ≤ ss.length := by
      rw [hsize, ← Nat.succ_mul]
      exact Nat.mul_le_mul_right _ hpos
    refine ih (List.forall₂_take _ (List.forall₂_drop _ h)) ?_
    rw [hwidth, List.length_take, List.length_drop]
    omega

lemma reads_element {t : ElementType} {n : Number} {s : List Char}
    (h : writeElement t n = .ok s) : Reads 0 s (rereadElement t n) := by
  unfold writeElement at h
  unfold rereadElement
  split at h
  · cases h
    rw [if_pos rfl]
    cases n.eq (.int 0)
    · exact reads_true
    · exact reads_false
  · cases h
  · rename_i hbool _
    rw [if_neg hbool]
    split at h
    · exact reads_number h
    · cases h

/-! ### All values -/

/-- A text is read as a value in front of anything that may follow one, where there is room for as
many brackets as it has characters. -/
def ReadsAs (s : List Char) (v : Value) : Prop := Reads s.length s v

lemma Reads.readsAs (h : Reads 0 s v) : ReadsAs s v := h.mono (Nat.zero_le _)

/-- No item is longer than the items together. -/
lemma forall₂_writeItems {α β : Type} {R : Nat → α → β → Prop}
    (hmono : ∀ a b m n, m ≤ n → R m a b → R n a b) (w : α → List Char) {xs : List α} {ys : List β}
    (h : List.Forall₂ (fun a b => R (w a).length a b) xs ys) :
    List.Forall₂ (R (writeItems (xs.map w)).length) xs ys := by
  induction h with
  | nil => exact .nil
  | @cons a b xs ys hab _ ih =>
    have hlen : (w a).length ≤ (writeItems (w a :: xs.map w)).length ∧
        (writeItems (xs.map w)).length ≤ (writeItems (w a :: xs.map w)).length := by
      rcases xs with _ | ⟨b, xs⟩
      · simp [writeItems]
      · simp only [writeItems, List.map_cons, List.length_append, List.length_cons]
        omega
    exact .cons (hmono a b _ _ hlen.1 hab) (ih.imp fun a b => hmono a b _ _ hlen.2)

lemma readsAs_bracket {ss : List (List Char)} {vs : List Value}
    (h : List.Forall₂ ReadsAs ss vs) : ReadsAs (bracket ss) (.list vs) := by
  have hitems := forall₂_writeItems (R := Reads) (fun _ _ _ _ hle hs => hs.mono hle) id h
  rw [List.map_id] at hitems
  exact (reads_bracket hitems).mono (by simp [bracket])

lemma readsAs_object {fs : List (String × List Char)} {gs : List (String × Value)}
    (h : List.Forall₂ (fun f g => f.1 = g.1 ∧ ReadsAs f.2 g.2) fs gs) :
    ReadsAs ('\x7b' :: writeItems (fs.map writeField) ++ ['\x7d'])
      (.object (Fields.ofList gs)) := by
  have hfields := forall₂_writeItems (R := FieldReads)
    (fun _ _ _ _ hle hf => ⟨hf.1, hf.2.mono hle⟩) writeField
    (h.imp fun f g hf => ⟨hf.1, hf.2.mono (by simp [writeField]; omega)⟩)
  exact (reads_object hfields).mono (by simp)

lemma allOf_eq_ok {α : Type} {l : List (Except Error α)} {xs : List α} :
    allOf l = .ok xs ↔ List.Forall₂ (fun a x => a = .ok x) l xs := by
  induction l generalizing xs with
  | nil =>
    rw [allOf, List.forall₂_nil_left_iff, Except.ok.injEq]
    exact eq_comm
  | cons a l ih =>
    rw [List.forall₂_cons_left_iff]
    rcases a with e | x
    · simp [allOf]
    · simp only [allOf, map_eq_ok, ih, Except.ok.injEq]
      exact ⟨fun ⟨ys, hys, hxs⟩ => ⟨x, ys, rfl, hys, hxs.symm⟩,
        fun ⟨_, ys, hx, hys, hxs⟩ => ⟨ys, hys, by rw [hx, hxs]⟩⟩

lemma writeFields_eq (fields : List (String × Value)) :
    writeFields fields = fields.map fun f => (f.1, write f.2) := by
  induction fields with
  | nil => rfl
  | cons f fields ih => rw [writeFields, ih, List.map_cons]

lemma readBackFields_eq (fields : List (String × Value)) :
    readBackFields fields = fields.map fun f => (f.1, readBack f.2) := by
  induction fields with
  | nil => rfl
  | cons f fields ih => rw [readBackFields, ih, List.map_cons]

/-- An object is read if its values are. -/
lemma reads_fields {fields : List (String × Value)} {s : List Char}
    (hfields : ∀ f ∈ fields, ∀ t, write f.2 = .ok t → ReadsAs t (readBack f.2))
    (h : write (.object fields) = .ok s) : ReadsAs s (readBack (.object fields)) := by
  simp only [write, map_eq_ok] at h
  obtain ⟨fs, hfs, rfl⟩ := h
  simp only [readBack]
  refine readsAs_object ?_
  have hall := allOf_eq_ok.mp hfs
  rw [writeFields_eq, sortByName_map, List.map_map, List.forall₂_map_left_iff] at hall
  rw [readBackFields_eq, sortByName_map, List.forall₂_map_right_iff]
  have hmem : ∀ f ∈ sortByName fields, f ∈ fields := fun f => (perm_sortByName fields).mem_iff.mp
  generalize sortByName fields = sorted at hall hmem ⊢
  clear hfs
  induction hall with
  | nil => exact .nil
  | @cons f g _ _ hfg _ ih =>
    rw [List.forall_mem_cons] at hmem
    obtain ⟨t, ht, rfl⟩ := map_eq_ok.mp hfg
    exact .cons ⟨rfl, hfields f hmem.1 t ht⟩ (ih hmem.2)

mutual

theorem reads_write (v : Value) (hv : v.Shaped) (s : List Char) (h : write v = .ok s) :
    ReadsAs s (readBack v) := by
  match v with
  | .null =>
    cases h
    exact reads_null.readsAs
  | .bool true =>
    cases h
    exact reads_true.readsAs
  | .bool false =>
    cases h
    exact reads_false.readsAs
  | .int i =>
    simp only [write] at h
    exact (reads_number h).readsAs
  | .real x =>
    simp only [write] at h
    exact (reads_number h).readsAs
  | .text t =>
    cases h
    exact (reads_text t).readsAs
  | .list xs | .tuple xs =>
    simp only [write, map_eq_ok] at h
    obtain ⟨ss, hss, rfl⟩ := h
    exact readsAs_bracket (reads_writeList xs hv ss hss)
  | .object fields => exact reads_fields (reads_writeFields fields hv) h
  | .embedding e =>
    simp only [write, map_eq_ok] at h
    obtain ⟨ss, hss, rfl⟩ := h
    refine readsAs_bracket ?_
    have hall := allOf_eq_ok.mp hss
    rw [List.forall₂_map_left_iff] at hall
    rw [List.forall₂_map_right_iff]
    exact hall.flip.imp fun _ _ hx => (reads_number hx).readsAs
  | .array a =>
    simp only [write, map_eq_ok] at h
    obtain ⟨ss, hss, rfl⟩ := h
    have hall := allOf_eq_ok.mp hss
    rw [List.forall₂_map_left_iff] at hall
    refine rel_nest (fun _ _ => readsAs_bracket) ?_ (hall.length_eq.symm.trans hv)
    rw [List.forall₂_map_right_iff]
    exact hall.flip.imp fun _ _ hx => (reads_element hx).readsAs
  | .scalar x =>
    simp only [write] at h
    exact (reads_element h).readsAs
  | .bytes _ => cases h
  | .undefined => cases h

theorem reads_writeList (xs : List Value) (hxs : Value.ShapedList xs) (ss : List (List Char))
    (h : allOf (writeList xs) = .ok ss) : List.Forall₂ ReadsAs ss (readBackList xs) := by
  match xs with
  | [] =>
    cases h
    exact .nil
  | x :: xs =>
    rw [writeList] at h
    rcases hx : write x with e | s
    · rw [hx] at h
      cases h
    · rw [hx] at h
      obtain ⟨ss, hss, rfl⟩ := map_eq_ok.mp h
      exact .cons (reads_write x hxs.1 s hx) (reads_writeList xs hxs.2 ss hss)

theorem reads_writeFields (fields : List (String × Value)) (hfields : Value.ShapedFields fields) :
    ∀ f ∈ fields, ∀ t, write f.2 = .ok t → ReadsAs t (readBack f.2) := by
  match fields with
  | [] => exact nofun
  | (name, x) :: fields =>
    rw [List.forall_mem_cons]
    exact ⟨reads_write x hfields.1, reads_writeFields fields hfields.2⟩

end

/-- What is read in front of anything is read by itself. -/
lemma Reads.readWithin_eq (h : Reads depth s v) {room : Nat} (hroom : depth ≤ room) :
    readWithin room s = .ok v := by
  obtain ⟨c, cs, hcons, hspace, -⟩ := h.head
  have hread := h.read [] (2 * s.length + 2) room nofun (by omega) hroom
  rw [List.append_nil] at hread
  have hskip : skipSpace s = s := by rw [hcons, skipSpace_of_head hspace]
  rw [readWithin, hskip, hread]
  rfl

/-- **Stored text**: a value that has a text is read back from it. -/
theorem decode_encode {v : Value} (hv : v.Shaped) {text : String} (h : encode v = .ok text) :
    decode text = .ok (readBack v) := by
  obtain ⟨s, hs, rfl⟩ := map_eq_ok.mp h
  rw [decode, String.toList_ofList, Json.read, (reads_write v hv s hs).readWithin_eq le_rfl]

end Json

end NearDoc
