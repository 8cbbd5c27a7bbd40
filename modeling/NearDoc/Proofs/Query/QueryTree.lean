import Mathlib.Data.Set.Function
import NearDoc.Proofs.Query.ExprTree
import NearDoc.Proofs.Query.Sentence

/-!
Derivations of queries as data, and the parser as their recogniser. Main statement: a text is read
as a plan just if a tree over its words means that plan and none of its integers is too long to be
read, and the words settle the tree; the same for expressions.
-/

namespace NearDoc

namespace Grammar

/-- What comes after a part of a list, or after the whole list. -/
def Stopped (r : List Word) : Prop := Stops (r.map Word.token)

def Opened (ks : List String) (r : List Word) : Prop := Opens ks (r.map Word.token)

variable {r z : List Word} {k : Word} {ks : List String}

lemma opened_cons {name : String} (hk : k.token.keyword? = some name) (hks : name ∈ ks) :
    Opened ks (k :: r) := by
  rintro _ ⟨⟩
  exact ⟨name, hks, hk⟩

lemma Opened.keyword (h : Opened ks (k :: r)) : ∃ name ∈ ks, k.token.keyword? = some name :=
  h _ rfl

lemma Stopped.keyword (h : Stopped (k :: r)) {name : String} (hk : k.token.keyword? = some name) :
    name ∈ ["FROM", "ORDER", "LIMIT"] := by
  rcases h _ rfl with hmark | ⟨name', hname', heq⟩
  · have hkind : k.token.kind = .punct := congrArg Word.kind hmark
    simp [Token.keyword?, hkind] at hk
  · rwa [Option.some.inj (hk.symm.trans heq)]

lemma keyword?_mark (symbol : String) : (mark symbol).token.keyword? = none := by
  simp [Token.keyword?, Word.token, mark]

/-! ### Lists with commas -/

section

variable {α β : Type} {words : α → List Word} {means : α → β} {Conforms : α → Prop}

/-- The words of parts with commas between them. -/
def commaWords (words : α → List Word) : List α → List Word
  | [] => []
  | [a] => words a
  | a :: as => words a ++ mark "," :: commaWords words as

lemma mem_commaWords {as : List α} {a : α} {w : Word} (ha : a ∈ as) (hw : w ∈ words a) :
    w ∈ commaWords words as := by
  induction as with
  | nil => cases ha
  | cons b as ih =>
    cases as with
    | nil =>
      obtain rfl := List.mem_singleton.mp ha
      exact hw
    | cons c as =>
      rcases List.mem_cons.mp ha with rfl | ha
      · exact List.mem_append_left _ hw
      · exact List.mem_append_right _ (List.mem_cons_of_mem _ (ih ha))

lemma separated_commaWords {part : List Word → β → Prop} {as : List α} (has : as ≠ [])
    (h : ∀ a ∈ as, part (words a) (means a)) :
    Separated part (commaWords words as) (as.map means) := by
  induction as with
  | nil => exact absurd rfl has
  | cons a as ih =>
    rw [List.forall_mem_cons] at h
    cases as with
    | nil => exact .one h.1
    | cons b as => exact .more h.1 (ih (by simp) h.2)

lemma exists_of_separated {part : List Word → β → Prop} {ws : List Word} {bs : List β}
    (h : Separated part ws bs)
    (hpart : ∀ ws b, part ws b →
      ∃ a, Conforms a ∧ words a = ws ∧ means a = b ∧ ∀ w ∈ ws, w.Readable) :
    ∃ as, as ≠ [] ∧ (∀ a ∈ as, Conforms a) ∧ commaWords words as = ws ∧ as.map means = bs ∧
      ∀ w ∈ ws, w.Readable := by
  induction h with
  | one h =>
    obtain ⟨a, ha, rfl, rfl, hread⟩ := hpart _ _ h
    exact ⟨[a], by simp, by simpa using ha, rfl, rfl, hread⟩
  | more h hs ih =>
    obtain ⟨a, ha, rfl, rfl, hread⟩ := hpart _ _ h
    obtain ⟨as, hne, has, rfl, rfl, hreads⟩ := ih
    obtain ⟨b, as, rfl⟩ := List.exists_cons_of_ne_nil hne
    refine ⟨a :: b :: as, by simp, List.forall_mem_cons.mpr ⟨ha, has⟩, rfl, rfl, ?_⟩
    exact List.forall_mem_append.mpr ⟨hread, List.forall_mem_cons.mpr ⟨nofun, hreads⟩⟩

/-- Parts that tell where they end make a list that does. -/
lemma commaWords_unique (hpart : ∀ a b r z, Conforms a → Conforms b → words a ++ r = words b ++ z →
      Stopped r → Stopped z → a = b ∧ r = z)
    {as bs : List α} (has : as ≠ []) (hbs : bs ≠ []) (ha : ∀ a ∈ as, Conforms a)
    (hb : ∀ b ∈ bs, Conforms b) (h : commaWords words as ++ r = commaWords words bs ++ z)
    (hks : ks ⊆ ["FROM", "ORDER", "LIMIT"]) (hr : Opened ks r) (hr' : Opened ks z) :
    as = bs ∧ r = z := by
  have hcomma (s : List Word) : Stopped (mark "," :: s) := by
    rintro _ ⟨⟩
    exact .inl rfl
  have hno {s : List Word} (hs : Opened ks (mark "," :: s)) : False := by
    obtain ⟨name, -, hname⟩ := hs.keyword
    simp [keyword?_mark] at hname
  induction as generalizing bs with
  | nil => exact absurd rfl has
  | cons a as ih =>
    obtain ⟨b, bs, rfl⟩ := List.exists_cons_of_ne_nil hbs
    rw [List.forall_mem_cons] at ha hb
    rcases as with _ | ⟨a', as⟩ <;> rcases bs with _ | ⟨b', bs⟩
    · obtain ⟨rfl, rfl⟩ := hpart a b r z ha.1 hb.1 h (hr.stops hks) (hr'.stops hks)
      exact ⟨rfl, rfl⟩
    · obtain ⟨-, rfl⟩ := hpart a b r _ ha.1 hb.1 (by simpa [commaWords] using h)
        (hr.stops hks) (hcomma _)
      exact (hno hr).elim
    · obtain ⟨-, rfl⟩ := hpart a b _ z ha.1 hb.1 (by simpa [commaWords] using h)
        (hcomma _) (hr'.stops hks)
      exact (hno hr').elim
    · obtain ⟨rfl, htail⟩ := hpart a b (mark "," :: (commaWords words (a' :: as) ++ r))
        (mark "," :: (commaWords words (b' :: bs) ++ z)) ha.1 hb.1
        (by simpa [commaWords] using h) (hcomma _) (hcomma _)
      obtain ⟨heq, hrest⟩ := ih (by simp) (by simp) ha.2 hb.2 (List.cons.inj htail).2
      exact ⟨by rw [heq], hrest⟩

end

/-! ### Columns and sort keys -/

/-- A column: an expression, and a keyword with a name if it is given one. -/
inductive ItemTree where
  | plain (t : Tree (.junction .or))
  | named (t : Tree (.junction .or)) (k : Word) (name : String)

namespace ItemTree

variable {ops : Operators}

def words : ItemTree → List Word
  | .plain t => t.words
  | .named t k name => t.words ++ [k, ⟨.name, name⟩]

def column : ItemTree → Column
  | .plain t => ⟨t.expr, .null⟩
  | .named t _ name => ⟨t.expr, .text name⟩

def Conforms (ops : Operators) : ItemTree → Prop
  | .plain t => t.Conforms ops
  | .named t k name => t.Conforms ops ∧ k.token.keyword? = some "AS" ∧
      (Word.token ⟨.name, name⟩).keyword? = none

lemma derives (i : ItemTree) (hi : i.Conforms ops) (hread : ∀ w ∈ i.words, w.Readable) :
    DerivesItem ops i.words i.column := by
  cases i with
  | plain t =>
    have h := t.derives hi hread
    rw [t.exprs_eq trivial] at h
    exact .plain h
  | named t k name =>
    have h := t.derives hi.1 fun w hw => hread w (by simp [words, hw])
    rw [t.exprs_eq trivial] at h
    exact .named h hi.2.1 hi.2.2

lemma unique (i j : ItemTree) (r z : List Word) (hi : i.Conforms ops) (hj : j.Conforms ops)
    (h : i.words ++ r = j.words ++ z) (hr : Stopped r) (hr' : Stopped z) : i = j ∧ r = z := by
  have hclosed {k : Word} {s : List Word} (hk : k.token.keyword? = some "AS") :
      Tree.Closed (.junction .or) (k :: s) :=
    Tree.closed_cons.mpr (not_continues_keyword hk (by decide) (by decide))
  have hno {k : Word} {s : List Word} (hk : k.token.keyword? = some "AS") :
      ¬ Stopped (k :: s) := fun hs => absurd (hs.keyword hk) (by decide)
  cases i with
  | plain t =>
    cases j with
    | plain t' =>
      obtain ⟨rfl, rfl⟩ := t.unique t' hi hj h (hr.ends _) (hr'.ends _)
      exact ⟨rfl, rfl⟩
    | named t' k' name' =>
      obtain ⟨-, rfl⟩ := t.unique t' hi hj.1 (z := k' :: ⟨.name, name'⟩ :: z)
        (by simpa [words] using h) (hr.ends _) (hclosed hj.2.1)
      exact absurd hr (hno hj.2.1)
  | named t k name =>
    cases j with
    | plain t' =>
      obtain ⟨-, rfl⟩ := t.unique t' hi.1 hj (r := k :: ⟨.name, name⟩ :: r)
        (by simpa [words] using h) (hclosed hi.2.1) (hr'.ends _)
      exact absurd hr' (hno hi.2.1)
    | named t' k' name' =>
      obtain ⟨rfl, htail⟩ := t.unique t' hi.1 hj.1 (r := k :: ⟨.name, name⟩ :: r)
        (z := k' :: ⟨.name, name'⟩ :: z) (by simpa [words] using h) (hclosed hi.2.1)
        (hclosed hj.2.1)
      cases htail
      exact ⟨rfl, rfl⟩

end ItemTree

lemma exists_itemTree {ops : Operators} (ws : List Word) (c : Column) (h : DerivesItem ops ws c) :
    ∃ i : ItemTree, i.Conforms ops ∧ i.words = ws ∧ i.column = c ∧ ∀ w ∈ ws, w.Readable := by
  cases h with
  | plain h =>
    obtain ⟨t, ht, rfl, he, hread⟩ := exists_tree h
    exact ⟨.plain t, ht, rfl, by simp [ItemTree.column, Tree.expr, he], hread⟩
  | @named ws k e a h hk ha =>
    obtain ⟨t, ht, rfl, he, hread⟩ := exists_tree h
    refine ⟨.named t k a, ⟨ht, hk, ha⟩, rfl, by simp [ItemTree.column, Tree.expr, he], ?_⟩
    exact List.forall_mem_append.mpr ⟨hread, List.forall_mem_cons.mpr
      ⟨readable_of_keyword? hk, List.forall_mem_singleton.mpr fun hkind => by cases hkind⟩⟩

/-- A sort key: an expression, and a keyword if its direction is told. -/
inductive KeyTree where
  | plain (t : Tree (.junction .or))
  | directed (t : Tree (.junction .or)) (k : Word) (descending : Bool)

namespace KeyTree

variable {ops : Operators}

def words : KeyTree → List Word
  | .plain t => t.words
  | .directed t k _ => t.words ++ [k]

def sortKey : KeyTree → SortKey
  | .plain t => ⟨t.expr, .bool false⟩
  | .directed t _ descending => ⟨t.expr, .bool descending⟩

/-- The keyword of a direction. -/
def direction (descending : Bool) : String := if descending then "DESC" else "ASC"

def Conforms (ops : Operators) : KeyTree → Prop
  | .plain t => t.Conforms ops
  | .directed t k descending =>
    t.Conforms ops ∧ k.token.keyword? = some (direction descending)

lemma derives (i : KeyTree) (hi : i.Conforms ops) (hread : ∀ w ∈ i.words, w.Readable) :
    DerivesKey ops i.words i.sortKey := by
  cases i with
  | plain t =>
    have h := t.derives hi hread
    rw [t.exprs_eq trivial] at h
    exact .plain h
  | directed t k descending =>
    have h := t.derives hi.1 fun w hw => hread w (by simp [words, hw])
    rw [t.exprs_eq trivial] at h
    cases descending with
    | true => exact .descending h hi.2
    | false => exact .ascending h hi.2

lemma unique (i j : KeyTree) (r z : List Word) (hi : i.Conforms ops) (hj : j.Conforms ops)
    (h : i.words ++ r = j.words ++ z) (hr : Stopped r) (hr' : Stopped z) : i = j ∧ r = z := by
  have hclosed {k : Word} {s : List Word} {b : Bool}
      (hk : k.token.keyword? = some (direction b)) : Tree.Closed (.junction .or) (k :: s) :=
    Tree.closed_cons.mpr
      (not_continues_keyword hk (by cases b <;> decide) (by cases b <;> decide))
  have hno {k : Word} {s : List Word} {b : Bool} (hk : k.token.keyword? = some (direction b)) :
      ¬ Stopped (k :: s) := fun hs => absurd (hs.keyword hk) (by cases b <;> decide)
  cases i with
  | plain t =>
    cases j with
    | plain t' =>
      obtain ⟨rfl, rfl⟩ := t.unique t' hi hj h (hr.ends _) (hr'.ends _)
      exact ⟨rfl, rfl⟩
    | directed t' k' b' =>
      obtain ⟨-, rfl⟩ := t.unique t' hi hj.1 (z := k' :: z) (by simpa [words] using h)
        (hr.ends _) (hclosed hj.2)
      exact absurd hr (hno hj.2)
  | directed t k b =>
    cases j with
    | plain t' =>
      obtain ⟨-, rfl⟩ := t.unique t' hi.1 hj (r := k :: r) (by simpa [words] using h)
        (hclosed hi.2) (hr'.ends _)
      exact absurd hr' (hno hi.2)
    | directed t' k' b' =>
      obtain ⟨rfl, htail⟩ := t.unique t' hi.1 hj.1 (r := k :: r) (z := k' :: z)
        (by simpa [words] using h) (hclosed hi.2) (hclosed hj.2)
      cases htail
      have hb : direction b = direction b' := Option.some.inj (hi.2.symm.trans hj.2)
      cases b <;> cases b' <;> first | exact ⟨rfl, rfl⟩ | exact absurd hb (by decide)

end KeyTree

lemma exists_keyTree {ops : Operators} (ws : List Word) (k : SortKey) (h : DerivesKey ops ws k) :
    ∃ i : KeyTree, i.Conforms ops ∧ i.words = ws ∧ i.sortKey = k ∧ ∀ w ∈ ws, w.Readable := by
  have hdirected {ws : List Word} {w : Word} {e : Expr} {b : Bool}
      (h : Derives ops (.junction .or) ws [e])
      (hw : w.token.keyword? = some (KeyTree.direction b)) :
      ∃ i : KeyTree, i.Conforms ops ∧ i.words = ws ++ [w] ∧ i.sortKey = ⟨e, .bool b⟩ ∧
        ∀ w' ∈ ws ++ [w], w'.Readable := by
    obtain ⟨t, ht, rfl, he, hread⟩ := exists_tree h
    refine ⟨.directed t w b, ⟨ht, hw⟩, rfl, by simp [KeyTree.sortKey, Tree.expr, he], ?_⟩
    exact List.forall_mem_append.mpr
      ⟨hread, List.forall_mem_singleton.mpr (readable_of_keyword? hw)⟩
  cases h with
  | plain h =>
    obtain ⟨t, ht, rfl, he, hread⟩ := exists_tree h
    exact ⟨.plain t, ht, rfl, by simp [KeyTree.sortKey, Tree.expr, he], hread⟩
  | ascending h hk => exact hdirected (b := false) h hk
  | descending h hk => exact hdirected (b := true) h hk

/-! ### Clauses -/

/-- What a query shows: all of a document, or columns. -/
def selectionWords : Option (List ItemTree) → List Word
  | none => [mark "*"]
  | some is => commaWords ItemTree.words is

/-- A keyword and an expression, if there is a condition. -/
def conditionWords : Option (Word × Tree (.junction .or)) → List Word
  | none => []
  | some (k, t) => k :: t.words

/-- Two keywords and sort keys, if there is an order. -/
def orderingWords : Option (Word × Word × List KeyTree) → List Word
  | none => []
  | some (k, k', is) => k :: k' :: commaWords KeyTree.words is

/-- A keyword and an integer, if there is a limit. -/
def limitWords : Option (Word × String × Int) → List Word
  | none => []
  | some (k, s, _) => [k, ⟨.number, s⟩]

def ConformsSelection (ops : Operators) : Option (List ItemTree) → Prop
  | none => True
  | some is => is ≠ [] ∧ ∀ i ∈ is, i.Conforms ops

def ConformsCondition (ops : Operators) : Option (Word × Tree (.junction .or)) → Prop
  | none => True
  | some (k, t) => k.token.keyword? = some "WHERE" ∧ t.Conforms ops

def ConformsOrdering (ops : Operators) : Option (Word × Word × List KeyTree) → Prop
  | none => True
  | some (k, k', is) => k.token.keyword? = some "ORDER" ∧ k'.token.keyword? = some "BY" ∧
      is ≠ [] ∧ ∀ i ∈ is, i.Conforms ops

def ConformsLimit : Option (Word × String × Int) → Prop
  | none => True
  | some (k, s, n) => k.token.keyword? = some "LIMIT" ∧ Word.integer? ⟨.number, s⟩ = some n

section

variable {ops : Operators}

lemma exists_selectionTree {ws : List Word} {cs : Option (List Column)}
    (h : DerivesSelection ops ws cs) : ∃ q, ConformsSelection ops q ∧ selectionWords q = ws ∧
      q.map (·.map ItemTree.column) = cs ∧ ∀ w ∈ ws, w.Readable := by
  cases h with
  | star => exact ⟨none, trivial, rfl, rfl, List.forall_mem_singleton.mpr nofun⟩
  | items h =>
    obtain ⟨is, hne, his, rfl, rfl, hread⟩ := exists_of_separated h exists_itemTree
    exact ⟨some is, ⟨hne, his⟩, rfl, rfl, hread⟩

lemma exists_conditionTree {ws : List Word} {p : Option Expr} (h : DerivesCondition ops ws p) :
    ∃ q, ConformsCondition ops q ∧ conditionWords q = ws ∧ q.map (·.2.expr) = p ∧
      ∀ w ∈ ws, w.Readable := by
  cases h with
  | none => exact ⟨none, trivial, rfl, rfl, by simp⟩
  | @some k ws e hk h =>
    obtain ⟨t, ht, rfl, he, hread⟩ := exists_tree h
    exact ⟨some (k, t), ⟨hk, ht⟩, rfl, by simp [Tree.expr, he],
      List.forall_mem_cons.mpr ⟨readable_of_keyword? hk, hread⟩⟩

lemma exists_orderingTree {ws : List Word} {ks : List SortKey} (h : DerivesOrdering ops ws ks) :
    ∃ q, ConformsOrdering ops q ∧ orderingWords q = ws ∧
      q.elim [] (·.2.2.map KeyTree.sortKey) = ks ∧ ∀ w ∈ ws, w.Readable := by
  cases h with
  | none => exact ⟨none, trivial, rfl, rfl, by simp⟩
  | @some k k' ws ks hk hk' h =>
    obtain ⟨is, hne, his, rfl, rfl, hread⟩ := exists_of_separated h exists_keyTree
    exact ⟨some (k, k', is), ⟨hk, hk', hne, his⟩, rfl, rfl, List.forall_mem_cons.mpr
      ⟨readable_of_keyword? hk, List.forall_mem_cons.mpr ⟨readable_of_keyword? hk', hread⟩⟩⟩

lemma exists_limitTree {ws : List Word} {l : Value} (h : DerivesLimit ws l) :
    ∃ q, ConformsLimit q ∧ limitWords q = ws ∧ q.elim .null (.int ·.2.2) = l ∧
      ∀ w ∈ ws, w.Readable := by
  cases h with
  | none => exact ⟨none, trivial, rfl, rfl, by simp⟩
  | @some k s n hk hs =>
    have hint := integer?_eq ⟨.number, s⟩
    rw [hs] at hint
    obtain ⟨i, hi, heq⟩ := Option.map_eq_some_iff.mp hint.symm
    split at heq
    · cases heq
    · rename_i hlen
      cases heq
      refine ⟨some (k, s, n), ⟨hk, hi⟩, rfl, rfl, List.forall_mem_cons.mpr
        ⟨readable_of_keyword? hk, List.forall_mem_singleton.mpr fun _ _ => Nat.not_lt.mp hlen⟩⟩

lemma derives_selection {q : Option (List ItemTree)} (h : ConformsSelection ops q)
    (hread : ∀ w ∈ selectionWords q, w.Readable) :
    DerivesSelection ops (selectionWords q) (q.map (·.map ItemTree.column)) := by
  cases q with
  | none => exact .star
  | some is =>
    refine .items (separated_commaWords h.1 fun i hi => i.derives (h.2 i hi) fun w hw => ?_)
    exact hread w (mem_commaWords hi hw)

lemma derives_condition {q : Option (Word × Tree (.junction .or))} (h : ConformsCondition ops q)
    (hread : ∀ w ∈ conditionWords q, w.Readable) :
    DerivesCondition ops (conditionWords q) (q.map (·.2.expr)) := by
  cases q with
  | none => exact .none
  | some q =>
    obtain ⟨k, t⟩ := q
    have ht := t.derives h.2 fun w hw => hread w (by simp [conditionWords, hw])
    rw [t.exprs_eq trivial] at ht
    exact .some h.1 ht

lemma derives_ordering {q : Option (Word × Word × List KeyTree)} (h : ConformsOrdering ops q)
    (hread : ∀ w ∈ orderingWords q, w.Readable) :
    DerivesOrdering ops (orderingWords q) (q.elim [] (·.2.2.map KeyTree.sortKey)) := by
  cases q with
  | none => exact .none
  | some q =>
    obtain ⟨k, k', is⟩ := q
    obtain ⟨hk, hk', hne, his⟩ := h
    refine .some hk hk' (separated_commaWords hne fun i hi => i.derives (his i hi) fun w hw => ?_)
    exact hread w (List.mem_cons_of_mem _ (List.mem_cons_of_mem _ (mem_commaWords hi hw)))

lemma derives_limit {q : Option (Word × String × Int)} (h : ConformsLimit q)
    (hread : ∀ w ∈ limitWords q, w.Readable) :
    DerivesLimit (limitWords q) (q.elim .null (.int ·.2.2)) := by
  cases q with
  | none => exact .none
  | some q =>
    obtain ⟨k, s, n⟩ := q
    have hlen := hread ⟨.number, s⟩ (by simp [limitWords]) rfl (by simp [h.2])
    refine .some h.1 ?_
    rw [integer?_eq ⟨.number, s⟩, h.2, Option.map_some, if_neg (Nat.not_lt.mpr hlen)]

variable {r z : List Word}

lemma selection_unique {q q' : Option (List ItemTree)} (hq : ConformsSelection ops q)
    (hq' : ConformsSelection ops q') (h : selectionWords q ++ r = selectionWords q' ++ z)
    (hr : Opened ["FROM"] r) (hr' : Opened ["FROM"] z) : q = q' ∧ r = z := by
  have hstar {is : List ItemTree} (his : ConformsSelection ops (some is)) {s s' : List Word} :
      mark "*" :: s ≠ commaWords ItemTree.words is ++ s' := by
    intro heq
    have hderives (t : Tree (.junction .or)) (ht : t.Conforms ops) (v : List Word) :
        mark "*" :: s ≠ t.words ++ v := by
      obtain ⟨w, ws, hws, hw⟩ := t.exists_cons ht (by simp)
      rw [hws]
      exact fun heq => hw "*" (by decide) (List.cons.inj heq).1.symm
    obtain ⟨hne, his⟩ := his
    obtain ⟨i, is, rfl⟩ := List.exists_cons_of_ne_nil hne
    have hi := his i (by simp)
    cases i <;> cases is <;>
      simp only [commaWords, ItemTree.words, List.append_assoc] at heq
    · exact hderives _ hi _ heq
    · exact hderives _ hi _ heq
    · exact hderives _ hi.1 _ heq
    · exact hderives _ hi.1 _ heq
  cases q with
  | none =>
    cases q' with
    | none => exact ⟨rfl, (List.cons.inj h).2⟩
    | some is' => exact absurd h (hstar hq')
  | some is =>
    cases q' with
    | none => exact absurd h.symm (hstar hq)
    | some is' =>
      obtain ⟨rfl, rfl⟩ :=
        commaWords_unique ItemTree.unique hq.1 hq'.1 hq.2 hq'.2 h (by simp) hr hr'
      exact ⟨rfl, rfl⟩

lemma condition_unique {q q' : Option (Word × Tree (.junction .or))}
    (hq : ConformsCondition ops q) (hq' : ConformsCondition ops q')
    (h : conditionWords q ++ r = conditionWords q' ++ z) (hr : Opened ["ORDER", "LIMIT"] r)
    (hr' : Opened ["ORDER", "LIMIT"] z) : q = q' ∧ r = z := by
  have hno {k : Word} {s : List Word} (hk : k.token.keyword? = some "WHERE")
      (hs : Opened ["ORDER", "LIMIT"] (k :: s)) : False := by
    obtain ⟨name, hname, heq⟩ := hs.keyword
    cases hk.symm.trans heq
    exact absurd hname (by decide)
  rcases q with _ | ⟨k, t⟩ <;> rcases q' with _ | ⟨k', t'⟩
  · exact ⟨rfl, h⟩
  · obtain rfl : r = k' :: (t'.words ++ z) := h
    exact (hno hq'.1 hr).elim
  · obtain rfl : k :: (t.words ++ r) = z := h
    exact (hno hq.1 hr').elim
  · obtain ⟨rfl, htail⟩ := List.cons.inj h
    obtain ⟨rfl, rfl⟩ := t.unique t' hq.2 hq'.2 htail ((hr.stops (by simp)).ends _)
      ((hr'.stops (by simp)).ends _)
    exact ⟨rfl, rfl⟩

lemma ordering_unique {q q' : Option (Word × Word × List KeyTree)}
    (hq : ConformsOrdering ops q) (hq' : ConformsOrdering ops q')
    (h : orderingWords q ++ r = orderingWords q' ++ z) (hr : Opened ["LIMIT"] r)
    (hr' : Opened ["LIMIT"] z) : q = q' ∧ r = z := by
  have hno {k : Word} {s : List Word} (hk : k.token.keyword? = some "ORDER")
      (hs : Opened ["LIMIT"] (k :: s)) : False := by
    obtain ⟨name, hname, heq⟩ := hs.keyword
    cases hk.symm.trans heq
    exact absurd hname (by decide)
  rcases q with _ | ⟨k, l, is⟩ <;> rcases q' with _ | ⟨k', l', is'⟩
  · exact ⟨rfl, h⟩
  · obtain rfl : r = k' :: l' :: (commaWords KeyTree.words is' ++ z) := h
    exact (hno hq'.1 hr).elim
  · obtain rfl : k :: l :: (commaWords KeyTree.words is ++ r) = z := h
    exact (hno hq.1 hr').elim
  · obtain ⟨rfl, hby⟩ := List.cons.inj h
    obtain ⟨rfl, hkeys⟩ := List.cons.inj hby
    obtain ⟨-, -, hne, his⟩ := hq
    obtain ⟨-, -, hne', his'⟩ := hq'
    obtain ⟨rfl, rfl⟩ := commaWords_unique KeyTree.unique hne hne' his his' hkeys (by simp) hr hr'
    exact ⟨rfl, rfl⟩

lemma limit_unique {q q' : Option (Word × String × Int)} (hq : ConformsLimit q)
    (hq' : ConformsLimit q') (h : limitWords q = limitWords q') : q = q' := by
  rcases q with _ | ⟨k, s, n⟩ <;> rcases q' with _ | ⟨k', s', n'⟩
  · rfl
  · cases h
  · cases h
  · cases h
    cases hq.2.symm.trans hq'.2
    rfl

lemma opened_limit {q : Option (Word × String × Int)} (hq : ConformsLimit q) :
    Opened ["LIMIT"] (limitWords q) := by
  cases q with
  | none => exact fun t ht => by cases ht
  | some q => exact opened_cons hq.1 (by simp)

lemma opened_ordering {q : Option (Word × Word × List KeyTree)} (hq : ConformsOrdering ops q)
    (hr : Opened ["LIMIT"] r) : Opened ["ORDER", "LIMIT"] (orderingWords q ++ r) := by
  cases q with
  | none => exact Opens.mono hr (by simp)
  | some q => exact opened_cons hq.1 (by simp)

end

/-! ### Queries -/

structure QueryTree where
  select : Word
  selection : Option (List ItemTree)
  source : Word
  collection : String
  condition : Option (Word × Tree (.junction .or)) := none
  ordering : Option (Word × Word × List KeyTree) := none
  limit : Option (Word × String × Int) := none

namespace QueryTree

variable {ops : Operators}

/-- The words up to the limit. -/
def front (q : QueryTree) : List Word :=
  q.select :: (selectionWords q.selection ++
    q.source :: ⟨.name, q.collection⟩ :: (conditionWords q.condition ++ orderingWords q.ordering))

/-- The words that the tree stands over. -/
def words (q : QueryTree) : List Word := q.front ++ limitWords q.limit

/-- The plan that the tree means. -/
def plan (q : QueryTree) : Plan where
  collection := .text q.collection
  predicate := q.condition.map (·.2.expr)
  order := q.ordering.elim [] (·.2.2.map KeyTree.sortKey)
  limit := q.limit.elim .null (.int ·.2.2)
  columns := q.selection.map (·.map ItemTree.column)

/-- Every word of the tree is what it stands for, and every call is known. -/
structure Conforms (ops : Operators) (q : QueryTree) : Prop where
  select : q.select.token.keyword? = some "SELECT"
  selection : ConformsSelection ops q.selection
  source : q.source.token.keyword? = some "FROM"
  collection : (Word.token ⟨.name, q.collection⟩).keyword? = none
  condition : ConformsCondition ops q.condition
  ordering : ConformsOrdering ops q.ordering
  limit : ConformsLimit q.limit

lemma derives (q : QueryTree) (hq : q.Conforms ops) (hread : ∀ w ∈ q.words, w.Readable) :
    DerivesQuery ops q.words q.plan := by
  refine .query (.front hq.select ?_ hq.source hq.collection rfl ?_ ?_) ?_
  · exact derives_selection hq.selection fun w hw => hread w (by simp [words, front, hw])
  · exact derives_condition hq.condition fun w hw => hread w (by simp [words, front, hw])
  · exact derives_ordering hq.ordering fun w hw => hread w (by simp [words, front, hw])
  · exact derives_limit hq.limit fun w hw => hread w (by simp [words, hw])

/-- **Unambiguity**: a query is settled by its words. -/
theorem unique (q q' : QueryTree) (hq : q.Conforms ops) (hq' : q'.Conforms ops)
    (h : q.words = q'.words) : q = q' := by
  obtain ⟨k, sel, l, c, cond, ord, lim⟩ := q
  obtain ⟨k', sel', l', c', cond', ord', lim'⟩ := q'
  simp only [words, front, List.cons_append, List.append_assoc] at h
  have hlim := opened_limit hq.limit
  have hlim' := opened_limit hq'.limit
  have hord := opened_ordering hq.ordering hlim
  have hord' := opened_ordering hq'.ordering hlim'
  obtain ⟨rfl, hselect⟩ := List.cons.inj h
  obtain ⟨rfl, hsource⟩ := selection_unique hq.selection hq'.selection hselect
    (opened_cons hq.source (by simp)) (opened_cons hq'.source (by simp))
  obtain ⟨rfl, hname⟩ := List.cons.inj hsource
  obtain ⟨hc, hcond⟩ := List.cons.inj hname
  cases hc
  obtain ⟨rfl, horder⟩ := condition_unique hq.condition hq'.condition hcond hord hord'
  obtain ⟨rfl, hlast⟩ := ordering_unique hq.ordering hq'.ordering horder hlim hlim'
  obtain rfl := limit_unique hq.limit hq'.limit hlast
  rfl

end QueryTree

lemma exists_front {ops : Operators} {ws : List Word} {p : Plan} (h : DerivesFront ops ws p) :
    ∃ q : QueryTree, q.Conforms ops ∧ q.front = ws ∧ q.limit = none ∧
      { q.plan with limit := p.limit } = p ∧ ∀ w ∈ ws, w.Readable := by
  cases h with
  | @front k k' c sel cond ord p hk hsel hk' hname hc hcond hord =>
    obtain ⟨tsel, htsel, rfl, hcolumns, hreadSel⟩ := exists_selectionTree hsel
    obtain ⟨tcond, htcond, rfl, hpredicate, hreadCond⟩ := exists_conditionTree hcond
    obtain ⟨tord, htord, rfl, horder, hreadOrd⟩ := exists_orderingTree hord
    refine ⟨⟨k, tsel, k', c, tcond, tord, none⟩, ⟨hk, htsel, hk', hname, htcond, htord, trivial⟩,
      rfl, rfl, ?_, ?_⟩
    · obtain ⟨collection, predicate, order, limit, columns⟩ := p
      simp only [QueryTree.plan, hcolumns, hpredicate, horder, ← hc]
    · simp only [List.forall_mem_cons, List.forall_mem_append]
      exact ⟨readable_of_keyword? hk, hreadSel, readable_of_keyword? hk', nofun, hreadCond,
        hreadOrd⟩

/-- **Trees**: what derives a query has a tree, and it has no integer of too many digits. -/
theorem exists_queryTree {ops : Operators} {ws : List Word} {p : Plan} (h : DerivesQuery ops ws p) :
    ∃ q : QueryTree, q.Conforms ops ∧ q.words = ws ∧ q.plan = p ∧ ∀ w ∈ ws, w.Readable := by
  cases h with
  | query h hlim =>
    obtain ⟨q, hq, rfl, -, hp, hread⟩ := exists_front h
    obtain ⟨lim, htlim, rfl, hl, hreadLim⟩ := exists_limitTree hlim
    refine ⟨{ q with limit := lim }, { hq with limit := htlim }, rfl, ?_,
      List.forall_mem_append.mpr ⟨hread, hreadLim⟩⟩
    rw [← hp, ← hl]
    rfl

end Grammar

open Grammar

/-- **Recognition**: the parser accepts just the texts over whose words a tree of the grammar
stands, if none of their integers is too long to be read, and it answers what the tree means. There
is no other tree over these words. -/
theorem parse_eq_ok_iff_tree (ops : Operators) (s : String) :
    (∀ p, Plan.parse ops s = .ok p ↔
      ∃ ts, Token.tokens s = .ok ts ∧ (∀ t ∈ ts, t.word.Readable) ∧
        ∃ q : QueryTree, q.Conforms ops ∧ q.words = ts.map Token.word ∧ q.plan = p) ∧
    (∀ e, Expr.parse ops s = .ok e ↔
      ∃ ts, Token.tokens s = .ok ts ∧ (∀ t ∈ ts, t.word.Readable) ∧
        ∃ t : Tree (.junction .or),
          t.Conforms ops ∧ t.words = ts.map Token.word ∧ t.expr = e) ∧
    Set.InjOn QueryTree.words {q | q.Conforms ops} ∧
    Set.InjOn (Tree.words (x := .junction .or)) {t | t.Conforms ops} := by
  refine ⟨fun p => ?_, fun e => ?_, fun q hq q' hq' h => q.unique q' hq hq' h,
    fun t ht t' ht' h => ?_⟩
  · rw [Parser.plan_parse_eq_ok]
    constructor
    · rintro ⟨ts, hts, h⟩
      obtain ⟨q, hq, hwords, hp, hread⟩ := exists_queryTree h
      exact ⟨ts, hts, List.forall_mem_map.mp hread, q, hq, hwords, hp⟩
    · rintro ⟨ts, hts, hread, q, hq, hwords, rfl⟩
      have h := q.derives hq (by rw [hwords]; exact List.forall_mem_map.mpr hread)
      exact ⟨ts, hts, hwords ▸ h⟩
  · rw [Parser.expr_parse_eq_ok]
    constructor
    · rintro ⟨ts, hts, h⟩
      obtain ⟨t, ht, hwords, he, hread⟩ := exists_tree h
      exact ⟨ts, hts, List.forall_mem_map.mp hread, t, ht, hwords, by simp [Tree.expr, he]⟩
    · rintro ⟨ts, hts, hread, t, ht, hwords, rfl⟩
      have h := t.derives ht (by rw [hwords]; exact List.forall_mem_map.mpr hread)
      rw [hwords, t.exprs_eq trivial] at h
      exact ⟨ts, hts, h⟩
  · exact (t.unique t' ht ht' (r := []) (z := []) (by simpa using h) ends_nil ends_nil).1

namespace Draft

/-- A query by one sort key, with a limit of a one and some zeros. -/
def rankedRound (zeros : Nat) : Draft :=
  { collection := "c", order := [("v", false)], limit := some (10 ^ zeros : Nat) }

lemma sayable_rankedRound (zeros : Nat) : (rankedRound zeros).Sayable .standard where
  collection := show IsName "c" from ⟨rfl, rfl⟩
  conditions := by simp [rankedRound]
  order := by
    simp only [rankedRound, List.forall_mem_cons]
    exact ⟨exists_of_isOk (by decide +kernel), by simp⟩
  fields := by simp [rankedRound]
  computed := by simp [rankedRound]

/-- A sentence has a tree, however long its limit is. -/
lemma exists_tree_of_limit {ops : Operators} {d : Draft} (h : d.Sayable ops) {n : Int}
    (hl : d.limit = some n) : ∃ ts q, Token.tokens d.sentence = .ok ts ∧
      QueryTree.Conforms ops q ∧ q.words = ts.map Token.word := by
  obtain ⟨ws, hfront, hlexes⟩ := lexes_of_limit h hl
  obtain ⟨q, hq, rfl, -, -, -⟩ := exists_front hfront
  obtain ⟨ts, hts, hwords⟩ := hlexes.exists_tokens
  have hint : Word.integer? ⟨.number, String.ofList (Number.writeInt n)⟩ = some n := by
    simpa [Word.integer?, Word.digits] using Parser.readNat?_writeInt n
  refine ⟨ts, { q with limit := some (wordOf "LIMIT", String.ofList (Number.writeInt n), n) }, hts,
    { hq with limit := ⟨by decide, hint⟩ }, ?_⟩
  rw [hwords]
  rfl

lemma parse_rankedRound {zeros : Nat} (h : Number.longestInteger ≤ zeros) :
    Plan.parse .standard (rankedRound zeros).sentence = .error (.tooManyDigits (zeros + 1)) := by
  have hdigits : (Text.digitsOf (Int.natAbs (10 ^ zeros : Nat))).length = zeros + 1 := by
    rw [Int.natAbs_natCast, Text.length_digitsOf_pow]
  have := parse_sentence_of_long (sayable_rankedRound zeros) rfl (by omega)
  rwa [hdigits] at this

end Draft

/-- A sentence over whose words a tree stands, but whose limit is too long to be read. -/
theorem not_parse_of_tree :
    ∃ ts q, Token.tokens (Draft.rankedRound 4300).sentence = .ok ts ∧
      QueryTree.Conforms .standard q ∧ q.words = ts.map Token.word ∧
      Plan.parse .standard (Draft.rankedRound 4300).sentence = .error (.tooManyDigits 4301) := by
  obtain ⟨ts, q, hts, hq, hwords⟩ :=
    Draft.exists_tree_of_limit (Draft.sayable_rankedRound 4300) rfl
  exact ⟨ts, q, hts, hq, hwords, Draft.parse_rankedRound (by decide)⟩

end NearDoc
