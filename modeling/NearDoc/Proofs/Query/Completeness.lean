import NearDoc.Proofs.Query.Soundness

/-!
The parser reads all that the grammar derives, by induction on the derivation: given enough depth, a
stretch that derives something is read as that, wherever the token after it does not go on with it.
-/

namespace NearDoc

namespace Grammar

/-- The depth at which a part of an array is read, but for ten a word. -/
def ArrayPart.level : ArrayPart → Nat
  | .element => 1
  | .elements => 2
  | .array => 3

/-- The depth at which a category is read, but for ten a word. -/
def Category.level : Category → Nat
  | .primary => 1
  | .comparison => 2
  | .negation => 3
  | .operands .and => 4
  | .junction .and => 5
  | .operands .or => 6
  | .junction .or => 7
  | .moreArguments => 8
  | .arguments => 9

lemma Category.level_pos (x : Category) : 0 < x.level := by
  cases x with
  | junction c | operands c => cases c <;> decide
  | _ => decide

/-- A token that goes on with what a category has derived. -/
def Continues : Category → Token → Prop
  | .primary, t => t.word = mark "("
  | .comparison, t | .negation, t => t.word = mark "(" ∨ comparator? t ≠ none
  | .junction c, t | .operands c, t =>
    t.word = mark "(" ∨ comparator? t ≠ none ∨ t.keyword? = some "AND" ∨
      c = .or ∧ t.keyword? = some "OR"
  | .arguments, _ | .moreArguments, _ => False

/-- The next token, if any, does not go on. -/
def Ends (x : Category) (ts : List Token) : Prop := ∀ t ∈ ts.head?, ¬ Continues x t

variable {x : Category} {t : Token} {ts : List Token}

lemma ends_nil : Ends x [] := by simp [Ends]

lemma ends_cons : Ends x (t :: ts) ↔ ¬ Continues x t := by simp [Ends]

lemma Ends.mono {y : Category} (h : Ends y ts) (hxy : ∀ t, Continues x t → Continues y t) :
    Ends x ts := fun t ht hx => h t ht (hxy t hx)

lemma continues_operands {c : Parser.Connective} (h : Continues (operand c) t) :
    Continues (.operands c) t := by
  cases c <;> simp [operand, Continues] at h ⊢ <;> tauto

lemma kind_of_keyword? {k : String} (h : t.keyword? = some k) : t.kind = .name := by
  unfold Token.keyword? at h
  split at h
  · simp_all
  · cases h

/-- A keyword neither opens a parenthesis nor compares. -/
lemma not_symbol_of_keyword? {k : String} (h : t.keyword? = some k) :
    t.word ≠ mark "(" ∧ comparator? t = none := by
  have hkind := kind_of_keyword? h
  constructor
  · intro hparen
    have : t.kind = .punct := congrArg Word.kind hparen
    simp [this] at hkind
  · simp [comparator?, hkind]

/-- Punctuation other than an opening parenthesis ends every category. -/
lemma not_continues_mark {symbol : String} (ht : t.word = mark symbol) (hs : symbol ≠ "(") :
    ¬ Continues x t := by
  have hkind : t.kind = .punct := congrArg Word.kind ht
  have hparen : t.word ≠ mark "(" := by
    rw [ht]
    exact fun h => hs (congrArg Word.text h)
  have hop : comparator? t = none := by simp [comparator?, hkind]
  have hword : t.keyword? = none := by simp [Token.keyword?, hkind]
  cases x <;> simp [Continues, hparen, hop, hword]

lemma not_continues_comparator {op : Comparator} (ht : comparator? t = some op) :
    ¬ Continues .primary t := by
  intro h
  have hkind : t.kind = .punct := congrArg Word.kind h
  simp [comparator?, hkind] at ht

/-- A keyword goes on only with what it joins. -/
lemma not_continues_keyword {k : String} (ht : t.keyword? = some k) (hand : k ≠ "AND")
    (hor : k ≠ "OR") : ¬ Continues x t := by
  obtain ⟨hparen, hop⟩ := not_symbol_of_keyword? ht
  cases x <;> simp [Continues, hparen, hop, ht, hand, hor]

lemma not_continues_connective {c : Parser.Connective} (ht : t.keyword? = some c.word) :
    ¬ Continues (operand c) t := by
  obtain ⟨hparen, hop⟩ := not_symbol_of_keyword? ht
  cases c <;> simp [operand, Continues, hparen, hop, ht, Parser.Connective.word]

end Grammar

namespace Parser

open Grammar

variable {ctx : Context} {t : Token} {ts : List Token}

lemma afterPunct?_of_word {symbol : String} (ht : t.word = mark symbol) :
    afterPunct? symbol (t :: ts) = some ts := afterPunct?_eq_some.mpr ⟨t, rfl, ht⟩

lemma afterPunct?_of_ne {symbol : String} (ht : t.word ≠ mark symbol) :
    afterPunct? symbol (t :: ts) = none := by
  rw [Option.eq_none_iff_forall_not_mem]
  intro r hr
  obtain ⟨t', heq, ht'⟩ := afterPunct?_eq_some.mp hr
  cases heq
  exact ht ht'

lemma afterKeyword?_of_eq {k : String} (ht : t.keyword? = some k) :
    afterKeyword? k (t :: ts) = some ts := afterKeyword?_eq_some.mpr ⟨t, rfl, ht⟩

lemma kind_of_constant? {v : Except Error Value} (h : constant? t = some v) : t.kind ≠ .punct := by
  intro hkind
  simp [constant?, hkind] at h

/-! ### Arrays -/

/-- Elements do not begin with the bracket that closes an array. -/
lemma exists_cons_of_lists {p : ArrayPart} {ws : List Word} {vs : List Value}
    (h : Lists p ws vs) (hp : p ≠ .array) : ∃ w ws', ws = w :: ws' ∧ w ≠ mark "]" := by
  induction h with
  | @constant w v h =>
    refine ⟨w, [], rfl, ?_⟩
    rintro rfl
    exact kind_of_constant? h rfl
  | nested h ih => exact ⟨_, _, rfl, by decide⟩
  | last h ih =>
    obtain ⟨w, ws', rfl, hw⟩ := ih (by simp)
    exact ⟨w, _, rfl, hw⟩
  | more h hs ih ihs =>
    obtain ⟨w, ws', rfl, hw⟩ := ih (by simp)
    exact ⟨w, _, rfl, hw⟩
  | empty => exact absurd rfl hp
  | nonempty h ih => exact absurd rfl hp

theorem listing_of_lists (ctx : Context) {n : Nat} {p : ArrayPart} {us : List Token}
    {vs : List Value} (h : Lists p (us.map Token.word) vs)
    (hn : 10 * us.length + p.level ≤ n) (rest : List Token) :
    listing ctx p n (us ++ rest) = .ok (vs, rest) := by
  induction n generalizing p us vs rest with
  | zero => cases p <;> simp [ArrayPart.level] at hn
  | succ n ih =>
    generalize hus : us.map Token.word = ws at h
    cases h with
    | @constant w v h =>
      obtain ⟨t, rfl, rfl⟩ := List.map_eq_singleton_iff.mp hus
      have ht : t.word ≠ mark "[" := fun ht => kind_of_constant? h (congrArg Word.kind ht)
      have hv : constant? t = some (.ok v) := h
      refine single_eq_ok.mpr ⟨v, ?_, rfl⟩
      rw [element.eq_def]
      simp [afterPunct?_of_ne ht, hv, Except.map]
    | @nested ws v h =>
      obtain ⟨t, us, rfl, ht, rfl⟩ := List.map_eq_cons_iff.mp hus
      simp only [ArrayPart.level, List.length_cons] at hn
      obtain ⟨v', hv, heq⟩ := single_eq_ok.mp
        (ih (p := .array) h (by simp only [ArrayPart.level]; omega) rest)
      cases heq
      refine single_eq_ok.mpr ⟨v, ?_, rfl⟩
      rw [element.eq_def]
      simp [afterPunct?_of_word ht, hv]
    | @last ws v h =>
      obtain ⟨us, us', rfl, rfl, hus'⟩ := List.map_eq_append_iff.mp hus
      obtain ⟨t, rfl, ht⟩ := List.map_eq_singleton_iff.mp hus'
      simp only [ArrayPart.level, List.length_append, List.length_singleton] at hn
      obtain ⟨v', hv, heq⟩ := single_eq_ok.mp
        (ih (p := .element) h (by simp only [ArrayPart.level]; omega) (t :: rest))
      cases heq
      have hcomma : t.word ≠ mark "," := by simp [ht, mark]
      have hclose : punct ctx "]" (t :: rest) = .ok rest :=
        punct_eq_ok.mpr (afterPunct?_of_word ht)
      simp only [listing, elements, List.append_assoc, List.singleton_append, hv]
      simp [Bind.bind, Except.bind, afterPunct?_of_ne hcomma, hclose, pure, Except.pure]
    | @more us' ws v vs h hs =>
      obtain ⟨us, us', rfl, rfl, hus'⟩ := List.map_eq_append_iff.mp hus
      obtain ⟨t, us', rfl, ht, rfl⟩ := List.map_eq_cons_iff.mp hus'
      simp only [ArrayPart.level, List.length_append, List.length_cons] at hn
      obtain ⟨v', hv, heq⟩ := single_eq_ok.mp
        (ih (p := .element) h (by simp only [ArrayPart.level]; omega) (t :: us' ++ rest))
      cases heq
      have hvs := ih (p := .elements) hs (by simp only [ArrayPart.level]; omega) rest
      simp only [listing] at hvs
      simp only [listing, elements, List.append_assoc, List.cons_append, hv] at hv ⊢
      simp [Bind.bind, Except.bind, afterPunct?_of_word ht, hvs, pure, Except.pure]
    | empty =>
      obtain ⟨t, rfl, ht⟩ := List.map_eq_singleton_iff.mp hus
      refine single_eq_ok.mpr ⟨_, ?_, rfl⟩
      rw [array]
      simp [afterPunct?_of_word ht]
    | @nonempty ws vs h =>
      obtain ⟨w, ws', rfl, hw⟩ := exists_cons_of_lists h (by simp)
      obtain ⟨t, us, rfl, rfl, rfl⟩ := List.map_eq_cons_iff.mp hus
      simp only [ArrayPart.level] at hn
      have h' : Lists .elements ((t :: us).map Token.word) vs := h
      have hvs := ih h' (by simp only [ArrayPart.level]; omega) rest
      simp only [listing] at hvs
      refine single_eq_ok.mpr ⟨_, ?_, rfl⟩
      rw [array]
      simp only [List.cons_append] at hvs ⊢
      simp [afterPunct?_of_ne hw, hvs, Except.map]

/-! ### Expressions -/

/-- The only marks that begin an expression. -/
def openers : List String := ["[", "("]

lemma ne_mark_of_kind {w : Word} (hw : w.kind ≠ .punct) (symbol : String) : w ≠ mark symbol := by
  rintro rfl
  exact hw rfl

/-- An operand of a comparison begins with no other mark and no negation. -/
lemma exists_cons_of_primary {ops : Operators} {ws : List Word} {es : List Expr}
    (h : Derives ops .primary ws es) :
    ∃ w ws', ws = w :: ws' ∧ (∀ symbol ∉ openers, w ≠ mark symbol) ∧
      w.token.keyword? ≠ some "NOT" := by
  have hopener {symbol : String} (hs : symbol ∈ openers) :
      ∀ symbol' ∉ openers, mark symbol ≠ mark symbol' := by
    intro symbol' hs' heq
    cases congrArg Word.text heq
    exact hs' hs
  cases h with
  | @constant w v h =>
    refine ⟨w, [], rfl, fun symbol _ => ne_mark_of_kind (kind_of_constant? h) symbol, fun hk => ?_⟩
    have hkind := kind_of_keyword? hk
    simp [constant?, hkind, hk] at h
  | array h => exact ⟨_, _, rfl, hopener (by simp [openers]), by decide⟩
  | param =>
    exact ⟨_, _, rfl, fun symbol _ => ne_mark_of_kind (by simp) symbol,
      by simp [Token.keyword?, Word.token]⟩
  | enclosed h => exact ⟨_, _, rfl, hopener (by simp [openers]), by decide⟩
  | field hs => exact ⟨_, _, rfl, fun symbol _ => ne_mark_of_kind (by simp) symbol, by simp [hs]⟩
  | call hs h hop =>
    exact ⟨_, _, rfl, fun symbol _ => ne_mark_of_kind (by simp) symbol, by simp [hs]⟩

lemma exists_cons_of_comparison {ops : Operators} {ws : List Word} {es : List Expr}
    (h : Derives ops .comparison ws es) :
    ∃ w ws', ws = w :: ws' ∧ (∀ symbol ∉ openers, w ≠ mark symbol) ∧
      w.token.keyword? ≠ some "NOT" := by
  cases h with
  | alone h => exact exists_cons_of_primary h
  | compare h hk h' =>
    obtain ⟨w, ws', rfl, hw⟩ := exists_cons_of_primary h
    exact ⟨w, _, rfl, hw⟩

/-- What is not the empty end of a call begins with no other mark either. -/
lemma exists_cons_of_derives {ops : Operators} {x : Category} {ws : List Word} {es : List Expr}
    (h : Derives ops x ws es) (hx : x ≠ .arguments) :
    ∃ w ws', ws = w :: ws' ∧ ∀ symbol ∉ openers, w ≠ mark symbol := by
  have hprimary {ws : List Word} {es : List Expr} (h : Derives ops .primary ws es) :
      ∃ w ws', ws = w :: ws' ∧ ∀ symbol ∉ openers, w ≠ mark symbol := by
    obtain ⟨w, ws', heq, hw, -⟩ := exists_cons_of_primary h
    exact ⟨w, ws', heq, hw⟩
  induction h with
  | join h ih | someArguments h ih | alone h ih | positive h ih => exact ih (by simp)
  | @single c _ _ h ih => exact ih (by cases c <;> simp [operand])
  | @joined c _ _ _ _ _ h hk hs ih ihs =>
    obtain ⟨w, ws', rfl, hw⟩ := ih (by cases c <;> simp [operand])
    exact ⟨w, _, rfl, hw⟩
  | @not k ws e hk h ih =>
    have hkind : k.kind ≠ .punct := by
      have : k.kind = .name := kind_of_keyword? hk
      simp [this]
    exact ⟨k, ws, rfl, fun symbol _ => ne_mark_of_kind hkind symbol⟩
  | compare h hk h' ih ih' | lastArgument h ih | argument h hs ih ihs =>
    obtain ⟨w, ws', rfl, hw⟩ := ih (by simp)
    exact ⟨w, _, rfl, hw⟩
  | constant h => exact hprimary (.constant h)
  | array h => exact hprimary (.array h)
  | param => exact hprimary .param
  | enclosed h ih => exact hprimary (.enclosed h)
  | field hs => exact hprimary (.field hs)
  | call hs h hop ih => exact hprimary (.call hs h hop)
  | noArguments => exact absurd rfl hx

section

variable {n : Nat} {us rest : List Token} {e : Expr} {es : List Expr}
  (ih : ∀ {x : Category} {us : List Token} {es : List Expr},
    Derives ctx.operators x (us.map Token.word) es → 10 * us.length + x.level ≤ n →
      ∀ rest, Ends x rest → phrase ctx x n (us ++ rest) = .ok (es, rest))
include ih

lemma junction_of_derives {c : Connective} {ws : List Word}
    (h : Derives ctx.operators (.operands c) ws es) (hus : us.map Token.word = ws)
    (hn : 10 * us.length + (Category.junction c).level ≤ n + 1)
    (hend : Ends (.junction c) rest) :
    junction ctx c (n + 1) (us ++ rest) = .ok (c.join es, rest) := by
  subst hus
  have hlevel : (Category.junction c).level = (Category.operands c).level + 1 := by cases c <;> rfl
  have := ih h (by omega) rest (hend.mono fun _ => id)
  simp only [phrase] at this
  rw [junction, this]
  rfl

lemma operands_of_derives {c : Connective} {ws : List Word}
    (h : Derives ctx.operators (.operands c) ws es) (hus : us.map Token.word = ws)
    (hn : 10 * us.length + (Category.operands c).level ≤ n + 1)
    (hend : Ends (.operands c) rest) :
    operands ctx c (n + 1) (us ++ rest) = .ok (es, rest) := by
  have hlevel : (operand c).level < (Category.operands c).level := by cases c <;> decide
  rw [operands_succ]
  cases h with
  | @single c ws e h =>
    subst hus
    have hnone : afterKeyword? c.word rest = none := by
      rw [Option.eq_none_iff_forall_not_mem]
      intro r hr
      obtain ⟨t, rfl, ht⟩ := afterKeyword?_eq_some.mp hr
      refine ends_cons.mp hend ?_
      cases c <;> simp [Continues, ht, Connective.word]
    rw [ih h (by omega) rest (hend.mono fun _ => continues_operands)]
    simp only [Bind.bind, Except.bind, hnone]
  | @joined c us' vs k e es h hk hs =>
    obtain ⟨us, us', rfl, rfl, hus'⟩ := List.map_eq_append_iff.mp hus
    obtain ⟨t, us', rfl, rfl, rfl⟩ := List.map_eq_cons_iff.mp hus'
    simp only [List.length_append, List.length_cons] at hn
    have he := ih h (by omega) (t :: (us' ++ rest)) (ends_cons.mpr (not_continues_connective hk))
    have hes := ih hs (by omega) rest hend
    simp only [phrase] at hes
    have hk' : t.keyword? = some c.word := hk
    rw [List.append_assoc, List.cons_append, he]
    simp [Bind.bind, Except.bind, afterKeyword?_of_eq hk', hes, Except.map]

lemma negation_of_derives {ws : List Word} (h : Derives ctx.operators .negation ws [e])
    (hus : us.map Token.word = ws) (hn : 10 * us.length + Category.negation.level ≤ n + 1)
    (hend : Ends .negation rest) : negation ctx (n + 1) (us ++ rest) = .ok (e, rest) := by
  cases h with
  | @not k ws e hk h =>
    obtain ⟨t, us, rfl, rfl, rfl⟩ := List.map_eq_cons_iff.mp hus
    have hk' : t.keyword? = some "NOT" := hk
    simp only [Category.level, List.length_cons] at hn
    obtain ⟨e', he, heq⟩ := single_eq_ok.mp
      (ih (x := .negation) h (by simp only [Category.level]; omega) rest hend)
    cases heq
    rw [List.cons_append, negation]
    simp [afterKeyword?_of_eq hk', he, Except.map]
  | positive h =>
    obtain ⟨w, ws', rfl, -, hw⟩ := exists_cons_of_comparison h
    obtain ⟨t, us, rfl, rfl, rfl⟩ := List.map_eq_cons_iff.mp hus
    have hnone : afterKeyword? "NOT" (t :: (us ++ rest)) = none := if_neg hw
    simp only [Category.level] at hn
    have h' : Derives ctx.operators .comparison ((t :: us).map Token.word) [e] := h
    obtain ⟨e', he, heq⟩ := single_eq_ok.mp
      (ih h' (by simp only [Category.level]; omega) rest (hend.mono fun _ => id))
    cases heq
    rw [List.cons_append] at he ⊢
    rw [negation, hnone]
    exact he

lemma comparison_of_derives {ws : List Word} (h : Derives ctx.operators .comparison ws [e])
    (hus : us.map Token.word = ws) (hn : 10 * us.length + Category.comparison.level ≤ n + 1)
    (hend : Ends .comparison rest) : comparison ctx (n + 1) (us ++ rest) = .ok (e, rest) := by
  cases h with
  | alone h =>
    subst hus
    simp only [Category.level] at hn
    obtain ⟨e', he, heq⟩ := single_eq_ok.mp
      (ih (x := .primary) h (by simp only [Category.level]; omega) rest
        (hend.mono fun _ => .inl))
    cases heq
    rw [comparison, he]
    rcases rest with _ | ⟨t, rest⟩
    · rfl
    · have hop : comparator? t = none := by
        by_contra hop
        exact ends_cons.mp hend (.inr hop)
      simp only [comparator?] at hop
      simp [Bind.bind, Except.bind, hop, pure, Except.pure]
  | @compare us' vs k op e f h hk h' =>
    obtain ⟨us, us', rfl, rfl, hus'⟩ := List.map_eq_append_iff.mp hus
    obtain ⟨t, us', rfl, rfl, rfl⟩ := List.map_eq_cons_iff.mp hus'
    have hk' : comparator? t = some op := hk
    simp only [Category.level, List.length_append, List.length_cons] at hn
    obtain ⟨e', he, heq⟩ := single_eq_ok.mp
      (ih (x := .primary) h (by simp only [Category.level]; omega) (t :: (us' ++ rest))
        (ends_cons.mpr (not_continues_comparator hk')))
    cases heq
    obtain ⟨f', hf, heq⟩ := single_eq_ok.mp
      (ih (x := .primary) h' (by simp only [Category.level]; omega) rest
        (hend.mono fun _ => .inl))
    cases heq
    simp only [comparator?] at hk'
    rw [List.append_assoc, List.cons_append, comparison, he]
    simp [Bind.bind, Except.bind, hk', hf, pure, Except.pure]

lemma primary_of_derives {ws : List Word} (h : Derives ctx.operators .primary ws [e])
    (hus : us.map Token.word = ws) (hn : 10 * us.length + Category.primary.level ≤ n + 1)
    (hend : Ends .primary rest) : primary ctx (n + 1) (us ++ rest) = .ok (e, rest) := by
  have hmark {t : Token} {symbol : String} (ht : t.word = mark symbol) :
      constant? t = none ∧ t.kind = .punct ∧ t.text = symbol := by
    have hkind : t.kind = .punct := congrArg Word.kind ht
    exact ⟨by simp [constant?, hkind], hkind, congrArg Word.text ht⟩
  have hname {t : Token} {s : String} (ht : t.word = ⟨.name, s⟩)
      (hs : (Word.token ⟨.name, s⟩).keyword? = none) :
      constant? t = none ∧ t.kind = .name ∧ t.text = s ∧ t.keyword? = none := by
    have hkind : t.kind = .name := congrArg Word.kind ht
    have hkey : t.keyword? = none := by
      rw [← ht] at hs
      exact hs
    exact ⟨by simp [constant?, hkind, hkey], hkind, congrArg Word.text ht, hkey⟩
  simp only [Category.level] at hn
  cases h with
  | @constant w v h =>
    obtain ⟨t, rfl, rfl⟩ := List.map_eq_singleton_iff.mp hus
    have hv : constant? t = some (.ok v) := h
    rw [List.singleton_append, primary.eq_def]
    simp [hv, Except.map]
  | @array ws v h =>
    obtain ⟨t, us, rfl, ht, rfl⟩ := List.map_eq_cons_iff.mp hus
    obtain ⟨hconst, hkind, htext⟩ := hmark ht
    simp only [List.length_cons] at hn
    obtain ⟨v', hv, heq⟩ := single_eq_ok.mp
      (listing_of_lists ctx (n := n) h (by simp only [ArrayPart.level]; omega) rest)
    cases heq
    rw [List.cons_append, primary.eq_def]
    simp [hconst, hkind, htext, hv, Except.map]
  | @param s =>
    obtain ⟨t, rfl, ht⟩ := List.map_eq_singleton_iff.mp hus
    have hkind : t.kind = .param := congrArg Word.kind ht
    have htext : t.text = s := congrArg Word.text ht
    rw [List.singleton_append, primary.eq_def]
    simp [constant?, hkind, htext]
  | @enclosed ws e h =>
    obtain ⟨t, us, rfl, ht, hus⟩ := List.map_eq_cons_iff.mp hus
    obtain ⟨us, us', rfl, rfl, hus'⟩ := List.map_eq_append_iff.mp hus
    obtain ⟨t', rfl, ht'⟩ := List.map_eq_singleton_iff.mp hus'
    obtain ⟨hconst, hkind, htext⟩ := hmark ht
    simp only [List.length_cons, List.length_append, List.length_nil] at hn
    obtain ⟨e', he, heq⟩ := single_eq_ok.mp
      (ih (x := .junction .or) h (by simp only [Category.level]; omega) (t' :: rest)
        (ends_cons.mpr (not_continues_mark ht' (by decide))))
    cases heq
    have hclose : punct ctx ")" (t' :: rest) = .ok rest := punct_eq_ok.mpr (afterPunct?_of_word ht')
    rw [List.cons_append, List.append_assoc, List.singleton_append, primary.eq_def]
    simp [hconst, hkind, htext, he, Bind.bind, Except.bind, hclose, pure, Except.pure]
  | @field s hs =>
    obtain ⟨t, rfl, ht⟩ := List.map_eq_singleton_iff.mp hus
    obtain ⟨hconst, hkind, htext, hkey⟩ := hname ht hs
    have hnone : afterPunct? "(" rest = none := by
      rw [Option.eq_none_iff_forall_not_mem]
      intro r hr
      obtain ⟨t', rfl, ht'⟩ := afterPunct?_eq_some.mp hr
      exact ends_cons.mp hend ht'
    rw [List.singleton_append, primary.eq_def]
    simp [hconst, hkind, htext, hkey, hnone]
  | @call s ws es op hs h hop =>
    obtain ⟨t, us, rfl, ht, hus⟩ := List.map_eq_cons_iff.mp hus
    obtain ⟨t', us, rfl, ht', rfl⟩ := List.map_eq_cons_iff.mp hus
    obtain ⟨hconst, hkind, htext, hkey⟩ := hname ht hs
    simp only [List.length_cons] at hn
    have hes := ih (x := .arguments) h (by simp only [Category.level]; omega) rest
      (fun _ _ => id)
    simp only [phrase] at hes
    rw [List.cons_append, List.cons_append, primary.eq_def]
    simp [hconst, hkind, htext, hkey, afterPunct?_of_word ht', hes, Bind.bind, Except.bind, hop,
      pure, Except.pure]

lemma arguments_of_derives {ws : List Word} (h : Derives ctx.operators .arguments ws es)
    (hus : us.map Token.word = ws) (hn : 10 * us.length + Category.arguments.level ≤ n + 1) :
    arguments ctx (n + 1) (us ++ rest) = .ok (es, rest) := by
  cases h with
  | noArguments =>
    obtain ⟨t, rfl, ht⟩ := List.map_eq_singleton_iff.mp hus
    rw [List.singleton_append, arguments, afterPunct?_of_word ht]
  | someArguments h =>
    obtain ⟨w, ws', rfl, hw⟩ := exists_cons_of_derives h (by simp)
    obtain ⟨t, us, rfl, rfl, rfl⟩ := List.map_eq_cons_iff.mp hus
    simp only [Category.level] at hn
    have h' : Derives ctx.operators .moreArguments ((t :: us).map Token.word) es := h
    have hes := ih h' (by simp only [Category.level]; omega) rest (fun _ _ => id)
    rw [List.cons_append] at hes ⊢
    rw [arguments, afterPunct?_of_ne (hw ")" (by decide))]
    exact hes

lemma moreArguments_of_derives {ws : List Word} (h : Derives ctx.operators .moreArguments ws es)
    (hus : us.map Token.word = ws) (hn : 10 * us.length + Category.moreArguments.level ≤ n + 1) :
    moreArguments ctx (n + 1) (us ++ rest) = .ok (es, rest) := by
  cases h with
  | @lastArgument ws e h =>
    obtain ⟨us, us', rfl, rfl, hus'⟩ := List.map_eq_append_iff.mp hus
    obtain ⟨t, rfl, ht⟩ := List.map_eq_singleton_iff.mp hus'
    simp only [Category.level, List.length_append, List.length_singleton] at hn
    obtain ⟨e', he, heq⟩ := single_eq_ok.mp
      (ih (x := .junction .or) h (by simp only [Category.level]; omega) (t :: rest)
        (ends_cons.mpr (not_continues_mark ht (by decide))))
    cases heq
    have hcomma : t.word ≠ mark "," := by simp [ht, mark]
    have hclose : punct ctx ")" (t :: rest) = .ok rest := punct_eq_ok.mpr (afterPunct?_of_word ht)
    rw [List.append_assoc, List.singleton_append, moreArguments, he]
    simp [Bind.bind, Except.bind, afterPunct?_of_ne hcomma, hclose, pure, Except.pure]
  | @argument us' ws e es h hs =>
    obtain ⟨us, us', rfl, rfl, hus'⟩ := List.map_eq_append_iff.mp hus
    obtain ⟨t, us', rfl, ht, rfl⟩ := List.map_eq_cons_iff.mp hus'
    simp only [Category.level, List.length_append, List.length_cons] at hn
    obtain ⟨e', he, heq⟩ := single_eq_ok.mp
      (ih (x := .junction .or) h (by simp only [Category.level]; omega) (t :: (us' ++ rest))
        (ends_cons.mpr (not_continues_mark ht (by decide))))
    cases heq
    have hes := ih (x := .moreArguments) hs (by simp only [Category.level]; omega) rest
      (fun _ _ => id)
    simp only [phrase] at hes
    rw [List.append_assoc, List.cons_append, moreArguments, he]
    simp [Bind.bind, Except.bind, afterPunct?_of_word ht, hes, pure, Except.pure]

end

/-- **Completeness**: what derives something is read as that, before a token that does not go on
with it. -/
theorem phrase_of_derives {n : Nat} {x : Category} {us : List Token} {es : List Expr}
    (h : Derives ctx.operators x (us.map Token.word) es) (hn : 10 * us.length + x.level ≤ n)
    (rest : List Token) (hend : Ends x rest) :
    phrase ctx x n (us ++ rest) = .ok (es, rest) := by
  induction n generalizing x us es rest with
  | zero =>
    have := x.level_pos
    omega
  | succ n ih =>
    generalize hus : us.map Token.word = ws at h
    cases x with
    | junction c =>
      cases h with
      | join h => exact single_eq_ok.mpr ⟨_, junction_of_derives ih h hus hn hend, rfl⟩
    | operands c => exact operands_of_derives ih h hus hn hend
    | negation =>
      obtain ⟨e, rfl⟩ : ∃ e, es = [e] := by cases h <;> exact ⟨_, rfl⟩
      exact single_eq_ok.mpr ⟨e, negation_of_derives ih h hus hn hend, rfl⟩
    | comparison =>
      obtain ⟨e, rfl⟩ : ∃ e, es = [e] := by cases h <;> exact ⟨_, rfl⟩
      exact single_eq_ok.mpr ⟨e, comparison_of_derives ih h hus hn hend, rfl⟩
    | primary =>
      obtain ⟨e, rfl⟩ : ∃ e, es = [e] := by cases h <;> exact ⟨_, rfl⟩
      exact single_eq_ok.mpr ⟨e, primary_of_derives ih h hus hn hend, rfl⟩
    | arguments => exact arguments_of_derives ih h hus hn
    | moreArguments => exact moreArguments_of_derives ih h hus hn

theorem expression_of_derives (ctx : Context) {us : List Token} {e : Expr}
    (h : Derives ctx.operators (.junction .or) (us.map Token.word) [e]) (rest : List Token)
    (hend : Ends (.junction .or) rest) : expression ctx (us ++ rest) = .ok (e, rest) := by
  have hn : 10 * us.length + (Category.junction .or).level ≤ depth (us ++ rest) := by
    simp only [Category.level, depth, List.length_append]
    omega
  obtain ⟨e', he, heq⟩ := single_eq_ok.mp (phrase_of_derives h hn rest hend)
  cases heq
  exact he

lemma reads_of_expression {ts rest : List Token} {e : Expr}
    (h : expression ctx ts = .ok (e, rest)) :
    Reads (Derives ctx.operators (.junction .or) · [e]) ts rest :=
  reads_of_phrase (x := .junction .or) (single_eq_ok.mpr ⟨e, h, rfl⟩)

lemma finish_eq_ok {α : Type} {a b : α} {ts : List Token} :
    finish ctx (a, ts) = .ok b ↔ a = b ∧ ts = [] := by
  cases ts <;> simp [finish, fail]

/-- **Expressions**: a text is read as an expression just if its words derive that. -/
theorem parse_eq_ok {ops : Operators} {s : String} {e : Expr} :
    Expr.parse ops s = .ok e ↔
      ∃ ws, Lexes s.toList ws ∧ Derives ops (.junction .or) ws [e] := by
  constructor
  · intro h
    obtain ⟨ts, hts, h⟩ := bind_eq_ok.mp h
    obtain ⟨⟨e', rest⟩, he, h⟩ := bind_eq_ok.mp h
    obtain ⟨rfl, rfl⟩ := finish_eq_ok.mp h
    obtain ⟨us, rfl, hus⟩ := reads_of_expression he
    rw [List.append_nil] at hts
    exact ⟨_, .of_tokens hts, hus⟩
  · rintro ⟨ws, hws, h⟩
    obtain ⟨ts, hts, rfl⟩ := hws.exists_tokens
    have he := expression_of_derives ⟨ops, s.length⟩ h [] ends_nil
    rw [List.append_nil] at he
    exact bind_eq_ok.mpr ⟨ts, hts, bind_eq_ok.mpr ⟨_, he, finish_eq_ok.mpr ⟨rfl, rfl⟩⟩⟩

end Parser

end NearDoc
