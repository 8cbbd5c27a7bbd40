import NearDoc.Proofs.Query.Lexing
import NearDoc.Query.Parser

/-!
The grammar of the query language, as derivations over words. A stretch of words derives the values
or expressions that it lists: one, or as many as an array has elements and a call has arguments.
-/

namespace NearDoc

/-- The word as the token of a text that has nothing before it. -/
def Word.token (w : Word) : Token := ⟨w.kind, w.text, 0⟩

namespace Grammar

/-- A punctuation mark. -/
def mark (symbol : String) : Word := ⟨.punct, symbol⟩

/-- The comparator that a token stands for. -/
def comparator? (t : Token) : Option Comparator :=
  if t.kind = .op then Comparator.ofSymbol? t.text else none

/-! ### Arrays -/

/-- The parts of an array: an element, the elements up to the closing bracket, and all after the
opening one. -/
inductive ArrayPart where
  | element
  | elements
  | array

inductive Lists : ArrayPart → List Word → List Value → Prop where
  | constant {w : Word} {v : Value} (h : Parser.constant? w.token = some (.ok v)) :
      Lists .element [w] [v]
  | nested {ws : List Word} {v : Value} (h : Lists .array ws [v]) :
      Lists .element (mark "[" :: ws) [v]
  | last {ws : List Word} {v : Value} (h : Lists .element ws [v]) :
      Lists .elements (ws ++ [mark "]"]) [v]
  | more {us ws : List Word} {v : Value} {vs : List Value} (h : Lists .element us [v])
      (hs : Lists .elements ws vs) : Lists .elements (us ++ mark "," :: ws) (v :: vs)
  | empty : Lists .array [mark "]"] [.list []]
  | nonempty {ws : List Word} {vs : List Value} (h : Lists .elements ws vs) :
      Lists .array ws [.list vs]

/-! ### Expressions -/

/-- The categories of the grammar of expressions. The arguments of a call go up to its closing
parenthesis. -/
inductive Category where
  | junction (c : Parser.Connective)
  | operands (c : Parser.Connective)
  | negation
  | comparison
  | primary
  | arguments
  | moreArguments

/-- What a connective joins. -/
def operand : Parser.Connective → Category
  | .or => .junction .and
  | .and => .negation

inductive Derives (ops : Operators) : Category → List Word → List Expr → Prop where
  | join {c : Parser.Connective} {ws : List Word} {es : List Expr}
      (h : Derives ops (.operands c) ws es) : Derives ops (.junction c) ws [c.join es]
  | single {c : Parser.Connective} {ws : List Word} {e : Expr}
      (h : Derives ops (operand c) ws [e]) : Derives ops (.operands c) ws [e]
  | joined {c : Parser.Connective} {us vs : List Word} {k : Word} {e : Expr} {es : List Expr}
      (h : Derives ops (operand c) us [e]) (hk : k.token.keyword? = some c.word)
      (hs : Derives ops (.operands c) vs es) : Derives ops (.operands c) (us ++ k :: vs) (e :: es)
  | not {k : Word} {ws : List Word} {e : Expr} (hk : k.token.keyword? = some "NOT")
      (h : Derives ops .negation ws [e]) : Derives ops .negation (k :: ws) [.not e]
  | positive {ws : List Word} {e : Expr} (h : Derives ops .comparison ws [e]) :
      Derives ops .negation ws [e]
  | alone {ws : List Word} {e : Expr} (h : Derives ops .primary ws [e]) :
      Derives ops .comparison ws [e]
  | compare {us vs : List Word} {k : Word} {op : Comparator} {e f : Expr}
      (h : Derives ops .primary us [e]) (hk : comparator? k.token = some op)
      (h' : Derives ops .primary vs [f]) :
      Derives ops .comparison (us ++ k :: vs) [.compare op e f]
  | constant {w : Word} {v : Value} (h : Parser.constant? w.token = some (.ok v)) :
      Derives ops .primary [w] [.literal v]
  | array {ws : List Word} {v : Value} (h : Lists .array ws [v]) :
      Derives ops .primary (mark "[" :: ws) [.literal v]
  | param {s : String} :
      Derives ops .primary [⟨.param, s⟩] [.param (.text (String.ofList (s.toList.drop 1)))]
  | enclosed {ws : List Word} {e : Expr} (h : Derives ops (.junction .or) ws [e]) :
      Derives ops .primary (mark "(" :: (ws ++ [mark ")"])) [e]
  | field {s : String} (hs : (Word.token ⟨.name, s⟩).keyword? = none) :
      Derives ops .primary [⟨.name, s⟩] [.field s]
  | call {s : String} {ws : List Word} {es : List Expr} {op : Operator}
      (hs : (Word.token ⟨.name, s⟩).keyword? = none) (h : Derives ops .arguments ws es)
      (hop : ops.resolve s (.int es.length) = .ok op) :
      Derives ops .primary (⟨.name, s⟩ :: mark "(" :: ws) [.call op es none]
  | noArguments : Derives ops .arguments [mark ")"] []
  | someArguments {ws : List Word} {es : List Expr} (h : Derives ops .moreArguments ws es) :
      Derives ops .arguments ws es
  | lastArgument {ws : List Word} {e : Expr} (h : Derives ops (.junction .or) ws [e]) :
      Derives ops .moreArguments (ws ++ [mark ")"]) [e]
  | argument {us ws : List Word} {e : Expr} {es : List Expr}
      (h : Derives ops (.junction .or) us [e]) (hs : Derives ops .moreArguments ws es) :
      Derives ops .moreArguments (us ++ mark "," :: ws) (e :: es)

/-- A comparison is an expression by itself. -/
lemma derives_of_comparison {ops : Operators} {ws : List Word} {e : Expr}
    (h : Derives ops .comparison ws [e]) : Derives ops (.junction .or) ws [e] :=
  .join (c := .or) (.single (c := .or) (.join (c := .and) (.single (c := .and) (.positive h))))

lemma derives_of_primary {ops : Operators} {ws : List Word} {e : Expr}
    (h : Derives ops .primary ws [e]) : Derives ops (.junction .or) ws [e] :=
  derives_of_comparison (.alone h)

end Grammar

/-! ### The next token -/

namespace Parser

open Grammar

variable {ctx : Context} {ts rest : List Token} {t : Token}

lemma afterPunct?_eq_some {symbol : String} :
    afterPunct? symbol ts = some rest ↔ ∃ t, ts = t :: rest ∧ t.word = mark symbol := by
  cases ts with
  | nil => simp [afterPunct?]
  | cons t ts =>
    simp only [afterPunct?, Token.word, mark, Word.mk.injEq, List.cons.injEq]
    constructor
    · intro h
      split at h
      · cases h
        exact ⟨t, ⟨rfl, rfl⟩, ‹_›⟩
      · cases h
    · rintro ⟨t, ⟨rfl, rfl⟩, ht⟩
      rw [if_pos ht]

lemma afterKeyword?_eq_some {keyword : String} :
    afterKeyword? keyword ts = some rest ↔ ∃ t, ts = t :: rest ∧ t.keyword? = some keyword := by
  cases ts with
  | nil => simp [afterKeyword?]
  | cons t ts =>
    simp only [afterKeyword?, List.cons.injEq]
    constructor
    · intro h
      split at h
      · cases h
        exact ⟨t, ⟨rfl, rfl⟩, ‹_›⟩
      · cases h
    · rintro ⟨t, ⟨rfl, rfl⟩, ht⟩
      rw [if_pos ht]

lemma punct_eq_ok {symbol : String} :
    punct ctx symbol ts = .ok rest ↔ afterPunct? symbol ts = some rest := by
  unfold punct
  rcases afterPunct? symbol ts with _ | rest' <;> simp [failExpected, fail]

lemma keyword_eq_ok {word : String} :
    keyword ctx word ts = .ok rest ↔ afterKeyword? word ts = some rest := by
  unfold keyword
  rcases afterKeyword? word ts with _ | rest' <;> simp [failExpected, fail]

end Parser

end NearDoc
