import NearDoc.Proofs.Near.Surfaces
import NearDoc.Proofs.Query.Completeness
import NearDoc.Proofs.Query.ExprTree
import NearDoc.Proofs.Query.Spacing

/-!
Expressions written as texts, every part that has parts of its own in parentheses. A rendering is a
row of slots, which leave the letter case of keywords open; a text fills them with words that stand
apart. Main statement: every text that an expression is written as is read as the expression.
-/

namespace NearDoc

open Text Number Grammar

/-- A place for a word: for a given one, or for a keyword in any case. -/
inductive Slot where
  | word (w : Word)
  | keyword (k : String)

namespace Slot

def mark (symbol : String) : Slot := .word (Grammar.mark symbol)

/-- The words that may stand in the slot. -/
def Holds : Slot → Word → Prop
  | .word w, v => v = w
  | .keyword k, v => v.kind = .name ∧ SameLetters v.text k

instance : DecidableRel Holds
  | .word w, v => inferInstanceAs (Decidable (v = w))
  | .keyword k, v => inferInstanceAs (Decidable (v.kind = .name ∧
      v.text.toList.map Char.toUpper = k.toList.map Char.toUpper))

/-- The word of a slot with its keyword as given. -/
def given : Slot → Word
  | .word w => w
  | .keyword k => ⟨.name, k⟩

lemma holds_given (slot : Slot) : slot.Holds slot.given := by
  cases slot with
  | word w => rfl
  | keyword k => exact ⟨rfl, rfl⟩

/-- Rows with a comma between any two. -/
def commas (rows : List (List Slot)) : List Slot := [mark ","].intercalate rows

end Slot

/-- Words that stand in the slots of a row, one in each. -/
def Fills (slots : List Slot) (ws : List Word) : Prop := List.Forall₂ Slot.Holds slots ws

/-! ### Renderings -/

mutual

/-- The slots of a constant. -/
def Value.rendering : Value → List Slot
  | .null => [.keyword "NULL"]
  | .bool true => [.keyword "TRUE"]
  | .bool false => [.keyword "FALSE"]
  | .int i => [.word ⟨.number, String.ofList (writeInt i)⟩]
  | .text s => [.word ⟨.text, quote s⟩]
  | .list vs => .mark "[" :: (Slot.commas (Value.renderings vs) ++ [.mark "]"])
  | _ => []

def Value.renderings : List Value → List (List Slot)
  | [] => []
  | v :: vs => v.rendering :: Value.renderings vs

end

/-- Slots in parentheses, or without them. -/
def parenthesized (parens : Bool) (slots : List Slot) : List Slot :=
  if parens then .mark "(" :: (slots ++ [.mark ")"]) else slots

mutual

/-- The slots of an expression. Parts that have parts of their own stand in parentheses, and so does
the whole unless it is to stand without. -/
def Expr.rendering (parens : Bool) : Expr → List Slot
  | .field path => [.word ⟨.name, path⟩]
  | .literal v => v.rendering
  | .param (.text s) => [.word ⟨.param, "@" ++ s⟩]
  | .param _ => []
  | .compare op e f =>
    parenthesized parens (e.rendering true ++ .word ⟨.op, op.symbol⟩ :: f.rendering true)
  | .all es => parenthesized parens ([Slot.keyword "AND"].intercalate (Expr.renderings es))
  | .any es => parenthesized parens ([Slot.keyword "OR"].intercalate (Expr.renderings es))
  | .not e => parenthesized parens (.keyword "NOT" :: e.rendering true)
  | .call op es _ => .word ⟨.name, op.name⟩ :: parenthesized true (Slot.commas (Expr.renderings es))

def Expr.renderings : List Expr → List (List Slot)
  | [] => []
  | e :: es => e.rendering true :: Expr.renderings es

end

/-- The text is the expression written out, with or without parentheses around the whole. -/
def Expr.WrittenBy (e : Expr) (parens : Bool) (s : String) : Prop :=
  ∃ ws, Fills (e.rendering parens) ws ∧ Spaced ws s.toList

/-! ### What can be written -/

/-- Constants of integers that are not too long to be read, texts, truth values and null. -/
inductive Value.Writable : Value → Prop where
  | null : Writable .null
  | bool (b : Bool) : Writable (.bool b)
  | int {i : Int} (h : (digitsOf i.natAbs).length ≤ longestInteger) : Writable (.int i)
  | text (s : String) : Writable (.text s)
  | list {vs : List Value} (h : ∀ v ∈ vs, Writable v) : Writable (.list vs)

/-- Expressions whose fields and calls have the shape of names, without keywords, whose parameters
are identifiers, whose constants can be written, whose connectives join at least two operands and
whose calls are those of the registry. -/
inductive Expr.Writable (ops : Operators) : Expr → Prop where
  | field {path : String} (h : NameShaped path) (hkey : upper path ∉ Token.keywords) :
      Writable ops (.field path)
  | literal {v : Value} (h : v.Writable) : Writable ops (.literal v)
  | param {s : String} (h : IsIdentifier s.toList) : Writable ops (.param (.text s))
  | compare {op : Comparator} {e f : Expr} (he : Writable ops e) (hf : Writable ops f) :
      Writable ops (.compare op e f)
  | all {es : List Expr} (hlength : 2 ≤ es.length) (h : ∀ e ∈ es, Writable ops e) :
      Writable ops (.all es)
  | any {es : List Expr} (hlength : 2 ≤ es.length) (h : ∀ e ∈ es, Writable ops e) :
      Writable ops (.any es)
  | not {e : Expr} (h : Writable ops e) : Writable ops (.not e)
  | call {op : Operator} {es : List Expr} (h : NameShaped op.name)
      (hkey : upper op.name ∉ Token.keywords) (hes : ∀ e ∈ es, Writable ops e)
      (hop : ops.find? ⟨upper op.name, .int es.length⟩ = some op) :
      Writable ops (.call op es none)

/-! ### Rows of slots -/

/-- Whatever word stands in the slot is a word by itself and of a kind. -/
def Slot.Admits (slot : Slot) (S : Word → Prop) : Prop := ∀ w, slot.Holds w → w.Alone ∧ S w

/-- However the slots are filled, the words are words by themselves, and of a kind together. -/
def Yields (P : List Word → Prop) (slots : List Slot) : Prop :=
  ∀ ws, Fills slots ws → (∀ w ∈ ws, w.Alone) ∧ P ws

namespace Slot

lemma admits_word {w : Word} (hw : w.Alone) : (Slot.word w).Admits (· = w) := by
  rintro _ rfl
  exact ⟨hw, rfl⟩

lemma admits_mark (symbol : Char) (h : symbol ∈ ['(', ')', '[', ']', ',', '*']) :
    (mark (String.ofList [symbol])).Admits (· = Grammar.mark (String.ofList [symbol])) := by
  refine admits_word ?_
  rw [Word.Alone, Grammar.mark, String.toList_ofList]
  exact .punct h .nil

lemma admits_keyword {k : String} (hk : k ∈ Token.keywords) :
    (Slot.keyword k).Admits (·.token.keyword? = some k) := by
  rintro ⟨kind, t⟩ ⟨hkind, hletters⟩
  cases hkind
  exact ⟨(hletters.nameShaped hk).lexes, hletters.keyword? hk⟩

end Slot

lemma exists_of_fills_append {slots slots' : List Slot} {ws : List Word}
    (h : Fills (slots ++ slots') ws) :
    ∃ us vs, ws = us ++ vs ∧ Fills slots us ∧ Fills slots' vs := by
  induction slots generalizing ws with
  | nil => exact ⟨[], ws, rfl, .nil, h⟩
  | cons slot slots ih =>
    obtain _ | ⟨hw, h⟩ := h
    obtain ⟨us, vs, rfl, hus, hvs⟩ := ih h
    exact ⟨_ :: us, vs, rfl, .cons hw hus, hvs⟩

namespace Yields

variable {P Q R : List Word → Prop} {S : Word → Prop} {slot : Slot} {slots slots' : List Slot}

lemma nil (hP : P []) : Yields P [] := by
  rintro ws (_ | _)
  exact ⟨by simp, hP⟩

lemma imp (h : Yields P slots) (hPQ : ∀ ws, P ws → Q ws) : Yields Q slots := fun ws hws =>
  ⟨(h ws hws).1, hPQ ws (h ws hws).2⟩

lemma cons (h : slot.Admits S) (h' : Yields Q slots) (hR : ∀ w ws, S w → Q ws → R (w :: ws)) :
    Yields R (slot :: slots) := by
  rintro ws (_ | ⟨hw, hws⟩)
  obtain ⟨halone, hS⟩ := h _ hw
  obtain ⟨halone', hQ⟩ := h' _ hws
  exact ⟨List.forall_mem_cons.mpr ⟨halone, halone'⟩, hR _ _ hS hQ⟩

lemma single (h : slot.Admits S) (hP : ∀ w, S w → P [w]) : Yields P [slot] :=
  cons h (nil (P := (· = [])) rfl) fun w _ hS hws => hws ▸ hP w hS

lemma append (h : Yields P slots) (h' : Yields Q slots')
    (hR : ∀ us vs, P us → Q vs → R (us ++ vs)) : Yields R (slots ++ slots') := by
  intro ws hws
  obtain ⟨us, vs, rfl, hus, hvs⟩ := exists_of_fills_append hws
  obtain ⟨halone, hP⟩ := h us hus
  obtain ⟨halone', hQ⟩ := h' vs hvs
  refine ⟨fun w hw => ?_, hR us vs hP hQ⟩
  rcases List.mem_append.mp hw with hw | hw
  · exact halone w hw
  · exact halone' w hw

/-- A row with a slot behind it. -/
lemma concat (h : Yields P slots) (hslot : slot.Admits S)
    (hR : ∀ us w, P us → S w → R (us ++ [w])) : Yields R (slots ++ [slot]) := by
  refine h.append (single hslot (P := fun ws => ∃ w, ws = [w] ∧ S w) fun w hS => ⟨w, rfl, hS⟩) ?_
  rintro us _ hP ⟨w, rfl, hS⟩
  exact hR us w hP hS

/-- Rows with a slot between them. -/
lemma between (h : Yields P slots) (hslot : slot.Admits S) (h' : Yields Q slots')
    (hR : ∀ us w vs, P us → S w → Q vs → R (us ++ w :: vs)) :
    Yields R (slots ++ slot :: slots') := by
  refine h.append (cons hslot h' (R := fun ws => ∃ w vs, ws = w :: vs ∧ S w ∧ Q vs)
    fun w vs hS hQ => ⟨w, vs, rfl, hS, hQ⟩) ?_
  rintro us _ hP ⟨w, vs, rfl, hS, hQ⟩
  exact hR us w vs hP hS hQ

/-- Rows with the same slot between any two. -/
lemma intercalate {α : Type} {row : α → List Slot} {E : α → List Word → Prop}
    {L : List α → List Word → Prop} {as : List α} (hne : as ≠ []) (hslot : slot.Admits S)
    (h : ∀ a ∈ as, Yields (E a) (row a)) (hlast : ∀ a ws, E a ws → L [a] ws)
    (hmore : ∀ a as us w vs, E a us → S w → L as vs → L (a :: as) (us ++ w :: vs)) :
    Yields (L as) ([slot].intercalate (as.map row)) := by
  induction as with
  | nil => exact absurd rfl hne
  | cons a as ih =>
    rw [List.forall_mem_cons] at h
    cases as with
    | nil =>
      rw [List.map_singleton, List.intercalate_singleton]
      exact h.1.imp (hlast a)
    | cons b as =>
      rw [List.map_cons, List.map_cons, List.intercalate_cons_cons, List.append_assoc]
      exact h.1.between hslot (ih (by simp) h.2) (hmore a (b :: as))

end Yields

/-! ### Constants -/

lemma Value.renderings_eq (vs : List Value) : Value.renderings vs = vs.map Value.rendering := by
  induction vs with
  | nil => rfl
  | cons v vs ih => rw [Value.renderings, ih, List.map_cons]

/-- A keyword that is a constant, in any case. -/
lemma yields_keyword {k : String} (hk : k ∈ Token.keywords) {v : Value}
    (hv : ∀ t : Token, t.keyword? = some k → Parser.constant? t = some (.ok v)) :
    Yields (Lists .element · [v]) [.keyword k] :=
  .single (Slot.admits_keyword hk) fun w hw => .constant (hv w.token hw)

lemma yields_constant {w : Word} {v : Value} (hw : w.Alone)
    (hv : Parser.constant? w.token = some (.ok v)) : Yields (Lists .element · [v]) [.word w] :=
  .single (Slot.admits_word hw) fun _ heq => heq ▸ .constant hv

/-- Elements in brackets, with commas between them. -/
lemma yields_array {vs : List Value} (h : ∀ v ∈ vs, Yields (Lists .element · [v]) v.rendering) :
    Yields (Lists .element · [.list vs]) (Value.rendering (.list vs)) := by
  rw [Value.rendering, Value.renderings_eq]
  have hopen := Slot.admits_mark '[' (by simp)
  have hclose := Slot.admits_mark ']' (by simp)
  have hcomma := Slot.admits_mark ',' (by simp)
  refine .cons hopen (Q := (Lists .array · [.list vs])) ?_ fun w ws hw hws => hw ▸ .nested hws
  rcases eq_or_ne vs [] with rfl | hne
  · exact .single hclose fun w hw => hw ▸ .empty
  · -- what is listed goes up to the closing bracket
    have helements : Yields (fun ws => Lists .elements (ws ++ [mark "]"]) vs)
        (Slot.commas (vs.map Value.rendering)) := by
      refine .intercalate (L := fun vs ws => Lists .elements (ws ++ [mark "]"]) vs) hne hcomma h
        (fun _ _ => .last) ?_
      rintro v vs us _ ws hv rfl hvs
      rw [List.append_assoc, List.cons_append]
      exact .more hv hvs
    exact helements.concat hclose fun ws w hws hw => .nonempty (hw ▸ hws)

/-- **Constants**: what fills the slots of a constant lists it. -/
theorem Value.Writable.yields {v : Value} (hv : v.Writable) :
    Yields (Lists .element · [v]) v.rendering := by
  induction hv with
  | null =>
    exact yields_keyword (by decide) fun t ht => by
      simp [Parser.constant?, kind_of_keyword? ht, ht]
  | bool b =>
    cases b <;>
    exact yields_keyword (by decide) fun t ht => by
      simp [Parser.constant?, kind_of_keyword? ht, ht]
  | @int i h =>
    refine yields_constant ?_ ?_
    · rw [Word.Alone, String.toList_ofList]
      exact lexes_writeInt i
    · simp [Parser.constant?, Word.token, Parser.numberValue, Parser.integer?_writeInt,
        Nat.not_lt.mpr h, Except.map]
  | text s =>
    refine yields_constant (lexes_quote s) ?_
    rw [Parser.constant?, Word.token, Parser.textValue_quote]
  | list h ih => exact yields_array ih

/-! ### Expressions -/

lemma Expr.renderings_eq (es : List Expr) :
    Expr.renderings es = es.map (Expr.rendering true) := by
  induction es with
  | nil => rfl
  | cons e es ih => rw [Expr.renderings, ih, List.map_cons]

/-- What a whole derives, with parentheses around it and without. -/
def wholeCategory (parens : Bool) : Category := if parens then .primary else .junction .or

variable {ops : Operators} {parens : Bool}

lemma keyword?_eq_none {s : String} (h : upper s ∉ Token.keywords) :
    (Word.token ⟨.name, s⟩).keyword? = none := by
  simp [Token.keyword?, Word.token, h]

/-- What needs no parentheses is the same with them. -/
lemma derives_whole {ws : List Word} {e : Expr} (h : Derives ops .primary ws [e]) :
    Derives ops (wholeCategory parens) ws [e] := by
  cases parens with
  | true => exact h
  | false => exact derives_of_primary h

lemma derives_literal {ws : List Word} {v : Value} (h : Lists .element ws [v]) :
    Derives ops .primary ws [.literal v] := by
  cases h with
  | constant h => exact .constant h
  | nested h => exact .array h

lemma derives_operand {ws : List Word} {e : Expr} (c : Parser.Connective)
    (h : Derives ops .primary ws [e]) : Derives ops (operand c) ws [e] := by
  cases c with
  | or => exact .join (c := .and) (.single (c := .and) (.positive (.alone h)))
  | and => exact .positive (.alone h)

lemma yields_parenthesized {slots : List Slot} {e : Expr}
    (h : Yields (Derives ops (.junction .or) · [e]) slots) :
    Yields (Derives ops (wholeCategory parens) · [e]) (parenthesized parens slots) := by
  cases parens with
  | false => exact h
  | true =>
    refine .cons (Slot.admits_mark '(' (by simp))
      (h.concat (Slot.admits_mark ')' (by simp))
        (R := fun vs => ∃ ws, vs = ws ++ [mark ")"] ∧ Derives ops (.junction .or) ws [e])
        fun ws w hws hw => ⟨ws, by rw [hw], hws⟩) ?_
    rintro _ _ rfl ⟨ws, rfl, hws⟩
    exact .enclosed hws

/-- The sign of a comparator stands for it. -/
lemma comparator?_symbol (op : Comparator) :
    Grammar.comparator? (Word.token ⟨.op, op.symbol⟩) = some op :=
  (if_pos rfl).trans (Comparator.ofSymbol?_symbol op)

lemma derives_junction {c : Parser.Connective} {ws : List Word} {e : Expr}
    (h : Derives ops (.junction c) ws [e]) : Derives ops (.junction .or) ws [e] := by
  cases c with
  | or => exact h
  | and => exact .join (c := .or) (.single (c := .or) h)

/-- Operands joined by a connective. -/
lemma yields_junction {es : List Expr} (c : Parser.Connective) (hne : es ≠ [])
    (h : ∀ e ∈ es, Yields (Derives ops .primary · [e]) (e.rendering true)) :
    Yields (Derives ops (.junction .or) · [c.join es])
      ([Slot.keyword c.word].intercalate (es.map (Expr.rendering true))) := by
  have hword : c.word ∈ Token.keywords := by cases c <;> decide
  have hoperands : Yields (Derives ops (.operands c) · es)
      ([Slot.keyword c.word].intercalate (es.map (Expr.rendering true))) := by
    refine .intercalate (L := fun es ws => Derives ops (.operands c) ws es) hne
      (Slot.admits_keyword hword) h (fun e ws he => .single (derives_operand c he)) ?_
    intro e es us w ws he hw hes
    exact .joined (derives_operand c he) hw hes
  exact hoperands.imp fun _ hes => derives_junction (.join hes)

lemma join_of_length {es : List Expr} (h : 2 ≤ es.length) :
    Parser.Connective.and.join es = .all es ∧ Parser.Connective.or.join es = .any es := by
  match es, h with
  | _ :: _ :: _, _ => exact ⟨rfl, rfl⟩

/-- The arguments of a call, up to its closing parenthesis. -/
lemma yields_arguments {es : List Expr}
    (h : ∀ e ∈ es, Yields (Derives ops .primary · [e]) (e.rendering true)) :
    Yields (Derives ops .arguments · es)
      (Slot.commas (es.map (Expr.rendering true)) ++ [.mark ")"]) := by
  have hclose := Slot.admits_mark ')' (by simp)
  have hcomma := Slot.admits_mark ',' (by simp)
  rcases eq_or_ne es [] with rfl | hne
  · exact .single hclose fun w hw => hw ▸ .noArguments
  · have harguments : Yields (fun ws => Derives ops .moreArguments (ws ++ [mark ")"]) es)
        (Slot.commas (es.map (Expr.rendering true))) := by
      refine .intercalate (L := fun es ws => Derives ops .moreArguments (ws ++ [mark ")"]) es) hne
        hcomma h (fun e ws he => .lastArgument (derives_of_primary he)) ?_
      rintro e es us _ ws he rfl hes
      rw [List.append_assoc, List.cons_append]
      exact .argument (derives_of_primary he) hes
    exact harguments.concat hclose fun ws w hws hw => .someArguments (hw ▸ hws)

/-- **Expressions**: what fills the slots of an expression derives it. -/
theorem Expr.Writable.yields {e : Expr} (he : e.Writable ops) (parens : Bool) :
    Yields (Derives ops (wholeCategory parens) · [e]) (e.rendering parens) := by
  induction he generalizing parens with
  | @field path h hkey =>
    exact .single (Slot.admits_word h.lexes) fun w hw =>
      hw ▸ derives_whole (.field (keyword?_eq_none hkey))
  | literal h => exact h.yields.imp fun ws hws => derives_whole (derives_literal hws)
  | @param s h =>
    have hparam : Derives ops .primary [⟨.param, "@" ++ s⟩]
        [.param (.text (String.ofList (("@" ++ s).toList.drop 1)))] := .param
    have hname : String.ofList (("@" ++ s).toList.drop 1) = s := by simp [String.toList_append]
    rw [hname] at hparam
    exact .single (Slot.admits_word (lexes_param h)) fun w hw => hw ▸ derives_whole hparam
  | @compare op e f he hf ihe ihf =>
    refine yields_parenthesized ?_
    refine (ihe true).between (Slot.admits_word (lexes_symbol op)) (ihf true) ?_
    rintro us _ vs hus rfl hvs
    exact derives_of_comparison (.compare hus (comparator?_symbol op) hvs)
  | @all es hlength h ih =>
    refine yields_parenthesized ?_
    have hne : es ≠ [] := List.ne_nil_of_length_pos (by omega)
    rw [Expr.renderings_eq, ← (join_of_length hlength).1]
    exact yields_junction .and hne fun e he => ih e he true
  | @any es hlength h ih =>
    refine yields_parenthesized ?_
    have hne : es ≠ [] := List.ne_nil_of_length_pos (by omega)
    rw [Expr.renderings_eq, ← (join_of_length hlength).2]
    exact yields_junction .or hne fun e he => ih e he true
  | @not e h ih =>
    refine yields_parenthesized ?_
    refine .cons (Slot.admits_keyword (by decide)) (ih true) fun w ws hw hws => ?_
    have hnot : Derives ops .negation (w :: ws) [.not e] := .not hw (.positive (.alone hws))
    exact derives_junction (.join (.single (c := .and) hnot))
  | @call op es h hkey hes hop ih =>
    rw [Expr.rendering, Expr.renderings_eq]
    refine .cons (Slot.admits_word h.lexes)
      (Q := fun ws => ∃ vs, ws = mark "(" :: vs ∧ Derives ops .arguments vs es) ?_ ?_
    · refine .cons (Slot.admits_mark '(' (by simp)) (yields_arguments fun e he => ih e he true) ?_
      rintro _ ws rfl hws
      exact ⟨ws, rfl, hws⟩
    · rintro _ _ rfl ⟨ws, rfl, hws⟩
      exact derives_whole (.call (keyword?_eq_none hkey) hws (resolve_eq_ok.mpr hop))

/-! ### Texts -/

lemma fills_given (slots : List Slot) : Fills slots (slots.map Slot.given) := by
  induction slots with
  | nil => exact .nil
  | cons slot slots ih => exact .cons slot.holds_given ih

/-- The words as given, with a blank behind each, are a text that the expression is written as. -/
lemma exists_writtenBy (e : Expr) (parens : Bool) : ∃ s, e.WrittenBy parens s := by
  let pieces := (e.rendering parens).map fun slot => (slot.given, [' '])
  have hspaced : Spaced (pieces.map (·.1)) (pieces.flatMap fun p => p.1.text.toList ++ p.2) := by
    refine spaced_of_gaps fun p hp => ?_
    obtain ⟨slot, -, rfl⟩ := List.mem_map.mp hp
    exact ⟨by simp, rfl⟩
  have hwords : pieces.map (·.1) = (e.rendering parens).map Slot.given := by
    rw [List.map_map]
    rfl
  rw [hwords] at hspaced
  exact ⟨String.ofList _, _, fills_given _, by rwa [String.toList_ofList]⟩

/-- **Written and read**: an expression can be written, and however it is written, with whatever
blanks between the words and keywords in whatever case, it is read back. -/
theorem Expr.parse_of_writtenBy {e : Expr} (he : e.Writable ops) (parens : Bool) :
    (∃ s, e.WrittenBy parens s) ∧ ∀ s, e.WrittenBy parens s → Expr.parse ops s = .ok e := by
  refine ⟨exists_writtenBy e parens, ?_⟩
  rintro s ⟨ws, hfills, hspaced⟩
  obtain ⟨halone, hderives⟩ := he.yields parens ws hfills
  have hlexes : Lexes s.toList ws := hspaced.lexes halone
  have hwhole : Derives ops (.junction .or) ws [e] := by
    cases parens with
    | true => exact derives_of_primary hderives
    | false => exact hderives
  exact Parser.parse_eq_ok.mpr ⟨ws, hlexes, hwhole⟩

/-- A condition with a part of every kind. -/
def mixedExpr : Expr :=
  .all
    [.compare (.order .le)
      (.call (.distance true (.int 3))
        [.field "meta.0.e", .literal (.list [.int (-12), .list [], .null]), .literal (.text "l'2")]
        none)
      (.param (.text "max_d")),
    .not (.any [.compare (.equal true) (.field "a") (.literal (.bool true)), .field "order_"])]

lemma writable_mixedExpr : mixedExpr.Writable .standard := by
  have hidentifier {c : Char} {r : List Char} (hc : Lexeme.isNameStart c)
      (hr : r.all Lexeme.isNameChar) : IsIdentifier (c :: r) :=
    ⟨c, r, rfl, hc, List.all_eq_true.mp hr⟩
  have hname {s : String} (hs : IsIdentifier s.toList) : NameShaped s :=
    ⟨s.toList, [], by simp, hs, .nil⟩
  have hmeta : NameShaped "meta.0.e" :=
    ⟨['m', 'e', 't', 'a'], '.' :: (['0'] ++ '.' :: (['e'] ++ [])), rfl, hidentifier rfl rfl,
      .digits (by simp) (by simp; rfl) (.identifier (hidentifier rfl rfl) .nil)⟩
  have hfind : Operators.standard.find? ⟨upper distanceName, .int 3⟩ =
      some (.distance true (.int 3)) := by
    simp [Operators.find?, Operators.entries_standard, Operators.upper_distanceName,
      Operators.same_distance]
  have harray : Value.Writable (.list [.int (-12), .list [], .null]) := by
    refine .list ?_
    simp only [List.forall_mem_cons]
    exact ⟨.int (by decide), .list (by simp), .null, by simp⟩
  have hcall : Expr.Writable .standard (.call (.distance true (.int 3))
      [.field "meta.0.e", .literal (.list [.int (-12), .list [], .null]),
        .literal (.text "l'2")] none) := by
    refine .call (hname (hidentifier rfl rfl)) (by decide +kernel) ?_ hfind
    simp only [List.forall_mem_cons]
    exact ⟨.field hmeta (by decide +kernel), .literal harray, .literal (.text _), by simp⟩
  have hany : Expr.Writable .standard
      (.any [.compare (.equal true) (.field "a") (.literal (.bool true)), .field "order_"]) := by
    refine .any (by decide) ?_
    simp only [List.forall_mem_cons]
    exact ⟨.compare (.field (hname (hidentifier rfl rfl)) (by decide +kernel))
        (.literal (.bool true)),
      .field (hname (hidentifier rfl rfl)) (by decide +kernel), by simp⟩
  refine .all (by decide) ?_
  simp only [List.forall_mem_cons]
  exact ⟨.compare hcall (.param (hidentifier rfl rfl)), .not hany, by simp⟩

/-- Words that it is written with, and the blanks behind each. -/
def mixedPieces : List (Word × List Char) :=
  [(⟨.punct, "("⟩, [' ']), (⟨.punct, "("⟩, [' ']), (⟨.name, "VECTOR_DISTANCE"⟩, [' ']),
    (⟨.punct, "("⟩, [' ']), (⟨.name, "meta.0.e"⟩, [' ']), (⟨.punct, ","⟩, [' ']),
    (⟨.punct, "["⟩, [' ']), (⟨.number, "-12"⟩, [' ']), (⟨.punct, ","⟩, [' ']),
    (⟨.punct, "["⟩, [' ']), (⟨.punct, "]"⟩, [' ']), (⟨.punct, ","⟩, [' ']),
    (⟨.name, "nUlL"⟩, [' ']), (⟨.punct, "]"⟩, [' ']), (⟨.punct, ","⟩, [' ']),
    (⟨.text, "'l''2'"⟩, [' ']), (⟨.punct, ")"⟩, [' ']), (⟨.op, "<="⟩, [' ', ' ']),
    (⟨.param, "@max_d"⟩, ['\t']), (⟨.punct, ")"⟩, [' ']), (⟨.name, "and"⟩, ['\n']),
    (⟨.punct, "("⟩, [' ']), (⟨.name, "Not"⟩, [' ']), (⟨.punct, "("⟩, [' ']),
    (⟨.punct, "("⟩, [' ']), (⟨.name, "a"⟩, [' ']), (⟨.op, "=="⟩, [' ']),
    (⟨.name, "True"⟩, [' ']), (⟨.punct, ")"⟩, [' ']), (⟨.name, "oR"⟩, [' ']),
    (⟨.name, "order_"⟩, [' ']), (⟨.punct, ")"⟩, [' ']), (⟨.punct, ")"⟩, [' ']),
    (⟨.punct, ")"⟩, [' '])]

def mixedText : String :=
  "( ( VECTOR_DISTANCE ( meta.0.e , [ -12 , [ ] , nUlL ] , 'l''2' ) <=  @max_d\t) and\n" ++
    "( Not ( ( a == True ) oR order_ ) ) ) "

theorem parse_mixedText :
    mixedExpr.Writable .standard ∧ mixedExpr.WrittenBy true mixedText ∧
      Expr.parse .standard mixedText = .ok mixedExpr := by
  have hfills : Fills (mixedExpr.rendering true) (mixedPieces.map (·.1)) := by
    unfold Fills
    decide
  have htext : mixedText.toList = mixedPieces.flatMap fun p => p.1.text.toList ++ p.2 := by
    decide +kernel
  have hspaced : Spaced (mixedPieces.map (·.1)) mixedText.toList :=
    htext ▸ spaced_of_gaps (by decide)
  have hwritten : mixedExpr.WrittenBy true mixedText := ⟨_, hfills, hspaced⟩
  exact ⟨writable_mixedExpr, hwritten,
    (Expr.parse_of_writtenBy writable_mixedExpr true).2 mixedText hwritten⟩

end NearDoc
