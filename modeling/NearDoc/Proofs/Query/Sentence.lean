import NearDoc.Proofs.Query.Naming
import NearDoc.Proofs.Query.Constant
import NearDoc.Proofs.Query.Statement
import NearDoc.Query.Builder

/-!
One query said in two ways: as the calls of a builder and as a sentence. Each clause is given by its
text. The calls build the plan that the sentence is read as: a clause has the same words inside the
sentence as alone, and its place there ends where its text does.
-/

namespace NearDoc

open Grammar

/-- What a query asks for, each clause as its text. Without fields and computed columns, which have
names, it asks for whole documents. -/
structure Draft where
  collection : String
  conditions : List String := []
  order : List (String × Bool) := []
  limit : Option Int := none
  fields : List String := []
  computed : List (String × String) := []

namespace Draft

variable (d : Draft)

/-! ### The two ways -/

def showsAll : Bool := d.fields.isEmpty && d.computed.isEmpty

/-- The calls that ask for it, clause by clause. -/
def calls : List BuilderCall :=
  d.conditions.map (fun s => .filter (.value (.text s))) ++
    (d.order.map (fun k => .orderBy (.value (.text k.1)) (.bool k.2)) ++
      (d.limit.toList.map (fun n => .limit (.int n)) ++
        if d.showsAll then []
        else [.select (d.fields.map .text) (d.computed.map fun c => (c.1, .value (.text c.2)))]))

def selection : String :=
  if d.showsAll then "*"
  else ", ".intercalate (d.fields ++ d.computed.map fun c => "(" ++ c.2 ++ ") AS " ++ c.1)

def condition : String :=
  if d.conditions = [] then ""
  else " WHERE " ++ " AND ".intercalate (d.conditions.map fun s => "(" ++ s ++ ")")

def ordering : String :=
  if d.order = [] then ""
  else " ORDER BY " ++ ", ".intercalate (d.order.map fun k => k.1 ++ if k.2 then " DESC" else "")

def cut : String := d.limit.elim "" fun n => " LIMIT " ++ String.ofList (Number.writeInt n)

/-- The sentence that asks for it. -/
def sentence : String :=
  "SELECT " ++ d.selection ++ " FROM " ++ d.collection ++ d.condition ++ d.ordering ++ d.cut

/-! ### The plan -/

/-- The expression that a text writes. -/
def exprOf (ops : Operators) (s : String) : Expr := (Expr.parse ops s).toOption.getD default

/-- The plan of the query. Conditions are joined if there are several. -/
def plan (ops : Operators) : Plan where
  collection := .text d.collection
  predicate :=
    if d.conditions = [] then none
    else some (Parser.Connective.and.join (d.conditions.map (exprOf ops)))
  order := d.order.map fun k => ⟨exprOf ops k.1, .bool k.2⟩
  limit := d.limit.elim .null .int
  columns :=
    if d.showsAll then none
    else some (d.fields.map (fun f => ⟨.field f, .null⟩) ++
      d.computed.map fun c => ⟨exprOf ops c.2, .text c.1⟩)

/-- Names are names, and clauses are read as expressions. -/
structure Sayable (ops : Operators) : Prop where
  collection : IsName d.collection
  conditions : ∀ s ∈ d.conditions, ∃ e, Expr.parse ops s = .ok e
  order : ∀ k ∈ d.order, ∃ e, Expr.parse ops k.1 = .ok e
  fields : ∀ f ∈ d.fields, IsName f
  computed : ∀ c ∈ d.computed, IsName c.1 ∧ ∃ e, Expr.parse ops c.2 = .ok e

/-- The limit has no more digits than are read, and no computed column is named as the builder
itself. -/
structure Admissible (ops : Operators) : Prop extends d.Sayable ops where
  limit : ∀ n ∈ d.limit, (Text.digitsOf n.natAbs).length ≤ Number.longestInteger
  notOwn : ∀ c ∈ d.computed, c.1 ≠ Builder.ownName

variable {d} {ops : Operators}

/-! ### The calls -/

lemma resolve_eq {s : String} (h : ∃ e, Expr.parse ops s = .ok e) :
    Clause.resolve ops (.value (.text s)) = .ok (exprOf ops s) := by
  obtain ⟨e, he⟩ := h
  simp [Clause.resolve, exprOf, he, Except.toOption]

lemma foldlM_filter (env : Environment) {l : List String}
    (h : ∀ s ∈ l, ∃ e, Expr.parse ops s = .ok e) {b : Builder} (hb : b.operators = ops) :
    (l.map fun s => BuilderCall.filter (.value (.text s))).foldlM (Builder.call env) b =
      .ok { b with conditions := b.conditions ++ l.map (exprOf ops) } := by
  induction l generalizing b with
  | nil => simp [pure, Except.pure]
  | cons s l ih =>
    rw [List.forall_mem_cons] at h
    have hcall : Builder.call env b (.filter (.value (.text s))) =
        .ok { b with conditions := b.conditions ++ [exprOf ops s] } := by
      simp [Builder.call, Builder.filter, hb, resolve_eq h.1, Bind.bind, Except.bind, pure,
        Except.pure]
    rw [List.map_cons, List.foldlM_cons, hcall]
    simp [Bind.bind, Except.bind, ih h.2, hb]

lemma foldlM_orderBy (env : Environment) {l : List (String × Bool)}
    (h : ∀ k ∈ l, ∃ e, Expr.parse ops k.1 = .ok e) {b : Builder} (hb : b.operators = ops)
    (hn : b.nearest = false) :
    (l.map fun k => BuilderCall.orderBy (.value (.text k.1)) (.bool k.2)).foldlM
        (Builder.call env) b =
      .ok { b with order := b.order ++ l.map fun k => ⟨exprOf ops k.1, .bool k.2⟩ } := by
  induction l generalizing b with
  | nil => simp [pure, Except.pure]
  | cons k l ih =>
    rw [List.forall_mem_cons] at h
    have hcall : Builder.call env b (.orderBy (.value (.text k.1)) (.bool k.2)) =
        .ok { b with order := b.order ++ [⟨exprOf ops k.1, .bool k.2⟩] } := by
      simp [Builder.call, Builder.orderBy, hb, hn, resolve_eq h.1, Bind.bind, Except.bind, pure,
        Except.pure]
    rw [List.map_cons, List.foldlM_cons, hcall]
    simp [Bind.bind, Except.bind, ih h.2, hb, hn]

lemma select_eq (env : Environment) (h : d.Admissible ops) {b : Builder} (hb : b.operators = ops) :
    Builder.call env b (.select (d.fields.map .text)
        (d.computed.map fun c => (c.1, .value (.text c.2)))) =
      .ok { b with columns := some (d.fields.map (fun f => ⟨.field f, .null⟩) ++
        d.computed.map fun c => ⟨exprOf ops c.2, .text c.1⟩) } := by
  have hown : (d.computed.map fun c => (c.1, Clause.value (.text c.2))).any
      (·.1 = Builder.ownName) = false := by
    simp only [List.any_map, List.any_eq_false, Function.comp_apply, decide_eq_true_eq]
    exact h.notOwn
  have hplain : (d.fields.map Value.text).mapM
      (fun f => return ({ expr := ← Expr.field? f } : Column)) =
        .ok (d.fields.map fun f => ⟨.field f, .null⟩) := by
    rw [List.mapM_map]
    exact mapM_eq_ok fun f hf => by
      simp [(h.fields f hf).field?, Bind.bind, Except.bind, pure, Except.pure]
  have hnamed : (d.computed.map fun c => (c.1, Clause.value (.text c.2))).mapM
      (fun c => return (⟨← c.2.resolve b.operators, .text c.1⟩ : Column)) =
        .ok (d.computed.map fun c => ⟨exprOf ops c.2, .text c.1⟩) := by
    rw [List.mapM_map]
    exact mapM_eq_ok fun c hc => by
      simp [hb, resolve_eq (h.computed c hc).2, Bind.bind, Except.bind, pure, Except.pure]
  simp only [Builder.call, Builder.select, hown, Bool.false_eq_true, if_false]
  rw [hplain]
  rw [hnamed]
  rfl

/-- The calls all succeed and build the plan. -/
lemma build_calls (env : Environment) (h : d.Admissible ops) :
    ∃ b, d.calls.foldlM (Builder.call env)
        { operators := ops, collection := .text d.collection } = .ok b ∧ b.build = d.plan ops := by
  have hlimit (b : Builder) (hn : b.nearest = false) (hl : b.limit = none) :
      (d.limit.toList.map fun n => BuilderCall.limit (.int n)).foldlM (Builder.call env) b =
        .ok { b with limit := d.limit } := by
    rcases d.limit with _ | n
    · cases b
      simp_all [pure, Except.pure]
    · simp [Builder.call, Builder.limitTo, hn, pure, Except.pure, Bind.bind, Except.bind]
  have hselect (b : Builder) (hb : b.operators = ops) (hc : b.columns = none) :
      (if d.showsAll then [] else [BuilderCall.select (d.fields.map .text)
        (d.computed.map fun c => (c.1, .value (.text c.2)))]).foldlM (Builder.call env) b =
          .ok { b with columns := (d.plan ops).columns } := by
    rcases hs : d.showsAll with _ | _
    · simp [select_eq env h hb, plan, hs]
    · simp [plan, hs, hc.symm, pure, Except.pure]
  refine ⟨{ operators := ops, collection := .text d.collection,
            conditions := d.conditions.map (exprOf ops),
            order := d.order.map fun k => ⟨exprOf ops k.1, .bool k.2⟩, limit := d.limit,
            columns := (d.plan ops).columns }, ?_, ?_⟩
  · rw [calls, List.foldlM_append, foldlM_filter env h.conditions rfl]
    simp only [Bind.bind, Except.bind]
    rw [List.foldlM_append, foldlM_orderBy env h.order rfl rfl]
    simp only [Bind.bind, Except.bind]
    rw [List.foldlM_append, hlimit _ rfl rfl]
    simp only [Bind.bind, Except.bind]
    rw [hselect _ rfl rfl]
    rfl
  · have hpredicate (b : Builder) (hb : b.conditions = d.conditions.map (exprOf ops)) :
        b.predicate = (d.plan ops).predicate := by
      simp only [Builder.predicate, plan, hb]
      rcases d.conditions with _ | ⟨s, _ | ⟨s', l⟩⟩ <;> rfl
    simp only [Builder.build]
    rw [hpredicate _ rfl]
    rfl

/-! ### The sentence -/

/-- The words of a text. -/
def wordsOf (s : String) : List Word :=
  ((Token.tokens s).toOption.getD []).map Token.word

lemma wordsOf_spec {s : String} (h : ∃ e, Expr.parse ops s = .ok e) :
    Lexes s.toList (wordsOf s) ∧ Derives ops (.junction .or) (wordsOf s) [exprOf ops s] := by
  obtain ⟨e, he⟩ := h
  obtain ⟨ws, hws, hd⟩ := Parser.parse_eq_ok.mp he
  obtain ⟨ts, hts, rfl⟩ := hws.exists_tokens
  have hwords : wordsOf s = ts.map Token.word := by simp [wordsOf, hts, Except.toOption]
  have hexpr : exprOf ops s = e := by simp [exprOf, he, Except.toOption]
  rw [hwords, hexpr]
  exact ⟨hws, hd⟩

/-- A part of the sentence: its text, its words and what it says. -/
structure Piece (α : Type) where
  text : String
  words : List Word
  meaning : α

namespace Piece

variable {α : Type}

lemma separated {part : List Word → α → Prop} {l : List (Piece α)} (hl : l ≠ [])
    (h : ∀ p ∈ l, part p.words p.meaning) :
    Separated part ([mark ","].intercalate (l.map words)) (l.map meaning) := by
  induction l with
  | nil => exact absurd rfl hl
  | cons p l ih =>
    rw [List.forall_mem_cons] at h
    cases l with
    | nil => simpa using Separated.one h.1
    | cons q l =>
      simp only [List.map_cons, List.intercalate_cons_cons, List.append_assoc] at ih ⊢
      exact .more h.1 (ih (by simp) h.2)

lemma conjunction {l : List (Piece Expr)} (hl : l ≠ [])
    (h : ∀ p ∈ l, Derives ops .negation p.words [p.meaning]) :
    Derives ops (.operands .and) ([wordOf "AND"].intercalate (l.map words)) (l.map meaning) := by
  induction l with
  | nil => exact absurd rfl hl
  | cons p l ih =>
    rw [List.forall_mem_cons] at h
    cases l with
    | nil => simpa using Derives.single (c := .and) h.1
    | cons q l =>
      simp only [List.map_cons, List.intercalate_cons_cons, List.append_assoc] at ih ⊢
      exact .joined (c := .and) h.1 (by decide) (ih (by simp) h.2)

end Piece

lemma enclosed_spec {s : String} (h : ∃ e, Expr.parse ops s = .ok e) :
    Lexes ('(' :: (s.toList ++ [')'])) (mark "(" :: (wordsOf s ++ [mark ")"])) ∧
      Derives ops .primary (mark "(" :: (wordsOf s ++ [mark ")"])) [exprOf ops s] :=
  ⟨(wordsOf_spec h).1.enclosed, .enclosed (wordsOf_spec h).2⟩

lemma cut_spec (h : d.Admissible ops) :
    ∃ ws, Appends d.cut.toList ws ∧ DerivesLimit ws (d.plan ops).limit := by
  unfold cut plan
  rcases hl : d.limit with _ | n
  · exact ⟨[], .nil, .none⟩
  · have hn : Parser.integer? (Number.writeInt n) = some (.ok n) := by
      rw [Parser.integer?_writeInt, if_neg (Nat.not_lt_of_le (h.limit n (by simp [hl])))]
    refine ⟨[wordOf "LIMIT", ⟨.number, String.ofList (Number.writeInt n)⟩], ?_,
      .some (by decide) (by rwa [String.toList_ofList])⟩
    have happ := (Appends.blank (lexes_keyword "LIMIT" (by decide))).append
      (.blank (lexes_writeInt n))
    simpa using happ

def keyPiece (ops : Operators) (k : String × Bool) : Piece SortKey where
  text := k.1 ++ if k.2 then " DESC" else ""
  words := wordsOf k.1 ++ if k.2 then [wordOf "DESC"] else []
  meaning := ⟨exprOf ops k.1, .bool k.2⟩

lemma keyPiece_spec {k : String × Bool} (h : ∃ e, Expr.parse ops k.1 = .ok e) :
    Lexes (keyPiece ops k).text.toList (keyPiece ops k).words ∧
      DerivesKey ops (keyPiece ops k).words (keyPiece ops k).meaning := by
  obtain ⟨hlexes, hderives⟩ := wordsOf_spec h
  rcases k with ⟨s, _ | _⟩
  · simpa [keyPiece] using ⟨hlexes, .plain hderives⟩
  · refine ⟨?_, .descending hderives (by decide)⟩
    have := Appends.blank (lexes_keyword "DESC" (by decide)) _ _ hlexes
    simpa [keyPiece, String.toList_append] using this

lemma ordering_spec (h : d.Sayable ops) :
    ∃ ws, Appends d.ordering.toList ws ∧ DerivesOrdering ops ws (d.plan ops).order := by
  unfold ordering plan
  split
  · rename_i hnil
    rw [hnil]
    exact ⟨[], .nil, .none⟩
  · rename_i hne
    have hspec := fun k hk => keyPiece_spec (h.order k hk)
    have hlexes : Lexes ([',', ' '].intercalate (d.order.map fun k => (keyPiece ops k).text.toList))
        ([mark ","].intercalate (d.order.map fun k => (keyPiece ops k).words)) :=
      .intercalate (fun v vs hv => Appends.comma hv) fun k hk => (hspec k hk).1
    have hderives : Separated (DerivesKey ops) _ _ :=
      Piece.separated (l := d.order.map (keyPiece ops)) (by simpa using hne)
        (List.forall_mem_map.mpr fun k hk => (hspec k hk).2)
    simp only [List.map_map, Function.comp_def] at hderives
    refine ⟨wordOf "ORDER" :: wordOf "BY" :: _, ?_, .some (by decide) (by decide) hderives⟩
    have happ := (Appends.blank (lexes_keyword "ORDER" (by decide))).append
      ((Appends.blank (lexes_keyword "BY" (by decide))).append (.blank hlexes))
    simpa [String.toList_append, String.toList_intercalate, Function.comp_def, keyPiece] using happ

def conditionPiece (ops : Operators) (s : String) : Piece Expr where
  text := "(" ++ s ++ ")"
  words := mark "(" :: (wordsOf s ++ [mark ")"])
  meaning := exprOf ops s

lemma conditionPiece_spec {s : String} (h : ∃ e, Expr.parse ops s = .ok e) :
    Lexes (conditionPiece ops s).text.toList (conditionPiece ops s).words ∧
      Derives ops .primary (conditionPiece ops s).words [(conditionPiece ops s).meaning] := by
  obtain ⟨hlexes, hderives⟩ := enclosed_spec h
  exact ⟨by simpa [conditionPiece, String.toList_append] using hlexes, hderives⟩

lemma condition_spec (h : d.Sayable ops) :
    ∃ ws, Appends d.condition.toList ws ∧ DerivesCondition ops ws (d.plan ops).predicate := by
  unfold condition plan
  split
  · exact ⟨[], .nil, .none⟩
  · rename_i hne
    have hspec := fun s hs => conditionPiece_spec (h.conditions s hs)
    have hand (v : List Char) (vs : List Word) (hv : Lexes v vs) :
        Appends (" AND ".toList ++ v) ([wordOf "AND"] ++ vs) :=
      (Appends.blank (lexes_keyword "AND" (by decide))).append (.blank hv)
    have hlexes : Lexes (" AND ".toList.intercalate
          (d.conditions.map fun s => (conditionPiece ops s).text.toList))
        ([wordOf "AND"].intercalate (d.conditions.map fun s => (conditionPiece ops s).words)) :=
      .intercalate hand fun s hs => (hspec s hs).1
    have hderives := Piece.conjunction (l := d.conditions.map (conditionPiece ops))
      (by simpa using hne)
      (List.forall_mem_map.mpr fun s hs => .positive (.alone (hspec s hs).2))
    simp only [List.map_map, Function.comp_def] at hderives
    refine ⟨wordOf "WHERE" :: _, ?_,
      .some (by decide) (.join (c := .or) (.single (c := .or) (.join (c := .and) hderives)))⟩
    have happ := (Appends.blank (lexes_keyword "WHERE" (by decide))).append (.blank hlexes)
    simpa [String.toList_append, String.toList_intercalate, Function.comp_def, conditionPiece]
      using happ

def fieldPiece (f : String) : Piece Column where
  text := f
  words := [wordOf f]
  meaning := ⟨.field f, .null⟩

def computedPiece (ops : Operators) (c : String × String) : Piece Column where
  text := "(" ++ c.2 ++ ") AS " ++ c.1
  words := mark "(" :: (wordsOf c.2 ++ [mark ")"]) ++ [wordOf "AS", wordOf c.1]
  meaning := ⟨exprOf ops c.2, .text c.1⟩

/-- Fields, then computed columns. -/
def items (ops : Operators) (d : Draft) : List (Piece Column) :=
  d.fields.map fieldPiece ++ d.computed.map (computedPiece ops)

lemma items_spec (h : d.Sayable ops) :
    ∀ p ∈ d.items ops, Lexes p.text.toList p.words ∧ DerivesItem ops p.words p.meaning := by
  intro p hp
  rcases List.mem_append.mp hp with hp | hp
  · obtain ⟨f, hf, rfl⟩ := List.mem_map.mp hp
    have hname := h.fields f hf
    exact ⟨hname.lexes, .plain (derives_of_primary (.field hname.keyword?))⟩
  · obtain ⟨c, hc, rfl⟩ := List.mem_map.mp hp
    obtain ⟨hname, hexpr⟩ := h.computed c hc
    obtain ⟨hlexes, hderives⟩ := enclosed_spec hexpr
    refine ⟨?_, .named (derives_of_primary hderives) (by decide) hname.keyword?⟩
    have happ := (Appends.blank (lexes_keyword "AS" (by decide))).append (.blank hname.lexes)
    simpa [computedPiece, String.toList_append] using happ _ _ hlexes

lemma selection_spec (h : d.Sayable ops) :
    ∃ ws, Lexes d.selection.toList ws ∧ DerivesSelection ops ws (d.plan ops).columns := by
  unfold selection plan
  rcases hs : d.showsAll with _ | _
  · have hne : d.items ops ≠ [] := by
      simp only [showsAll, Bool.and_eq_false_iff, List.isEmpty_eq_false_iff] at hs
      simp only [items, ne_eq, List.append_eq_nil_iff, List.map_eq_nil_iff]
      tauto
    have hspec := items_spec h
    have hlexes : Lexes ([',', ' '].intercalate ((d.items ops).map fun p => p.text.toList))
        ([mark ","].intercalate ((d.items ops).map fun p => p.words)) :=
      .intercalate (fun v vs hv => Appends.comma hv) fun p hp => (hspec p hp).1
    have hderives : Separated (DerivesItem ops) _ _ :=
      Piece.separated hne fun p hp => (hspec p hp).2
    have hmeaning : (d.items ops).map Piece.meaning =
        d.fields.map (fun f => ⟨.field f, .null⟩) ++
          d.computed.map fun c => ⟨exprOf ops c.2, .text c.1⟩ := by
      simp [items, Function.comp_def, fieldPiece, computedPiece]
    rw [hmeaning] at hderives
    refine ⟨_, ?_, .items hderives⟩
    simpa [String.toList_append, String.toList_intercalate, Function.comp_def, items, fieldPiece,
      computedPiece] using hlexes
  · have hstar : Lexes ['*'] [mark "*"] := .punct (by simp) .nil
    simpa using ⟨_, hstar, .star⟩

/-- The sentence up to its limit. -/
lemma front_spec (h : d.Sayable ops) : ∃ ws front, d.sentence.toList = front ++ d.cut.toList ∧
    Lexes front ws ∧ DerivesFront ops ws (d.plan ops) := by
  obtain ⟨sel, hsel, hsel'⟩ := selection_spec h
  obtain ⟨cond, hcond, hcond'⟩ := condition_spec h
  obtain ⟨ord, hord, hord'⟩ := ordering_spec h
  have hfrom := Appends.blank (lexes_keyword "FROM" (by decide))
  have happ := (Appends.blank hsel).append (hfrom.append
    ((Appends.blank h.collection.lexes).append (hcond.append hord)))
  refine ⟨wordOf "SELECT" :: (sel ++ wordOf "FROM" :: wordOf d.collection :: (cond ++ ord)), _, ?_,
    happ _ _ (lexes_keyword "SELECT" (by decide)),
    .front (by decide) hsel' (by decide) h.collection.keyword? rfl hcond' hord'⟩
  simp [sentence, String.toList_append]

/-- The sentence is read as the plan. -/
lemma parse_sentence (h : d.Admissible ops) : Plan.parse ops d.sentence = .ok (d.plan ops) := by
  obtain ⟨ws, front, htext, hfront, hfront'⟩ := front_spec h.toSayable
  obtain ⟨lim, hlim, hlim'⟩ := cut_spec h
  have hlexes := hlim _ _ hfront
  rw [← htext] at hlexes
  exact Parser.parse_of_derives hlexes (.query hfront' hlim')

/-- **Two ways, one plan**: the calls of a query succeed, and the sentence is read as the plan that
they build. -/
theorem parse_sentence_eq_build (env : Environment) (h : d.Admissible ops) :
    ∃ b, d.calls.foldlM (Builder.call env)
        { operators := ops, collection := .text d.collection } = .ok b ∧
      b.build = d.plan ops ∧ Plan.parse ops d.sentence = .ok b.build := by
  obtain ⟨b, hb, hbuild⟩ := build_calls env h
  exact ⟨b, hb, hbuild, by rw [parse_sentence h, hbuild]⟩

/-- Quotes, keywords inside clauses and blanks around them. -/
def quotedClauses : Draft where
  collection := "docs"
  conditions := ["lang = 'it''s AND'", " size >= 2 OR NOT seen "]
  order := [("size", true), ("name ", false)]
  limit := some (-3)
  fields := ["name", "tags.0"]
  computed := [("big", "size > 9 AND seen")]

lemma admissible_quotedClauses : quotedClauses.Admissible .standard where
  collection := ⟨rfl, rfl⟩
  conditions := by
    simp only [quotedClauses, List.forall_mem_cons]
    exact ⟨exists_of_isOk (by decide +kernel), exists_of_isOk (by decide +kernel), by simp⟩
  order := by
    simp only [quotedClauses, List.forall_mem_cons]
    exact ⟨exists_of_isOk (by decide +kernel), exists_of_isOk (by decide +kernel), by simp⟩
  fields := by
    simp only [quotedClauses, List.forall_mem_cons]
    exact ⟨⟨rfl, rfl⟩, ⟨rfl, rfl⟩, by simp⟩
  computed := by
    simp only [quotedClauses, List.forall_mem_cons]
    exact ⟨⟨⟨rfl, rfl⟩, exists_of_isOk (by decide +kernel)⟩, by simp⟩
  limit := by simp [quotedClauses, Text.digitsOf_of_lt, Number.longestInteger]
  notOwn := by decide

/-- The sentence of the clauses above. -/
def quotedSentence : String :=
  "SELECT name, tags.0, (size > 9 AND seen) AS big FROM docs" ++
    " WHERE (lang = 'it''s AND') AND ( size >= 2 OR NOT seen )" ++
    " ORDER BY size DESC, name  LIMIT -3"

lemma sentence_quotedClauses : quotedClauses.sentence = quotedSentence := by decide +kernel

theorem parse_quotedSentence :
    quotedClauses.Admissible .standard ∧
      ∃ b, quotedClauses.calls.foldlM (Builder.call {})
          { operators := .standard, collection := .text "docs" } = .ok b ∧
        Plan.parse .standard quotedSentence = .ok b.build := by
  refine ⟨admissible_quotedClauses, ?_⟩
  obtain ⟨b, hb, -, hparse⟩ := parse_sentence_eq_build {} admissible_quotedClauses
  exact ⟨b, hb, sentence_quotedClauses ▸ hparse⟩

/-! ### Where the ways part -/

/-- The words of a sentence with a limit, whose numeral may be of any length. -/
lemma lexes_of_limit (h : d.Sayable ops) {n : Int} (hl : d.limit = some n) :
    ∃ ws, DerivesFront ops ws (d.plan ops) ∧ Lexes d.sentence.toList
      (ws ++ [wordOf "LIMIT", ⟨.number, String.ofList (Number.writeInt n)⟩]) := by
  obtain ⟨ws, front, htext, hfront, hfront'⟩ := front_spec h
  have hcut := (Appends.blank (lexes_keyword "LIMIT" (by decide))).append
    (.blank (lexes_writeInt n)) _ _ hfront
  refine ⟨ws, hfront', ?_⟩
  rw [htext, cut, hl]
  simpa [String.toList_append] using hcut

/-- A sentence whose limit has more digits than are read is refused. -/
lemma parse_sentence_of_long (h : d.Sayable ops) {n : Int} (hl : d.limit = some n)
    (hn : Number.longestInteger < (Text.digitsOf n.natAbs).length) :
    Plan.parse ops d.sentence = .error (.tooManyDigits (Text.digitsOf n.natAbs).length) := by
  obtain ⟨ws, hfront', hlexes⟩ := lexes_of_limit h hl
  obtain ⟨ts, hts, hwords⟩ := hlexes.exists_tokens
  obtain ⟨us, ls, rfl, rfl, hls⟩ := List.map_eq_append_iff.mp hwords
  obtain ⟨t, ls', rfl, ht, hls'⟩ := List.map_eq_cons_iff.mp hls
  obtain ⟨t', rfl, ht'⟩ := List.map_eq_singleton_iff.mp hls'
  have hkey : t.keyword? = some "LIMIT" := (Parser.keyword?_of_name ht).trans (by decide)
  have hopens : Opens ["LIMIT"] [t, t'] := by
    rintro _ ⟨⟩
    exact ⟨"LIMIT", by simp, hkey⟩
  have hkind : t'.kind = .number := congrArg Word.kind ht'
  have htext' : t'.text = String.ofList (Number.writeInt n) := congrArg Word.text ht'
  rw [Plan.parse, Parser.parseWith, hts]
  refine (Parser.query_of_front ⟨ops, _⟩ hfront' hopens).trans ?_
  simp [Parser.limit, Parser.afterKeyword?_of_eq hkey, hkind, htext', Parser.integer?_writeInt, hn,
    Bind.bind, Except.bind, Except.map]

/-- A computed column named as the builder itself. -/
def selfNamed : Draft := { collection := "c", computed := [("self", "1")] }

/-- A limit of a one and some zeros. -/
def roundLimit (zeros : Nat) : Draft := { collection := "c", limit := some (10 ^ zeros : Nat) }

lemma sayable_selfNamed : selfNamed.Sayable .standard where
  collection := ⟨rfl, rfl⟩
  conditions := by simp [selfNamed]
  order := by simp [selfNamed]
  fields := by simp [selfNamed]
  computed := by
    simp only [selfNamed, List.forall_mem_cons]
    exact ⟨⟨⟨rfl, rfl⟩, exists_of_isOk (by decide +kernel)⟩, by simp⟩

lemma sayable_roundLimit (zeros : Nat) : (roundLimit zeros).Sayable .standard where
  collection := show IsName "c" from ⟨rfl, rfl⟩
  conditions := by simp [roundLimit]
  order := by simp [roundLimit]
  fields := by simp [roundLimit]
  computed := by simp [roundLimit]

lemma parse_roundLimit {zeros : Nat} (h : Number.longestInteger ≤ zeros) :
    Plan.parse .standard (roundLimit zeros).sentence = .error (.tooManyDigits (zeros + 1)) := by
  have hdigits : (Text.digitsOf (Int.natAbs (10 ^ zeros : Nat))).length = zeros + 1 := by
    rw [Int.natAbs_natCast, Text.length_digitsOf_pow]
  have := parse_sentence_of_long (sayable_roundLimit zeros) rfl (by omega)
  rwa [hdigits] at this

/-- Only the sentence can have a column named as the builder itself, and only the builder a limit of
more digits than are read. -/
theorem not_parse_sentence_eq_build :
    selfNamed.Sayable .standard ∧
      selfNamed.calls.foldlM (Builder.call {})
          { operators := .standard, collection := .text "c" } = .error .wrongArguments ∧
      (Plan.parse .standard selfNamed.sentence).isOk = true ∧
    (roundLimit 4300).Sayable .standard ∧
      (∃ b, (roundLimit 4300).calls.foldlM (Builder.call {})
          { operators := .standard, collection := .text "c" } = .ok b) ∧
      Plan.parse .standard (roundLimit 4300).sentence = .error (.tooManyDigits 4301) := by
  exact ⟨sayable_selfNamed, rfl, by decide +kernel, sayable_roundLimit 4300, ⟨_, rfl⟩,
    parse_roundLimit (by decide)⟩

end Draft

end NearDoc
