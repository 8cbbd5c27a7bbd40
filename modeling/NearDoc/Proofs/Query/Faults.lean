import NearDoc.Proofs.Sort.Failure
import NearDoc.Proofs.Value.Ordered
import NearDoc.Proofs.Query.Places
import NearDoc.Proofs.Query.Soundness

/-!
How reading fails. Every production ends within the tokens that it starts with, and what it cannot
read is a fault at one of them or at the end. The arities known for a name are told when a call does
not fit them, so they must allow to be put in order and written. Main statement: tokenizing and
parsing a text answer, or fail with a fault at a token of the text, at its end or at the first place
where no lexeme matches.
-/

namespace NearDoc

open Text

/-! ### Arities that can be told -/

namespace Operators

/-- The arities known for each name can be put in order and written. -/
def Listed (ops : Operators) : Prop :=
  ∀ name, ∃ known, ops.arities name = .ok known ∧ known.all Value.isWritable = true

variable {ops : Operators}

/-- An operator is not found as its name is not known, or not with this number of arguments. -/
lemma Listed.resolve (h : ops.Listed) (name : String) (n : Nat) :
    FailsOnly (fun e => e = .unknownFunction name ∨
      ∃ known given, e = .wrongArity (upper name) known given) (ops.resolve name (.int n)) := by
  obtain ⟨known, hknown, hwritable⟩ := h (upper name)
  intro e he
  rw [Operators.resolve, if_neg (by simp [Value.hashKey?])] at he
  rcases hfind : ops.find? ⟨upper name, .int n⟩ with _ | op
  · rw [hfind, Option.elim_none, Except.error.injEq, refusal, hknown] at he
    rcases known with _ | ⟨a, known⟩
    · exact .inl he.symm
    · simp only [if_pos hwritable] at he
      exact .inr ⟨_, _, he.symm⟩
  · rw [hfind] at he
    cases he

/-- Arities that are integers can be told, unless one has too many digits. -/
lemma listed_of_integers
    (h : ∀ e ∈ ops.entries, ∃ i : Int, e.1.arity = .int i ∧ e.1.arity.isWritable = true) :
    ops.Listed := by
  intro name
  have hmem : ∀ a ∈ ops.entries.filterMap fun e => if e.1.name = name then some e.1.arity else none,
      ∃ i : Int, a = .int i ∧ a.isWritable = true := by
    intro a ha
    obtain ⟨e, he, ha⟩ := List.mem_filterMap.mp ha
    split at ha
    · cases ha
      exact h e he
    · cases ha
  have hcompare : ∀ i j : Int, (Value.int i).lt (.int j) = .ok (Number.lt (.int i) (.int j)) :=
    fun i j => Value.lt_of_number? rfl rfl
  have htogether : Sort.Together (fun _ => False) Value.lt
      (ops.entries.filterMap fun e => if e.1.name = name then some e.1.arity else none) :=
    List.pairwise_of_forall_mem_list fun a ha b hb => by
      obtain ⟨i, rfl, -⟩ := hmem a ha
      obtain ⟨j, rfl, -⟩ := hmem b hb
      exact ⟨by simp [hcompare], by simp [hcompare]⟩
  have hsorted := Sort.sort_meets htogether
  rcases hknown : ops.arities name with e | known
  · exact (hsorted.error hknown).elim
  · refine ⟨known, rfl, List.all_eq_true.mpr fun a ha => ?_⟩
    obtain ⟨i, -, hwritable⟩ := hmem a ((hsorted.ok hknown).mem_iff.mp ha)
    exact hwritable

end Operators

namespace Parser

open Grammar

variable {ctx : Context} {α β : Type} {ts rest : List Token}

/-- A fault at one of the tokens or at the end. -/
def FaultIn (ctx : Context) (ts : List Token) (e : Error) : Prop :=
  ∃ fault rest, rest <:+ ts ∧ e = .malformedQuery fault (position ctx rest)

/-- From tokens whose numerals can be read, reading fails at one of them or leaves the last few. -/
def Within (ctx : Context) (ts : List Token) (left : α → List Token) (x : Except Error α) : Prop :=
  (∀ t ∈ ts, t.word.Readable) → Meets (FaultIn ctx ts) (left · <:+ ts) x

lemma FaultIn.mono {e : Error} (h : FaultIn ctx rest e) (hrest : rest <:+ ts) : FaultIn ctx ts e := by
  obtain ⟨fault, r, hr, he⟩ := h
  exact ⟨fault, r, hr.trans hrest, he⟩

lemma suffix_of_afterPunct? {symbol : String} (h : afterPunct? symbol ts = some rest) :
    rest <:+ ts := by
  obtain ⟨t, rfl, -⟩ := afterPunct?_eq_some.mp h
  exact List.suffix_cons t rest

lemma suffix_of_afterKeyword? {word : String} (h : afterKeyword? word ts = some rest) :
    rest <:+ ts := by
  obtain ⟨t, rfl, -⟩ := afterKeyword?_eq_some.mp h
  exact List.suffix_cons t rest

namespace Within

variable {x : Except Error α} {left : α → List Token} {left' : β → List Token}
variable {y : Except Error (α × List Token)}

lemma ok {a : α} (h : left a <:+ ts) : Within ctx ts left (.ok a) := fun _ => h

lemma fail (fault : QueryFault) : Within ctx ts left (fail ctx fault ts) :=
  fun _ => ⟨fault, ts, List.suffix_rfl, rfl⟩

lemma failExpected (what : String) : Within ctx ts left (failExpected ctx what ts) := fail _

lemma mono (h : Within ctx rest left x) (hrest : rest <:+ ts) : Within ctx ts left x := by
  intro hts
  have hx := h fun t ht => hts t (hrest.subset ht)
  cases x with
  | error e => exact hx.mono hrest
  | ok r => exact hx.trans hrest

lemma map {f : α → β} (h : Within ctx ts Prod.snd y) :
    Within ctx ts Prod.snd (y.map fun r => (f r.1, r.2)) := fun hts =>
  Meets.map (T := fun r : β × List Token => r.2 <:+ ts) (h hts)

lemma bind {f : α → Except Error β} (h : Within ctx ts left x)
    (hf : ∀ a, Within ctx (left a) left' (f a)) : Within ctx ts left' (x >>= f) := fun hts =>
  (h hts).bind fun a ha => (hf a).mono ha hts

end Within

lemma within_punct (symbol : String) (ts : List Token) :
    Within ctx ts id (punct ctx symbol ts) := by
  unfold punct
  split
  · rename_i rest hmark
    exact .ok (suffix_of_afterPunct? hmark)
  · exact .failExpected _

lemma within_keyword (word : String) (ts : List Token) :
    Within ctx ts id (keyword ctx word ts) := by
  unfold keyword
  split
  · rename_i rest hword
    exact .ok (suffix_of_afterKeyword? hword)
  · exact .failExpected _

/-! ### Constants -/

section

variable {t : Token}

lemma exists_of_integer? {i : Except Error Int} (h : integer? t.text.toList = some i)
    (hkind : t.kind = .number) (hread : t.word.Readable) : ∃ n, i = .ok n := by
  have hint : integer? t.text.toList = _ := integer?_eq t.word
  rcases hword : t.word.integer? with _ | n
  · rw [hint, hword] at h
    cases h
  · have hshort := Nat.not_lt.mpr (hread hkind (by simp [hword]))
    rw [hint, hword, Option.map_some, if_neg hshort] at h
    cases h
    exact ⟨n, rfl⟩

/-- A constant whose numeral can be read has a value. -/
lemma exists_of_constant? {v : Except Error Value} (h : constant? t = some v)
    (hread : t.word.Readable) : ∃ a, v = .ok a := by
  simp only [constant?] at h
  split at h
  · rename_i hkind
    cases h
    rw [numberValue]
    split
    · rename_i i hi
      obtain ⟨n, rfl⟩ := exists_of_integer? hi hkind hread
      exact ⟨.int n, rfl⟩
    · exact ⟨_, rfl⟩
  · cases h
    exact ⟨_, rfl⟩
  · split at h <;> cases h <;> exact ⟨_, rfl⟩
  · cases h

lemma within_constant {v : Except Error Value} {f : Value → α} (h : constant? t = some v) :
    Within ctx (t :: rest) Prod.snd (v.map fun v => (f v, rest)) := by
  intro hts
  obtain ⟨a, rfl⟩ := exists_of_constant? h (hts t (by simp))
  exact List.suffix_cons t rest

end

/-! ### Arrays -/

lemma within_single {x : Except Error (α × List Token)} :
    Within ctx ts Prod.snd (single x) ↔ Within ctx ts Prod.snd x := by
  cases x <;> exact .rfl

theorem within_listing (p : ArrayPart) (n : Nat) (ts : List Token) :
    Within ctx ts Prod.snd (listing ctx p n ts) := by
  induction n generalizing p ts with
  | zero => cases p <;> exact .failExpected _
  | succ n ih =>
    cases p with
    | element =>
      rw [listing, within_single, element.eq_def]
      dsimp only
      split
      · rename_i ts' hmark
        exact (within_single.mp (ih .array ts')).mono (suffix_of_afterPunct? hmark)
      · split
        · split
          · rename_i v hv
            exact within_constant hv
          · exact .failExpected _
        · exact .failExpected _
    | elements =>
      rw [listing, elements]
      refine (within_single.mp (ih .element ts)).bind fun r => ?_
      obtain ⟨v, ts⟩ := r
      dsimp only
      split
      · rename_i ts' hmark
        refine .bind ((ih .elements ts').mono (suffix_of_afterPunct? hmark)) fun _ => ?_
        exact .ok List.suffix_rfl
      · exact (within_punct "]" ts).bind fun _ => .ok List.suffix_rfl
    | array =>
      rw [listing, within_single, array]
      split
      · rename_i ts' hmark
        exact .ok (suffix_of_afterPunct? hmark)
      · exact (ih .elements ts).map

/-! ### Expressions -/

section

variable (hops : ctx.operators.Listed) {n : Nat}
  (ih : ∀ (x : Category) (ts : List Token), Within ctx ts Prod.snd (phrase ctx x n ts))
include ih

lemma within_operands (c : Connective) (ts : List Token) :
    Within ctx ts Prod.snd (operands ctx c (n + 1) ts) := by
  rw [operands_succ]
  refine (ih (operand c) ts).bind fun r => ?_
  obtain ⟨es, ts⟩ := r
  dsimp only
  split
  · rename_i ts' hword
    exact ((ih (.operands c) ts').mono (suffix_of_afterKeyword? hword)).map
  · exact .ok List.suffix_rfl

lemma within_negation (ts : List Token) : Within ctx ts Prod.snd (negation ctx (n + 1) ts) := by
  rw [negation]
  split
  · rename_i ts' hword
    exact ((within_single.mp (ih .negation ts')).mono (suffix_of_afterKeyword? hword)).map
  · exact within_single.mp (ih .comparison ts)

lemma within_comparison (ts : List Token) :
    Within ctx ts Prod.snd (comparison ctx (n + 1) ts) := by
  rw [comparison]
  refine (within_single.mp (ih .primary ts)).bind fun r => ?_
  obtain ⟨left, ts⟩ := r
  dsimp only
  split
  · rename_i t rest
    split
    · refine .mono (.bind (within_single.mp (ih .primary rest)) fun _ => ?_)
        (List.suffix_cons t rest)
      exact .ok List.suffix_rfl
    · exact .ok List.suffix_rfl
  · exact .ok List.suffix_rfl

lemma within_arguments (ts : List Token) : Within ctx ts Prod.snd (arguments ctx (n + 1) ts) := by
  rw [arguments]
  split
  · rename_i ts' hmark
    exact .ok (suffix_of_afterPunct? hmark)
  · exact ih .moreArguments ts

lemma within_moreArguments (ts : List Token) :
    Within ctx ts Prod.snd (moreArguments ctx (n + 1) ts) := by
  rw [moreArguments]
  refine (within_single.mp (ih (.junction .or) ts)).bind fun r => ?_
  obtain ⟨e, ts⟩ := r
  dsimp only
  split
  · rename_i ts' hmark
    refine .bind ((ih .moreArguments ts').mono (suffix_of_afterPunct? hmark)) fun _ => ?_
    exact .ok List.suffix_rfl
  · exact (within_punct ")" ts).bind fun _ => .ok List.suffix_rfl

include hops

/-- An operator that is not found is a fault at its name, in front of the arguments. -/
lemma within_primary (ts : List Token) : Within ctx ts Prod.snd (primary ctx (n + 1) ts) := by
  rw [primary.eq_def]
  dsimp only
  split
  · exact .failExpected _
  · rename_i t rest
    have hrest := List.suffix_cons t rest
    split
    · rename_i v hv
      exact within_constant hv
    · split
      · exact .ok hrest
      · split
        · exact ((within_single.mp (within_listing .array n rest)).mono hrest).map
        · split
          · refine .bind ((within_single.mp (ih (.junction .or) rest)).mono hrest) fun r => ?_
            exact (within_punct ")" r.2).bind fun _ => .ok List.suffix_rfl
          · exact .failExpected _
      · split
        · split
          · rename_i ts' hmark
            have hts' := (suffix_of_afterPunct? hmark).trans hrest
            intro hts
            refine ((ih .arguments ts').mono hts' hts).bind fun r hr => ?_
            have hresolve := hops.resolve t.text r.1.length
            split
            · exact hr
            · exact ⟨_, t :: rest, List.suffix_rfl, rfl⟩
            · exact ⟨_, t :: rest, List.suffix_rfl, rfl⟩
            · rename_i e hname harity he
              rcases hresolve e he with rfl | ⟨known, given, rfl⟩
              · exact (hname _ rfl).elim
              · exact (harity _ _ _ rfl).elim
          · exact .ok hrest
        · exact .failExpected _
      · exact .failExpected _

end

theorem within_phrase (hops : ctx.operators.Listed) (x : Category) (n : Nat) (ts : List Token) :
    Within ctx ts Prod.snd (phrase ctx x n ts) := by
  induction n generalizing x ts with
  | zero => cases x <;> exact .failExpected _
  | succ n ih =>
    cases x with
    | junction c => exact within_single.mpr (ih (.operands c) ts).map
    | operands c => exact within_operands ih c ts
    | negation => exact within_single.mpr (within_negation ih ts)
    | comparison => exact within_single.mpr (within_comparison ih ts)
    | primary => exact within_single.mpr (within_primary hops ih ts)
    | arguments => exact within_arguments ih ts
    | moreArguments => exact within_moreArguments ih ts

/-- An expression ends within the tokens that it starts with. -/
theorem within_expression (hops : ctx.operators.Listed) (ts : List Token) :
    Within ctx ts Prod.snd (expression ctx ts) :=
  within_single.mp (within_phrase hops (.junction .or) (depth ts) ts)

/-! ### Queries -/

lemma within_name (what : String) (ts : List Token) :
    Within ctx ts Prod.snd (name ctx what ts) := by
  unfold name
  split
  · split
    · exact .ok (List.suffix_cons ..)
    · exact .failExpected _
  · exact .failExpected _

/-- Parts separated by commas end within the tokens if each part does. -/
lemma within_separated {part : List Token → Except Error (α × List Token)}
    (hpart : ∀ ts, Within ctx ts Prod.snd (part ts)) (n : Nat) (ts : List Token) :
    Within ctx ts Prod.snd (separated ctx part n ts) := by
  induction n generalizing ts with
  | zero => exact .failExpected _
  | succ n ih =>
    rw [separated]
    refine (hpart ts).bind fun r => ?_
    obtain ⟨a, ts⟩ := r
    dsimp only
    split
    · rename_i ts' hmark
      exact .bind ((ih ts').mono (suffix_of_afterPunct? hmark)) fun _ => .ok List.suffix_rfl
    · exact .ok List.suffix_rfl

lemma within_limit (ts : List Token) : Within ctx ts Prod.snd (limit ctx ts) := by
  unfold limit
  split
  · exact .ok List.suffix_rfl
  · rename_i ts' hword
    refine .mono ?_ (suffix_of_afterKeyword? hword)
    split
    · rename_i t rest
      split
      · rename_i i hi
        split at hi
        · rename_i hkind
          intro hts
          obtain ⟨n, rfl⟩ := exists_of_integer? hi hkind (hts t (by simp))
          exact List.suffix_cons t rest
        · cases hi
      · exact .fail _
    · exact .fail _

/-- Nothing is left in the end. -/
lemma within_finish (a : α) (ts : List Token) :
    Within ctx ts (fun _ => []) (finish ctx (a, ts)) := by
  unfold finish
  split
  · exact .ok List.nil_suffix
  · exact .fail _

section

variable (hops : ctx.operators.Listed) (ts : List Token)
include hops

lemma within_item : Within ctx ts Prod.snd (item ctx ts) := by
  refine (within_expression hops ts).bind fun r => ?_
  obtain ⟨e, ts⟩ := r
  dsimp only
  split
  · rename_i ts' hword
    exact .bind ((within_name "alias" ts').mono (suffix_of_afterKeyword? hword)) fun _ =>
      .ok List.suffix_rfl
  · exact .ok List.suffix_rfl

lemma within_sortKey : Within ctx ts Prod.snd (sortKey ctx ts) := by
  refine (within_expression hops ts).bind fun r => ?_
  obtain ⟨e, ts⟩ := r
  dsimp only
  split
  · rename_i ts' hword
    exact .ok (suffix_of_afterKeyword? hword)
  · refine .ok ?_
    rcases h : afterKeyword? "ASC" ts with _ | ts'
    · exact List.suffix_rfl
    · exact suffix_of_afterKeyword? h

lemma within_selection : Within ctx ts Prod.snd (selection ctx ts) := by
  unfold selection
  split
  · rename_i ts' hmark
    exact .ok (suffix_of_afterPunct? hmark)
  · exact (within_separated (within_item hops) _ ts).map

lemma within_condition : Within ctx ts Prod.snd (condition ctx ts) := by
  unfold condition
  split
  · rename_i ts' hword
    exact ((within_expression hops ts').mono (suffix_of_afterKeyword? hword)).map
  · exact .ok List.suffix_rfl

lemma within_ordering : Within ctx ts Prod.snd (ordering ctx ts) := by
  unfold ordering
  split
  · rename_i ts' hword
    refine .mono ((within_keyword "BY" ts').bind fun ts => ?_) (suffix_of_afterKeyword? hword)
    exact within_separated (within_sortKey hops) _ ts
  · exact .ok List.suffix_rfl

/-- A query is read within its tokens, up to the last. -/
theorem within_query : Within ctx ts (fun _ => []) (query ctx ts) := by
  refine (within_keyword "SELECT" ts).bind fun ts => ?_
  refine (within_selection hops ts).bind fun r => ?_
  refine (within_keyword "FROM" r.2).bind fun ts => ?_
  refine (within_name "collection name" ts).bind fun r => ?_
  refine (within_condition hops r.2).bind fun r => ?_
  refine (within_ordering hops r.2).bind fun r => ?_
  exact (within_limit r.2).bind fun r => within_finish _ r.2

end

/-- Every production leaves the last few of the tokens that it is given, or fails at one of them. -/
structure StaysWithin (ctx : Context) : Prop where
  listing : ∀ p n ts, Within ctx ts Prod.snd (listing ctx p n ts)
  phrase : ∀ x n ts, Within ctx ts Prod.snd (phrase ctx x n ts)
  selection : ∀ ts, Within ctx ts Prod.snd (selection ctx ts)
  condition : ∀ ts, Within ctx ts Prod.snd (condition ctx ts)
  ordering : ∀ ts, Within ctx ts Prod.snd (ordering ctx ts)
  limit : ∀ ts, Within ctx ts Prod.snd (limit ctx ts)
  query : ∀ ts, Within ctx ts (fun _ => []) (query ctx ts)

lemma staysWithin (hops : ctx.operators.Listed) : StaysWithin ctx where
  listing := within_listing
  phrase := within_phrase hops
  selection := within_selection hops
  condition := within_condition hops
  ordering := within_ordering hops
  limit := within_limit
  query := within_query hops

end Parser

/-! ### Texts -/

/-- Where a token of a text stands, or its end; in a text that has no tokens, the first place at
which no lexeme matches. -/
def IsPlace (s : String) (n : Nat) : Prop :=
  match Token.tokenize s with
  | .ok ts => ∃ t ∈ ts, t.position = n
  | .error _ => ∃ c, Unmatched s.toList c n

/-- A fault of syntax that tells its place in a text. -/
def Error.TellsPlace (s : String) (e : Error) : Prop :=
  ∃ fault n, e = .malformedQuery fault n ∧ e.errorClass = .querySyntax ∧ n ≤ s.length ∧
    IsPlace s n ∧ ∃ text, e.message = text ++ " (at position " ++ toString n ++ ")"

section

variable {s : String} {ops : Operators}

/-- The tokens of a text stand in it, and the one behind them at its end. -/
lemma exists_of_tokenize {ts : List Token} (h : Token.tokenize s = .ok ts) :
    ∃ us, ts = us ++ [Token.stop s.length] ∧ ∀ t ∈ us, t.Stands s.toList := by
  obtain ⟨us, hus, rfl⟩ := map_eq_ok.mp h
  exact ⟨us, rfl, (Token.tokens_meets s).ok hus⟩

lemma tellsPlace_malformedQuery {n : Nat} (fault : QueryFault) (hn : n ≤ s.length)
    (hplace : IsPlace s n) : (Error.malformedQuery fault n).TellsPlace s :=
  ⟨fault, n, rfl, rfl, hn, hplace, fault.message, rfl⟩

lemma tellsPlace_of_tokens {e : Error} (h : Token.tokens s = .error e) : e.TellsPlace s := by
  obtain ⟨c, n, rfl, hn⟩ := (Token.tokens_meets s).error h
  have htokenize : Token.tokenize s = .error (.malformedQuery (.unexpectedCharacter c) n) := by
    rw [Token.tokenize, h, Except.map]
  refine tellsPlace_malformedQuery _ hn.lt.le ?_
  rw [IsPlace, htokenize]
  exact ⟨c, hn⟩

/-- A fault at one of the tokens of a text, or at the end, tells its place. -/
lemma tellsPlace_of_faultIn {ts : List Token} (hts : Token.tokens s = .ok ts) {e : Error}
    (h : Parser.FaultIn ⟨ops, s.length⟩ ts e) : e.TellsPlace s := by
  obtain ⟨fault, rest, hrest, rfl⟩ := h
  have htokenize : Token.tokenize s = .ok (ts ++ [Token.stop s.length]) := by
    rw [Token.tokenize, hts, Except.map]
  have hplace : ∀ t ∈ ts ++ [Token.stop s.length], IsPlace s t.position := by
    intro t ht
    rw [IsPlace, htokenize]
    exact ⟨t, ht, rfl⟩
  rcases rest with _ | ⟨t, rest⟩
  · exact tellsPlace_malformedQuery _ le_rfl (hplace (Token.stop s.length) (by simp))
  · have ht : t ∈ ts := hrest.subset (by simp)
    have hstands := (Token.tokens_meets s).ok hts t ht
    exact tellsPlace_malformedQuery _ hstands.lt.le (hplace t (by simp [ht]))

/-- What is read within the tokens of a text fails only with a place in it. -/
lemma failsOnly_parseWith {α : Type}
    {parse : Parser.Context → List Token → Except Error α} (hs : ShortRuns s.toList)
    (h : ∀ ts, Parser.Within ⟨ops, s.length⟩ ts (fun _ => []) (parse ⟨ops, s.length⟩ ts)) :
    FailsOnly (Error.TellsPlace s) (Parser.parseWith ops s parse) := by
  intro e he
  rcases bind_eq_error.mp he with htokens | ⟨ts, hts, he⟩
  · exact tellsPlace_of_tokens htokens
  · have hstand := (Token.tokens_meets s).ok hts
    exact tellsPlace_of_faultIn hts ((h ts fun t ht => (hstand t ht).readable hs).error he)

/-- **Faults of syntax**: tokenizing and parsing a text answer, or fail with a fault of syntax that
tells a place in the text, and no production leaves the tokens. -/
theorem Parser.parse_failsOnly (hops : ops.Listed) (hs : ShortRuns s.toList) :
    FailsOnly (Error.TellsPlace s) (Token.tokenize s) ∧
      FailsOnly (Error.TellsPlace s) (Expr.parse ops s) ∧
      FailsOnly (Error.TellsPlace s) (Plan.parse ops s) ∧
      (∀ ts, Token.tokenize s = .ok ts →
        ∃ us, ts = us ++ [Token.stop s.length] ∧ ∀ t ∈ us, t.Stands s.toList) ∧
      Parser.StaysWithin ⟨ops, s.length⟩ := by
  have hstays : Parser.StaysWithin ⟨ops, s.length⟩ := Parser.staysWithin hops
  refine ⟨fun e he => tellsPlace_of_tokens (map_eq_error.mp he), ?_,
    failsOnly_parseWith hs hstays.query, fun _ => exists_of_tokenize, hstays⟩
  refine failsOnly_parseWith hs fun ts => ?_
  exact (Parser.within_expression hops ts).bind fun r => Parser.within_finish r.1 r.2

end

/-- A text of few characters has no long numerals. -/
lemma shortRuns_of_length {l : List Char} (h : l.length ≤ Number.longestInteger) : ShortRuns l :=
  fun _ hrun _ => hrun.length_le.trans h

/-- One operator of two arguments. -/
def binaryEcho : Operators := Operators.empty.insert (.echo "F" (.int 2))

lemma listed_binaryEcho : binaryEcho.Listed := Operators.listed_of_integers fun e he => by
  have hentries : binaryEcho.entries = [((Operator.echo "F" (.int 2)).key, .echo "F" (.int 2))] := by
    simp [binaryEcho, Operators.insert, Operators.find?, Operators.empty]
  rw [hentries, List.mem_singleton] at he
  subst he
  exact ⟨2, rfl, by decide +kernel⟩

theorem Parser.parse_failsOnly_wrongArity :
    binaryEcho.Listed ∧ ShortRuns "NOT F()".toList ∧
      Expr.parse binaryEcho "NOT F()" =
        .error (.malformedQuery (.wrongArity "F" ["2"] "0") 4) ∧
      (Error.malformedQuery (.wrongArity "F" ["2"] "0") 4).TellsPlace "NOT F()" := by
  have hshort : ShortRuns "NOT F()".toList := shortRuns_of_length (by decide)
  have hparse : (Expr.parse binaryEcho "NOT F()").map (fun _ => ()) =
      .error (.malformedQuery (.wrongArity "F" ["2"] "0") 4) := by decide +kernel
  rw [map_eq_error] at hparse
  have hlaw := Parser.parse_failsOnly listed_binaryEcho hshort
  exact ⟨listed_binaryEcho, hshort, hparse, hlaw.2.1 _ hparse⟩

/-- The arities of a name that are told must be put in order, which fails where they have none. -/
theorem Parser.not_parse_failsOnly_mixedArities :
    ShortRuns "F()".toList ∧
      ¬ FailsOnly (Error.TellsPlace "F()")
        (Expr.parse (binaryEcho.insert (.echo "F" .null)) "F()") := by
  have hparse : (Expr.parse (binaryEcho.insert (.echo "F" .null)) "F()").map (fun _ => ()) =
      .error (.incomparable "<" "NoneType" "int") := by decide +kernel
  rw [map_eq_error] at hparse
  refine ⟨shortRuns_of_length (by decide), fun h => ?_⟩
  obtain ⟨fault, n, he, -⟩ := h _ hparse
  cases he

end NearDoc
