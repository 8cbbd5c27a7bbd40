import NearDoc.Proofs.Query.ArrayTree

/-!
Derivations of expressions as data: the trees of the grammar, the words that a tree stands over and
the expressions that it means. Main statements: what the grammar derives has a tree, and no two
trees stand over the same words, whatever follows that does not go on with them.
-/

namespace NearDoc

namespace Grammar

inductive Tree : Category → Type where
  | join {c : Parser.Connective} (t : Tree (.operands c)) : Tree (.junction c)
  | single {c : Parser.Connective} (t : Tree (operand c)) : Tree (.operands c)
  | joined {c : Parser.Connective} (t : Tree (operand c)) (k : Word) (ts : Tree (.operands c)) :
      Tree (.operands c)
  | not (k : Word) (t : Tree .negation) : Tree .negation
  | positive (t : Tree .comparison) : Tree .negation
  | alone (t : Tree .primary) : Tree .comparison
  | compare (t : Tree .primary) (k : Word) (op : Comparator) (t' : Tree .primary) :
      Tree .comparison
  | constant (w : Word) (v : Value) : Tree .primary
  | array (t : ArrayTree .array) : Tree .primary
  | param (s : String) : Tree .primary
  | enclosed (t : Tree (.junction .or)) : Tree .primary
  | field (s : String) : Tree .primary
  | call (s : String) (op : Operator) (ts : Tree .arguments) : Tree .primary
  | noArguments : Tree .arguments
  | someArguments (ts : Tree .moreArguments) : Tree .arguments
  | lastArgument (t : Tree (.junction .or)) : Tree .moreArguments
  | argument (t : Tree (.junction .or)) (ts : Tree .moreArguments) : Tree .moreArguments

namespace Tree

variable {x : Category} {ops : Operators}

/-- The words that the tree stands over. -/
def words {x : Category} : Tree x → List Word
  | .join t | .single t | .positive t | .alone t | .someArguments t => t.words
  | .joined t k ts => t.words ++ k :: ts.words
  | .not k t => k :: t.words
  | .compare t k _ t' => t.words ++ k :: t'.words
  | .constant w _ => [w]
  | .array t => mark "[" :: t.words
  | .param s => [⟨.param, s⟩]
  | .enclosed t => mark "(" :: (t.words ++ [mark ")"])
  | .field s => [⟨.name, s⟩]
  | .call s _ ts => ⟨.name, s⟩ :: mark "(" :: ts.words
  | .noArguments => [mark ")"]
  | .lastArgument t => t.words ++ [mark ")"]
  | .argument t ts => t.words ++ mark "," :: ts.words

/-- The expressions that the tree means. -/
def exprs {x : Category} : Tree x → List Expr
  | @Tree.join c t => [c.join t.exprs]
  | .single t | .positive t | .alone t | .enclosed t | .someArguments t | .lastArgument t =>
    t.exprs
  | .joined t _ ts | .argument t ts => t.exprs ++ ts.exprs
  | .not _ t => t.exprs.map .not
  | .compare t _ op t' => List.zipWith (.compare op) t.exprs t'.exprs
  | .constant _ v => [.literal v]
  | .array t => t.values.map .literal
  | .param s => [.param (.text (String.ofList (s.toList.drop 1)))]
  | .field s => [.field s]
  | .call _ op ts => [.call op ts.exprs none]
  | .noArguments => []

/-- Every word of the tree is what it stands for, and every call is known. -/
def Conforms (ops : Operators) {x : Category} : Tree x → Prop
  | .join t | .single t | .positive t | .alone t | .enclosed t | .someArguments t
  | .lastArgument t => t.Conforms ops
  | @Tree.joined c t k ts =>
    t.Conforms ops ∧ k.token.keyword? = some c.word ∧ ts.Conforms ops
  | .not k t => k.token.keyword? = some "NOT" ∧ t.Conforms ops
  | .compare t k op t' => t.Conforms ops ∧ comparator? k.token = some op ∧ t'.Conforms ops
  | .constant w v => Constant w v
  | .array t => t.Conforms
  | .param _ | .noArguments => True
  | .field s => (Word.token ⟨.name, s⟩).keyword? = none
  | .call s op ts => (Word.token ⟨.name, s⟩).keyword? = none ∧ ts.Conforms ops ∧
      ops.find? ⟨Text.upper s, .int ts.exprs.length⟩ = some op
  | .argument t ts => t.Conforms ops ∧ ts.Conforms ops

end Tree

/-- An operator is found by its name in upper case and its number of arguments. -/
lemma resolve_eq_ok {ops : Operators} {s : String} {n : Int} {op : Operator} :
    ops.resolve s (.int n) = .ok op ↔ ops.find? ⟨Text.upper s, .int n⟩ = some op := by
  have hhash : (Value.int n).hashKey?.isNone = false := rfl
  rw [Operators.resolve, hhash, if_neg Bool.false_ne_true]
  cases ops.find? ⟨Text.upper s, .int n⟩ <;> simp

/-- The categories of which one expression is made. -/
def Category.IsSingle : Category → Prop
  | .junction _ | .negation | .comparison | .primary => True
  | .operands _ | .arguments | .moreArguments => False

lemma isSingle_operand (c : Parser.Connective) : (operand c).IsSingle := by
  cases c <;> trivial

namespace Tree

variable {x : Category} {ops : Operators}

lemma exists_expr (t : Tree x) (hx : x.IsSingle) : ∃ e, t.exprs = [e] := by
  induction t with
  | join t ih => exact ⟨_, rfl⟩
  | not k t ih =>
    obtain ⟨e, he⟩ := ih trivial
    exact ⟨.not e, by simp [exprs, he]⟩
  | positive t ih | alone t ih | enclosed t ih => exact ih trivial
  | compare t k op t' ih ih' =>
    obtain ⟨e, he⟩ := ih trivial
    obtain ⟨f, hf⟩ := ih' trivial
    exact ⟨.compare op e f, by simp [exprs, he, hf]⟩
  | array t =>
    obtain ⟨v, hv⟩ := t.exists_value (by simp)
    exact ⟨.literal v, by simp [exprs, hv]⟩
  | constant | param | field | call => exact ⟨_, rfl⟩
  | single | joined | noArguments | someArguments | lastArgument | argument => exact hx.elim

/-- The expression that a tree of one means. -/
def expr (t : Tree x) : Expr := t.exprs.headD (.literal .null)

lemma exprs_eq (t : Tree x) (hx : x.IsSingle) : t.exprs = [t.expr] := by
  obtain ⟨e, he⟩ := t.exists_expr hx
  rw [expr, he, List.headD_cons]

/-- A tree without integers of too many digits is a derivation. -/
theorem derives (t : Tree x) (ht : t.Conforms ops) (hread : ∀ w ∈ t.words, w.Readable) :
    Derives ops x t.words t.exprs := by
  induction t with
  | join t ih => exact .join (ih ht hread)
  | @single c t ih =>
    have h := ih ht hread
    rw [exprs, words]
    rw [t.exprs_eq (isSingle_operand c)] at h ⊢
    exact .single h
  | @joined c t k ts ih ihs =>
    obtain ⟨ht, hk, hts⟩ := ht
    have h := ih ht fun w hw => hread w (by simp [words, hw])
    have hs := ihs hts fun w hw => hread w (by simp [words, hw])
    rw [exprs, words]
    rw [t.exprs_eq (isSingle_operand c)] at h ⊢
    exact .joined h hk hs
  | not k t ih =>
    have h := ih ht.2 fun w hw => hread w (by simp [words, hw])
    rw [exprs, words]
    rw [t.exprs_eq trivial] at h ⊢
    exact .not ht.1 h
  | positive t ih =>
    have h := ih ht hread
    rw [exprs, words]
    rw [t.exprs_eq trivial] at h ⊢
    exact .positive h
  | alone t ih =>
    have h := ih ht hread
    rw [exprs, words]
    rw [t.exprs_eq trivial] at h ⊢
    exact .alone h
  | compare t k op t' ih ih' =>
    obtain ⟨ht, hk, ht'⟩ := ht
    have h := ih ht fun w hw => hread w (by simp [words, hw])
    have h' := ih' ht' fun w hw => hread w (by simp [words, hw])
    rw [exprs, words]
    rw [t.exprs_eq trivial] at h ⊢
    rw [t'.exprs_eq trivial] at h' ⊢
    exact .compare h hk h'
  | constant w v => exact .constant (constant?_eq_ok.mpr ⟨ht, hread w (by simp [words])⟩)
  | array t =>
    obtain ⟨v, hv⟩ := t.exists_value (by simp)
    have h := t.lists ht fun w hw => hread w (by simp [words, hw])
    rw [exprs, words]
    rw [hv] at h ⊢
    exact .array h
  | param s => exact .param
  | enclosed t ih =>
    have h := ih ht fun w hw => hread w (by simp [words, hw])
    rw [exprs, words]
    rw [t.exprs_eq trivial] at h ⊢
    exact .enclosed h
  | field s => exact .field ht
  | call s op ts ih =>
    obtain ⟨hs, hts, hop⟩ := ht
    exact .call hs (ih hts fun w hw => hread w (by simp [words, hw])) (resolve_eq_ok.mpr hop)
  | noArguments => exact .noArguments
  | someArguments ts ih => exact .someArguments (ih ht hread)
  | lastArgument t ih =>
    have h := ih ht fun w hw => hread w (by simp [words, hw])
    rw [exprs, words]
    rw [t.exprs_eq trivial] at h ⊢
    exact .lastArgument h
  | argument t ts ih ihs =>
    have h := ih ht.1 fun w hw => hread w (by simp [words, hw])
    have hs := ihs ht.2 fun w hw => hread w (by simp [words, hw])
    rw [exprs, words]
    rw [t.exprs_eq trivial] at h ⊢
    exact .argument h hs

end Tree

lemma readable_of_keyword? {w : Word} {k : String} (h : w.token.keyword? = some k) :
    w.Readable := by
  have hkind : w.kind = .name := kind_of_keyword? h
  exact fun hnumber => by simp [hkind] at hnumber

lemma readable_of_comparator? {w : Word} {op : Comparator} (h : comparator? w.token = some op) :
    w.Readable := by
  intro hnumber
  have hkind : w.token.kind = .number := hnumber
  simp [comparator?, hkind] at h

/-- **Trees**: what derives something has a tree, and it has no integer of too many digits. -/
theorem exists_tree {ops : Operators} {x : Category} {ws : List Word} {es : List Expr}
    (h : Derives ops x ws es) :
    ∃ t : Tree x, t.Conforms ops ∧ t.words = ws ∧ t.exprs = es ∧ ∀ w ∈ ws, w.Readable := by
  induction h with
  | @join c ws es h ih =>
    obtain ⟨t, ht, rfl, rfl, hread⟩ := ih
    exact ⟨.join t, ht, rfl, rfl, hread⟩
  | single h ih =>
    obtain ⟨t, ht, rfl, he, hread⟩ := ih
    exact ⟨.single t, ht, rfl, he, hread⟩
  | @joined c us vs k e es h hk hs ih ihs =>
    obtain ⟨t, ht, rfl, he, hread⟩ := ih
    obtain ⟨ts, hts, rfl, hes, hreads⟩ := ihs
    refine ⟨.joined t k ts, ⟨ht, hk, hts⟩, rfl, by simp [Tree.exprs, he, hes], ?_⟩
    exact List.forall_mem_append.mpr
      ⟨hread, List.forall_mem_cons.mpr ⟨readable_of_keyword? hk, hreads⟩⟩
  | @not k ws e hk h ih =>
    obtain ⟨t, ht, rfl, he, hread⟩ := ih
    exact ⟨.not k t, ⟨hk, ht⟩, rfl, by simp [Tree.exprs, he],
      List.forall_mem_cons.mpr ⟨readable_of_keyword? hk, hread⟩⟩
  | positive h ih =>
    obtain ⟨t, ht, rfl, he, hread⟩ := ih
    exact ⟨.positive t, ht, rfl, he, hread⟩
  | alone h ih =>
    obtain ⟨t, ht, rfl, he, hread⟩ := ih
    exact ⟨.alone t, ht, rfl, he, hread⟩
  | @compare us vs k op e f h hk h' ih ih' =>
    obtain ⟨t, ht, rfl, he, hread⟩ := ih
    obtain ⟨t', ht', rfl, hf, hread'⟩ := ih'
    refine ⟨.compare t k op t', ⟨ht, hk, ht'⟩, rfl, by simp [Tree.exprs, he, hf], ?_⟩
    exact List.forall_mem_append.mpr
      ⟨hread, List.forall_mem_cons.mpr ⟨readable_of_comparator? hk, hread'⟩⟩
  | @constant w v h =>
    obtain ⟨hc, hread⟩ := constant?_eq_ok.mp h
    exact ⟨.constant w v, hc, rfl, rfl, List.forall_mem_singleton.mpr hread⟩
  | array h =>
    obtain ⟨t, ht, rfl, hv, hread⟩ := exists_arrayTree h
    exact ⟨.array t, ht, rfl, by simp [Tree.exprs, hv],
      List.forall_mem_cons.mpr ⟨nofun, hread⟩⟩
  | @param s => exact ⟨.param s, trivial, rfl, rfl, List.forall_mem_singleton.mpr nofun⟩
  | enclosed h ih =>
    obtain ⟨t, ht, rfl, he, hread⟩ := ih
    exact ⟨.enclosed t, ht, rfl, he, List.forall_mem_cons.mpr ⟨nofun,
      List.forall_mem_append.mpr ⟨hread, List.forall_mem_singleton.mpr nofun⟩⟩⟩
  | @field s hs => exact ⟨.field s, hs, rfl, rfl, List.forall_mem_singleton.mpr nofun⟩
  | @call s ws es op hs h hop ih =>
    obtain ⟨ts, hts, rfl, rfl, hread⟩ := ih
    exact ⟨.call s op ts, ⟨hs, hts, resolve_eq_ok.mp hop⟩, rfl, rfl,
      List.forall_mem_cons.mpr ⟨nofun, List.forall_mem_cons.mpr ⟨nofun, hread⟩⟩⟩
  | noArguments => exact ⟨.noArguments, trivial, rfl, rfl, List.forall_mem_singleton.mpr nofun⟩
  | someArguments h ih =>
    obtain ⟨ts, hts, rfl, rfl, hread⟩ := ih
    exact ⟨.someArguments ts, hts, rfl, rfl, hread⟩
  | lastArgument h ih =>
    obtain ⟨t, ht, rfl, he, hread⟩ := ih
    exact ⟨.lastArgument t, ht, rfl, he,
      List.forall_mem_append.mpr ⟨hread, List.forall_mem_singleton.mpr nofun⟩⟩
  | argument h hs ih ihs =>
    obtain ⟨t, ht, rfl, he, hread⟩ := ih
    obtain ⟨ts, hts, rfl, hes, hreads⟩ := ihs
    refine ⟨.argument t ts, ⟨ht, hts⟩, rfl, by simp [Tree.exprs, he, hes], ?_⟩
    exact List.forall_mem_append.mpr ⟨hread, List.forall_mem_cons.mpr ⟨nofun, hreads⟩⟩

/-! ### No two trees over the same words -/

namespace Tree

variable {x : Category} {ops : Operators}

section

variable (r : List Word)

/-! The words of a tree of several pieces and those that follow it, piece by piece. -/

lemma words_joined {c : Parser.Connective} (t : Tree (operand c)) (k : Word)
    (ts : Tree (.operands c)) : (t.joined k ts).words ++ r = t.words ++ k :: (ts.words ++ r) :=
  List.append_assoc _ _ _

lemma words_compare (t : Tree .primary) (k : Word) (op : Comparator) (u : Tree .primary) :
    (t.compare k op u).words ++ r = t.words ++ k :: (u.words ++ r) := List.append_assoc _ _ _

lemma words_enclosed (t : Tree (.junction .or)) :
    t.enclosed.words ++ r = mark "(" :: (t.words ++ mark ")" :: r) :=
  congrArg (List.cons (mark "(")) (List.append_assoc _ _ _)

lemma words_lastArgument (t : Tree (.junction .or)) :
    t.lastArgument.words ++ r = t.words ++ mark ")" :: r := List.append_assoc _ _ _

lemma words_argument (t : Tree (.junction .or)) (ts : Tree .moreArguments) :
    (t.argument ts).words ++ r = t.words ++ mark "," :: (ts.words ++ r) :=
  List.append_assoc _ _ _

end

/-- What is not the empty end of a call begins with no mark but an opening one. -/
lemma exists_cons (t : Tree x) (ht : t.Conforms ops) (hx : x ≠ .arguments) :
    ∃ w ws, t.words = w :: ws ∧ ∀ symbol ∉ Parser.openers, w ≠ mark symbol := by
  have hmark {symbol : String} (hs : symbol ∈ Parser.openers) :
      ∀ symbol' ∉ Parser.openers, mark symbol ≠ mark symbol' := by
    intro symbol' hs' heq
    cases congrArg Word.text heq
    exact hs' hs
  induction t with
  | join t ih | positive t ih | alone t ih | someArguments t ih => exact ih ht (by simp)
  | @single c t ih => exact ih ht (by cases c <;> simp [operand])
  | @joined c t k ts ih =>
    obtain ⟨w, ws, hws, hw⟩ := ih ht.1 (by cases c <;> simp [operand])
    exact ⟨w, _, congrArg (· ++ k :: ts.words) hws, hw⟩
  | not k t ih =>
    have hkind : k.kind = .name := kind_of_keyword? ht.1
    exact ⟨k, _, rfl, fun symbol _ => Parser.ne_mark_of_kind (by simp [hkind]) symbol⟩
  | compare t k op t' ih =>
    obtain ⟨w, ws, hws, hw⟩ := ih ht.1 (by simp)
    exact ⟨w, _, congrArg (· ++ k :: t'.words) hws, hw⟩
  | argument t ts ih =>
    obtain ⟨w, ws, hws, hw⟩ := ih ht.1 (by simp)
    exact ⟨w, _, congrArg (· ++ mark "," :: ts.words) hws, hw⟩
  | lastArgument t ih =>
    obtain ⟨w, ws, hws, hw⟩ := ih ht (by simp)
    exact ⟨w, _, congrArg (· ++ [mark ")"]) hws, hw⟩
  | constant w v =>
    exact ⟨w, _, rfl, fun symbol _ => Parser.ne_mark_of_kind (Constant.word ht).1 symbol⟩
  | array t => exact ⟨_, _, rfl, hmark (by simp [Parser.openers])⟩
  | enclosed t => exact ⟨_, _, rfl, hmark (by simp [Parser.openers])⟩
  | param s | field s | call s op ts =>
    exact ⟨_, _, rfl, fun symbol _ => Parser.ne_mark_of_kind (by simp) symbol⟩
  | noArguments => exact absurd rfl hx

/-- An operand of a comparison begins with no negation. -/
lemma exists_cons_of_primary (t : Tree .primary) (ht : t.Conforms ops) :
    ∃ w ws, t.words = w :: ws ∧ w.token.keyword? ≠ some "NOT" := by
  cases t with
  | constant w v => exact ⟨w, _, rfl, (Constant.word ht).2.2.2⟩
  | field s => exact ⟨_, _, rfl, by simp [show (Word.token ⟨.name, s⟩).keyword? = none from ht]⟩
  | call s op ts => exact ⟨_, _, rfl, by simp [ht.1]⟩
  | _ => exact ⟨_, _, rfl, by simp [Token.keyword?, Word.token, mark]⟩

lemma exists_cons_of_comparison (t : Tree .comparison) (ht : t.Conforms ops) :
    ∃ w ws, t.words = w :: ws ∧ w.token.keyword? ≠ some "NOT" := by
  cases t with
  | alone t => exact t.exists_cons_of_primary ht
  | compare t k op t' =>
    obtain ⟨w, ws, hws, hw⟩ := t.exists_cons_of_primary ht.1
    exact ⟨w, _, congrArg (· ++ k :: t'.words) hws, hw⟩

/-- The words after a tree do not go on with it. -/
def Closed (x : Category) (r : List Word) : Prop := Ends x (r.map Word.token)

lemma closed_cons {k : Word} {r : List Word} : Closed x (k :: r) ↔ ¬ Continues x k.token :=
  ends_cons

lemma closed_mark {symbol : String} (hs : symbol ≠ "(") (r : List Word) :
    Closed x (mark symbol :: r) := closed_cons.mpr (not_continues_mark rfl hs)

/-- A connective comes after its operand and goes on with its operands. -/
lemma closed_connective {c : Parser.Connective} {k : Word}
    (hk : k.token.keyword? = some c.word) (r : List Word) :
    Closed (operand c) (k :: r) ∧ ¬ Closed (.operands c) (k :: r) := by
  refine ⟨closed_cons.mpr (not_continues_connective hk), fun h => closed_cons.mp h ?_⟩
  cases c <;> simp [Continues, hk, Parser.Connective.word]

/-- An operator comes after its first operand and goes on with a comparison. -/
lemma closed_comparator {op : Comparator} {k : Word} (hk : comparator? k.token = some op)
    (r : List Word) : Closed .primary (k :: r) ∧ ¬ Closed .comparison (k :: r) :=
  ⟨closed_cons.mpr (not_continues_comparator hk),
    fun h => closed_cons.mp h (.inr (by simp [hk]))⟩

section

variable {r z : List Word}

/-- Operands of comparisons, given that the arguments in them have one tree. -/
lemma unique_of_primary {t t' : Tree .primary} (ht : t.Conforms ops) (ht' : t'.Conforms ops)
    (h : t.words ++ r = t'.words ++ z) (hr : Closed .primary r) (hr' : Closed .primary z)
    (henclosed : ∀ u u' s s', t = .enclosed u → t' = .enclosed u' →
      u.words ++ mark ")" :: s = u'.words ++ mark ")" :: s' → u = u' ∧ s = s')
    (hcall : ∀ n op us n' op' us' s s', t = .call n op us → t' = .call n' op' us' →
      us.words ++ s = us'.words ++ s' → us = us' ∧ s = s') : t = t' ∧ r = z := by
  have hparen {s : List Word} (hs : Closed .primary (mark "(" :: s)) : False :=
    closed_cons.mp hs rfl
  cases t with
  | constant w v =>
    obtain ⟨hpunct, hparam, hname, -⟩ := Constant.word ht
    cases t' with
    | constant w' v' =>
      obtain ⟨rfl, rfl⟩ := List.cons.inj h
      exact ⟨by rw [Constant.unique ht ht'], rfl⟩
    | param s => exact absurd ((List.cons.inj h).1 ▸ rfl) hparam
    | field s =>
      obtain ⟨rfl, -⟩ := List.cons.inj h
      exact absurd ht' (hname rfl)
    | call s op ts =>
      obtain ⟨rfl, -⟩ := List.cons.inj h
      exact absurd ht'.1 (hname rfl)
    | array | enclosed => exact absurd ((List.cons.inj h).1 ▸ rfl) hpunct
  | array u =>
    cases t' with
    | constant w' v' => exact absurd ((List.cons.inj h).1 ▸ rfl) (Constant.word ht').1
    | array u' =>
      obtain ⟨rfl, rfl⟩ := u.unique u' ht ht' (List.cons.inj h).2
      exact ⟨rfl, rfl⟩
    | _ => exact absurd (List.cons.inj h).1 (by simp [mark])
  | param s =>
    cases t' with
    | constant w' v' => exact absurd ((List.cons.inj h).1 ▸ rfl) (Constant.word ht').2.1
    | param s' =>
      cases h
      exact ⟨rfl, rfl⟩
    | _ => exact absurd (List.cons.inj h).1 (by simp [mark])
  | enclosed u =>
    cases t' with
    | constant w' v' => exact absurd ((List.cons.inj h).1 ▸ rfl) (Constant.word ht').1
    | enclosed u' =>
      rw [words_enclosed, words_enclosed] at h
      obtain ⟨rfl, rfl⟩ := henclosed u u' r z rfl rfl (List.cons.inj h).2
      exact ⟨rfl, rfl⟩
    | _ => exact absurd (List.cons.inj h).1 (by simp [mark])
  | field s =>
    cases t' with
    | constant w' v' =>
      obtain ⟨rfl, -⟩ := List.cons.inj h
      exact absurd ht ((Constant.word ht').2.2.1 rfl)
    | field s' =>
      cases h
      exact ⟨rfl, rfl⟩
    | call s' op ts =>
      obtain rfl := (List.cons.inj h).2
      exact (hparen hr).elim
    | _ => exact absurd (List.cons.inj h).1 (by simp [mark])
  | call s op ts =>
    cases t' with
    | constant w' v' =>
      obtain ⟨rfl, -⟩ := List.cons.inj h
      exact absurd ht.1 ((Constant.word ht').2.2.1 rfl)
    | field s' =>
      obtain rfl := (List.cons.inj h).2
      exact (hparen hr').elim
    | call s' op' ts' =>
      obtain ⟨hs, htail⟩ := List.cons.inj h
      cases hs
      obtain ⟨rfl, rfl⟩ := hcall s op ts s op' ts' r z rfl rfl (List.cons.inj htail).2
      cases ht.2.2.symm.trans ht'.2.2
      exact ⟨rfl, rfl⟩
    | _ => exact absurd (List.cons.inj h).1 (by simp [mark])

end

/-- No other tree stands over the words of the tree, whatever follows that does not go on with
it. -/
def StandsAlone (ops : Operators) (t : Tree x) : Prop :=
  ∀ t' : Tree x, t.Conforms ops → t'.Conforms ops → ∀ {r z : List Word},
    t.words ++ r = t'.words ++ z → Closed x r → Closed x z → t = t' ∧ r = z

namespace StandsAlone

lemma join {c : Parser.Connective} {t : Tree (.operands c)} (ih : t.StandsAlone ops) :
    t.join.StandsAlone ops := by
  intro t' ht ht' r z h hr hr'
  cases t' with
  | join t' =>
    obtain ⟨rfl, rfl⟩ := ih t' ht ht' h (hr.mono fun _ => id) (hr'.mono fun _ => id)
    exact ⟨rfl, rfl⟩

lemma single {c : Parser.Connective} {t : Tree (operand c)} (ih : t.StandsAlone ops) :
    t.single.StandsAlone ops := by
  intro t' ht ht' r z h hr hr'
  have hoperand {s : List Word} (hs : Closed (.operands c) s) : Closed (operand c) s :=
    hs.mono fun _ => continues_operands
  cases t' with
  | single t' =>
    obtain ⟨rfl, rfl⟩ := ih t' ht ht' h (hoperand hr) (hoperand hr')
    exact ⟨rfl, rfl⟩
  | joined t' k ts' =>
    obtain ⟨ht', hk, -⟩ := ht'
    obtain ⟨-, rfl⟩ := ih t' ht ht' (h.trans (words_joined z t' k ts')) (hoperand hr)
      (closed_connective hk _).1
    exact absurd hr (closed_connective hk _).2

lemma joined {c : Parser.Connective} {t : Tree (operand c)} {ts : Tree (.operands c)}
    (ih : t.StandsAlone ops) (ihs : ts.StandsAlone ops) (k : Word) :
    (t.joined k ts).StandsAlone ops := by
  rintro t' ⟨ht, hk, hts⟩ ht' r z h hr hr'
  obtain ⟨hclosed, hgoes⟩ := closed_connective hk (ts.words ++ r)
  rw [words_joined] at h
  cases t' with
  | single t' =>
    obtain ⟨-, rfl⟩ := ih t' ht ht' h hclosed (hr'.mono fun _ => continues_operands)
    exact absurd hr' hgoes
  | joined t' k' ts' =>
    obtain ⟨ht', hk', hts'⟩ := ht'
    rw [words_joined] at h
    obtain ⟨rfl, htail⟩ := ih t' ht ht' h hclosed (closed_connective hk' _).1
    obtain ⟨rfl, hs⟩ := List.cons.inj htail
    obtain ⟨rfl, rfl⟩ := ihs ts' hts hts' hs hr hr'
    exact ⟨rfl, rfl⟩

lemma not {t : Tree .negation} (ih : t.StandsAlone ops) (k : Word) :
    (t.not k).StandsAlone ops := by
  intro t' ht ht' r z h hr hr'
  cases t' with
  | not k' t' =>
    obtain ⟨rfl, htail⟩ := List.cons.inj h
    obtain ⟨rfl, rfl⟩ := ih t' ht.2 ht'.2 htail hr hr'
    exact ⟨rfl, rfl⟩
  | positive t' =>
    obtain ⟨w, ws, hws, hw⟩ := t'.exists_cons_of_comparison ht'
    have h : k :: (t.words ++ r) = t'.words ++ z := h
    rw [hws] at h
    exact absurd ((List.cons.inj h).1 ▸ ht.1) hw

lemma positive {t : Tree .comparison} (ih : t.StandsAlone ops) :
    t.positive.StandsAlone ops := by
  intro t' ht ht' r z h hr hr'
  cases t' with
  | not k' t' =>
    obtain ⟨w, ws, hws, hw⟩ := t.exists_cons_of_comparison ht
    have h : t.words ++ r = k' :: (t'.words ++ z) := h
    rw [hws] at h
    exact absurd ((List.cons.inj h).1 ▸ ht'.1) hw
  | positive t' =>
    obtain ⟨rfl, rfl⟩ := ih t' ht ht' h (hr.mono fun _ => id) (hr'.mono fun _ => id)
    exact ⟨rfl, rfl⟩

lemma alone {t : Tree .primary} (ih : t.StandsAlone ops) : t.alone.StandsAlone ops := by
  intro t' ht ht' r z h hr hr'
  cases t' with
  | alone t' =>
    obtain ⟨rfl, rfl⟩ := ih t' ht ht' h (hr.mono fun _ => .inl) (hr'.mono fun _ => .inl)
    exact ⟨rfl, rfl⟩
  | compare t' k op u' =>
    obtain ⟨ht', hk, -⟩ := ht'
    obtain ⟨-, rfl⟩ := ih t' ht ht' (h.trans (words_compare z t' k op u'))
      (hr.mono fun _ => .inl) (closed_comparator hk _).1
    exact absurd hr (closed_comparator hk _).2

lemma compare {t u : Tree .primary} (ih : t.StandsAlone ops) (ih' : u.StandsAlone ops) (k : Word)
    (op : Comparator) : (t.compare k op u).StandsAlone ops := by
  rintro t' ⟨ht, hk, hu⟩ ht' r z h hr hr'
  obtain ⟨hclosed, hgoes⟩ := closed_comparator hk (u.words ++ r)
  rw [words_compare] at h
  cases t' with
  | alone t' =>
    obtain ⟨-, rfl⟩ := ih t' ht ht' h hclosed (hr'.mono fun _ => .inl)
    exact absurd hr' hgoes
  | compare t' k' op' u' =>
    obtain ⟨ht', hk', hu'⟩ := ht'
    rw [words_compare] at h
    obtain ⟨rfl, htail⟩ := ih t' ht ht' h hclosed (closed_comparator hk' _).1
    obtain ⟨rfl, hs⟩ := List.cons.inj htail
    obtain ⟨rfl, rfl⟩ := ih' u' hu hu' hs (hr.mono fun _ => .inl) (hr'.mono fun _ => .inl)
    cases hk.symm.trans hk'
    exact ⟨rfl, rfl⟩

lemma enclosed {u : Tree (.junction .or)} (ih : u.StandsAlone ops) :
    u.enclosed.StandsAlone ops := by
  intro t' ht ht' r z h hr hr'
  refine unique_of_primary ht ht' h hr hr' ?_ nofun
  rintro _ u' s s' ⟨⟩ rfl hu
  obtain ⟨rfl, hs⟩ := ih u' ht ht' hu (closed_mark (by decide) s) (closed_mark (by decide) s')
  exact ⟨rfl, (List.cons.inj hs).2⟩

lemma call {us : Tree .arguments} (ih : us.StandsAlone ops) (n : String) (op : Operator) :
    (us.call n op).StandsAlone ops := by
  intro t' ht ht' r z h hr hr'
  refine unique_of_primary ht ht' h hr hr' nofun ?_
  rintro _ _ _ n' op' us' s s' ⟨⟩ rfl hus
  exact ih us' ht.2.1 ht'.2.1 hus (fun _ _ => id) (fun _ _ => id)

lemma noArguments : Tree.noArguments.StandsAlone ops := by
  intro t' ht ht' r z h hr hr'
  cases t' with
  | noArguments => exact ⟨rfl, (List.cons.inj h).2⟩
  | someArguments ts' =>
    obtain ⟨w, ws, hws, hw⟩ := ts'.exists_cons ht' (by simp)
    have h : mark ")" :: r = ts'.words ++ z := h
    rw [hws] at h
    exact absurd (List.cons.inj h).1.symm (hw ")" (by decide))

lemma someArguments {ts : Tree .moreArguments} (ih : ts.StandsAlone ops) :
    ts.someArguments.StandsAlone ops := by
  intro t' ht ht' r z h hr hr'
  cases t' with
  | noArguments =>
    obtain ⟨w, ws, hws, hw⟩ := ts.exists_cons ht (by simp)
    have h : ts.words ++ r = mark ")" :: z := h
    rw [hws] at h
    exact absurd (List.cons.inj h).1 (hw ")" (by decide))
  | someArguments ts' =>
    obtain ⟨rfl, rfl⟩ := ih ts' ht ht' h (fun _ _ => id) (fun _ _ => id)
    exact ⟨rfl, rfl⟩

lemma lastArgument {t : Tree (.junction .or)} (ih : t.StandsAlone ops) :
    t.lastArgument.StandsAlone ops := by
  intro t' ht ht' r z h hr hr'
  rw [words_lastArgument] at h
  cases t' with
  | lastArgument t' =>
    rw [words_lastArgument] at h
    obtain ⟨rfl, hs⟩ := ih t' ht ht' h (closed_mark (by decide) r) (closed_mark (by decide) z)
    exact ⟨rfl, (List.cons.inj hs).2⟩
  | argument t' ts' =>
    rw [words_argument] at h
    obtain ⟨-, hs⟩ := ih t' ht ht'.1 h (closed_mark (by decide) _) (closed_mark (by decide) _)
    exact absurd (List.cons.inj hs).1 (by decide)

lemma argument {t : Tree (.junction .or)} {ts : Tree .moreArguments} (ih : t.StandsAlone ops)
    (ihs : ts.StandsAlone ops) : (t.argument ts).StandsAlone ops := by
  intro t' ht ht' r z h hr hr'
  rw [words_argument] at h
  cases t' with
  | lastArgument t' =>
    rw [words_lastArgument] at h
    obtain ⟨-, hs⟩ := ih t' ht.1 ht' h (closed_mark (by decide) _) (closed_mark (by decide) _)
    exact absurd (List.cons.inj hs).1 (by decide)
  | argument t' ts' =>
    rw [words_argument] at h
    obtain ⟨rfl, hs⟩ := ih t' ht.1 ht'.1 h (closed_mark (by decide) _)
      (closed_mark (by decide) _)
    obtain ⟨rfl, rfl⟩ := ihs ts' ht.2 ht'.2 (List.cons.inj hs).2 (fun _ _ => id) (fun _ _ => id)
    exact ⟨rfl, rfl⟩

end StandsAlone

lemma standsAlone (t : Tree x) : t.StandsAlone ops := by
  induction t with
  | join t ih => exact ih.join
  | single t ih => exact ih.single
  | joined t k ts ih ihs => exact ih.joined ihs k
  | not k t ih => exact ih.not k
  | positive t ih => exact ih.positive
  | alone t ih => exact ih.alone
  | compare t k op u ih ih' => exact ih.compare ih' k op
  | constant | array | param | field =>
    exact fun t' ht ht' _ _ h hr hr' => unique_of_primary ht ht' h hr hr' nofun nofun
  | enclosed u ih => exact ih.enclosed
  | call n op us ih => exact ih.call n op
  | noArguments => exact .noArguments
  | someArguments ts ih => exact ih.someArguments
  | lastArgument t ih => exact ih.lastArgument
  | argument t ts ih ihs => exact ih.argument ihs

/-- **Unambiguity**: a tree is settled by its words, whatever follows that does not go on with
it. -/
theorem unique (t t' : Tree x) (ht : t.Conforms ops) (ht' : t'.Conforms ops) {r z : List Word}
    (h : t.words ++ r = t'.words ++ z) (hr : Closed x r) (hr' : Closed x z) :
    t = t' ∧ r = z := t.standsAlone t' ht ht' h hr hr'

end Tree

end Grammar

end NearDoc
