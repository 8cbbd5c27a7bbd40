import NearDoc.Proofs.Query.Completeness

/-!
The grammar of queries, and that the parser reads all that it derives. Each clause is opened by a
keyword of its own, which ends the clause before it.
-/

namespace NearDoc

namespace Grammar

/-- Parts with commas between them. -/
inductive Separated {α : Type} (part : List Word → α → Prop) : List Word → List α → Prop where
  | one {ws : List Word} {a : α} (h : part ws a) : Separated part ws [a]
  | more {us vs : List Word} {a : α} {as : List α} (h : part us a) (hs : Separated part vs as) :
      Separated part (us ++ mark "," :: vs) (a :: as)

section

variable (ops : Operators)

inductive DerivesItem : List Word → Column → Prop where
  | plain {ws : List Word} {e : Expr} (h : Derives ops (.junction .or) ws [e]) :
      DerivesItem ws ⟨e, .null⟩
  | named {ws : List Word} {k : Word} {e : Expr} {a : String}
      (h : Derives ops (.junction .or) ws [e]) (hk : k.token.keyword? = some "AS")
      (ha : (Word.token ⟨.name, a⟩).keyword? = none) :
      DerivesItem (ws ++ [k, ⟨.name, a⟩]) ⟨e, .text a⟩

inductive DerivesKey : List Word → SortKey → Prop where
  | plain {ws : List Word} {e : Expr} (h : Derives ops (.junction .or) ws [e]) :
      DerivesKey ws ⟨e, .bool false⟩
  | ascending {ws : List Word} {k : Word} {e : Expr} (h : Derives ops (.junction .or) ws [e])
      (hk : k.token.keyword? = some "ASC") : DerivesKey (ws ++ [k]) ⟨e, .bool false⟩
  | descending {ws : List Word} {k : Word} {e : Expr} (h : Derives ops (.junction .or) ws [e])
      (hk : k.token.keyword? = some "DESC") : DerivesKey (ws ++ [k]) ⟨e, .bool true⟩

inductive DerivesSelection : List Word → Option (List Column) → Prop where
  | star : DerivesSelection [mark "*"] none
  | items {ws : List Word} {cs : List Column} (h : Separated (DerivesItem ops) ws cs) :
      DerivesSelection ws (some cs)

inductive DerivesCondition : List Word → Option Expr → Prop where
  | none : DerivesCondition [] none
  | some {k : Word} {ws : List Word} {e : Expr} (hk : k.token.keyword? = some "WHERE")
      (h : Derives ops (.junction .or) ws [e]) : DerivesCondition (k :: ws) (some e)

inductive DerivesOrdering : List Word → List SortKey → Prop where
  | none : DerivesOrdering [] []
  | some {k k' : Word} {ws : List Word} {ks : List SortKey} (hk : k.token.keyword? = some "ORDER")
      (hk' : k'.token.keyword? = some "BY") (h : Separated (DerivesKey ops) ws ks) :
      DerivesOrdering (k :: k' :: ws) ks

end

inductive DerivesLimit : List Word → Value → Prop where
  | none : DerivesLimit [] .null
  | some {k : Word} {s : String} {n : Int} (hk : k.token.keyword? = some "LIMIT")
      (hs : Parser.integer? s.toList = some (.ok n)) : DerivesLimit [k, ⟨.number, s⟩] (.int n)

/-- A query up to its limit. -/
inductive DerivesFront (ops : Operators) : List Word → Plan → Prop where
  | front {k k' : Word} {c : String} {sel cond ord : List Word} {p : Plan}
      (hk : k.token.keyword? = some "SELECT") (hsel : DerivesSelection ops sel p.columns)
      (hk' : k'.token.keyword? = some "FROM") (hname : (Word.token ⟨.name, c⟩).keyword? = none)
      (hc : p.collection = .text c) (hcond : DerivesCondition ops cond p.predicate)
      (hord : DerivesOrdering ops ord p.order) :
      DerivesFront ops (k :: (sel ++ k' :: ⟨.name, c⟩ :: (cond ++ ord))) p

inductive DerivesQuery (ops : Operators) : List Word → Plan → Prop where
  | query {us lim : List Word} {p : Plan} (h : DerivesFront ops us p)
      (hlim : DerivesLimit lim p.limit) : DerivesQuery ops (us ++ lim) p

/-! ### What ends a part -/

/-- The next token, if any, is one of some keywords. -/
def Opens (ks : List String) (ts : List Token) : Prop :=
  ∀ t ∈ ts.head?, ∃ k ∈ ks, t.keyword? = some k

/-- The next token, if any, is a comma or opens a clause. -/
def Stops (ts : List Token) : Prop :=
  ∀ t ∈ ts.head?, t.word = mark "," ∨ ∃ k ∈ ["FROM", "ORDER", "LIMIT"], t.keyword? = some k

variable {ts : List Token} {ks ls : List String}

lemma Opens.mono (h : Opens ks ts) (hkl : ks ⊆ ls) : Opens ls ts := fun t ht => by
  obtain ⟨k, hk, heq⟩ := h t ht
  exact ⟨k, hkl hk, heq⟩

lemma Opens.stops (h : Opens ks ts) (hks : ks ⊆ ["FROM", "ORDER", "LIMIT"]) : Stops ts :=
  fun t ht => .inr (h.mono hks t ht)

lemma Stops.ends (h : Stops ts) (x : Category) : Ends x ts := by
  intro t ht
  rcases h t ht with hmark | ⟨k, hk, heq⟩
  · exact not_continues_mark hmark (by decide)
  · refine not_continues_keyword heq ?_ ?_ <;>
    · rintro rfl
      simp at hk

end Grammar

namespace Parser

open Grammar

variable {ctx : Context} {ts us rest : List Token}

lemma afterKeyword?_of_opens {ks : List String} {k : String} (h : Opens ks ts) (hk : k ∉ ks) :
    afterKeyword? k ts = none := by
  rw [Option.eq_none_iff_forall_not_mem]
  intro r hr
  obtain ⟨t, rfl, ht⟩ := afterKeyword?_eq_some.mp hr
  obtain ⟨l, hl, heq⟩ := h t rfl
  rw [ht, Option.some.injEq] at heq
  exact hk (heq ▸ hl)

lemma afterKeyword?_of_stops {k : String} (h : Stops ts) (hk : k ∉ ["FROM", "ORDER", "LIMIT"]) :
    afterKeyword? k ts = none := by
  rw [Option.eq_none_iff_forall_not_mem]
  intro r hr
  obtain ⟨t, rfl, ht⟩ := afterKeyword?_eq_some.mp hr
  rcases h t rfl with hmark | ⟨l, hl, heq⟩
  · have hkind := kind_of_keyword? ht
    exact absurd (congrArg Word.kind hmark) (by simp [Token.word, mark, hkind])
  · rw [ht, Option.some.injEq] at heq
    exact hk (heq ▸ hl)

lemma afterPunct?_of_opens {ks : List String} (h : Opens ks ts) (symbol : String) :
    afterPunct? symbol ts = none := by
  rw [Option.eq_none_iff_forall_not_mem]
  intro r hr
  obtain ⟨t, rfl, ht⟩ := afterPunct?_eq_some.mp hr
  obtain ⟨k, -, heq⟩ := h t rfl
  have hkind := kind_of_keyword? heq
  exact absurd (congrArg Word.kind ht) (by simp [Token.word, mark, hkind])

/-- Keywords are names, in any case. -/
lemma keyword?_of_name {t : Token} {s : String} (ht : t.word = ⟨.name, s⟩) :
    t.keyword? = (Word.token ⟨.name, s⟩).keyword? := by
  rw [← ht]
  rfl

/-! ### Clauses -/

theorem separated_of_derives (ctx : Context) {α : Type} {part : List Word → α → Prop}
    {read : List Token → Except Error (α × List Token)}
    (hread : ∀ us rest a, part (us.map Token.word) a → Stops rest →
      read (us ++ rest) = .ok (a, rest))
    {as : List α} (h : Separated part (us.map Token.word) as) {n : Nat} (hn : us.length < n)
    {ks : List String} (hrest : Opens ks rest) (hks : ks ⊆ ["FROM", "ORDER", "LIMIT"]) :
    separated ctx read n (us ++ rest) = .ok (as, rest) := by
  induction n generalizing us as with
  | zero => omega
  | succ n ih =>
    generalize hus : us.map Token.word = ws at h
    cases h with
    | @one ws a h =>
      subst hus
      rw [separated, hread us rest a h (hrest.stops hks)]
      simp [Bind.bind, Except.bind, afterPunct?_of_opens hrest, pure, Except.pure]
    | @more us' vs a as h hs =>
      obtain ⟨us, us', rfl, rfl, hus'⟩ := List.map_eq_append_iff.mp hus
      obtain ⟨t, us', rfl, ht, rfl⟩ := List.map_eq_cons_iff.mp hus'
      simp only [List.length_append, List.length_cons] at hn
      have hstops : Stops (t :: (us' ++ rest)) := by
        rintro _ ⟨⟩
        exact .inl ht
      rw [List.append_assoc, List.cons_append, separated, hread us _ a h hstops]
      simp [Bind.bind, Except.bind, afterPunct?_of_word ht, ih hs (by omega), pure, Except.pure]

lemma name_of_word {what c : String} {t : Token} (ht : t.word = ⟨.name, c⟩)
    (hc : (Word.token ⟨.name, c⟩).keyword? = none) :
    name ctx what (t :: rest) = .ok (c, rest) := by
  have hkind : t.kind = .name := congrArg Word.kind ht
  have htext : t.text = c := congrArg Word.text ht
  have hkey : t.keyword? = none := by rw [keyword?_of_name ht, hc]
  simp [name, hkind, htext, hkey]

lemma item_of_derives (us rest : List Token) (c : Column)
    (h : DerivesItem ctx.operators (us.map Token.word) c) (hrest : Stops rest) :
    item ctx (us ++ rest) = .ok (c, rest) := by
  generalize hus : us.map Token.word = ws at h
  cases h with
  | plain h =>
    subst hus
    rw [item, expression_of_derives ctx h rest (hrest.ends _)]
    simp [Bind.bind, Except.bind, afterKeyword?_of_stops hrest, pure, Except.pure]
  | @named ws k e a h hk ha =>
    obtain ⟨us, us', rfl, rfl, hus'⟩ := List.map_eq_append_iff.mp hus
    obtain ⟨t, us', rfl, rfl, hus''⟩ := List.map_eq_cons_iff.mp hus'
    obtain ⟨t', rfl, ht'⟩ := List.map_eq_singleton_iff.mp hus''
    have hk' : t.keyword? = some "AS" := hk
    have hends : Ends (.junction .or) (t :: t' :: rest) :=
      ends_cons.mpr (not_continues_keyword hk' (by decide) (by decide))
    rw [List.append_assoc, List.cons_append, List.singleton_append, item,
      expression_of_derives ctx h _ hends]
    simp [Bind.bind, Except.bind, afterKeyword?_of_eq hk', name_of_word ht' ha, pure, Except.pure]

lemma sortKey_of_derives (us rest : List Token) (k : SortKey)
    (h : DerivesKey ctx.operators (us.map Token.word) k) (hrest : Stops rest) :
    sortKey ctx (us ++ rest) = .ok (k, rest) := by
  generalize hus : us.map Token.word = ws at h
  cases h with
  | plain h =>
    subst hus
    rw [sortKey, expression_of_derives ctx h rest (hrest.ends _)]
    simp [Bind.bind, Except.bind, afterKeyword?_of_stops hrest, pure, Except.pure]
  | @ascending ws k e h hk =>
    obtain ⟨us, us', rfl, rfl, hus'⟩ := List.map_eq_append_iff.mp hus
    obtain ⟨t, rfl, rfl⟩ := List.map_eq_singleton_iff.mp hus'
    have hk' : t.keyword? = some "ASC" := hk
    have hdesc : afterKeyword? "DESC" (t :: rest) = none := by simp [afterKeyword?, hk']
    have hends : Ends (.junction .or) (t :: rest) :=
      ends_cons.mpr (not_continues_keyword hk' (by decide) (by decide))
    rw [List.append_assoc, List.singleton_append, sortKey, expression_of_derives ctx h _ hends]
    simp [Bind.bind, Except.bind, hdesc, afterKeyword?_of_eq hk', pure, Except.pure]
  | @descending ws k e h hk =>
    obtain ⟨us, us', rfl, rfl, hus'⟩ := List.map_eq_append_iff.mp hus
    obtain ⟨t, rfl, rfl⟩ := List.map_eq_singleton_iff.mp hus'
    have hk' : t.keyword? = some "DESC" := hk
    have hends : Ends (.junction .or) (t :: rest) :=
      ends_cons.mpr (not_continues_keyword hk' (by decide) (by decide))
    rw [List.append_assoc, List.singleton_append, sortKey, expression_of_derives ctx h _ hends]
    simp [Bind.bind, Except.bind, afterKeyword?_of_eq hk', pure, Except.pure]

/-- Columns do not begin with the mark that stands for none. -/
lemma exists_cons_of_items {ws : List Word} {cs : List Column}
    (h : Separated (DerivesItem ctx.operators) ws cs) : ∃ w ws', ws = w :: ws' ∧ w ≠ mark "*" := by
  have hitem {ws : List Word} {c : Column} (h : DerivesItem ctx.operators ws c) :
      ∃ w ws', ws = w :: ws' ∧ w ≠ mark "*" := by
    cases h with
    | plain h =>
      obtain ⟨w, ws', rfl, hw⟩ := exists_cons_of_derives h (by simp)
      exact ⟨w, _, rfl, hw "*" (by decide)⟩
    | named h hk ha =>
      obtain ⟨w, ws', rfl, hw⟩ := exists_cons_of_derives h (by simp)
      exact ⟨w, _, rfl, hw "*" (by decide)⟩
  cases h with
  | one h => exact hitem h
  | more h hs =>
    obtain ⟨w, ws', rfl, hw⟩ := hitem h
    exact ⟨w, _, rfl, hw⟩

lemma selection_of_derives {cs : Option (List Column)}
    (h : DerivesSelection ctx.operators (us.map Token.word) cs) (hrest : Opens ["FROM"] rest) :
    selection ctx (us ++ rest) = .ok (cs, rest) := by
  generalize hus : us.map Token.word = ws at h
  cases h with
  | star =>
    obtain ⟨t, rfl, ht⟩ := List.map_eq_singleton_iff.mp hus
    rw [List.singleton_append, selection, afterPunct?_of_word ht]
  | @items ws cs h =>
    subst hus
    have hstar : afterPunct? "*" (us ++ rest) = none := by
      obtain ⟨w, ws', hws, hw⟩ := exists_cons_of_items h
      obtain ⟨t, us, rfl, rfl, -⟩ := List.map_eq_cons_iff.mp hws
      exact afterPunct?_of_ne hw
    have hread := separated_of_derives ctx item_of_derives h
      (n := (us ++ rest).length + 1) (by simp only [List.length_append]; omega)
      hrest (by simp)
    rw [selection, hstar]
    simp only [hread, Except.map]

lemma condition_of_derives {p : Option Expr}
    (h : DerivesCondition ctx.operators (us.map Token.word) p)
    (hrest : Opens ["ORDER", "LIMIT"] rest) :
    condition ctx (us ++ rest) = .ok (p, rest) := by
  generalize hus : us.map Token.word = ws at h
  cases h with
  | none =>
    cases List.map_eq_nil_iff.mp hus
    rw [List.nil_append, condition, afterKeyword?_of_opens hrest (by decide)]
  | @some k ws e hk h =>
    obtain ⟨t, us, rfl, rfl, rfl⟩ := List.map_eq_cons_iff.mp hus
    have hk' : t.keyword? = some "WHERE" := hk
    have hends := (hrest.stops (by simp)).ends (.junction .or)
    rw [List.cons_append, condition, afterKeyword?_of_eq hk']
    simp only [expression_of_derives ctx h rest hends, Except.map]

lemma ordering_of_derives {ks : List SortKey}
    (h : DerivesOrdering ctx.operators (us.map Token.word) ks) (hrest : Opens ["LIMIT"] rest) :
    ordering ctx (us ++ rest) = .ok (ks, rest) := by
  generalize hus : us.map Token.word = ws at h
  cases h with
  | none =>
    cases List.map_eq_nil_iff.mp hus
    rw [List.nil_append, ordering, afterKeyword?_of_opens hrest (by decide)]
  | @some k k' ws ks hk hk' h =>
    obtain ⟨t, us, rfl, rfl, hus'⟩ := List.map_eq_cons_iff.mp hus
    obtain ⟨t', us, rfl, rfl, rfl⟩ := List.map_eq_cons_iff.mp hus'
    have ht : t.keyword? = some "ORDER" := hk
    have ht' : t'.keyword? = some "BY" := hk'
    have hby : keyword ctx "BY" (t' :: (us ++ rest)) = .ok (us ++ rest) :=
      keyword_eq_ok.mpr (afterKeyword?_of_eq ht')
    have hread := separated_of_derives ctx sortKey_of_derives h
      (n := (us ++ rest).length + 1) (by simp only [List.length_append]; omega)
      hrest (by simp)
    rw [List.cons_append, List.cons_append, ordering, afterKeyword?_of_eq ht]
    simp only [hby, Bind.bind, Except.bind, hread]

lemma limit_of_derives {l : Value} (h : DerivesLimit (us.map Token.word) l) :
    limit ctx us = .ok (l, []) := by
  generalize hus : us.map Token.word = ws at h
  cases h with
  | none =>
    cases List.map_eq_nil_iff.mp hus
    rfl
  | @some k s n hk hs =>
    obtain ⟨t, us, rfl, rfl, hus'⟩ := List.map_eq_cons_iff.mp hus
    obtain ⟨t', rfl, ht'⟩ := List.map_eq_singleton_iff.mp hus'
    have ht : t.keyword? = some "LIMIT" := hk
    have hkind : t'.kind = .number := congrArg Word.kind ht'
    have htext : t'.text = s := congrArg Word.text ht'
    rw [limit, afterKeyword?_of_eq ht]
    simp [hkind, htext, hs, Except.map]

lemma opens_limit {l : Value} (h : DerivesLimit (ts.map Token.word) l) : Opens ["LIMIT"] ts := by
  generalize hts : ts.map Token.word = ws at h
  cases h with
  | none =>
    cases List.map_eq_nil_iff.mp hts
    simp [Opens]
  | some hk hs =>
    obtain ⟨t, us, rfl, rfl, -⟩ := List.map_eq_cons_iff.mp hts
    rintro _ ⟨⟩
    exact ⟨_, by simp, hk⟩

lemma opens_ordering {ks : List SortKey}
    (h : DerivesOrdering ctx.operators (us.map Token.word) ks) (hrest : Opens ["LIMIT"] rest) :
    Opens ["ORDER", "LIMIT"] (us ++ rest) := by
  generalize hus : us.map Token.word = ws at h
  cases h with
  | none =>
    cases List.map_eq_nil_iff.mp hus
    exact hrest.mono (by simp)
  | some hk hk' h =>
    obtain ⟨t, us, rfl, rfl, -⟩ := List.map_eq_cons_iff.mp hus
    rintro _ ⟨⟩
    exact ⟨_, by simp, hk⟩

/-- What is read before the limit is settled whatever the limit is. -/
theorem query_of_front (ctx : Context) {p : Plan}
    (h : DerivesFront ctx.operators (us.map Token.word) p) (hrest : Opens ["LIMIT"] rest) :
    query ctx (us ++ rest) =
      limit ctx rest >>= fun r => finish ctx ({ p with limit := r.1 }, r.2) := by
  generalize hus : us.map Token.word = ws at h
  cases h with
  | @front k k' c sel cond ord p hk hsel hk' hname hc hcond hord =>
    obtain ⟨t, ts₁, rfl, rfl, hts₁⟩ := List.map_eq_cons_iff.mp hus
    obtain ⟨ss, ts₂, rfl, rfl, hts₂⟩ := List.map_eq_append_iff.mp hts₁
    obtain ⟨t', ts₃, rfl, rfl, hts₃⟩ := List.map_eq_cons_iff.mp hts₂
    obtain ⟨t'', ts₄, rfl, ht'', hts₄⟩ := List.map_eq_cons_iff.mp hts₃
    obtain ⟨cs, os, rfl, rfl, rfl⟩ := List.map_eq_append_iff.mp hts₄
    have hfrom : Opens ["FROM"] (t' :: t'' :: (cs ++ (os ++ rest))) := by
      rintro _ ⟨⟩
      exact ⟨_, by simp, hk'⟩
    have horder : Opens ["ORDER", "LIMIT"] (os ++ rest) := opens_ordering hord hrest
    have hselect : keyword ctx "SELECT" (t :: (ss ++ t' :: t'' :: (cs ++ (os ++ rest)))) =
        .ok (ss ++ t' :: t'' :: (cs ++ (os ++ rest))) :=
      keyword_eq_ok.mpr (afterKeyword?_of_eq hk)
    have hfrom' : keyword ctx "FROM" (t' :: t'' :: (cs ++ (os ++ rest))) =
        .ok (t'' :: (cs ++ (os ++ rest))) := keyword_eq_ok.mpr (afterKeyword?_of_eq hk')
    simp only [List.cons_append, List.append_assoc, query, hselect, Bind.bind, Except.bind,
      selection_of_derives hsel hfrom, hfrom', name_of_word ht'' hname,
      condition_of_derives hcond horder, ordering_of_derives hord hrest, hc]

/-- **Queries**: a text whose words derive a plan is read as that. -/
theorem query_of_derives (ctx : Context) {p : Plan}
    (h : DerivesQuery ctx.operators (ts.map Token.word) p) : query ctx ts = .ok p := by
  generalize hts : ts.map Token.word = ws at h
  cases h with
  | query h hlim =>
    obtain ⟨us, ls, rfl, rfl, rfl⟩ := List.map_eq_append_iff.mp hts
    rw [query_of_front ctx h (opens_limit hlim), limit_of_derives hlim]
    rfl

theorem parse_of_derives {ops : Operators} {s : String} {ws : List Word} {p : Plan}
    (hs : Lexes s.toList ws) (h : DerivesQuery ops ws p) : Plan.parse ops s = .ok p := by
  obtain ⟨ts, hts, rfl⟩ := hs.exists_tokens
  exact bind_eq_ok.mpr ⟨ts, hts, query_of_derives ⟨ops, s.length⟩ h⟩

end Parser

end NearDoc
