import NearDoc.Proofs.Query.Statement

/-!
The parser reads only queries that the grammar derives, clause by clause. With the other direction,
a text is read as a plan just if its words derive that plan.
-/

namespace NearDoc.Parser

open Grammar

variable {ctx : Context} {ts rest : List Token}

lemma Reads.nil {P : List Word → Prop} (h : P []) (ts : List Token) : Reads P ts ts :=
  ⟨[], rfl, h⟩

/-- A stretch of two parts. -/
lemma Reads.trans {P P' Q : List Word → Prop} {ts' : List Token} (h : Reads P ts ts')
    (h' : Reads P' ts' rest) (hPQ : ∀ us vs, P us → P' vs → Q (us ++ vs)) : Reads Q ts rest := by
  obtain ⟨us, rfl, hus⟩ := h
  obtain ⟨vs, rfl, hvs⟩ := h'
  exact ⟨us ++ vs, by simp, by simpa using hPQ _ _ hus hvs⟩

lemma Reads.keyword {k : String} (h : afterKeyword? k ts = some rest) :
    Reads (fun ws => ∃ w, ws = [w] ∧ w.token.keyword? = some k) ts rest := by
  obtain ⟨t, rfl, ht⟩ := afterKeyword?_eq_some.mp h
  exact ⟨[t], rfl, t.word, rfl, ht⟩

lemma reads_of_name {what c : String} (h : name ctx what ts = .ok (c, rest)) :
    Reads (fun ws => ws = [⟨.name, c⟩] ∧ (Word.token ⟨.name, c⟩).keyword? = none) ts rest := by
  cases ts with
  | nil => cases h
  | cons t ts =>
    rw [name] at h
    split at h
    · rename_i ht
      cases h
      have hword : t.word = ⟨.name, t.text⟩ := by rw [Token.word, ht.1]
      exact ⟨[t], rfl, by simp [hword], by rw [← keyword?_of_name hword]; exact ht.2⟩
    · cases h

theorem reads_of_separated {α : Type} {part : List Word → α → Prop}
    {read : List Token → Except Error (α × List Token)}
    (hread : ∀ ts rest a, read ts = .ok (a, rest) → Reads (part · a) ts rest) {n : Nat}
    {as : List α} (h : separated ctx read n ts = .ok (as, rest)) :
    Reads (Separated part · as) ts rest := by
  induction n generalizing ts as with
  | zero => cases h
  | succ n ih =>
    simp only [separated, bind_eq_ok] at h
    obtain ⟨⟨a, ts'⟩, ha, h⟩ := h
    have hfirst := hread _ _ _ ha
    split at h
    · rename_i r hmark
      obtain ⟨t, rfl, ht⟩ := afterPunct?_eq_some.mp hmark
      obtain ⟨⟨as', r'⟩, has, h⟩ := bind_eq_ok.mp h
      cases h
      exact hfirst.append (ih has) fun us vs hu hv => ht ▸ .more hu hv
    · cases h
      exact hfirst.imp fun _ => .one

lemma reads_of_item (ts rest : List Token) (c : Column) (h : item ctx ts = .ok (c, rest)) :
    Reads (DerivesItem ctx.operators · c) ts rest := by
  simp only [item, bind_eq_ok] at h
  obtain ⟨⟨e, ts'⟩, he, h⟩ := h
  have hexpr := reads_of_expression he
  split at h
  · rename_i r hword
    obtain ⟨⟨a, r'⟩, ha, h⟩ := bind_eq_ok.mp h
    cases h
    refine hexpr.trans ((Reads.keyword hword).trans (reads_of_name ha)
      (Q := fun ws => ∃ k, ws = [k, ⟨.name, a⟩] ∧ k.token.keyword? = some "AS" ∧
        (Word.token ⟨.name, a⟩).keyword? = none) ?_) ?_
    · rintro _ _ ⟨k, rfl, hk⟩ ⟨rfl, hname⟩
      exact ⟨k, rfl, hk, hname⟩
    · rintro us _ hu ⟨k, rfl, hk, hname⟩
      exact .named hu hk hname
  · cases h
    exact hexpr.imp fun _ => .plain

lemma reads_of_sortKey (ts rest : List Token) (k : SortKey) (h : sortKey ctx ts = .ok (k, rest)) :
    Reads (DerivesKey ctx.operators · k) ts rest := by
  simp only [sortKey, bind_eq_ok] at h
  obtain ⟨⟨e, ts'⟩, he, h⟩ := h
  have hexpr := reads_of_expression he
  split at h
  · rename_i r hword
    cases h
    refine hexpr.trans (Reads.keyword hword) ?_
    rintro us _ hu ⟨k, rfl, hk⟩
    exact .descending hu hk
  · cases h
    rcases hword : afterKeyword? "ASC" ts' with _ | r
    · exact hexpr.imp fun _ => .plain
    · refine hexpr.trans (Reads.keyword hword) ?_
      rintro us _ hu ⟨k, rfl, hk⟩
      exact .ascending hu hk

lemma reads_of_selection {cs : Option (List Column)} (h : selection ctx ts = .ok (cs, rest)) :
    Reads (DerivesSelection ctx.operators · cs) ts rest := by
  rw [selection] at h
  split at h
  · rename_i r hmark
    obtain ⟨t, rfl, ht⟩ := afterPunct?_eq_some.mp hmark
    cases h
    exact ⟨[t], rfl, by simpa [ht] using DerivesSelection.star⟩
  · obtain ⟨⟨as, r⟩, has, heq⟩ := map_eq_ok.mp h
    cases heq
    exact (reads_of_separated reads_of_item has).imp fun _ => .items

lemma reads_of_condition {p : Option Expr} (h : condition ctx ts = .ok (p, rest)) :
    Reads (DerivesCondition ctx.operators · p) ts rest := by
  rw [condition] at h
  split at h
  · rename_i r hword
    obtain ⟨⟨e, r'⟩, he, heq⟩ := map_eq_ok.mp h
    cases heq
    refine (Reads.keyword hword).trans (reads_of_expression he) ?_
    rintro _ ws ⟨k, rfl, hk⟩ hw
    exact .some hk hw
  · cases h
    exact .nil .none _

lemma reads_of_ordering {ks : List SortKey} (h : ordering ctx ts = .ok (ks, rest)) :
    Reads (DerivesOrdering ctx.operators · ks) ts rest := by
  rw [ordering] at h
  split at h
  · rename_i r hword
    obtain ⟨r', hby, h⟩ := bind_eq_ok.mp h
    refine (Reads.keyword hword).trans
      ((Reads.keyword (keyword_eq_ok.mp hby)).trans (reads_of_separated reads_of_sortKey h)
        (Q := fun ws => ∃ k' vs, ws = k' :: vs ∧ k'.token.keyword? = some "BY" ∧
          Separated (DerivesKey ctx.operators) vs ks) ?_) ?_
    · rintro _ vs ⟨k', rfl, hk'⟩ hv
      exact ⟨k', vs, rfl, hk', hv⟩
    · rintro _ _ ⟨k, rfl, hk⟩ ⟨k', vs, rfl, hk', hv⟩
      exact .some hk hk' hv
  · cases h
    exact .nil .none _

lemma reads_of_limit {l : Value} (h : limit ctx ts = .ok (l, rest)) :
    Reads (DerivesLimit · l) ts rest := by
  rw [limit] at h
  split at h
  · cases h
    exact .nil .none _
  · rename_i r hword
    split at h
    · rename_i t r'
      split at h
      · rename_i x hx
        obtain ⟨n, rfl, heq⟩ := map_eq_ok.mp h
        cases heq
        split at hx
        · rename_i hkind
          obtain ⟨k, rfl, hk⟩ := afterKeyword?_eq_some.mp hword
          have ht : t.word = ⟨.number, t.text⟩ := by rw [Token.word, hkind]
          refine ⟨[k, t], rfl, ?_⟩
          simp only [List.map_cons, List.map_nil, ht]
          exact .some hk hx
        · cases hx
      · cases h
    · cases h

/-- **Queries**: tokens are read as a plan just if their words derive it. -/
theorem query_eq_ok {p : Plan} :
    query ctx ts = .ok p ↔ DerivesQuery ctx.operators (ts.map Token.word) p := by
  refine ⟨fun h => ?_, query_of_derives ctx⟩
  simp only [query, bind_eq_ok] at h
  obtain ⟨ts₁, hselect, ⟨columns, ts₂⟩, hcolumns, ts₃, hfrom, ⟨c, ts₄⟩, hname, ⟨predicate, ts₅⟩,
    hpredicate, ⟨order, ts₆⟩, horder, ⟨l, ts₇⟩, hlimit, h⟩ := h
  obtain ⟨rfl, rfl⟩ := finish_eq_ok.mp h
  obtain ⟨k, rfl, hk⟩ := afterKeyword?_eq_some.mp (keyword_eq_ok.mp hselect)
  obtain ⟨sel, rfl, hsel⟩ := reads_of_selection hcolumns
  obtain ⟨k', rfl, hk'⟩ := afterKeyword?_eq_some.mp (keyword_eq_ok.mp hfrom)
  obtain ⟨ns, rfl, hns, hc⟩ := reads_of_name hname
  obtain ⟨cond, rfl, hcond⟩ := reads_of_condition hpredicate
  obtain ⟨ord, rfl, hord⟩ := reads_of_ordering horder
  obtain ⟨lim, rfl, hlim⟩ := reads_of_limit hlimit
  have hfront : DerivesFront ctx.operators
      (k.word :: (sel.map Token.word ++ k'.word :: ⟨.name, c⟩ ::
        (cond.map Token.word ++ ord.map Token.word)))
      ⟨.text c, predicate, order, l, columns⟩ := .front hk hsel hk' hc rfl hcond hord
  simpa [hns] using DerivesQuery.query hfront hlim

theorem plan_parse_eq_ok {ops : Operators} {s : String} {p : Plan} :
    Plan.parse ops s = .ok p ↔
      ∃ ts, Token.tokens s = .ok ts ∧ DerivesQuery ops (ts.map Token.word) p := by
  rw [Plan.parse, parseWith]
  constructor
  · intro h
    obtain ⟨ts, hts, h⟩ := bind_eq_ok.mp h
    exact ⟨ts, hts, query_eq_ok.mp h⟩
  · rintro ⟨ts, hts, h⟩
    exact bind_eq_ok.mpr ⟨ts, hts, query_eq_ok.mpr h⟩

theorem expr_parse_eq_ok {ops : Operators} {s : String} {e : Expr} :
    Expr.parse ops s = .ok e ↔
      ∃ ts, Token.tokens s = .ok ts ∧ Derives ops (.junction .or) (ts.map Token.word) [e] := by
  constructor
  · intro h
    obtain ⟨ts, hts, h⟩ := bind_eq_ok.mp h
    obtain ⟨⟨e', rest⟩, he, h⟩ := bind_eq_ok.mp h
    obtain ⟨rfl, rfl⟩ := finish_eq_ok.mp h
    obtain ⟨us, rfl, hus⟩ := reads_of_expression he
    exact ⟨us, by rwa [List.append_nil] at hts, hus⟩
  · rintro ⟨ts, hts, h⟩
    exact parse_eq_ok.mpr ⟨_, .of_tokens hts, h⟩

end NearDoc.Parser
