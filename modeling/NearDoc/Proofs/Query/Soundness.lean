import NearDoc.Proofs.Outcome
import NearDoc.Proofs.Query.Grammar

/-!
The parser reads only what the grammar derives: what is read at the front of some tokens derives
what was made of it, by induction on the depth.
-/

namespace NearDoc.Parser

open Grammar

variable {ctx : Context}

/-- The tokens up to a rest have words of a kind. -/
def Reads (P : List Word → Prop) (ts rest : List Token) : Prop :=
  ∃ us, ts = us ++ rest ∧ P (us.map Token.word)

lemma Reads.cons {P Q : List Word → Prop} {t : Token} {ts rest : List Token}
    (h : Reads P ts rest) (hPQ : ∀ ws, P ws → Q (t.word :: ws)) : Reads Q (t :: ts) rest := by
  obtain ⟨us, rfl, hus⟩ := h
  exact ⟨t :: us, rfl, hPQ _ hus⟩

lemma Reads.append {P P' Q : List Word → Prop} {ts ts' rest : List Token} {t : Token}
    (h : Reads P ts (t :: ts')) (h' : Reads P' ts' rest)
    (hPQ : ∀ us vs, P us → P' vs → Q (us ++ t.word :: vs)) : Reads Q ts rest := by
  obtain ⟨us, rfl, hus⟩ := h
  obtain ⟨vs, rfl, hvs⟩ := h'
  exact ⟨us ++ t :: vs, by simp, by simpa using hPQ _ _ hus hvs⟩

lemma Reads.imp {P Q : List Word → Prop} {ts rest : List Token} (h : Reads P ts rest)
    (hPQ : ∀ ws, P ws → Q ws) : Reads Q ts rest := by
  obtain ⟨us, rfl, hus⟩ := h
  exact ⟨us, rfl, hPQ _ hus⟩

lemma Reads.concat {P Q : List Word → Prop} {ts rest : List Token} {t : Token}
    (h : Reads P ts (t :: rest)) (hPQ : ∀ ws, P ws → Q (ws ++ [t.word])) : Reads Q ts rest := by
  obtain ⟨us, rfl, hus⟩ := h
  exact ⟨us ++ [t], by simp, by simpa using hPQ _ hus⟩

/-- A part read by itself, as a list. -/
def single {α : Type} (x : Except Error (α × List Token)) : Except Error (List α × List Token) :=
  x.map fun r => ([r.1], r.2)

lemma single_eq_ok {α : Type} {x : Except Error (α × List Token)} {as : List α}
    {rest : List Token} : single x = .ok (as, rest) ↔ ∃ a, x = .ok (a, rest) ∧ as = [a] := by
  rw [single, map_eq_ok]
  constructor
  · rintro ⟨⟨a, r⟩, hx, h⟩
    cases h
    exact ⟨a, hx, rfl⟩
  · rintro ⟨a, hx, rfl⟩
    exact ⟨(a, rest), hx, rfl⟩

/-! ### Arrays -/

/-- Each part of an array by its reader. -/
def listing (ctx : Context) :
    ArrayPart → Nat → List Token → Except Error (List Value × List Token)
  | .element, n, ts => single (element ctx n ts)
  | .elements, n, ts => elements ctx n ts
  | .array, n, ts => single (array ctx n ts)

theorem reads_of_listing {n : Nat} {p : ArrayPart} {ts rest : List Token} {vs : List Value}
    (h : listing ctx p n ts = .ok (vs, rest)) : Reads (Lists p · vs) ts rest := by
  induction n generalizing p ts rest vs with
  | zero => cases p <;> simp [listing, single, element, elements, array, failExpected, fail,
      Except.map] at h
  | succ n ih =>
    cases p with
    | element =>
      obtain ⟨v, hv, rfl⟩ := single_eq_ok.mp h
      clear h
      rw [element.eq_def] at hv
      dsimp only at hv
      split at hv
      · rename_i ts' hmark
        obtain ⟨t, rfl, ht⟩ := afterPunct?_eq_some.mp hmark
        exact (ih (p := .array) (single_eq_ok.mpr ⟨v, hv, rfl⟩)).cons fun ws hws => ht ▸ .nested hws
      · split at hv
        · rename_i t r hmark
          split at hv
          · rename_i x hx
            obtain ⟨a, rfl, ha⟩ := map_eq_ok.mp hv
            cases ha
            exact ⟨[t], rfl, .constant hx⟩
          · cases hv
        · cases hv
    | elements =>
      simp only [listing, elements, bind_eq_ok] at h
      obtain ⟨⟨v, ts'⟩, hv, h⟩ := h
      have hread := ih (p := .element) (single_eq_ok.mpr ⟨v, hv, rfl⟩)
      split at h
      · rename_i r hmark
        obtain ⟨t, rfl, ht⟩ := afterPunct?_eq_some.mp hmark
        obtain ⟨⟨vs', ts''⟩, hvs, h⟩ := bind_eq_ok.mp h
        cases h
        exact hread.append (ih (p := .elements) hvs) fun us ws hu hw => ht ▸ .more hu hw
      · obtain ⟨ts'', hts, h⟩ := bind_eq_ok.mp h
        cases h
        obtain ⟨t, rfl, ht⟩ := afterPunct?_eq_some.mp (punct_eq_ok.mp hts)
        exact hread.concat fun ws hws => ht ▸ .last hws
    | array =>
      obtain ⟨v, hv, rfl⟩ := single_eq_ok.mp h
      clear h
      rw [array] at hv
      split at hv
      · rename_i ts' hmark
        obtain ⟨t, rfl, ht⟩ := afterPunct?_eq_some.mp hmark
        cases hv
        exact ⟨[t], rfl, by simpa [ht] using Lists.empty⟩
      · obtain ⟨⟨vs, r⟩, hvs, heq⟩ := map_eq_ok.mp hv
        cases heq
        exact (ih (p := .elements) hvs).imp fun ws hws => .nonempty hws

/-! ### Expressions -/

/-- Each category by its reader. -/
def phrase (ctx : Context) : Category → Nat → List Token → Except Error (List Expr × List Token)
  | .junction c, n, ts => single (junction ctx c n ts)
  | .operands c, n, ts => operands ctx c n ts
  | .negation, n, ts => single (negation ctx n ts)
  | .comparison, n, ts => single (comparison ctx n ts)
  | .primary, n, ts => single (primary ctx n ts)
  | .arguments, n, ts => arguments ctx n ts
  | .moreArguments, n, ts => moreArguments ctx n ts

lemma operands_succ (c : Connective) (n : Nat) (ts : List Token) :
    operands ctx c (n + 1) ts =
      (phrase ctx (operand c) n ts >>= fun r =>
        match afterKeyword? c.word r.2 with
        | some ts => (operands ctx c n ts).map fun s => (r.1 ++ s.1, s.2)
        | none => .ok r) := by
  have step (x : Except Error (Expr × List Token)) :
      (x >>= fun r =>
        match afterKeyword? c.word r.2 with
        | some ts => operands ctx c n ts >>= fun s => pure (r.1 :: s.1, s.2)
        | none => pure ([r.1], r.2)) =
      (single x >>= fun r =>
        match afterKeyword? c.word r.2 with
        | some ts => (operands ctx c n ts).map fun s => (r.1 ++ s.1, s.2)
        | none => .ok r) := by
    rcases x with err | ⟨e, ts'⟩
    · rfl
    · dsimp only [single, Except.map, Bind.bind, Except.bind]
      rcases afterKeyword? c.word ts' with _ | r
      · rfl
      · dsimp only
        rcases operands ctx c n r with err | s <;> rfl
  cases c with
  | or => exact step (junction ctx .and n ts)
  | and => exact step (negation ctx n ts)

lemma exists_of_operand {c : Connective} {n : Nat} {ts rest : List Token} {es : List Expr}
    (h : phrase ctx (operand c) n ts = .ok (es, rest)) : ∃ e, es = [e] := by
  cases c <;>
  · obtain ⟨e, -, he⟩ := single_eq_ok.mp h
    exact ⟨e, he⟩

section

variable {n : Nat} {ts rest : List Token} {e : Expr} {es : List Expr}
  (ih : ∀ {x : Category} {ts rest : List Token} {es : List Expr},
    phrase ctx x n ts = .ok (es, rest) → Reads (Derives ctx.operators x · es) ts rest)
include ih

lemma reads_of_junction {c : Connective} (h : junction ctx c (n + 1) ts = .ok (e, rest)) :
    Reads (Derives ctx.operators (.junction c) · [e]) ts rest := by
  rw [junction, map_eq_ok] at h
  obtain ⟨⟨es, r⟩, hes, heq⟩ := h
  cases heq
  exact (ih (x := .operands c) hes).imp fun _ => .join

lemma reads_of_operands {c : Connective} (h : operands ctx c (n + 1) ts = .ok (es, rest)) :
    Reads (Derives ctx.operators (.operands c) · es) ts rest := by
  rw [operands_succ, bind_eq_ok] at h
  obtain ⟨⟨es', ts'⟩, he, h⟩ := h
  have hread := ih (x := operand c) he
  obtain ⟨e, rfl⟩ := exists_of_operand he
  split at h
  · rename_i r hword
    obtain ⟨t, rfl, ht⟩ := afterKeyword?_eq_some.mp hword
    obtain ⟨⟨es'', ts''⟩, hes, heq⟩ := map_eq_ok.mp h
    cases heq
    exact hread.append (ih (x := .operands c) hes) fun us vs hu hv => .joined hu ht hv
  · cases h
    exact hread.imp fun _ => .single

lemma reads_of_negation (h : negation ctx (n + 1) ts = .ok (e, rest)) :
    Reads (Derives ctx.operators .negation · [e]) ts rest := by
  rw [negation] at h
  split at h
  · rename_i r hword
    obtain ⟨t, rfl, ht⟩ := afterKeyword?_eq_some.mp hword
    obtain ⟨⟨e', r'⟩, he, heq⟩ := map_eq_ok.mp h
    cases heq
    exact (ih (x := .negation) (single_eq_ok.mpr ⟨e', he, rfl⟩)).cons fun _ => .not ht
  · exact (ih (x := .comparison) (single_eq_ok.mpr ⟨e, h, rfl⟩)).imp fun _ => .positive

lemma reads_of_comparison (h : comparison ctx (n + 1) ts = .ok (e, rest)) :
    Reads (Derives ctx.operators .comparison · [e]) ts rest := by
  simp only [comparison, bind_eq_ok] at h
  obtain ⟨⟨left, ts'⟩, hleft, h⟩ := h
  have hread := ih (x := .primary) (single_eq_ok.mpr ⟨left, hleft, rfl⟩)
  rcases ts' with _ | ⟨t, r⟩
  · cases h
    exact hread.imp fun _ => .alone
  · dsimp only at h
    split at h
    · rename_i op hop
      obtain ⟨⟨right, r'⟩, hright, h⟩ := bind_eq_ok.mp h
      cases h
      have hread' := ih (x := .primary) (single_eq_ok.mpr ⟨right, hright, rfl⟩)
      exact hread.append hread' fun us vs hu hv => .compare hu hop hv
    · cases h
      exact hread.imp fun _ => .alone

lemma reads_of_arguments (h : arguments ctx (n + 1) ts = .ok (es, rest)) :
    Reads (Derives ctx.operators .arguments · es) ts rest := by
  rw [arguments] at h
  split at h
  · rename_i r hmark
    obtain ⟨t, rfl, ht⟩ := afterPunct?_eq_some.mp hmark
    cases h
    exact ⟨[t], rfl, by simpa [ht] using Derives.noArguments⟩
  · exact (ih (x := .moreArguments) h).imp fun _ => .someArguments

lemma reads_of_moreArguments (h : moreArguments ctx (n + 1) ts = .ok (es, rest)) :
    Reads (Derives ctx.operators .moreArguments · es) ts rest := by
  simp only [moreArguments, bind_eq_ok] at h
  obtain ⟨⟨e, ts'⟩, he, h⟩ := h
  have hread := ih (x := .junction .or) (single_eq_ok.mpr ⟨e, he, rfl⟩)
  split at h
  · rename_i r hmark
    obtain ⟨t, rfl, ht⟩ := afterPunct?_eq_some.mp hmark
    obtain ⟨⟨es', ts''⟩, hes, h⟩ := bind_eq_ok.mp h
    cases h
    exact hread.append (ih (x := .moreArguments) hes) fun us ws hu hw => ht ▸ .argument hu hw
  · obtain ⟨ts'', hts, h⟩ := bind_eq_ok.mp h
    cases h
    obtain ⟨t, rfl, ht⟩ := afterPunct?_eq_some.mp (punct_eq_ok.mp hts)
    exact hread.concat fun ws hws => ht ▸ .lastArgument hws

lemma reads_of_primary (h : primary ctx (n + 1) ts = .ok (e, rest)) :
    Reads (Derives ctx.operators .primary · [e]) ts rest := by
  rw [primary.eq_def] at h
  dsimp only at h
  split at h
  · cases h
  · rename_i t r
    split at h
    · rename_i x hx
      obtain ⟨a, rfl, ha⟩ := map_eq_ok.mp h
      cases ha
      exact ⟨[t], rfl, .constant hx⟩
    · split at h
      · rename_i hkind
        cases h
        have ht : t.word = ⟨.param, t.text⟩ := by rw [Token.word, hkind]
        exact ⟨[t], rfl, by simpa [ht] using Derives.param⟩
      · rename_i hkind
        split at h
        · rename_i htext
          have ht : t.word = mark "[" := by rw [Token.word, hkind, htext, mark]
          obtain ⟨⟨v, r'⟩, hv, heq⟩ := map_eq_ok.mp h
          cases heq
          exact (reads_of_listing (p := .array) (single_eq_ok.mpr ⟨v, hv, rfl⟩)).cons
            fun ws hws => ht ▸ .array hws
        · split at h
          · rename_i htext
            have ht : t.word = mark "(" := by rw [Token.word, hkind, htext, mark]
            obtain ⟨⟨e', r'⟩, he, h⟩ := bind_eq_ok.mp h
            obtain ⟨r'', hr, h⟩ := bind_eq_ok.mp h
            cases h
            obtain ⟨t', rfl, ht'⟩ := afterPunct?_eq_some.mp (punct_eq_ok.mp hr)
            have hread := ih (x := .junction .or) (single_eq_ok.mpr ⟨e', he, rfl⟩)
            refine (hread.concat (Q := fun ws => Derives ctx.operators .primary (t.word :: ws) [e'])
              fun ws hws => ?_).cons fun _ => id
            rw [ht, ht']
            exact .enclosed hws
          · cases h
      · rename_i hkind
        split at h
        · rename_i hname
          have ht : t.word = ⟨.name, t.text⟩ := by rw [Token.word, hkind]
          have hname' : (Word.token ⟨.name, t.text⟩).keyword? = none := by rw [← ht]; exact hname
          split at h
          · rename_i r' hmark
            obtain ⟨t', rfl, ht'⟩ := afterPunct?_eq_some.mp hmark
            obtain ⟨⟨es, r''⟩, hes, h⟩ := bind_eq_ok.mp h
            have hread := ih (x := .arguments) hes
            dsimp only at h
            split at h
            · rename_i op hop
              cases h
              refine (hread.cons (t := t')
                (Q := fun ws => Derives ctx.operators .primary (t.word :: ws) [.call op es none])
                fun ws hws => ?_).cons fun _ => id
              rw [ht, ht']
              exact .call hname' hws hop
            all_goals cases h
          · cases h
            exact ⟨[t], rfl, by simpa [ht] using Derives.field hname'⟩
        · cases h
      · cases h

end

/-- **Soundness**: what is read at the front of some tokens derives what was made of it. -/
theorem reads_of_phrase {n : Nat} {x : Category} {ts rest : List Token} {es : List Expr}
    (h : phrase ctx x n ts = .ok (es, rest)) : Reads (Derives ctx.operators x · es) ts rest := by
  induction n generalizing x ts rest es with
  | zero => cases x <;> simp [phrase, single, junction, operands, negation, comparison, primary,
      arguments, moreArguments, failExpected, fail, Except.map] at h
  | succ n ih =>
    cases x with
    | junction c =>
      obtain ⟨e, he, rfl⟩ := single_eq_ok.mp h
      exact reads_of_junction ih he
    | operands c => exact reads_of_operands ih h
    | negation =>
      obtain ⟨e, he, rfl⟩ := single_eq_ok.mp h
      exact reads_of_negation ih he
    | comparison =>
      obtain ⟨e, he, rfl⟩ := single_eq_ok.mp h
      exact reads_of_comparison ih he
    | primary =>
      obtain ⟨e, he, rfl⟩ := single_eq_ok.mp h
      exact reads_of_primary ih he
    | arguments => exact reads_of_arguments ih h
    | moreArguments => exact reads_of_moreArguments ih h

end NearDoc.Parser
