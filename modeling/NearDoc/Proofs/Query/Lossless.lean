import NearDoc.Proofs.Query.Cut
import NearDoc.Proofs.Query.Places

/-!
What a text and its tokens tell of each other. Main statement: a text is its tokens with blanks
between them, other blanks between them leave the tokens as they are but for their places, and a
text without tokens has a first place at which it goes on with no form of a lexeme.
-/

namespace NearDoc

open Text

/-! ### Tokens and gaps -/

namespace Token

/-- The place behind a token. -/
def after (t : Token) : Nat := t.position + t.text.length

/-- What stands in front of each token, from a place on or behind the token before. -/
def gaps (s : List Char) (n : Nat) : List Token → List (List Char)
  | [] => []
  | t :: ts => s.extract n t.position :: gaps s t.after ts

/-- The tokens stand in a text one behind the other, with blanks in the gaps, up to its end. -/
structure Covers (s : List Char) (ts : List Token) : Prop where
  ascending : ts.Pairwise (·.position < ·.position)
  slice : ∀ t ∈ ts, s.extract t.position t.after = t.text.toList
  blank : ∀ gap ∈ gaps s 0 ts, ∀ c ∈ gap, isBlank c
  rebuilt : (List.zipWith (fun gap t => gap ++ t.text.toList) (gaps s 0 ts) ts).flatten = s
  stop : ts.getLast? = some (stop s.length)

/-- What is told of a token beside its place. -/
def told (t : Token) : TokenKind × String × Option String := (t.kind, t.text, t.keyword?)

/-- Tokens from a place on, one behind the other. -/
inductive Follow (s : List Char) : Nat → List Token → Prop where
  | stop {n : Nat} (hn : n ≤ s.length) (hblank : ∀ c ∈ s.drop n, isBlank c) :
      Follow s n [stop s.length]
  | token {n : Nat} {t : Token} {ts : List Token} (hn : n ≤ t.position)
      (hblank : ∀ c ∈ s.extract n t.position, isBlank c)
      (hslice : s.extract t.position t.after = t.text.toList) (hpos : t.position < t.after)
      (h : Follow s t.after ts) : Follow s n (t :: ts)

namespace Follow

variable {s : List Char} {m n : Nat} {t : Token} {ts : List Token}

lemma extract_append (s : List Char) {l m n : Nat} (hlm : l ≤ m) (hmn : m ≤ n) :
    s.extract l m ++ s.extract m n = s.extract l n := by
  have hm : s.drop m = (s.drop l).drop (m - l) := by rw [List.drop_drop]; congr 1; omega
  have hn : n - l = m - l + (n - m) := by omega
  rw [List.extract, List.extract, List.extract, hm, hn, List.take_add]

lemma extract_append_drop (s : List Char) {m n : Nat} (h : m ≤ n) :
    s.extract m n ++ s.drop n = s.drop m := by
  have hn : s.drop n = (s.drop m).drop (n - m) := by rw [List.drop_drop]; congr 1; omega
  rw [List.extract, hn, List.take_append_drop]

/-- Blanks in front belong to the first gap. -/
lemma widen (h : Follow s n ts) (hmn : m ≤ n) (hblank : ∀ c ∈ s.extract m n, isBlank c) :
    Follow s m ts := by
  cases h with
  | stop hn hrest =>
    refine .stop (by omega) fun c hc => ?_
    rw [← extract_append_drop s hmn, List.mem_append] at hc
    exact hc.elim (hblank c) (hrest c)
  | token hn hgap hslice hpos h =>
    refine .token (by omega) (fun c hc => ?_) hslice hpos h
    rw [← extract_append s hmn hn, List.mem_append] at hc
    exact hc.elim (hblank c) (hgap c)

lemma le_position (h : Follow s n ts) : ∀ t ∈ ts, n ≤ t.position := by
  induction h with
  | stop hn => simpa [Token.stop] using hn
  | token hn _ _ hpos _ ih =>
    refine List.forall_mem_cons.mpr ⟨hn, fun u hu => ?_⟩
    have := ih u hu
    omega

lemma ascending (h : Follow s n ts) : ts.Pairwise (·.position < ·.position) := by
  induction h with
  | stop => exact List.pairwise_singleton _ _
  | token _ _ _ hpos h ih =>
    exact List.pairwise_cons.mpr ⟨fun u hu => Nat.lt_of_lt_of_le hpos (h.le_position u hu), ih⟩

lemma slice (h : Follow s n ts) : ∀ t ∈ ts, s.extract t.position t.after = t.text.toList := by
  induction h with
  | stop => simp [Token.stop, Token.after]
  | token _ _ hslice _ _ ih => exact List.forall_mem_cons.mpr ⟨hslice, ih⟩

lemma blank (h : Follow s n ts) : ∀ gap ∈ gaps s n ts, ∀ c ∈ gap, isBlank c := by
  induction h with
  | stop _ hblank =>
    simp only [gaps, List.mem_singleton, forall_eq]
    exact fun c hc => hblank c (List.mem_of_mem_take hc)
  | token _ hblank _ _ _ ih => exact List.forall_mem_cons.mpr ⟨hblank, ih⟩

lemma rebuilt (h : Follow s n ts) :
    (List.zipWith (fun gap t => gap ++ t.text.toList) (gaps s n ts) ts).flatten = s.drop n := by
  induction h with
  | @stop n hn =>
    have hend := extract_append_drop s hn
    rw [List.drop_length, List.append_nil] at hend
    simp only [gaps, Token.stop, List.zipWith_cons_cons, List.zipWith_nil_left, List.flatten_cons,
      List.flatten_nil, String.toList_empty, List.append_nil]
    exact hend
  | @token n t ts hn _ hslice hpos _ ih =>
    rw [gaps, List.zipWith_cons_cons, List.flatten_cons, ih, ← hslice, List.append_assoc,
      extract_append_drop s hpos.le, extract_append_drop s hn]

lemma getLast? (h : Follow s n ts) : ts.getLast? = some (Token.stop s.length) := by
  induction h with
  | stop => rfl
  | token _ _ _ _ h ih =>
    rw [List.getLast?_cons, ih]
    rfl

theorem covers (h : Follow s 0 ts) : Covers s ts :=
  ⟨h.ascending, h.slice, h.blank, h.rebuilt, h.getLast?⟩

end Follow

/-- Tokens that are scanned follow each other. -/
theorem follow_of_scan {s : List Char} {n : Nat} {ts : List Token} (hn : n ≤ s.length)
    (h : scan n 0 (s.drop n) = .ok ts) : Follow s n (ts ++ [stop s.length]) := by
  generalize hleft : s.length - n = left
  induction left using Nat.strongRecOn generalizing n ts with
  | _ left ih =>
  rcases hnext : Lexeme.next? (s.drop n) with _ | ⟨kind, k⟩
  · rcases hdrop : s.drop n with _ | ⟨c, rest⟩
    · rw [hdrop] at h
      cases h
      exact .stop hn (by simp [hdrop])
    · rw [hdrop] at h hnext
      rw [scan_cons, hnext] at h
      cases h
  · have hpos := Lexeme.pos_of_next? hnext
    have hle := Lexeme.le_of_next? hnext
    rw [List.length_drop] at hle
    rw [scan_next hnext, List.drop_drop] at h
    obtain ⟨us, hus, rfl⟩ := map_eq_ok.mp h
    have hrest := ih (s.length - (n + k)) (by omega) (by omega) hus rfl
    have hextract : s.extract n (n + k) = (s.drop n).take k := by
      rw [List.extract, Nat.add_sub_cancel_left]
    cases kind with
    | none =>
      refine hrest.widen (Nat.le_add_right n k) fun c hc => ?_
      rw [hextract] at hc
      cases Lexeme.form_of_next? hnext with
      | blanks _ hblank => exact hblank c hc
    | some kind =>
      have hafter : Token.after ⟨kind, String.ofList ((s.drop n).take k), n⟩ = n + k := by
        simp only [Token.after, String.length_ofList, List.length_take, List.length_drop]
        omega
      refine .token le_rfl (by simp [List.extract]) ?_ ?_ ?_
      · rw [hafter, hextract, String.toList_ofList]
      · rw [hafter]
        exact Nat.lt_add_of_pos_right hpos
      · rw [hafter]
        exact hrest

/-! ### Other blanks -/

/-- What is told of a word. -/
lemma told_eq (t : Token) : t.told = t.word.token.told := rfl

/-- Texts with the same words in them, apart, are told the same. -/
theorem exists_tokens_of_spaced {s : String} {ts : List Token} (h : tokens s = .ok ts) {s' : String}
    (hs : Spaced (ts.map word) s'.toList) :
    ∃ ts', tokens s' = .ok ts' ∧ ts'.map told = ts.map told := by
  have halone : ∀ w ∈ ts.map word, w.Alone := by
    intro w hw
    obtain ⟨t, ht, rfl⟩ := List.mem_map.mp hw
    obtain ⟨k, hnext, htext⟩ := ((tokens_meets s).ok h t ht).lexeme
    have := Lexeme.alone_of_next? hnext
    rwa [← htext, String.ofList_toList] at this
  obtain ⟨ts', hts', hwords⟩ := (hs.lexes halone).exists_tokens
  refine ⟨ts', hts', ?_⟩
  calc ts'.map told
    _ = (ts'.map word).map fun w => w.token.told := by
      rw [List.map_map]
      exact List.map_congr_left fun t _ => told_eq t
    _ = ts.map told := by
      rw [hwords, List.map_map]
      exact List.map_congr_left fun t _ => (told_eq t).symm

end Token

/-! ### The first place without a lexeme -/

/-- Between two places that are reached, the lexeme at the first of them ends. -/
lemma Reached.next?_le {s : List Char} {m n : Nat} (hm : Reached s m) (hn : Reached s n)
    (hlt : m < n) : ∃ kind k, Lexeme.next? (s.drop m) = some (kind, k) ∧ m + k ≤ n := by
  induction n using Nat.strongRecOn generalizing m with
  | _ n ih =>
  cases hn with
  | start => omega
  | @next l k kind hl hnext =>
    have hpos := Lexeme.pos_of_next? hnext
    rcases Nat.lt_trichotomy m l with hml | rfl | hlm
    · obtain ⟨kind', k', h, hle⟩ := ih l (by omega) hm hl hml
      exact ⟨kind', k', h, by omega⟩
    · exact ⟨kind, k, hnext, le_rfl⟩
    · -- the lexeme that starts before the first place ends behind it
      obtain ⟨kind', k', h, hle⟩ := ih m hlt hl hm hlm
      rw [hnext] at h
      cases h
      omega

/-- The first place at which a text goes on, but with no form. All before it is tokens. -/
structure Stuck (s : List Char) (c : Char) (n : Nat) : Prop where
  reached : Reached s n
  character : s[n]? = some c
  formless : ∀ kind t, Lexeme.Form kind t → ¬ t <+: s.drop n
  first : ∀ m, Reached s m → m ≠ n → m < n ∧ ∃ kind t, Lexeme.Form kind t ∧ t <+: s.drop m
  before : ∃ ts, Token.tokens (String.ofList (s.take n)) = .ok ts ∧ ∀ t ∈ ts, t.Stands s

namespace Token

/-- Up to a place that is reached, a text has its tokens. -/
lemma exists_scan_take {s : List Char} {m n : Nat} (hm : Reached s m) (hn : Reached s n)
    (hle : m ≤ n) : ∃ ts, scan m 0 ((s.take n).drop m) = .ok ts ∧ ∀ t ∈ ts, Stands s t := by
  generalize hleft : n - m = left
  induction left using Nat.strongRecOn generalizing m with
  | _ left ih =>
  rcases hle.eq_or_lt with heq | hlt
  · rw [heq, List.drop_eq_nil_of_le (List.length_take_le n s)]
    exact ⟨[], rfl, nofun⟩
  obtain ⟨kind, k, hnext, hk⟩ := hm.next?_le hn hlt
  have hpos := Lexeme.pos_of_next? hnext
  obtain ⟨ts, hts, hstands⟩ := ih (n - (m + k)) (by omega) (hm.next hnext) hk rfl
  have hcut : Lexeme.next? ((s.take n).drop m) = some (kind, k) := by
    rw [List.drop_take]
    exact Lexeme.next?_take hnext (by omega)
  have htake : ((s.take n).drop m).take k = (s.drop m).take k := by
    rw [List.drop_take, List.take_take, Nat.min_eq_left (by omega)]
  rw [scan_next hcut, List.drop_drop, hts, htake]
  refine ⟨_, rfl, ?_⟩
  cases kind with
  | none => exact hstands
  | some kind => exact List.forall_mem_cons.mpr ⟨⟨hm, k, hnext, String.toList_ofList⟩, hstands⟩

end Token

theorem Unmatched.stuck {s : List Char} {c : Char} {n : Nat} (h : Unmatched s c n) :
    Stuck s c n where
  reached := h.reached
  character := h.character
  formless := Lexeme.next?_eq_none_iff.mp h.unmatched
  first m hm hne := by
    rcases Nat.lt_or_gt_of_ne hne with hlt | hlt
    · obtain ⟨kind, k, hnext, -⟩ := hm.next?_le h.reached hlt
      exact ⟨hlt, kind, _, Lexeme.form_of_next? hnext, List.take_prefix ..⟩
    · obtain ⟨kind, k, hnext, -⟩ := h.reached.next?_le hm hlt
      rw [h.unmatched] at hnext
      cases hnext
  before := by
    obtain ⟨ts, hts, hstands⟩ := Token.exists_scan_take .start h.reached (Nat.zero_le n)
    refine ⟨ts, ?_, hstands⟩
    rw [Token.tokens, String.toList_ofList]
    exact hts

/-! ### Quotes -/

namespace Lexeme

lemma IsEnquoted.even_count {s : List Char} (h : IsEnquoted s) : Even (s.count '\'') := by
  induction h with
  | nil => simp
  | other hc h ih => rwa [List.count_cons_of_ne hc]
  | doubled h ih =>
    rw [List.count_cons_self, List.count_cons_self]
    exact ih.add (by decide : Even 2)

lemma quote_not_mem {p : Char → Bool} (hp : p '\'' = false) {s : List Char} (h : ∀ c ∈ s, p c) :
    '\'' ∉ s := fun hmem => by simp [h _ hmem] at hp

lemma quote_not_mem_identifier {s : List Char} (h : IsIdentifier s) : '\'' ∉ s := by
  obtain ⟨c, r, rfl, hc, hr⟩ := h
  refine quote_not_mem (p := isNameChar) (by decide) (List.forall_mem_cons.mpr ⟨?_, hr⟩)
  exact isNameChar_of_isNameStart hc

lemma quote_not_mem_digits {s : List Char} (h : ∀ c ∈ s, isDigit c) : '\'' ∉ s :=
  quote_not_mem (by decide) h

lemma quote_not_mem_dotted {s : List Char} (h : Dotted s) : '\'' ∉ s := by
  induction h with
  | nil => simp
  | identifier h hs ih => simp [quote_not_mem_identifier h, ih]
  | digits hne h hs ih => simp [quote_not_mem_digits h, ih]

lemma IsMantissa.quote_not_mem {s : List Char} (h : IsMantissa s) : '\'' ∉ s := by
  cases h with
  | whole _ h => exact quote_not_mem_digits h
  | pointed _ h h' => simp [quote_not_mem_digits h, quote_not_mem_digits h']
  | fraction _ h => simp [quote_not_mem_digits h]

lemma IsExponent.quote_not_mem {s : List Char} (h : IsExponent s) : '\'' ∉ s := by
  cases h with
  | none => simp
  | digits hletter hsign _ h =>
    simp only [List.mem_cons, List.not_mem_nil, or_false] at hletter hsign
    rcases hletter with rfl | rfl <;> rcases hsign with rfl | rfl | rfl <;>
      simp [quote_not_mem_digits h]

/-- Quotes are found in texts alone, and there in pairs. -/
theorem Form.even_count {kind : Option TokenKind} {s : List Char} (h : Form kind s) :
    Even (s.count '\'') := by
  have hzero {t : List Char} (ht : '\'' ∉ t) : Even (t.count '\'') := by
    simp [List.count_eq_zero.mpr ht]
  cases h with
  | blanks _ h => exact hzero (quote_not_mem (by decide) h)
  | number hsign h h' =>
    refine hzero ?_
    simp only [List.mem_cons, List.not_mem_nil, or_false] at hsign
    rcases hsign with rfl | rfl <;> simp [h.quote_not_mem, h'.quote_not_mem]
  | @text s h =>
    have hends : ('\'' :: (s ++ ['\''])).count '\'' = s.count '\'' + 2 := by simp
    rw [hends]
    exact h.even_count.add (by decide)
  | param h => exact hzero (by simp [quote_not_mem_identifier h])
  | name h h' => exact hzero (by simp [quote_not_mem_identifier h, quote_not_mem_dotted h'])
  | op h =>
    simp only [List.mem_cons, List.not_mem_nil, or_false] at h
    rcases h with rfl | rfl | rfl | rfl | rfl | rfl | rfl | rfl <;> decide
  | punct h =>
    simp only [List.mem_cons, List.not_mem_nil, or_false] at h
    rcases h with rfl | rfl | rfl | rfl | rfl | rfl <;> decide

end Lexeme

/-- A text that has words has its quotes in pairs. -/
theorem Lexes.even_count {s : List Char} {ws : List Word} (h : Lexes s ws) :
    Even (s.count '\'') := by
  induction h with
  | nil => simp
  | blank hc h ih =>
    rwa [List.count_cons_of_ne]
    rintro rfl
    exact absurd hc (by decide)
  | @word s ws kind n hnext h ih =>
    rw [← List.take_append_drop n s, List.count_append]
    exact (Lexeme.form_of_next? hnext).even_count.add ih

namespace Token

/-- **A text and its tokens**: tokens cover their text, and any text with them in it, apart, has the
same ones. Where there are no tokens, the place that is told of is the first without a lexeme. A
text with an odd number of quotes has none. -/
theorem tokenize_lossless (s : String) :
    Meets (fun e => ∃ c n, e = .malformedQuery (.unexpectedCharacter c) n ∧ Stuck s.toList c n)
        (fun ts => Covers s.toList ts ∧ ∀ s' : String, Spaced (ts.dropLast.map word) s'.toList →
          ∃ ts', tokenize s' = .ok ts' ∧ ts'.map told = ts.map told)
        (tokenize s) ∧
      (Odd (s.toList.count '\'') → ∃ e, tokenize s = .error e) := by
  rcases h : tokens s with e | ts
  · obtain ⟨c, n, rfl, hunmatched⟩ := (tokens_meets s).error h
    rw [tokenize, h]
    exact ⟨⟨c, n, rfl, hunmatched.stuck⟩, fun _ => ⟨_, rfl⟩⟩
  · have hfollow : Follow s.toList 0 (ts ++ [stop s.toList.length]) :=
      follow_of_scan (Nat.zero_le _) h
    rw [tokenize, h, ← String.length_toList]
    refine ⟨⟨hfollow.covers, fun s' hs => ?_⟩, fun hodd => ?_⟩
    · rw [List.dropLast_concat] at hs
      obtain ⟨ts', hts', htold⟩ := exists_tokens_of_spaced h hs
      refine ⟨ts' ++ [stop s'.length], by rw [tokenize, hts']; rfl, ?_⟩
      rw [List.map_append, List.map_append, htold]
      rfl
    · exact absurd (Lexes.of_tokens h).even_count (Nat.not_even_iff_odd.mpr hodd)

end Token

end NearDoc
