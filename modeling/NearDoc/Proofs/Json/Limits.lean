import Mathlib.Algebra.Ring.Int.Defs
import Mathlib.Data.List.TakeWhile
import NearDoc.Json.Reader
import NearDoc.Proofs.Outcome

/-!
What a reader has no room for. A reader goes over its text from the left; what it leaves is the end
of the text and stands outside of quotes, and the brackets that it opened are closed again. Main
statements: the reading of a text is refused for an integer with too many digits only if outside of
quotes the text has as many digits in a row, and for its depth only if more brackets are open there
at once than there is room for.
-/

namespace NearDoc.Json

open Number

/-- What stands outside of quotes in a text of which quotes are open or not. A quoted text is left
as its opening quote. -/
def unquoted : Bool → List Char → List Char
  | _, [] => []
  | false, '"' :: s => '"' :: unquoted true s
  | false, c :: s => c :: unquoted false s
  | true, '"' :: s => unquoted false s
  | true, '\\' :: _ :: s => unquoted true s
  | true, _ :: s => unquoted true s

/-- Outside of quotes the text has so many digits in a row, more than an integer may have. -/
def TooLong (s : List Char) (n : Nat) : Prop :=
  ∃ run, run <:+: unquoted false s ∧ (∀ c ∈ run, isAsciiDigit c = true) ∧ run.length = n ∧
    longestInteger < n

/-- By how much a character changes the number of open brackets. -/
def opening (c : Char) : Int :=
  if c = '[' || c = '\x7b' then 1 else if c = ']' || c = '\x7d' then -1 else 0

/-- How many more brackets a text opens than it closes. -/
def depthAfter (s : List Char) : Int := (s.map opening).sum

/-- Somewhere outside of quotes more brackets of the text are open than there is room for. -/
def TooDeep (room : Int) (s : List Char) : Prop :=
  ∃ front, front <+: unquoted false s ∧ room < depthAfter front

/-- The end of a text that starts outside of quotes, so many brackets deeper than the text. -/
def Behind (depth : Int) (s rest : List Char) : Prop :=
  ∃ front, unquoted false s = front ++ unquoted false rest ∧ depthAfter front = depth

/-- What a reader makes of a text: it leaves an end of it, or it is refused, for a long integer only
if there is one and for the depth only if there is no room for it. -/
def Consumes {α : Type} (depth room : Int) (s : List Char)
    (outcome : Except Error (α × List Char)) : Prop :=
  Meets
    (fun e => (∀ n, e = .tooManyDigits n → TooLong s n) ∧
      ∀ what, e = .nestedTooDeep what → TooDeep room s)
    (fun r => Behind depth s r.2) outcome

variable {α β : Type} {s rest : List Char} {n : Nat} {depth depth' room : Int}

lemma depthAfter_append (front s : List Char) :
    depthAfter (front ++ s) = depthAfter front + depthAfter s := by
  simp [depthAfter]

lemma Behind.refl (s : List Char) : Behind 0 s s := ⟨[], rfl, rfl⟩

lemma Behind.trans {rest' : List Char} {total : Int} (h : Behind depth s rest)
    (h' : Behind depth' rest rest') (htotal : depth + depth' = total) : Behind total s rest' := by
  obtain ⟨front, hfront, rfl⟩ := h
  obtain ⟨middle, hmiddle, rfl⟩ := h'
  refine ⟨front ++ middle, by rw [hfront, hmiddle, List.append_assoc], ?_⟩
  rw [depthAfter_append, htotal]

lemma Behind.skip {rest' : List Char} (h : Behind depth s rest) (h' : Behind 0 rest rest') :
    Behind depth s rest' := h.trans h' (by omega)

lemma TooLong.of_behind (h : Behind depth s rest) (hn : TooLong rest n) : TooLong s n := by
  obtain ⟨front, hfront, -⟩ := h
  obtain ⟨run, hrun, hdigits, hlen, hlong⟩ := hn
  exact ⟨run, hfront ▸ hrun.trans (List.suffix_append _ _).isInfix, hdigits, hlen, hlong⟩

lemma TooDeep.of_behind (h : Behind depth s rest) (hdeep : TooDeep room rest) :
    TooDeep (depth + room) s := by
  obtain ⟨front, hfront, rfl⟩ := h
  obtain ⟨middle, hmiddle, hroom⟩ := hdeep
  refine ⟨front ++ middle, ?_, ?_⟩
  · rw [hfront]
    exact List.prefix_append_right_inj _ |>.mpr hmiddle
  · rw [depthAfter_append]
    omega

lemma Consumes.of_behind {total inner : Int} (h : Behind depth s rest)
    {outcome : Except Error (α × List Char)} (ho : Consumes depth' inner rest outcome)
    (htotal : depth + depth' = total) (hroom : depth + inner = room) :
    Consumes total room s outcome := by
  rcases outcome with e | r
  · refine ⟨fun n hn => (ho.1 n hn).of_behind h, fun what hwhat => ?_⟩
    exact hroom ▸ (ho.2 what hwhat).of_behind h
  · exact h.trans ho htotal

/-- What stays as deep as before leaves the room as it is. -/
lemma Consumes.of_behind_zero (h : Behind 0 s rest) {outcome : Except Error (α × List Char)}
    (ho : Consumes depth room rest outcome) : Consumes depth room s outcome :=
  ho.of_behind h (by omega) (by omega)

lemma Consumes.map {outcome : Except Error (α × List Char)} (h : Consumes depth room s outcome)
    (f : α → β) : Consumes depth room s (outcome.map fun r => (f r.1, r.2)) := by
  rcases outcome with e | r <;> exact h

lemma consumes_malformed (s : List Char) :
    Consumes depth room s (.error .malformedJson : Except Error (α × List Char)) :=
  ⟨nofun, nofun⟩

/-! ### Characters that are no quotes -/

lemma unquoted_append {front : List Char} (h : ∀ c ∈ front, c ≠ '"') (s : List Char) :
    unquoted false (front ++ s) = front ++ unquoted false s := by
  induction front with
  | nil => rfl
  | cons c front ih =>
    rw [List.forall_mem_cons] at h
    rw [List.cons_append, unquoted, ih h.2]
    · rfl
    · exact h.1

/-- Quotes and brackets. -/
def marks : List Char := ['"', '[', ']', '\x7b', '\x7d']

lemma of_notMem_marks {c : Char} (h : c ∉ marks) : c ≠ '"' ∧ opening c = 0 := by
  simp only [marks, List.mem_cons, List.not_mem_nil, or_false, not_or] at h
  obtain ⟨hquote, hlist, hlist', hobject, hobject'⟩ := h
  exact ⟨hquote, by simp [opening, hlist, hlist', hobject, hobject']⟩

lemma behind_append {front : List Char} (h : ∀ c ∈ front, c ∉ marks) (s : List Char) :
    Behind 0 (front ++ s) s := by
  refine ⟨front, unquoted_append (fun c hc => (of_notMem_marks (h c hc)).1) s, ?_⟩
  have hzero : front.map opening = List.replicate front.length 0 :=
    List.map_eq_replicate_iff.mpr fun c hc => (of_notMem_marks (h c hc)).2
  simp [depthAfter, hzero]

lemma behind_cons {c : Char} (h : c ≠ '"') (hdepth : opening c = depth) (s : List Char) :
    Behind depth (c :: s) s := by
  have hfront : ∀ c' ∈ [c], c' ≠ '"' := by simpa using h
  exact ⟨[c], unquoted_append hfront s, by simp [depthAfter, hdepth]⟩

-- The hypothesis is one of truth values: a statement over the members of a list may be decided by
-- going through all characters.
lemma notMem_marks {p : Char → Bool} (hp : marks.any p = false) {c : Char} (h : p c = true) :
    c ∉ marks := fun hc => List.any_eq_false.mp hp c hc h

lemma behind_dropWhile {p : Char → Bool} (hp : marks.any p = false) (s : List Char) :
    Behind 0 s (s.dropWhile p) := by
  have hfront : ∀ c ∈ s.takeWhile p, c ∉ marks := fun c hc =>
    notMem_marks hp (List.mem_takeWhile_imp hc)
  have h := behind_append hfront (s.dropWhile p)
  rwa [List.takeWhile_append_dropWhile] at h

lemma behind_skipSpace (s : List Char) : Behind 0 s (skipSpace s) := behind_dropWhile (by decide) s

lemma Behind.skipSpace (h : Behind depth s rest) : Behind depth s (skipSpace rest) :=
  h.skip (behind_skipSpace rest)

/-- A character that is no quote is left behind. -/
lemma Behind.tail {c : Char} {total : Int} (h : Behind depth s (c :: rest)) (hquote : c ≠ '"')
    (htotal : depth + opening c = total) : Behind total s rest :=
  h.trans (behind_cons hquote rfl rest) htotal

/-! ### Quoted texts -/

lemma unquoted_cons {c : Char} (hquote : c ≠ '"') (hescape : c ≠ '\\') (s : List Char) :
    unquoted true (c :: s) = unquoted true s := by
  rw [unquoted]
  · exact hquote
  · exact fun _ _ h => absurd h hescape

lemma ne_of_hexValue? {c : Char} {v : Nat} (h : Text.hexValue? c = some v) :
    c ≠ '"' ∧ c ≠ '\\' := by
  constructor <;> rintro rfl <;> simp [Text.hexValue?] at h

lemma unquoted_unit {a b c d : Char} {m : Nat} (h : hexUnit? a b c d = some m) (s : List Char) :
    unquoted true ('\\' :: 'u' :: a :: b :: c :: d :: s) = unquoted true s := by
  simp only [hexUnit?, Option.bind_eq_bind, Option.bind_eq_some_iff] at h
  obtain ⟨_, ha, _, hb, _, hc, _, hd, -⟩ := h
  rw [unquoted, unquoted_cons (ne_of_hexValue? ha).1 (ne_of_hexValue? ha).2,
    unquoted_cons (ne_of_hexValue? hb).1 (ne_of_hexValue? hb).2,
    unquoted_cons (ne_of_hexValue? hc).1 (ne_of_hexValue? hc).2,
    unquoted_cons (ne_of_hexValue? hd).1 (ne_of_hexValue? hd).2]

/-- A quoted text is left behind its closing quote. -/
lemma unquoted_readText? {cs : List Char} (h : readText? s = some (cs, rest)) :
    unquoted true s = unquoted false rest := by
  have hmap {x : Option (List Char × List Char)} {f : List Char → List Char} {cs : List Char}
      (h : (x.map fun r => (f r.1, r.2)) = some (cs, rest)) : ∃ cs', x = some (cs', rest) := by
    obtain ⟨⟨cs', rest'⟩, hr, heq⟩ := Option.map_eq_some_iff.mp h
    cases heq
    exact ⟨cs', hr⟩
  fun_induction readText? s generalizing cs with
  | case1 | case5 | case6 | case8 | case10 | case11 => cases h
  | case2 s =>
    cases h
    rfl
  | case3 a b c d e f g h' s m n hlow hhigh _ ih =>
    obtain ⟨cs', hcs⟩ := hmap h
    rw [unquoted_unit hhigh, unquoted_unit hlow, ih hcs]
  | case4 a b c d e f g h' s m n hlow hhigh _ ih =>
    obtain ⟨cs', hcs⟩ := hmap h
    rw [unquoted_unit hhigh, ih hcs]
  | case7 a b c d s _ m hunit ih =>
    obtain ⟨cs', hcs⟩ := hmap h
    rw [unquoted_unit hunit, ih hcs]
  | case9 c s _ _ e _ ih =>
    obtain ⟨cs', hcs⟩ := hmap h
    rw [unquoted, ih hcs]
  | case12 c s hquote _ _ _ hplain ih =>
    obtain ⟨cs', hcs⟩ := hmap h
    rw [unquoted_cons hquote (by simp_all), ih hcs]

lemma consumes_readQuoted (s : List Char) : Consumes 0 room ('"' :: s) (readQuoted s) := by
  unfold readQuoted
  split
  · rename_i cs rest h
    refine ⟨['"'], ?_, rfl⟩
    change '"' :: unquoted true s = _
    rw [unquoted_readText? h, List.singleton_append]
  · exact consumes_malformed _

/-! ### Numerals and words -/

lemma notMem_marks_of_isAsciiDigit {c : Char} (h : isAsciiDigit c = true) : c ∉ marks :=
  notMem_marks (by decide) h

lemma takeWhole?_eq_some {whole : List Char} (h : takeWhole? s = some (whole, rest)) :
    s = whole ++ rest ∧ ∀ c ∈ whole, isAsciiDigit c = true := by
  unfold takeWhole? at h
  split at h
  · cases h
  · split_ifs at h with hzero hdigit
    · cases h
      exact ⟨by rw [hzero]; rfl, by simp [isAsciiDigit]⟩
    · cases h
      exact ⟨List.takeWhile_append_dropWhile.symm, fun c hc => List.mem_takeWhile_imp hc⟩

lemma behind_digits (s : List Char) : Behind 0 s (s.dropWhile isAsciiDigit) :=
  behind_dropWhile (by decide) s

lemma behind_takeFraction (s : List Char) : Behind 0 s (takeFraction s).2 := by
  unfold takeFraction
  split
  · split
    · exact .refl _
    · exact (behind_cons (by decide) rfl _).skip (behind_digits _)
  · exact .refl _

lemma behind_takeExponentSign (s : List Char) : Behind 0 s (takeExponentSign s).2 := by
  unfold takeExponentSign
  split
  · exact behind_cons (by decide) (by decide) _
  · exact behind_cons (by decide) (by decide) _
  · exact .refl _

lemma behind_takeExponent (s : List Char) : Behind 0 s (takeExponent s).2 := by
  unfold takeExponent
  split
  · rename_i c rest
    split_ifs with hc
    · have hsign : c ≠ '"' ∧ opening c = 0 := by
        simp only [Bool.or_eq_true, decide_eq_true_eq] at hc
        rcases hc with rfl | rfl <;> decide
      dsimp only
      split
      · exact .refl _
      · exact ((behind_cons hsign.1 hsign.2 _).skip (behind_takeExponentSign _)).skip
          (behind_digits _)
    · exact .refl _
  · exact .refl _

lemma consumes_readNumber (negative : Bool) (s : List Char) :
    Consumes 0 room s (readNumber negative s) := by
  unfold readNumber
  split
  · exact consumes_malformed _
  · rename_i whole rest hwhole
    obtain ⟨rfl, hdigits⟩ := takeWhole?_eq_some hwhole
    have hplain : ∀ c ∈ whole, c ∉ marks := fun c hc => notMem_marks_of_isAsciiDigit (hdigits c hc)
    have hrest := behind_append hplain rest
    have hbehind := (hrest.skip (behind_takeFraction rest)).skip (behind_takeExponent _)
    dsimp only
    split
    · unfold readInteger
      split
      · rename_i hlong
        refine ⟨?_, nofun⟩
        rintro n ⟨⟩
        refine ⟨whole, ?_, hdigits, rfl, hlong⟩
        rw [unquoted_append fun c hc => (of_notMem_marks (hplain c hc)).1]
        exact (List.prefix_append _ _).isInfix
      · split
        · exact hbehind
        · exact consumes_malformed _
    · split
      · exact hbehind
      · exact consumes_malformed _

lemma afterWord?_eq_some {word : List Char} (h : afterWord? word s = some rest) :
    s = word ++ rest := by
  fun_induction afterWord? word s with
  | case1 => exact Option.some.inj h
  | case2 | case4 => cases h
  | case3 w word s ih => rw [ih h, List.cons_append]

lemma consumes_readPlain (s : List Char) : Consumes 0 room s (readPlain s) := by
  unfold readPlain
  split
  · rename_i r hr
    obtain ⟨w, hw, hafter⟩ := List.exists_of_findSome?_eq_some hr
    obtain ⟨rest, hrest, rfl⟩ := Option.map_eq_some_iff.mp hafter
    have hplain : (words.all fun w => w.1.toList.all fun c => !marks.contains c) = true := by decide
    have hword := List.all_eq_true.mp (List.all_eq_true.mp hplain w hw)
    rw [afterWord?_eq_some hrest]
    exact behind_append (fun c hc => by simpa using hword c hc) rest
  · split
    · exact (consumes_readNumber _ _).of_behind_zero (behind_cons (by decide) (by decide) _)
    · exact consumes_readNumber _ _

/-! ### Values -/

/-- Readers of values leave an end of their text that is as deep, and readers of items and of fields
one that is outside of their brackets. -/
structure Readers (fuel : Nat) : Prop where
  value : ∀ (room : Nat) s, Consumes 0 room s (readValue fuel room s)
  items : ∀ (room : Nat) s, Consumes (-1) room s (readItems fuel room s)
  fields : ∀ (room : Nat) s, Consumes (-1) room s (readFields fuel room s)

namespace Readers

variable {fuel : Nat}

/-- What stands in brackets is read with room for one less, if there is any. -/
lemma consumes_within {room : Nat} {c : Char} (hopen : opening c = 1) (hquote : c ≠ '"')
    (hroom : room ≠ 0) {outcome : Except Error (α × List Char)}
    (h : Consumes (-1) (room - 1 : Nat) (skipSpace rest) outcome) :
    Consumes 0 room (c :: rest) outcome :=
  h.of_behind (behind_cons hquote hopen rest).skipSpace (by omega) (by omega)

lemma tooDeep_zero {c : Char} (hopen : opening c = 1) (hquote : c ≠ '"') (s : List Char) :
    TooDeep 0 (c :: s) := by
  obtain ⟨front, hfront, hdepth⟩ := behind_cons hquote hopen s
  exact ⟨front, hfront ▸ List.prefix_append _ _, by omega⟩

lemma next_value (h : Readers fuel) (room : Nat) (s : List Char) :
    Consumes 0 room s (readValue (fuel + 1) room s) := by
  rw [readValue.eq_def]
  dsimp only
  split
  · exact (consumes_readQuoted _).map _
  · rename_i rest
    split
    · rename_i hroom
      exact ⟨nofun, fun _ _ => hroom ▸ tooDeep_zero (by decide) (by decide) rest⟩
    · rename_i hroom
      refine consumes_within (by decide) (by decide) hroom ?_
      split
      · rename_i rest' hclose
        rw [hclose]
        exact behind_cons (by decide) (by decide) rest'
      · exact (h.items _ _).map _
  · rename_i rest
    split
    · rename_i hroom
      exact ⟨nofun, fun _ _ => hroom ▸ tooDeep_zero (by decide) (by decide) rest⟩
    · rename_i hroom
      refine consumes_within (by decide) (by decide) hroom ?_
      split
      · rename_i rest' hclose
        rw [hclose]
        exact behind_cons (by decide) (by decide) rest'
      · exact (h.fields _ _).map fun fs => Value.object (Fields.ofList fs)
  · exact consumes_readPlain _

lemma next_items (h : Readers fuel) (room : Nat) (s : List Char) :
    Consumes (-1) room s (readItems (fuel + 1) room s) := by
  have hfirst := h.value room s
  rw [readItems]
  generalize readValue fuel room s = outcome at hfirst
  obtain e | ⟨v, rest⟩ := outcome
  · exact hfirst
  · have hend : Behind 0 s (skipSpace rest) := Behind.skipSpace hfirst
    dsimp only
    split
    · rename_i rest' hclose
      rw [hclose] at hend
      exact hend.tail (by decide) rfl
    · rename_i rest' hcomma
      rw [hcomma] at hend
      have hnext : Behind 0 s (skipSpace rest') := (hend.tail (by decide) rfl).skipSpace
      exact ((h.items room _).map (v :: ·)).of_behind_zero hnext
    · exact consumes_malformed _

lemma next_fields (h : Readers fuel) (room : Nat) (s : List Char) :
    Consumes (-1) room s (readFields (fuel + 1) room s) := by
  rw [readFields.eq_def]
  dsimp only
  split
  · rename_i quoted
    have hname : Consumes 0 room _ _ := consumes_readQuoted quoted
    generalize readQuoted quoted = outcome at hname
    obtain e | ⟨name, rest⟩ := outcome
    · exact hname
    · have hcolon : Behind 0 ('"' :: quoted) (skipSpace rest) := Behind.skipSpace hname
      dsimp only
      split
      · rename_i rest' hrest
        rw [hrest] at hcolon
        have hvalue : Behind 0 ('"' :: quoted) (skipSpace rest') :=
          (hcolon.tail (by decide) rfl).skipSpace
        have hfirst := (h.value room (skipSpace rest')).of_behind_zero hvalue
        generalize readValue fuel room (skipSpace rest') = outcome at hfirst
        obtain e | ⟨v, rest'⟩ := outcome
        · exact hfirst
        · have hend : Behind 0 ('"' :: quoted) (skipSpace rest') := Behind.skipSpace hfirst
          dsimp only
          split
          · rename_i rest' hclose
            rw [hclose] at hend
            exact hend.tail (by decide) rfl
          · rename_i rest' hcomma
            rw [hcomma] at hend
            have hnext : Behind 0 ('"' :: quoted) (skipSpace rest') :=
              (hend.tail (by decide) rfl).skipSpace
            exact ((h.fields room _).map ((name, v) :: ·)).of_behind_zero hnext
          · exact consumes_malformed _
      · exact consumes_malformed _
  · exact consumes_malformed _

end Readers

/-- By induction on the depth that is allowed. -/
lemma readers (fuel : Nat) : Readers fuel := by
  induction fuel with
  | zero =>
    exact ⟨fun _ => consumes_malformed, fun _ => consumes_malformed, fun _ => consumes_malformed⟩
  | succ fuel ih => exact ⟨ih.next_value, ih.next_items, ih.next_fields⟩

/-- **Limits**: a text that is refused for an integer of too many digits has as many digits in a row
outside of quotes, and one that is refused for its depth has more brackets open at once than there
is room for. -/
theorem limits_of_readWithin {room : Nat} {s : List Char} {e : Error}
    (h : readWithin room s = .error e) :
    (∀ n, e = .tooManyDigits n → TooLong s n) ∧
      ∀ what, e = .nestedTooDeep what → TooDeep room s := by
  have hvalue := ((readers (2 * s.length + 2)).value room (skipSpace s)).of_behind_zero
    (behind_skipSpace s)
  unfold readWithin at h
  generalize readValue (2 * s.length + 2) room (skipSpace s) = outcome at hvalue h
  obtain e' | ⟨v, rest⟩ := outcome
  · cases h
    exact hvalue
  · dsimp only at h
    split at h <;> cases h
    exact ⟨nofun, nofun⟩

/-! ### Nested lists -/

lemma readValue_replicate {n : Nat} {room fuel : Nat} (hroom : room < n) (hfuel : 2 * room < fuel)
    (rest : List Char) :
    readValue fuel room (List.replicate n '[' ++ rest) = .error (.nestedTooDeep "array") := by
  induction room generalizing n fuel with
  | zero =>
    obtain ⟨n, rfl⟩ : ∃ m, n = m + 1 := ⟨n - 1, by omega⟩
    obtain ⟨fuel, rfl⟩ : ∃ m, fuel = m + 1 := ⟨fuel - 1, by omega⟩
    rfl
  | succ room ih =>
    obtain ⟨n, rfl⟩ : ∃ m, n = m + 1 + 1 := ⟨n - 2, by omega⟩
    obtain ⟨fuel, rfl⟩ : ∃ m, fuel = m + 1 + 1 := ⟨fuel - 2, by omega⟩
    have hinner := ih (n := n + 1) (by omega) (show 2 * room < fuel by omega)
    have hshape : List.replicate (n + 1 + 1) '[' ++ rest =
        '[' :: '[' :: (List.replicate n '[' ++ rest) := rfl
    rw [hshape, readValue, if_neg (by omega)]
    change Except.map _ (readItems (fuel + 1) room (List.replicate (n + 1) '[' ++ rest)) = _
    rw [readItems, hinner]
    rfl

/-- Lists in lists are refused as soon as there is no room for one more. -/
theorem readWithin_replicate {n room : Nat} (h : room < n) (rest : List Char) :
    readWithin room (List.replicate n '[' ++ rest) = .error (.nestedTooDeep "array") := by
  obtain ⟨m, rfl⟩ : ∃ m, n = m + 1 := ⟨n - 1, by omega⟩
  have hskip : skipSpace (List.replicate (m + 1) '[' ++ rest) =
      List.replicate (m + 1) '[' ++ rest := rfl
  rw [readWithin, hskip, readValue_replicate h]
  simp only [List.length_append, List.length_replicate]
  omega

end NearDoc.Json
