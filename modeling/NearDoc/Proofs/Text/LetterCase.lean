import NearDoc.Proofs.Text.Trim
import NearDoc.Text.LetterCase

/-!
Lower case. What a text is in lower case is in lower case already, and blanks have no case and give
no context to letters. Main statement: trimming and lower case may be done in either order, and
doing either again changes nothing.
-/

namespace NearDoc.Text

/-! ### The tables -/

namespace CaseRun

/-- A run moves a code point. -/
def covers (r : CaseRun) (n : Nat) : Bool :=
  r.first ≤ n && n ≤ r.last && (n - r.first) % r.step == 0

/-- Where a run moves a code point. -/
def moved (r : CaseRun) (n : Nat) : Nat := (n + r.shift).toNat

/-- Two stretches of code points have none in common. -/
def isClear (first last first' last' : Nat) : Bool := Nat.blt last first' || Nat.blt last' first

/-- A stretch of code points with such steps is past what a run moves, or between its steps. -/
def isApart (step first last : Nat) (r : CaseRun) : Bool :=
  isClear first last r.first r.last ||
    (Nat.beq step 2 || Nat.beq first last) && Nat.beq r.step 2 &&
      Nat.beq ((first + r.first) % 2) 1

/-- What is in a stretch are characters, none of which is a blank or has an expansion. -/
def isPlain (first last : Nat) : Bool :=
  isClear first last 0xD800 0xDFFF && Nat.blt last 0x110000 && isClear first last 0x130 0x130 &&
    blankCodes.all fun n => isClear first last n n

/-- What a run moves goes to plain characters which no run of a list moves. -/
def settlesIn (runs : List CaseRun) (r : CaseRun) : Bool :=
  decide (0 ≤ r.first + r.shift) && isPlain (r.moved r.first) (r.moved r.last) &&
    runs.all (isApart r.step (r.moved r.first) (r.moved r.last))

variable {r r' : CaseRun} {runs : List CaseRun} {n : Nat}

lemma covers_iff : r.covers n = true ↔
    r.first ≤ n ∧ n ≤ r.last ∧ (n - r.first) % r.step = 0 := by
  simp [covers, and_assoc]

lemma isClear_iff {first last first' last' : Nat} :
    isClear first last first' last' = true ↔ last < first' ∨ last' < first := by
  simp [isClear, Nat.blt_eq]

/-- What is moved stays in order. -/
lemma moved_bounds (hr : 0 ≤ r.first + r.shift) (hn : r.covers n) :
    r.moved r.first ≤ r.moved n ∧ r.moved n ≤ r.moved r.last ∧
      r.moved n - r.moved r.first = n - r.first := by
  obtain ⟨hfirst, hlast, -⟩ := covers_iff.mp hn
  simp only [moved]
  omega

/-- What settles is not moved on. -/
lemma not_covers_moved (hr : r.settlesIn runs) (hn : r.covers n) (hr' : r' ∈ runs) :
    r'.covers (r.moved n) = false := by
  simp only [settlesIn, Bool.and_eq_true, decide_eq_true_eq, List.all_eq_true] at hr
  obtain ⟨⟨hfirst, -⟩, hapart⟩ := hr
  obtain ⟨hlow, hhigh, hoffset⟩ := moved_bounds hfirst hn
  obtain ⟨-, -, hstep⟩ := covers_iff.mp hn
  have hapart := hapart r' hr'
  simp only [isApart, Bool.or_eq_true, Bool.and_eq_true, isClear_iff, Nat.beq_eq] at hapart
  rw [← Bool.not_eq_true, covers_iff]
  rintro ⟨hlow', hhigh', hstep'⟩
  rcases hapart with (hpast | hpast) | ⟨⟨hone, htwo⟩, hodd⟩
  · omega
  · omega
  · rw [htwo] at hstep'
    rcases hone with hone | hone
    · rw [hone, ← hoffset] at hstep
      omega
    · omega

/-- What settles is a character, and no blank. -/
lemma plain_moved (hr : r.settlesIn runs) (hn : r.covers n) :
    (r.moved n).isValidChar ∧ r.moved n ≠ 0x130 ∧ r.moved n ∉ blankCodes := by
  simp only [settlesIn, isPlain, Bool.and_eq_true, decide_eq_true_eq, List.all_eq_true,
    isClear_iff, Nat.blt_eq] at hr
  obtain ⟨⟨hfirst, ⟨⟨hsurrogate, htop⟩, hexpanded⟩, hblank⟩, -⟩ := hr
  obtain ⟨hlow, hhigh, -⟩ := moved_bounds hfirst hn
  refine ⟨?_, by omega, fun hmem => ?_⟩
  · rcases hsurrogate with h | h
    · exact .inl (by omega)
    · exact .inr ⟨by omega, by omega⟩
  · have := hblank _ hmem
    omega

end CaseRun

lemma settles_lowerRuns : ∀ r ∈ lowerRuns, r.settlesIn lowerRuns = true :=
  List.all_eq_true.mp (by decide +kernel : lowerRuns.all (CaseRun.settlesIn lowerRuns) = true)

/-- A code point is moved by a run that covers it, or kept as none does. -/
lemma shiftBy_cases (runs : List CaseRun) (n : Nat) :
    (∃ r ∈ runs, r.covers n ∧ shiftBy runs n = r.moved n) ∨ shiftBy runs n = n := by
  have hcovers (r : CaseRun) :
      (r.first ≤ n && n ≤ r.last && (n - r.first) % r.step == 0) = r.covers n := rfl
  simp only [shiftBy, hcovers]
  split
  · rename_i r hr
    exact .inl ⟨r, List.mem_of_find?_eq_some hr, by simpa using List.find?_some hr, rfl⟩
  · exact .inr rfl

/-! ### One character -/

/-- A character that is its own lower case. -/
def IsSmall (c : Char) : Prop := lowerChar c = [c]

instance : DecidablePred IsSmall := fun c => inferInstanceAs (Decidable (lowerChar c = [c]))

/-- The capitals of ASCII are the first run of the table. -/
lemma lowerChar_ascii {c : Char} (hc : c.toNat < 128) :
    IsSmall c ∨ ∃ r ∈ lowerRuns, r.covers c.toNat ∧
      lowerChar c = [Char.ofNat (r.moved c.toNat)] := by
  have h : ∀ n < 128, IsSmall (Char.ofNat n) ∨ (CaseRun.mk 0x41 0x5A 1 32).covers n ∧
      lowerChar (Char.ofNat n) = [Char.ofNat ((CaseRun.mk 0x41 0x5A 1 32).moved n)] := by
    decide +kernel
  have := h _ hc
  rw [Char.ofNat_toNat] at this
  exact this.imp_right fun h => ⟨_, List.mem_cons_self, h⟩

/-- A character is small, or a capital with a point over it, or it is moved by a run. -/
lemma lowerChar_cases (c : Char) :
    IsSmall c ∨ c.toNat = 0x130 ∧ lowerChar c = ['i', Char.ofNat 0x307] ∨
      ∃ r ∈ lowerRuns, r.covers c.toNat ∧ lowerChar c = [Char.ofNat (r.moved c.toNat)] := by
  by_cases hc : c.toNat < 128
  · exact (lowerChar_ascii hc).imp_right .inr
  rw [IsSmall, lowerChar, if_neg hc, mapCase]
  by_cases hpoint : c.toNat = 0x130
  · rw [hpoint]
    exact .inr (.inl ⟨rfl, rfl⟩)
  · have hnone : lowerExpansions.lookup c.toNat = none := by
      simp [lowerExpansions, List.lookup_cons, beq_eq_false_iff_ne.mpr hpoint]
    rw [hnone]
    rcases shiftBy_cases lowerRuns c.toNat with ⟨r, hr, hcovers, hshift⟩ | hshift
    · exact .inr (.inr ⟨r, hr, hcovers, by rw [hshift]⟩)
    · refine .inl ?_
      dsimp only
      rw [hshift, Char.ofNat_toNat]

/-- Where a run moves a character there is one that is no blank, and that no run moves. -/
lemma of_moved {r : CaseRun} (hr : r ∈ lowerRuns) {n : Nat} (hcovers : r.covers n) :
    IsSmall (Char.ofNat (r.moved n)) ∧ isBlank (Char.ofNat (r.moved n)) = false := by
  have hsettles := settles_lowerRuns r hr
  obtain ⟨hvalid, hpoint, hblank⟩ := CaseRun.plain_moved hsettles hcovers
  have hcode : (Char.ofNat (r.moved n)).toNat = r.moved n := by
    rw [Char.ofNat, dif_pos hvalid]
    rfl
  constructor
  · rcases lowerChar_cases (Char.ofNat (r.moved n)) with hsmall | ⟨hpoint', -⟩ | ⟨r', hr', h, -⟩
    · exact hsmall
    · exact absurd (hcode.symm.trans hpoint') hpoint
    · rw [hcode, CaseRun.not_covers_moved hsettles hcovers hr'] at h
      cases h
  · by_contra hblank'
    have := toNat_mem_blankCodes (Bool.of_not_eq_false hblank')
    rw [hcode] at this
    exact hblank this

/-- **One character** in lower case is small, and blank only if it was. -/
theorem of_mem_lowerChar {c x : Char} (hx : x ∈ lowerChar c) :
    IsSmall x ∧ (isBlank c = false → isBlank x = false) := by
  rcases lowerChar_cases c with hsmall | ⟨-, hpoint⟩ | ⟨r, hr, hcovers, hmoved⟩
  · obtain rfl : x = c := by rwa [hsmall, List.mem_singleton] at hx
    exact ⟨hsmall, id⟩
  · have hletter : IsSmall 'i' ∧ isBlank 'i' = false := by decide +kernel
    have hdot : IsSmall (Char.ofNat 0x307) ∧ isBlank (Char.ofNat 0x307) = false := by
      decide +kernel
    rw [hpoint, List.mem_cons, List.mem_singleton] at hx
    rcases hx with rfl | rfl
    · exact ⟨hletter.1, fun _ => hletter.2⟩
    · exact ⟨hdot.1, fun _ => hdot.2⟩
  · obtain rfl : x = Char.ofNat (r.moved c.toNat) := by rwa [hmoved, List.mem_singleton] at hx
    exact ⟨(of_moved hr hcovers).1, fun _ => (of_moved hr hcovers).2⟩

lemma lowerChar_ne_nil (c : Char) : lowerChar c ≠ [] := by
  rcases lowerChar_cases c with hsmall | ⟨-, hpoint⟩ | ⟨r, -, -, hmoved⟩
  · rw [hsmall]
    exact List.cons_ne_nil _ _
  · rw [hpoint]
    exact List.cons_ne_nil _ _
  · rw [hmoved]
    exact List.cons_ne_nil _ _

/-- Blanks are small, and of no account where the case of letters around is asked for. -/
lemma small_of_isBlank {c : Char} (hc : isBlank c) :
    IsSmall c ∧ c ≠ 'Σ' ∧ isCaseIgnorable c = false ∧ isCased c = false :=
  of_isBlank (P := fun c => IsSmall c ∧ c ≠ 'Σ' ∧ isCaseIgnorable c = false ∧ isCased c = false)
    (by decide +kernel) hc

/-! ### Texts -/

/-- What one character of a text becomes, between what stands before it and after it. -/
def lowerIn (before : List Char) (c : Char) (rest : List Char) : List Char :=
  if c = 'Σ' then (if nextIsCased before && !nextIsCased rest then ['ς'] else ['σ'])
  else lowerChar c

lemma lowerAfter_cons (before : List Char) (c : Char) (rest : List Char) :
    lowerAfter before (c :: rest) = lowerIn before c rest ++ lowerAfter (c :: before) rest := rfl

lemma of_mem_lowerIn {before rest : List Char} {c x : Char} (hx : x ∈ lowerIn before c rest) :
    IsSmall x ∧ (isBlank c = false → isBlank x = false) := by
  have hone {y : Char} (hy : IsSmall y ∧ isBlank y = false) (hx : x ∈ [y]) :
      IsSmall x ∧ (isBlank c = false → isBlank x = false) := by
    obtain rfl := List.mem_singleton.mp hx
    exact ⟨hy.1, fun _ => hy.2⟩
  unfold lowerIn at hx
  split_ifs at hx
  · exact hone (by decide +kernel) hx
  · exact hone (by decide +kernel) hx
  · exact of_mem_lowerChar hx

lemma lowerIn_ne_nil (before : List Char) (c : Char) (rest : List Char) :
    lowerIn before c rest ≠ [] := by
  unfold lowerIn
  split_ifs
  · exact List.cons_ne_nil _ _
  · exact List.cons_ne_nil _ _
  · exact lowerChar_ne_nil c

/-- A small character stays as it is wherever it stands. -/
lemma lowerIn_of_isSmall {before rest : List Char} {c : Char} (hc : IsSmall c) :
    lowerIn before c rest = [c] := by
  have hsigma : c ≠ 'Σ' := by
    rintro rfl
    exact absurd hc (by decide +kernel)
  rw [lowerIn, if_neg hsigma]
  exact hc

lemma isSmall_of_mem_lowerAfter {before s : List Char} {x : Char} (hx : x ∈ lowerAfter before s) :
    IsSmall x := by
  induction s generalizing before with
  | nil => cases hx
  | cons c s ih =>
    rw [lowerAfter_cons, List.mem_append] at hx
    exact hx.elim (fun hx => (of_mem_lowerIn hx).1) ih

lemma lowerAfter_of_isSmall {s : List Char} (hs : ∀ c ∈ s, IsSmall c) (before : List Char) :
    lowerAfter before s = s := by
  induction s generalizing before with
  | nil => rfl
  | cons c s ih =>
    rw [List.forall_mem_cons] at hs
    rw [lowerAfter_cons, lowerIn_of_isSmall hs.1, ih hs.2]
    rfl

/-- **Lower case** is in lower case. -/
theorem toLower_toLower (s : List Char) : toLower (toLower s) = toLower s :=
  lowerAfter_of_isSmall (fun _ => isSmall_of_mem_lowerAfter) []

/-! ### Blanks around a text -/

lemma nextIsCased_append {blanks : List Char} (hblanks : ∀ c ∈ blanks, isBlank c)
    (s : List Char) : nextIsCased (s ++ blanks) = nextIsCased s := by
  have hend : nextIsCased blanks = false := by
    rcases blanks with _ | ⟨c, blanks⟩
    · rfl
    · obtain ⟨-, -, hignored, hcased⟩ := small_of_isBlank (hblanks c (by simp))
      simp [nextIsCased, hignored, hcased]
  induction s with
  | nil => rw [List.nil_append, hend]; rfl
  | cons c s ih =>
    rcases hc : isCaseIgnorable c with _ | _
    · simp [nextIsCased, hc]
    · simpa [nextIsCased, hc] using ih

/-- Blanks around a text stay, and make no difference to it. -/
lemma lowerAfter_append {front back : List Char} (hfront : ∀ c ∈ front, isBlank c)
    (hback : ∀ c ∈ back, isBlank c) (before s : List Char) :
    lowerAfter (before ++ front) (s ++ back) = lowerAfter before s ++ back := by
  induction s generalizing before with
  | nil =>
    rw [List.nil_append, lowerAfter_of_isSmall fun c hc => (small_of_isBlank (hback c hc)).1]
    rfl
  | cons c s ih =>
    have hin : lowerIn (before ++ front) c (s ++ back) = lowerIn before c s := by
      rw [lowerIn, lowerIn, nextIsCased_append hfront, nextIsCased_append hback]
    rw [List.cons_append, lowerAfter_cons, lowerAfter_cons, hin, ← List.cons_append, ih,
      List.append_assoc]

lemma lowerAfter_front {front : List Char} (hfront : ∀ c ∈ front, isBlank c)
    (before s : List Char) :
    lowerAfter before (front ++ s) = front ++ lowerAfter (front.reverse ++ before) s := by
  induction front generalizing before with
  | nil => rfl
  | cons c front ih =>
    rw [List.forall_mem_cons] at hfront
    rw [List.cons_append, lowerAfter_cons, lowerIn_of_isSmall (small_of_isBlank hfront.1).1,
      ih hfront.2]
    simp

lemma toLower_append {front back : List Char} (hfront : ∀ c ∈ front, isBlank c)
    (hback : ∀ c ∈ back, isBlank c) (s : List Char) :
    toLower (front ++ (s ++ back)) = front ++ (toLower s ++ back) := by
  have hreverse : ∀ c ∈ front.reverse, isBlank c := by simpa using hfront
  have h := lowerAfter_append hreverse hback [] s
  rw [List.nil_append] at h
  rw [toLower, lowerAfter_front hfront, List.append_nil, h, toLower]

/-! ### Ends -/

lemma head?_lowerAfter {before s : List Char} (hs : ∀ c ∈ s.head?, ¬ isBlank c) :
    ∀ x ∈ (lowerAfter before s).head?, ¬ isBlank x := by
  rcases s with _ | ⟨c, s⟩
  · nofun
  · intro x hx
    obtain ⟨y, ys, hy⟩ := List.exists_cons_of_ne_nil (lowerIn_ne_nil before c s)
    rw [lowerAfter_cons, hy] at hx
    cases hx
    have hmem : x ∈ lowerIn before c s := hy ▸ List.mem_cons_self
    simp [(of_mem_lowerIn hmem).2 (by simpa using hs c rfl)]

lemma getLast?_lowerAfter {before s : List Char} (hs : ∀ c ∈ s.getLast?, ¬ isBlank c) :
    ∀ x ∈ (lowerAfter before s).getLast?, ¬ isBlank x := by
  induction s generalizing before with
  | nil => nofun
  | cons c s ih =>
    rcases s with _ | ⟨d, s⟩
    · intro x hx
      rw [lowerAfter_cons, lowerAfter, List.append_nil] at hx
      have hmem := List.mem_of_getLast? hx
      simp [(of_mem_lowerIn hmem).2 (by simpa using hs c rfl)]
    · have hne : lowerAfter (c :: before) (d :: s) ≠ [] := by
        rw [lowerAfter_cons]
        exact List.append_ne_nil_of_left_ne_nil (lowerIn_ne_nil _ _ _) _
      rw [lowerAfter_cons, List.getLast?_append_of_ne_nil _ hne]
      exact ih (by simpa using hs)

/-- **Trimming** may be done before or after. -/
theorem trim_toLower (s : List Char) : trim (toLower s) = toLower (trim s) := by
  obtain ⟨front, back, hs, hfront, hback⟩ := exists_trim s
  obtain ⟨hfirst, hlast⟩ := trim_ends s
  calc trim (toLower s)
    _ = trim (front ++ (toLower (trim s) ++ back)) := by
      conv_lhs => rw [hs, toLower_append hfront hback]
    _ = trim (toLower (trim s)) := trim_append hfront hback
    _ = toLower (trim s) := trim_of_ends (head?_lowerAfter hfirst) (getLast?_lowerAfter hlast)

/-- A text is trimmed just as it is in lower case. -/
theorem trim_toLower_eq_iff {s : List Char} : trim (toLower s) = toLower s ↔ trim s = s := by
  constructor
  · intro h
    obtain ⟨front, back, hs, hfront, hback⟩ := exists_trim s
    have hlower : toLower s = front ++ (toLower (trim s) ++ back) := by
      conv_lhs => rw [hs, toLower_append hfront hback]
    have hlength := congrArg List.length (h.symm.trans (trim_toLower s))
    rw [hlower, List.length_append, List.length_append] at hlength
    obtain rfl : front = [] := List.length_eq_zero_iff.mp (by omega)
    obtain rfl : back = [] := List.length_eq_zero_iff.mp (by omega)
    rw [List.nil_append, List.append_nil] at hs
    exact hs.symm
  · intro h
    rw [trim_toLower, h]

end NearDoc.Text
