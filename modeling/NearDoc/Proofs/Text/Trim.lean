import Mathlib.Data.List.DropRight
import Mathlib.Data.List.TakeWhile
import NearDoc.Text.Blank

/-!
Blanks and trimming. A text is what it is trimmed to with blanks around it, and blanks around a text
make no difference to what it is trimmed to.
-/

namespace NearDoc.Text

/-! ### Blanks -/

/-- The code points of blanks. -/
def blankCodes : List Nat :=
  List.range' 9 5 ++ List.range' 28 5 ++ [0x85, 0xA0, 0x1680] ++ List.range' 0x2000 11 ++
    [0x2028, 0x2029, 0x202F, 0x205F, 0x3000]

lemma toNat_mem_blankCodes {c : Char} (hc : isBlank c) : c.toNat ∈ blankCodes := by
  simp only [isBlank, Bool.or_eq_true, Bool.and_eq_true, decide_eq_true_eq, beq_iff_eq] at hc
  simp only [blankCodes, List.mem_append, List.mem_range'_1, List.mem_cons, List.not_mem_nil,
    or_false]
  omega

/-- What holds of all code points of blanks holds of blanks. -/
lemma of_isBlank {P : Char → Prop} (h : ∀ n ∈ blankCodes, P (Char.ofNat n)) {c : Char}
    (hc : isBlank c) : P c := by
  have := h _ (toNat_mem_blankCodes hc)
  rwa [Char.ofNat_toNat] at this

/-! ### Stripping -/

section

variable {p : Char → Bool} {s before after : List Char}

/-- A text without the characters of a kind at its ends. -/
def strip (p : Char → Bool) (s : List Char) : List Char := (s.dropWhile p).rdropWhile p

/-- Characters around a text are stripped with its own. -/
lemma strip_append (hbefore : ∀ c ∈ before, p c) (hafter : ∀ c ∈ after, p c) :
    strip p (before ++ (s ++ after)) = strip p s := by
  rw [strip, strip, List.dropWhile_append_of_pos hbefore, List.dropWhile_append]
  have hdrop (t : List Char) : (t ++ after).rdropWhile p = t.rdropWhile p := by
    rw [List.rdropWhile, List.reverse_append, List.dropWhile_append_of_pos, List.rdropWhile]
    simpa using hafter
  split
  · rename_i hnone
    have hall : after.dropWhile p = [] := List.dropWhile_eq_nil_iff.mpr hafter
    rw [List.isEmpty_iff.mp hnone, hall]
  · exact hdrop _

/-- A text with no such characters at its ends is kept. -/
lemma strip_of_ends (hfirst : ∀ c ∈ s.head?, ¬ p c) (hlast : ∀ c ∈ s.getLast?, ¬ p c) :
    strip p s = s := by
  have hfront : s.dropWhile p = s := by
    rcases s with _ | ⟨c, s⟩
    · rfl
    · rw [List.dropWhile_cons_of_neg (hfirst c rfl)]
  rw [strip, hfront]
  exact List.rdropWhile_eq_self_iff.mpr fun hne => hlast _ (List.getLast?_eq_some_getLast hne)

/-- A text without such characters is kept. -/
lemma strip_of_forall (h : ∀ c ∈ s, ¬ p c) : strip p s = s :=
  strip_of_ends (fun c hc => h c (List.mem_of_head? hc)) fun c hc => h c (List.mem_of_getLast? hc)

lemma exists_strip (p : Char → Bool) (s : List Char) : ∃ before after,
    s = before ++ (strip p s ++ after) ∧ (∀ c ∈ before, p c) ∧ ∀ c ∈ after, p c := by
  refine ⟨s.takeWhile p, (s.dropWhile p).rtakeWhile p, ?_, ?_, ?_⟩
  · rw [strip, List.rdropWhile_append_rtakeWhile, List.takeWhile_append_dropWhile]
  · exact fun c hc => List.mem_takeWhile_imp hc
  · exact fun c hc => List.mem_rtakeWhile_imp hc

end

/-! ### Trimming -/

variable {s before after : List Char}

lemma trim_eq (s : List Char) : trim s = strip isBlank s := rfl

/-- Blanks around a text are trimmed with its own. -/
theorem trim_append (hbefore : ∀ c ∈ before, isBlank c) (hafter : ∀ c ∈ after, isBlank c) :
    trim (before ++ (s ++ after)) = trim s := strip_append hbefore hafter

/-- A text with no blanks at its ends is kept. -/
theorem trim_of_ends (hfirst : ∀ c ∈ s.head?, ¬ isBlank c) (hlast : ∀ c ∈ s.getLast?, ¬ isBlank c) :
    trim s = s := strip_of_ends hfirst hlast

lemma trim_of_first_last {a b : Char} (hfirst : s.head? = some a) (hlast : s.getLast? = some b)
    (ha : ¬ isBlank a) (hb : ¬ isBlank b) : trim s = s := by
  refine trim_of_ends ?_ ?_
  · rintro c hc
    rwa [← Option.some.inj (hfirst.symm.trans hc)]
  · rintro c hc
    rwa [← Option.some.inj (hlast.symm.trans hc)]

/-- **Trimming** takes blanks off both ends of a text. -/
theorem exists_trim (s : List Char) : ∃ before after, s = before ++ (trim s ++ after) ∧
    (∀ c ∈ before, isBlank c) ∧ ∀ c ∈ after, isBlank c := exists_strip isBlank s

/-- What a text is trimmed to has no blanks at its ends. -/
lemma trim_ends (s : List Char) :
    (∀ c ∈ (trim s).head?, ¬ isBlank c) ∧ ∀ c ∈ (trim s).getLast?, ¬ isBlank c := by
  constructor
  · intro c hc
    have hfirst : c ∈ (s.dropWhile isBlank).head? := by
      obtain ⟨rest, hrest⟩ := (List.rdropWhile_prefix isBlank (s.dropWhile isBlank))
      rw [← strip, ← trim_eq] at hrest
      rw [← hrest, List.head?_append, hc]
      rfl
    have := List.head?_dropWhile_not isBlank s
    rw [hfirst] at this
    simpa using this
  · intro c hc
    have hne : trim s ≠ [] := by
      intro hnil
      rw [hnil] at hc
      cases hc
    rw [List.getLast?_eq_some_getLast hne] at hc
    cases hc
    exact List.rdropWhile_last_not isBlank _ hne

lemma trim_trim (s : List Char) : trim (trim s) = trim s :=
  trim_of_ends (trim_ends s).1 (trim_ends s).2

/-- Nothing is left of blanks only. -/
lemma trim_eq_nil_iff : trim s = [] ↔ ∀ c ∈ s, isBlank c := by
  constructor
  · intro h
    obtain ⟨before, after, hs, hbefore, hafter⟩ := exists_trim s
    rw [h, List.nil_append] at hs
    rw [hs]
    exact fun c hc => (List.mem_append.mp hc).elim (hbefore c) (hafter c)
  · intro h
    have hnone : trim (s ++ ([] ++ [])) = trim [] := trim_append h nofun
    rwa [List.append_nil, List.append_nil] at hnone

/-- Texts that have no blanks where they meet are trimmed at their other ends. -/
lemma trim_join {s t : List Char} (c : Char) (hs : trim s ≠ []) (ht : trim t ≠ [])
    (hlast : ∀ c ∈ s.getLast?, ¬ isBlank c) (hfirst : ∀ c ∈ t.head?, ¬ isBlank c) :
    trim (s ++ c :: t) = trim s ++ c :: trim t := by
  obtain ⟨before, after, hsplit, hbefore, hafter⟩ := exists_trim s
  obtain ⟨before', after', hsplit', hbefore', hafter'⟩ := exists_trim t
  obtain rfl : after = [] := by
    by_contra hne
    refine hlast _ ?_ (hafter _ (List.getLast_mem hne))
    rw [hsplit, ← List.append_assoc, List.getLast?_append_of_ne_nil _ hne]
    exact List.getLast?_eq_some_getLast hne
  obtain rfl : before' = [] := by
    rcases before' with _ | ⟨x, before'⟩
    · rfl
    · refine absurd (hbefore' x List.mem_cons_self) (hfirst x ?_)
      rw [hsplit']
      rfl
  have hends : trim (trim s ++ c :: trim t) = trim s ++ c :: trim t := by
    apply trim_of_ends
    · rw [List.head?_append_of_ne_nil _ hs]
      exact (trim_ends s).1
    · obtain ⟨x, xs, hx⟩ := List.exists_cons_of_ne_nil ht
      rw [List.getLast?_append_of_ne_nil _ (List.cons_ne_nil c _), hx, List.getLast?_cons_cons,
        ← hx]
      exact (trim_ends t).2
  calc trim (s ++ c :: t)
    _ = trim (before ++ ((trim s ++ c :: trim t) ++ after')) := by
      conv_lhs => rw [hsplit, hsplit']
      simp
    _ = trim (trim s ++ c :: trim t) := trim_append hbefore hafter'
    _ = trim s ++ c :: trim t := hends

end NearDoc.Text
