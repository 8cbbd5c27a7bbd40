import NearDoc.Proofs.Number.Integer
import NearDoc.Proofs.Outcome
import NearDoc.Value.Path

/-!
Paths into a value. A valid path never fails: it leads to what its segments name one after the
other, and to the undefined value where one of them names nothing. Main statement: and a path that
is joined to another leads on from where the first one led.
-/

namespace NearDoc

open Text Number

/-! ### Segments -/

namespace Path

/-- The segments of a path: joined by dots they are the text without the blanks around it, and none
of them is empty or has a dot. -/
structure Divides (path : String) (parts : List (List Char)) : Prop where
  joined : ['.'].intercalate parts = trim path.toList
  nonempty : parts ≠ []
  parts : ∀ part ∈ parts, part ≠ [] ∧ '.' ∉ part

/-- A path that has segments. -/
def IsValid (path : String) : Prop := ∃ parts, Divides path parts

variable {path p q : String} {parts ps qs : List (List Char)}

lemma splitDots_eq (cs : List Char) : splitDots cs = cs.splitOn '.' := by
  induction cs with
  | nil => rfl
  | cons c cs ih =>
    obtain ⟨part, parts, h⟩ := List.exists_cons_of_ne_nil (splitDots_ne_nil cs)
    rw [List.splitOn_cons_eq_if_modifyHead, ← ih, splitDots, h]
    simp

lemma dot_not_mem_splitDots {cs part : List Char} (h : part ∈ splitDots cs) : '.' ∉ part := by
  induction cs generalizing part with
  | nil =>
    rw [List.mem_singleton.mp h]
    exact List.not_mem_nil
  | cons c cs ih =>
    obtain ⟨first, rest, hsplit⟩ := List.exists_cons_of_ne_nil (splitDots_ne_nil cs)
    rw [splitDots, hsplit] at h
    rw [hsplit] at ih
    dsimp only at h
    split at h
    · rcases List.mem_cons.mp h with rfl | h
      · exact List.not_mem_nil
      · exact ih h
    · rename_i hc
      rcases List.mem_cons.mp h with rfl | h
      · exact List.not_mem_cons_of_ne_of_not_mem (Ne.symm hc) (ih List.mem_cons_self)
      · exact ih (List.mem_cons_of_mem first h)

lemma Divides.splitDots_eq (h : Divides path parts) : splitDots (trim path.toList) = parts := by
  rw [Path.splitDots_eq, ← h.joined]
  exact List.splitOn_intercalate '.' (fun part hpart => (h.parts part hpart).2) h.nonempty

/-- A path with segments is not blank. -/
lemma Divides.trim_ne_nil (h : Divides path parts) : trim path.toList ≠ [] := by
  intro hnil
  have hsplit := h.splitDots_eq
  rw [hnil] at hsplit
  exact (h.parts [] (by rw [← hsplit]; exact List.mem_singleton_self [])).1 rfl

/-- **Segments**: a text is taken apart just if it has segments, and into these. -/
theorem segments_eq_ok_iff : segments path = .ok parts ↔ Divides path parts := by
  constructor
  · intro h
    rw [segments] at h
    split at h
    · cases h
    · dsimp only at h
      split at h
      · cases h
      · rename_i hany
        cases h
        refine ⟨intercalate_splitDots _, splitDots_ne_nil _, fun part hpart => ⟨?_, ?_⟩⟩
        · rintro rfl
          exact hany (List.any_eq_true.mpr ⟨[], hpart, rfl⟩)
        · exact dot_not_mem_splitDots hpart
  · intro h
    have hany : parts.any List.isEmpty = false :=
      List.any_eq_false.mpr fun part hpart => by simpa using (h.parts part hpart).1
    rw [segments, if_neg (by simpa using h.trim_ne_nil)]
    simp only [h.splitDots_eq, hany, Bool.false_eq_true, if_false]

lemma isAllBlank_iff (s : String) : isAllBlank s = true ↔ trim s.toList = [] := by
  rw [isAllBlank, List.all_eq_true, trim_eq_nil_iff]

/-- **Refused paths**: a text without segments is refused as blank, or as malformed. -/
theorem segments_eq_error (h : ¬ IsValid path) :
    segments path = .error (if isAllBlank path then .emptyPath else .malformedPath path) := by
  rcases hsegments : segments path with e | parts
  · rw [segments] at hsegments
    by_cases hblank : trim path.toList = []
    · rw [if_pos (List.isEmpty_iff.mpr hblank)] at hsegments
      rw [if_pos ((isAllBlank_iff path).mpr hblank), ← hsegments]
    · rw [if_neg (mt List.isEmpty_iff.mp hblank)] at hsegments
      rw [if_neg (mt (isAllBlank_iff path).mp hblank)]
      dsimp only at hsegments
      split at hsegments
      · rw [← hsegments]
      · cases hsegments
  · exact absurd ⟨parts, segments_eq_ok_iff.mp hsegments⟩ h

lemma not_isValid_of_blank (h : isAllBlank path) : ¬ IsValid path :=
  fun ⟨_, hparts⟩ => hparts.trim_ne_nil ((isAllBlank_iff path).mp h)

/-- A text with no dot is one segment, unless it is blank. -/
lemma divides_of_undotted (hdot : '.' ∉ path.toList) (hblank : isAllBlank path = false) :
    Divides path [trim path.toList] := by
  refine ⟨List.intercalate_singleton, List.cons_ne_nil _ _, List.forall_mem_singleton.mpr ⟨?_, ?_⟩⟩
  · rw [ne_eq, ← isAllBlank_iff, hblank]
    exact Bool.false_ne_true
  · obtain ⟨before, after, hsplit, -, -⟩ := exists_trim path.toList
    intro hmem
    apply hdot
    rw [hsplit]
    exact List.mem_append_right _ (List.mem_append_left _ hmem)

/-- **Joined paths** have the segments of both. -/
theorem Divides.join (hp : Divides p ps) (hq : Divides q qs)
    (hlast : ∀ c ∈ p.toList.getLast?, ¬ isBlank c) (hfirst : ∀ c ∈ q.toList.head?, ¬ isBlank c) :
    Divides (p ++ "." ++ q) (ps ++ qs) := by
  have htrim : trim (p ++ "." ++ q).toList = trim p.toList ++ '.' :: trim q.toList := by
    rw [← trim_join '.' hp.trim_ne_nil hq.trim_ne_nil hlast hfirst]
    simp [String.toList_append]
  have hsplit : splitDots (trim (p ++ "." ++ q).toList) = ps ++ qs := by
    rw [htrim, Path.splitDots_eq, List.splitOn_append_cons_self, ← Path.splitDots_eq,
      ← Path.splitDots_eq, hp.splitDots_eq, hq.splitDots_eq]
  refine ⟨?_, List.append_ne_nil_of_left_ne_nil hp.nonempty qs, ?_⟩
  · rw [← hsplit, intercalate_splitDots]
  · intro part hpart
    exact (List.mem_append.mp hpart).elim (hp.parts part) (hq.parts part)

end Path

/-! ### Steps -/

namespace Value

/-- A segment names what a value holds: a field of an object, or an item of a list or tuple by the
integer that it writes, which counts from zero. -/
inductive Names : Value → List Char → Value → Prop where
  | field {fields : Fields} {segment : List Char} {v : Value}
      (h : Fields.get? fields (String.ofList segment) = some v) : Names (.object fields) segment v
  | listItem {xs : List Value} {segment : List Char} {n : Nat} (h : WritesInt segment n)
      (hlt : n < xs.length) : Names (.list xs) segment xs[n]
  | tupleItem {xs : List Value} {segment : List Char} {n : Nat} (h : WritesInt segment n)
      (hlt : n < xs.length) : Names (.tuple xs) segment xs[n]

/-- Segments lead to a value: each in turn names what is held there. -/
inductive Leads : Value → List (List Char) → Value → Prop where
  | here (v : Value) : Leads v [] v
  | step {v w x : Value} {segment : List Char} {segments : List (List Char)}
      (h : Names v segment w) (rest : Leads w segments x) : Leads v (segment :: segments) x

variable {v w x : Value} {segment : List Char} {segments : List (List Char)} {xs : List Value}

lemma index?_eq_some_iff {n : Nat} : Path.index? segment = some n ↔ WritesInt segment n := by
  rw [← readInt?_eq_some_iff, Path.index?]
  rcases readInt? segment with _ | (m | m)
  · simp
  · simp only [Option.some.injEq, Int.ofNat_eq_natCast]
    omega
  · simp

/-- The item of a sequence that a segment writes the index of. -/
lemma item_eq {n : Nat} (h : WritesInt segment n) (hlt : n < xs.length) :
    ((Path.index? segment).bind (xs[·]?)).getD .undefined = xs[n] := by
  rw [index?_eq_some_iff.mpr h, Option.bind_some, List.getElem?_eq_getElem hlt, Option.getD_some]

/-- **One step** leads to what a segment names. -/
theorem Names.step_eq (h : Names v segment w) : v.step segment = w := by
  cases h with
  | field h =>
    change (Fields.get? _ _).getD .undefined = w
    rw [h, Option.getD_some]
  | listItem h hlt => exact item_eq h hlt
  | tupleItem h hlt => exact item_eq h hlt

/-- **One step** leads nowhere if the segment names nothing. -/
theorem step_eq_undefined (h : ∀ w, ¬ Names v segment w) : v.step segment = .undefined := by
  have hitem {xs : List Value} (hnone : ∀ n : Nat, WritesInt segment n → ¬ n < xs.length) :
      ((Path.index? segment).bind (xs[·]?)).getD .undefined = .undefined := by
    rcases hindex : Path.index? segment with _ | n
    · rfl
    · have hlen := hnone n (index?_eq_some_iff.mp hindex)
      rw [Option.bind_some, List.getElem?_eq_none (Nat.le_of_not_lt hlen), Option.getD_none]
  cases v with
  | object fields =>
    rcases hget : Fields.get? fields (String.ofList segment) with _ | w
    · change (Fields.get? _ _).getD .undefined = .undefined
      rw [hget, Option.getD_none]
    · exact absurd (.field hget) (h w)
  | list xs => exact hitem fun n hn hlt => h _ (.listItem hn hlt)
  | tuple xs => exact hitem fun n hn hlt => h _ (.tupleItem hn hlt)
  | _ => rfl

/-! ### Any number of steps -/

lemma follow_undefined (segments : List (List Char)) :
    Value.undefined.follow segments = .undefined := by
  induction segments with
  | nil => rfl
  | cons segment segments ih => exact ih

/-- **Any number of steps** leads to where the segments lead. -/
theorem Leads.follow_eq (h : Leads v segments x) : v.follow segments = x := by
  induction h with
  | here v => rfl
  | @step v w x segment segments h _ ih =>
    change (v.step segment).follow segments = x
    rw [h.step_eq, ih]

/-- **Any number of steps** leads nowhere if the segments lead nowhere. -/
theorem follow_eq_undefined (h : ∀ x, ¬ Leads v segments x) : v.follow segments = .undefined := by
  induction segments generalizing v with
  | nil => exact absurd (.here v) (h v)
  | cons segment segments ih =>
    change (v.step segment).follow segments = .undefined
    by_cases hnames : ∃ w, Names v segment w
    · obtain ⟨w, hw⟩ := hnames
      rw [hw.step_eq]
      exact ih fun x hx => h x (.step hw hx)
    · -- nothing is named, and from there nothing else is either
      rw [step_eq_undefined (not_exists.mp hnames), follow_undefined]

lemma follow_eq_iff : v.follow segments = x ↔
    Leads v segments x ∨ x = .undefined ∧ ∀ w, ¬ Leads v segments w := by
  constructor
  · rintro rfl
    by_cases hleads : ∃ w, Leads v segments w
    · obtain ⟨w, hw⟩ := hleads
      rw [hw.follow_eq]
      exact .inl hw
    · have hnone := not_exists.mp hleads
      exact .inr ⟨follow_eq_undefined hnone, hnone⟩
  · rintro (h | ⟨rfl, h⟩)
    · exact h.follow_eq
    · exact follow_eq_undefined h

lemma follow_append (v : Value) (ps qs : List (List Char)) :
    v.follow (ps ++ qs) = (v.follow ps).follow qs := List.foldl_append

/-! ### Paths -/

variable {p q : String} {ps qs : List (List Char)}

lemma atPath_of_divides (h : Path.Divides p ps) (v : Value) : v.atPath p = .ok (v.follow ps) := by
  rw [atPath, Path.segments_eq_ok_iff.mpr h]
  rfl

/-- **Paths**: a valid path fails in no value. It leads to what its segments name one after the
other, and to the undefined value just if one of them names nothing; and joined to another valid
path, with no blanks between them, it leads on from there. -/
theorem atPath_join (hp : Path.Divides p ps) (d : Value) :
    (∃ v, d.atPath p = .ok v) ∧
      (∀ v, d.atPath p = .ok v ↔ d.Leads ps v ∨ v = .undefined ∧ ∀ w, ¬ d.Leads ps w) ∧
      ∀ q, Path.IsValid q → (∀ c ∈ p.toList.getLast?, ¬ isBlank c) →
        (∀ c ∈ q.toList.head?, ¬ isBlank c) →
        ∃ v w, d.atPath p = .ok v ∧ v.atPath q = .ok w ∧ d.atPath (p ++ "." ++ q) = .ok w := by
  refine ⟨⟨_, atPath_of_divides hp d⟩, fun v => ?_, ?_⟩
  · rw [atPath_of_divides hp, Except.ok.injEq, follow_eq_iff]
  · rintro q ⟨qs, hq⟩ hlast hfirst
    refine ⟨_, _, atPath_of_divides hp d, atPath_of_divides hq _, ?_⟩
    rw [atPath_of_divides (hp.join hq hlast hfirst), follow_append]

/-- Places written with a sign, an underscore and a digit of another script, blanks around a segment
and around the paths, and a place below zero. -/
theorem atPath_join_places :
    let d : Value := .object [("a", .object [("b", .tuple [.null, .list [.int 1,
      .object [("c d", .int 7)]]])])]
    let p := "\ta.b.+0_1"
    let q := "١ .c d\n"
    Path.Divides p ["a".toList, "b".toList, "+0_1".toList] ∧ Path.IsValid q ∧
      (∀ c ∈ p.toList.getLast?, ¬ isBlank c) ∧ (∀ c ∈ q.toList.head?, ¬ isBlank c) ∧
      (∃ v w, d.atPath p = .ok v ∧ v.atPath q = .ok w ∧ d.atPath (p ++ "." ++ q) = .ok w ∧
        w = .int 7) ∧
      d.atPath "a.b.-1" = .ok .undefined := by
  intro d p q
  have hp : Path.Divides p ["a".toList, "b".toList, "+0_1".toList] :=
    ⟨by decide +kernel, List.cons_ne_nil _ _, by decide⟩
  have hq : Path.Divides q ["١ ".toList, "c d".toList] :=
    ⟨by decide +kernel, List.cons_ne_nil _ _, by decide⟩
  have hlast : ∀ c ∈ p.toList.getLast?, ¬ isBlank c := by
    rw [show p.toList.getLast? = some '1' by decide]
    rintro _ ⟨⟩
    decide
  have hfirst : ∀ c ∈ q.toList.head?, ¬ isBlank c := by
    rw [show q.toList.head? = some '١' by decide]
    rintro _ ⟨⟩
    decide
  refine ⟨hp, ⟨_, hq⟩, hlast, hfirst, ?_, rfl⟩
  obtain ⟨v, w, hv, hw, hjoin⟩ := (atPath_join hp d).2.2 q ⟨_, hq⟩ hlast hfirst
  have hend : d.atPath (p ++ "." ++ q) = .ok (.int 7) :=
    atPath_of_divides (hp.join hq hlast hfirst) d
  exact ⟨v, w, hv, hw, hjoin, Except.ok.inj (hjoin.symm.trans hend)⟩

end Value

end NearDoc
