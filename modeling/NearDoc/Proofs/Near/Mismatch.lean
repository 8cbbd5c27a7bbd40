import NearDoc.Proofs.Json.Limits
import NearDoc.Proofs.Near.Distance
import NearDoc.Proofs.Near.Failure
import NearDoc.Proofs.Near.Requests
import NearDoc.Proofs.Value.Threshold

/-!
Failures of retrieval by nearness. Whatever a field holds, it is a vector or it is none, as long as
no numeral in a bracketed text is too long and no brackets of it nest too deep; so a document has a
distance, or it has none, or its vector is of another dimension than the target, or its brackets
nest too deep. Main statement: with a metric that does not fail, a filter and both rankings fail at
the first document of the last two kinds and nowhere else.
-/

namespace NearDoc

open scoped List

namespace Embedding

/-- No numeral of a bracketed text has more digits than an integer may have. Numerals stand outside
of quotes. -/
def Legible (v : Value) : Prop :=
  ∀ s, v = .text s → (Text.trim s.toList).head? = some '[' →
    (Text.trim s.toList).getLast? = some ']' →
    ∀ run, run <:+: Json.unquoted false (Text.trim s.toList) →
      (∀ c ∈ run, Json.isAsciiDigit c = true) → run.length ≤ Number.longestInteger

/-- A text with no more outside of quotes than an integer may have digits. -/
def isShort : Value → Bool
  | .text s => (Json.unquoted false (Text.trim s.toList)).length ≤ Number.longestInteger
  | _ => true

lemma legible_of_isShort {v : Value} (h : isShort v = true) : Legible v := by
  rintro s rfl - - run hrun -
  exact hrun.length_le.trans (of_decide_eq_true h)

/-- No more brackets of a bracketed text are open at once than the reader has room for. -/
def Shallow (v : Value) : Prop :=
  ∀ s, v = .text s → (Text.trim s.toList).head? = some '[' →
    (Text.trim s.toList).getLast? = some ']' →
    ¬ Json.TooDeep nestingLimit (Text.trim s.toList)

/-- The reader of a bracketed text is the only one that has no room for something. -/
lemma exists_text_of_ofValue {v : Value} {e : Error} (hroom : NoRoom e)
    (h : ofValue v = .error e) :
    ∃ s, v = .text s ∧ (Text.trim s.toList).head? = some '[' ∧
      (Text.trim s.toList).getLast? = some ']' ∧
      Json.readWithin nestingLimit (Text.trim s.toList) = .error e := by
  have hvector : ¬ NoVector e := by
    rcases hroom with ⟨n, rfl⟩ | ⟨what, rfl⟩ <;> exact nofun
  unfold ofValue at h
  split at h
  · cases h
  · rename_i s
    rcases hparse : parseBracketed s with e' | xs
    · rw [hparse] at h
      obtain rfl : e' = e := Except.error.inj h
      unfold parseBracketed at hparse
      dsimp only at hparse
      split at hparse
      · rename_i hbrackets
        obtain ⟨hopen, hclose⟩ : (Text.trim s.toList).head? = some '[' ∧
            (Text.trim s.toList).getLast? = some ']' := by simpa using hbrackets
        split at hparse
        · cases hparse
        · rename_i hread
          cases hparse
          exact ⟨s, rfl, hopen, hclose, hread⟩
        · rename_i hread
          cases hparse
          exact ⟨s, rfl, hopen, hclose, hread⟩
        · cases hparse
          exact absurd rfl hvector
      · cases hparse
        exact absurd rfl hvector
    · rw [hparse] at h
      exact absurd (noVector_of_ofValues h) hvector
  · exact absurd (noVector_of_ofArray h) hvector
  · exact absurd (noVector_of_ofValues h) hvector
  · exact absurd (noVector_of_ofValues h) hvector
  · cases h
    exact absurd rfl hvector

/-- **Stored values**: each is a vector or it is none, unless its brackets nest too deep. -/
theorem ofStored_cases {v : Value} (hv : Legible v) :
    (∃ stored, ofStored v = .ok stored) ∨
      (∃ what, ofStored v = .error (.nestedTooDeep what)) ∧ ¬ Shallow v := by
  rcases hstored : ofStored v with e | stored
  · have hroom := noRoom_of_ofStored hstored
    have hvalue : ofValue v = .error e := by
      unfold ofStored at hstored
      split at hstored
      · cases hstored
      · rename_i e' he'
        split at hstored
        · cases hstored
        · rw [he', Except.error.inj hstored]
    obtain ⟨s, rfl, hopen, hclose, hread⟩ := exists_text_of_ofValue hroom hvalue
    obtain ⟨hlong, hdeep⟩ := Json.limits_of_readWithin hread
    rcases hroom with ⟨n, rfl⟩ | ⟨what, rfl⟩
    · obtain ⟨run, hrun, hdigits, hlen, hmany⟩ := hlong n rfl
      have hshort := hv s rfl hopen hclose run hrun hdigits
      omega
    · exact .inr ⟨⟨what, rfl⟩, fun hshallow => hshallow s rfl hopen hclose (hdeep what rfl)⟩
  · exact .inl ⟨stored, rfl⟩

/-- Lists in lists, so many of them. -/
def nestedText (n : Nat) : List Char := List.replicate n '[' ++ List.replicate n ']'

lemma head?_nestedText {n : Nat} (h : n ≠ 0) : (nestedText n).head? = some '[' := by
  rw [nestedText, List.head?_append, List.head?_replicate, if_neg h]
  rfl

lemma getLast?_nestedText {n : Nat} (h : n ≠ 0) : (nestedText n).getLast? = some ']' := by
  rw [nestedText, List.getLast?_append, List.getLast?_replicate, if_neg h]
  rfl

/-- As many lists in lists as the reader has no room for are refused. -/
lemma ofStored_nestedText {n : Nat} (h : nestingLimit < n) :
    ofStored (.text (String.ofList (nestedText n))) = .error (.nestedTooDeep "array") := by
  have hpos : n ≠ 0 := by omega
  exact ofStored_of_noRoom (.inr ⟨_, rfl⟩) (head?_nestedText hpos) (getLast?_nestedText hpos)
    (Json.readWithin_replicate h _)

lemma isShort_nestedText {n : Nat} (hpos : n ≠ 0) (h : 2 * n ≤ Number.longestInteger) :
    isShort (.text (String.ofList (nestedText n))) = true := by
  have hquotes : ∀ c ∈ nestedText n, c ≠ '"' := by
    intro c hc
    rcases List.mem_append.mp hc with hc | hc <;> rw [List.eq_of_mem_replicate hc] <;> decide
  have hunquoted : Json.unquoted false (nestedText n) = nestedText n := by
    have := Json.unquoted_append hquotes []
    rwa [Json.unquoted, List.append_nil] at this
  have htrim : Text.trim (nestedText n) = nestedText n :=
    Text.trim_of_first_last (head?_nestedText hpos) (getLast?_nestedText hpos) (by decide)
      (by decide)
  rw [isShort, String.toList_ofList, htrim, hunquoted, nestedText, List.length_append,
    List.length_replicate, List.length_replicate]
  exact decide_eq_true (by omega)

/-- A text can nest too deep without being as long as an integer may be. -/
lemma nestingLimit_short : 2 * (nestingLimit + 1) ≤ Number.longestInteger := by
  simp [nestingLimit, Number.longestInteger]

end Embedding

namespace DistanceKey

/-- The error of a document that holds a vector of another dimension than the target, or a text
whose brackets nest too deep. -/
def refusal? (key : DistanceKey) (d : Value) : Option Error :=
  match Embedding.extract d key.field with
  | .ok (some stored) =>
    if stored.dimension = key.target.dimension then none
    else some (.dimensionMismatch key.target.dimension stored.dimension)
  | .error (.nestedTooDeep what) => some (.nestedTooDeep what)
  | _ => none

/-- Whether a document has a distance that is at most the threshold. -/
def qualifies (key : DistanceKey) (most d : Value) : Bool :=
  match key.ofDocument d with
  | .ok .undefined | .error _ => false
  | .ok distance => (distance.relate .le most).toOption.getD false

/-- The metric does not fail on the target and a vector of its dimension. -/
def Total (key : DistanceKey) : Prop :=
  ∀ stored : Embedding, stored.dimension = key.target.dimension →
    ∃ x, key.metric.distance stored key.target = .ok x

/-- A document in which the field holds what can be read. -/
def Legible (key : DistanceKey) (d : Value) : Prop :=
  ∀ v, d.atPath key.field = .ok v → Embedding.Legible v

/-- What a reading of documents finds: nothing, a distance, or a reason to be refused. -/
inductive Finds (key : DistanceKey) (reading : Value → Except Error Value) (d : Value) : Prop where
  | nothing (h : reading d = .ok .undefined) (hfits : key.refusal? d = none)
  | distance (x : Binary64) (h : reading d = .ok (.real x)) (hfits : key.refusal? d = none)
  | refused (e : Error) (h : reading d = .error e) (hrefused : key.refusal? d = some e)

variable {key : DistanceKey} {d most : Value} {ds : List Value}
variable {reading : Value → Except Error Value}

lemma legible_of_isShort (h : (d.atPath key.field).toOption.all Embedding.isShort = true) :
    key.Legible d := by
  intro v hv
  rw [hv] at h
  exact Embedding.legible_of_isShort h

lemma Measures.total (h : key.Measures) : key.Total := fun stored hdim =>
  let ⟨x, _, hx, _⟩ := h stored hdim
  ⟨x, hx⟩

/-- **Documents**: each has no vector, a distance, or it is refused. -/
theorem finds (hfield : ∃ parts, Path.segments key.field = .ok parts) (htotal : key.Total)
    (hd : key.Legible d) : key.Finds key.ofDocument d := by
  obtain ⟨parts, hparts⟩ := hfield
  have hpath : d.atPath key.field = .ok (d.follow parts) := by
    simp [Value.atPath, hparts, Except.map]
  have hextract : Embedding.extract d key.field = Embedding.ofStored (d.follow parts) := by
    rw [Embedding.extract, hpath]
    rfl
  obtain ⟨stored, hstored⟩ | ⟨⟨what, hdeep⟩, -⟩ := Embedding.ofStored_cases (hd _ hpath)
  case inr =>
    rw [hdeep] at hextract
    refine .refused (.nestedTooDeep what) ?_ (by simp only [refusal?, hextract])
    rw [ofDocument, hextract]
    rfl
  rw [hstored] at hextract
  rcases stored with _ | stored
  · refine .nothing ?_ (by simp only [refusal?, hextract])
    rw [ofDocument, hextract]
    rfl
  · by_cases hdim : stored.dimension = key.target.dimension
    · obtain ⟨x, hx⟩ := htotal stored hdim
      refine .distance x ?_ (by simp only [refusal?, hextract, if_pos hdim])
      simp only [ofDocument, hextract, Bind.bind, Except.bind, hx]
      rfl
    · have hdistance : key.metric.distance stored key.target =
          .error (.dimensionMismatch key.target.dimension stored.dimension) := by
        rw [Metric.distance, if_neg hdim]
      refine .refused (.dimensionMismatch key.target.dimension stored.dimension) ?_
        (by simp only [refusal?, hextract, if_neg hdim])
      simp only [ofDocument, hextract, Bind.bind, Except.bind, hdistance]

/-! ### The filter -/

/-- The documents before the first refusal whose distance is at most the threshold. -/
def qualifying (key : DistanceKey) (most : Value) (ds : List Value) : List Value :=
  (ds.takeWhile fun d => (key.refusal? d).isNone).filter (key.qualifies most)

/-- **Filters**: as many as are wanted of the documents that qualify before the first refusal, and
then, if more are wanted, its error. -/
theorem within_eq {n : Number} (hmost : most.numeral? = some n)
    (hds : ∀ d ∈ ds, key.Finds key.ofDocument d) (wanted : Option Nat) :
    (key.within most wanted ds).outcome =
      ⟨wanted.elim (key.qualifying most ds) (key.qualifying most ds).take,
        if wanted.any (· ≤ (key.qualifying most ds).length) then none
        else ds.findSome? key.refusal?⟩ := by
  induction ds generalizing wanted with
  | nil => rcases wanted with _ | _ | w <;> simp [within, qualifying]
  | cons d ds ih =>
    obtain ⟨hd, hds⟩ := List.forall_mem_cons.mp hds
    by_cases hwanted : wanted = some 0
    · subst hwanted
      simp [within]
    · have hpositive : wanted.any (· ≤ 0) = false := by
        rcases wanted with _ | _ | w <;> simp_all
      rw [within]
      · cases hd with
        | nothing h hfits =>
          have hsame : key.qualifying most (d :: ds) = key.qualifying most ds := by
            simp [qualifying, hfits, qualifies, h]
          simp only [h, ih hds, hsame, List.findSome?_cons, hfits]
        | distance x h hfits =>
          obtain ⟨a, b, hrelate, -⟩ := Value.exists_relate_numeral hmost x
          simp only [h, hrelate]
          rcases hle : OrderRelation.le.ofNumbers a b with _ | _
          · have hsame : key.qualifying most (d :: ds) = key.qualifying most ds := by
              simp [qualifying, hfits, qualifies, h, hrelate, hle, Except.toOption]
            simp only [ih hds, hsame, List.findSome?_cons, hfits]
          · have hmore : key.qualifying most (d :: ds) = d :: key.qualifying most ds := by
              simp [qualifying, hfits, qualifies, h, hrelate, hle, Except.toOption]
            simp only [ih hds, hmore, List.findSome?_cons, hfits, List.length_cons]
            rcases wanted with _ | _ | w
            · rfl
            · exact absurd rfl hwanted
            · simp
        | refused e h hrefused =>
          have hnone : key.qualifying most (d :: ds) = [] := by simp [qualifying, hrefused]
          simp only [h, hnone, List.findSome?_cons, hrefused, List.length_nil, hpositive]
          cases wanted <;> simp
      · exact hwanted

/-! ### The rankings -/

/-- A threshold puts nothing in the place of a distance beyond it. -/
lemma upTo_of_distance {x : Binary64} {beyond : Bool} (h : key.ofDocument d = .ok (.real x))
    (hbeyond : (Value.real x).relate .gt most = .ok beyond) :
    key.upTo most d = .ok (if beyond then .undefined else .real x) := by
  simp only [upTo, h, hbeyond, Bind.bind, Except.bind]
  rfl

lemma finds_upTo {n : Number} (hmost : most.numeral? = some n) (hd : key.Finds key.ofDocument d) :
    key.Finds (key.upTo most) d := by
  cases hd with
  | nothing h hfits => exact .nothing (by rw [upTo, h]; rfl) hfits
  | refused e h hrefused => exact .refused e (by rw [upTo, h]; rfl) hrefused
  | distance x h hfits =>
    obtain ⟨a, b, hrelate, -⟩ := Value.exists_relate_numeral hmost x
    have hread := upTo_of_distance h (hrelate .gt)
    rcases hgt : OrderRelation.gt.ofNumbers a b with _ | _
    · exact .distance x (by simpa [hgt] using hread) hfits
    · exact .nothing (by simpa [hgt] using hread) hfits

/-- Distances compare with one another. -/
lemma together_distances (hds : ∀ d ∈ ds, key.Finds reading d) :
    Value.Together (fun _ => False)
      ((ds.filterMap (Selector.ranked? reading)).map Prod.fst) := by
  have hreal : ∀ v ∈ (ds.filterMap (Selector.ranked? reading)).map Prod.fst,
      ∃ x, v = .real x := by
    intro v hv
    obtain ⟨pair, hpair, rfl⟩ := List.mem_map.mp hv
    obtain ⟨d, hd, hranked⟩ := List.mem_filterMap.mp hpair
    cases hds d hd with
    | nothing h | refused _ h => simp [Selector.ranked?, h] at hranked
    | distance x h =>
      simp only [Selector.ranked?, h, Option.some.injEq] at hranked
      exact ⟨x, by rw [← hranked]⟩
  have hclash : ∀ (x y : Binary64) e, ¬ (Value.real x).Clash (.real y) e := by
    intro x y e he
    rw [Value.Clash, Value.eqv_of_number? rfl rfl, Value.lt_of_number? rfl rfl,
      Value.eqv_of_number? rfl rfl, Value.lt_of_number? rfl rfl] at he
    simp at he
  refine List.pairwise_of_forall_mem_list fun v hv w hw e he => ?_
  obtain ⟨x, rfl⟩ := hreal v hv
  obtain ⟨y, rfl⟩ := hreal w hw
  exact hclash x y e he

/-- **Selections** fail at the first refusal, and over nothing else. -/
theorem select_eq_error_iff {n : Nat} (hn : n ≠ 0) (hds : ∀ d ∈ ds, key.Finds reading d)
    {e : Error} :
    (Selector.select reading (.upTo n) ds).outcome = .error e ↔
      ds.findSome? key.refusal? = some e := by
  have hfits : ∀ d ∈ ds, key.refusal? d = none → ∀ e, reading d ≠ .error e := by
    intro d hd hnone e he
    cases hds d hd with
    | nothing h | distance _ h => simp [h] at he
    | refused _ _ hrefused => simp [hrefused] at hnone
  rcases hfirst : ds.findSome? key.refusal? with _ | e'
  · rw [List.findSome?_eq_none_iff] at hfirst
    have hmeets := Selector.select_meets
      (fun d hd e he => hfits d hd (hfirst d hd) e he) (together_distances hds)
      (.upTo n) nofun
    exact iff_of_false (fun h => hmeets.error h) (by simp)
  · obtain ⟨before, d, after, rfl, hd, hbefore⟩ := List.findSome?_eq_some_iff.mp hfirst
    have hread : reading d = .error e' := by
      cases hds d (by simp) with
      | nothing _ hnone | distance _ _ hnone => simp [hd] at hnone
      | refused e h hrefused => rw [h, Option.some.inj (hrefused.symm.trans hd)]
    rw [Selector.select_stops hn (fun d' hd' => hfits d' (by simp [hd']) (hbefore d' hd'))
      (together_distances fun d' hd' => hds d' (by simp [hd'])) hread]
    simp

end DistanceKey

/-! ### Retrieval -/

namespace Near

section

variable {env : Environment} {field : String} {target most : Value} {metric : MetricRef}
variable {key : DistanceKey}

lemma ranking_null (hmake : DistanceKey.make env field target metric = .ok key) (k : Int) :
    ranking env field target (.int k) metric .null = .ok ⟨key.ofDocument, .upTo k.toNat⟩ := by
  simp only [ranking, hmake, Bind.bind, Except.bind, Selector.ofValue_int]
  rfl

/-- A number for a threshold is not taken for none. -/
lemma ranking_numeral (hmake : DistanceKey.make env field target metric = .ok key) {n : Number}
    (hmost : most.numeral? = some n) (k : Int) :
    ranking env field target (.int k) metric most = .ok ⟨key.upTo most, .upTo k.toNat⟩ := by
  have hnumber : most.isNull = false := by
    cases most <;> first | rfl | cases hmost
  simp only [ranking, hmake, hnumber, Bind.bind, Except.bind, Selector.ofValue_int]
  rfl

end

/-- **Retrieval** with a metric that does not fail. Every stored value is a vector or it is none,
unless its brackets nest too deep. A filter shows what qualifies before the first document that
holds such a text or a vector of another dimension and fails there, and the rankings fail there;
nothing else makes them fail. -/
theorem fails_at_refusal {env : Environment} {field : String} {target most : Value}
    {metric : MetricRef} {key : DistanceKey} {n : Number} {k : Int} {ds : List Value}
    (hmake : DistanceKey.make env field target metric = .ok key)
    (hfield : ∃ parts, Path.segments field = .ok parts) (htotal : key.Total)
    (hmost : most.numeral? = some n) (hk : 1 ≤ k) (hds : ∀ d ∈ ds, key.Legible d) :
    (∀ v, Embedding.Legible v → (∃ stored, Embedding.ofStored v = .ok stored) ∨
      (∃ what, Embedding.ofStored v = .error (.nestedTooDeep what)) ∧ ¬ Embedding.Shallow v) ∧
    (∀ wanted, ∃ pass, filter env ds field target most metric wanted = .ok pass ∧
      pass.outcome =
        ⟨wanted.elim (key.qualifying most ds) (key.qualifying most ds).take,
          if wanted.any (· ≤ (key.qualifying most ds).length) then none
          else ds.findSome? key.refusal?⟩) ∧
    (∀ wanted, wanted ≠ some 0 →
      ∃ pass, topK env ds field target (.int k) metric wanted = .ok pass ∧
        pass.outcome.failure = ds.findSome? key.refusal?) ∧
    ∀ limit, limit = .null ∨ limit = most → ∀ e,
      (rank env ds field target (.int k) metric limit).outcome = .error e ↔
        ds.findSome? key.refusal? = some e := by
  have hkeyField : key.field = field := by
    obtain ⟨_, -, hkey⟩ := bind_eq_ok.mp hmake
    obtain ⟨_, -, hkey⟩ := bind_eq_ok.mp hkey
    cases hkey
    rfl
  have hfinds : ∀ d ∈ ds, key.Finds key.ofDocument d := fun d hd =>
    key.finds (by rwa [hkeyField]) htotal (hds d hd)
  have hroom : k.toNat ≠ 0 := by omega
  refine ⟨fun v hv => Embedding.ofStored_cases hv, fun wanted => ?_, fun wanted hwanted => ?_,
    fun limit hlimit e => ?_⟩
  · refine ⟨key.within most wanted ds, ?_, DistanceKey.within_eq hmost hfinds wanted⟩
    simp only [filter, hmake, Bind.bind, Except.bind]
    rfl
  · have hselect (e : Error) := DistanceKey.select_eq_error_iff (e := e) hroom hfinds
    simp only [topK, hmake, Bind.bind, Except.bind, if_neg hwanted, Selector.selectCount,
      Selector.ofValue_int]
    rcases hout : (Selector.select key.ofDocument (.upTo k.toNat) ds).outcome with e | ranked
    · exact ⟨_, rfl, ((hselect e).mp hout).symm⟩
    · refine ⟨_, rfl, (Option.eq_none_iff_forall_ne_some.mpr fun e he => ?_).symm⟩
      cases hout.symm.trans ((hselect e).mpr he)
  · obtain ⟨reading, hranking, hreading⟩ : ∃ reading,
        ranking env field target (.int k) metric limit = .ok ⟨reading, .upTo k.toNat⟩ ∧
          ∀ d ∈ ds, key.Finds reading d := by
      rcases hlimit with rfl | rfl
      · exact ⟨_, ranking_null hmake k, hfinds⟩
      · exact ⟨_, ranking_numeral hmake hmost k, fun d hd =>
          DistanceKey.finds_upTo hmost (hfinds d hd)⟩
    rw [← DistanceKey.select_eq_error_iff hroom hreading, rank, hranking]
    simp only [Ranking.run]
    rcases (Selector.select reading (.upTo k.toNat) ds).outcome with e' | ranked <;>
    simp [Except.map]

/-! ### Odd vectors -/

/-- A point of the plane. -/
def north : Embedding := ⟨[.zero, .ofInt 1], by simp, by decide +kernel⟩

def holding (name : String) (v : Value) : Value := .object [("_id", .text name), ("v", v)]

/-- Documents without a vector, with a vector of the plane, and one with a vector of a line. -/
def oddities : List Value :=
  .object [] :: List.map (holding "odd")
    [.null, .bool true, .text "far", .text "[0, 1]", .text "[0,, 1]", .text "[\"0\", 1]", .list [],
      .list [.list [.int 1], .list [.int 0]], .list [.int (10 ^ 400), .int 0],
      .list [.real (.nan 0), .int 0], .list [.bool true, .int 0], .object [("x", .int 1)],
      .bytes [1, 0], .array ⟨.float 32, [2], [.real (.ofInt 1), .real (.ofInt 1)], 0⟩,
      .list [.int 0, .int 5], .list [.int 1], .list [.int 0, .int 1]]

lemma oddities_eq :
    (oddities.all fun d => (d.atPath "v").toOption.all Embedding.isShort) = true ∧
    (DistanceKey.qualifying ⟨"v", north, .euclidean⟩ (.int 1) oddities).length = 2 ∧
      oddities.findSome? (DistanceKey.refusal? ⟨"v", north, .euclidean⟩) =
        some (.dimensionMismatch 2 1) := by
  decide +kernel

/-- A document with lists in lists, one more than there is room for. -/
def abyss : Value :=
  holding "deep" (.text (String.ofList (Embedding.nestedText (Embedding.nestingLimit + 1))))

lemma refusal?_holding {name s what : String}
    (h : Embedding.ofStored (.text s) = .error (.nestedTooDeep what)) :
    DistanceKey.refusal? ⟨"v", north, .euclidean⟩ (holding name (.text s)) =
      some (.nestedTooDeep what) := by
  have hextract : Embedding.extract (holding name (.text s)) "v" =
      Embedding.ofStored (.text s) := rfl
  rw [h] at hextract
  simp only [DistanceKey.refusal?, hextract]

lemma refusal?_abyss :
    [abyss].findSome? (DistanceKey.refusal? ⟨"v", north, .euclidean⟩) =
      some (.nestedTooDeep "array") := by
  have hrefused : DistanceKey.refusal? ⟨"v", north, .euclidean⟩ abyss =
      some (.nestedTooDeep "array") :=
    refusal?_holding (Embedding.ofStored_nestedText (Nat.lt_add_one Embedding.nestingLimit))
  rw [List.findSome?_cons, hrefused]

theorem fails_at_refusal_oddities :
    ∃ key : DistanceKey,
      DistanceKey.make {} "v" (.embedding north) (.named (.text "euclidean")) = .ok key ∧
      (∃ parts, Path.segments "v" = .ok parts) ∧ key.Total ∧
      (Value.int 1).numeral? = some (.int 1) ∧ (1 : Int) ≤ 3 ∧
      (∀ d ∈ oddities, key.Legible d) ∧ key.Legible abyss ∧
      (∃ pass,
        filter {} oddities "v" (.embedding north) (.int 1) (.named (.text "euclidean")) none =
          .ok pass ∧
        pass.outcome.items.length = 2 ∧ pass.outcome.failure = some (.dimensionMismatch 2 1)) ∧
      (∃ pass, topK {} oddities "v" (.embedding north) (.int 3) (.named (.text "euclidean")) none =
          .ok pass ∧
        pass.outcome.failure = some (.dimensionMismatch 2 1)) ∧
      (rank {} oddities "v" (.embedding north) (.int 3) (.named (.text "euclidean"))
        (.int 1)).outcome = .error (.dimensionMismatch 2 1) ∧
      ∃ pass, filter {} [abyss] "v" (.embedding north) (.int 1) (.named (.text "euclidean")) none =
          .ok pass ∧
        pass.outcome.failure = some (.nestedTooDeep "array") := by
  have hmake : DistanceKey.make {} "v" (.embedding north) (.named (.text "euclidean")) =
      .ok ⟨"v", north, .euclidean⟩ := rfl
  have hsegments : ∃ parts, Path.segments "v" = .ok parts := ⟨_, rfl⟩
  have htotal := (DistanceKey.measures_euclidean "v" north).total
  obtain ⟨hshort, hlength, hfirst⟩ := oddities_eq
  have hlegible : ∀ d ∈ oddities, DistanceKey.Legible ⟨"v", north, .euclidean⟩ d := fun d hd =>
    DistanceKey.legible_of_isShort (List.all_eq_true.mp hshort d hd)
  have hdeep : DistanceKey.Legible ⟨"v", north, .euclidean⟩ abyss := by
    rintro v ⟨⟩
    exact Embedding.legible_of_isShort
      (Embedding.isShort_nestedText (Nat.succ_ne_zero _) Embedding.nestingLimit_short)
  have hone : (Value.int 1).numeral? = some (.int 1) := rfl
  have hthree : (1 : Int) ≤ 3 := by decide
  obtain ⟨-, hfilter, htop, hrank⟩ :=
    fails_at_refusal hmake hsegments htotal hone hthree hlegible
  obtain ⟨-, hfilter', -⟩ := fails_at_refusal hmake hsegments htotal hone hthree
    (List.forall_mem_singleton.mpr hdeep)
  obtain ⟨shown, hshown, houtcome⟩ := hfilter none
  obtain ⟨ranked, hranked, hfailure⟩ := htop none (by simp)
  obtain ⟨shown', hshown', houtcome'⟩ := hfilter' none
  refine ⟨_, hmake, hsegments, htotal, hone, hthree, hlegible, hdeep, ⟨shown, hshown, ?_⟩,
    ⟨ranked, hranked, hfailure.trans hfirst⟩, (hrank _ (.inr rfl) _).mpr hfirst, shown', hshown',
    ?_⟩
  · rw [houtcome]
    simp only [Option.elim_none, Option.any_none, Bool.false_eq_true, if_false]
    exact ⟨hlength, hfirst⟩
  · rw [houtcome']
    simp only [Option.any_none, Bool.false_eq_true, if_false]
    exact refusal?_abyss

end Near

end NearDoc
