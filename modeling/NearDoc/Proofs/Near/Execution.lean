import NearDoc.Proofs.Near.Distance
import NearDoc.Proofs.Near.Select
import NearDoc.Proofs.Query.Rows
import NearDoc.Proofs.Value.Ordered

/-!
Plans that ask for nearness, by a threshold for a distance or by an order and a limit. Main
statements: a cursor on such a plan delivers the documents that a direct search finds, and where a
document is refused, it fails as the search does.
-/

namespace NearDoc

/-- A call gives a cursor, which delivers these documents and then ends or fails. -/
def Answers (env : Environment) (store : Store) (run : Except Error Cursor) (found : Found Value) :
    Prop :=
  ∃ c, run = .ok c ∧ c.Delivers env store found.items found.failure

/-- The distance that an expression measures is at most a number. -/
def Expr.within (e : Expr) (most : Binary64) : Expr :=
  .compare (.order .le) e (.literal (.real most))

namespace Plan

variable {env : Environment} {store : Store} {key : DistanceKey} {p : Plan} {e : Expr}
variable {ds : List Value} {d : Value}

/-- Whole documents are shown as they are. -/
lemma shown_documents (hcolumns : p.columns = none) : p.shown env ds = ⟨ds, none⟩ := by
  induction ds with
  | nil => rfl
  | cons d ds ih =>
    have hrow : Execution.row env p d = .ok d := by rw [Execution.row, hcolumns]
    simp only [shown, hrow, ih]

/-! ### Within a distance -/

lemma relate_le_real (x y : Binary64) :
    (Value.real x).relate .le (.real y) = .ok (OrderRelation.le.ofNumbers (.real x) (.real y)) :=
  rfl

variable {most : Binary64}

/-- **Thresholds**: a scan shows the documents that the search within the distance finds. -/
theorem scanned_eq_within (hfield : ∃ parts, Path.segments key.field = .ok parts)
    (hkey : key.Measures) (he : ∀ d, e.eval env d = key.ofDocument d)
    (hpredicate : p.predicate = some (e.within most)) (hcolumns : p.columns = none) :
    p.scanned env none ds = (key.within (.real most) none ds).outcome := by
  induction ds with
  | nil => rfl
  | cons d ds ih =>
    have hrow : Execution.row env p d = .ok d := by rw [Execution.row, hcolumns]
    have hadmitted : Execution.admitted env p d =
        ((e.within most).eval env d).map Value.isTrue := by
      rw [Execution.admitted, hpredicate]
      rfl
    rcases key.ofDocument_cases hfield hkey d with hd | ⟨x, q, hd, -⟩ | ⟨err, hd, -⟩
    · have hfalse : Execution.admitted env p d = .ok false := by
        rw [hadmitted, Expr.within, Expr.eval, he, hd]
        rfl
      simp only [scanned, DistanceKey.within, hd, hfalse, ih]
    · have hreal : Execution.admitted env p d =
          .ok (OrderRelation.le.ofNumbers (.real x) (.real most)) := by
        rw [hadmitted, Expr.within, Expr.eval, he, hd]
        rfl
      cases hle : OrderRelation.le.ofNumbers (.real x) (.real most) <;>
      simp only [scanned, DistanceKey.within, hd, relate_le_real, hreal, hle, hrow, ih,
        Option.map_none]
    · have herr : Execution.admitted env p d = .error err := by
        rw [hadmitted, Expr.within, Expr.eval, he, hd]
        rfl
      simp only [scanned, DistanceKey.within, hd, herr]

/-- A search within a distance fails only as a document does. -/
lemma exists_refused_within (hfield : ∃ parts, Path.segments key.field = .ok parts)
    (hkey : key.Measures) {err : Error}
    (h : (key.within (.real most) none ds).outcome.failure = some err) :
    ∃ d ∈ ds, key.Refuses d err := by
  induction ds with
  | nil => cases h
  | cons d ds ih =>
    rcases key.ofDocument_cases hfield hkey d with hd | ⟨x, q, hd, -⟩ | ⟨err', hd, href⟩
    · simp only [DistanceKey.within, hd] at h
      obtain ⟨d', hd', href⟩ := ih h
      exact ⟨d', by simp [hd'], href⟩
    · have hrest : (key.within (.real most) none ds).outcome.failure = some err := by
        cases hle : OrderRelation.le.ofNumbers (.real x) (.real most) <;>
        simpa only [DistanceKey.within, hd, relate_le_real, hle, Option.map_none] using h
      obtain ⟨d', hd', href⟩ := ih hrest
      exact ⟨d', by simp [hd'], href⟩
    · simp only [DistanceKey.within, hd] at h
      cases h
      exact ⟨d, by simp, href⟩

/-- **Plans with a threshold** deliver what the search within the distance finds. -/
theorem answers_within (store : Store) (hfield : ∃ parts, Path.segments key.field = .ok parts)
    (hkey : key.Measures) (he : ∀ d, e.eval env d = key.ofDocument d)
    (hpredicate : p.predicate = some (e.within most)) (horder : p.order = [])
    (hlimit : p.limit = .null) (hcolumns : p.columns = none) :
    Answers env store (.ok (.ofPlan p (.documents ds)))
      (key.within (.real most) none ds).outcome := by
  have hstrategy : p.strategy = .ok .stream := by
    simp [strategy, hlimit, horder, Value.isNull, pure, Except.pure]
  have hstart : Execution.start env store (p.waiting ds) =
      ({ plan := p, phase := .streaming ds none }, none) := by
    simp [waiting, Execution.start, hstrategy, Execution.startAs, rowCount, hlimit, Value.isNull,
      Execution.startOn, Execution.openSource]
  have hyields : Execution.Yields env { plan := p, phase := .streaming ds none } _ _ :=
    Execution.yields_streaming rfl
  rw [scanned_eq_within hfield hkey he hpredicate hcolumns] at hyields
  exact ⟨_, rfl, Cursor.delivers_of_yields hstart (Execution.started_of_streaming rfl) hyields⟩

/-! ### The nearest -/

/-- The documents of a selection, or its failure. -/
def ranked : Except Error (List (Value × Value)) → Found Value
  | .ok hits => ⟨hits.map (·.2), none⟩
  | .error err => ⟨[], some err⟩

/-- A selection by distance fails only as a document does. -/
lemma exists_refused_select (hfield : ∃ parts, Path.segments key.field = .ok parts)
    (hkey : key.Measures) {n : Nat} {err : Error}
    (h : (Selector.select key.ofDocument (.upTo n) ds).outcome = .error err) :
    ∃ d ∈ ds, key.Refuses d err := by
  have hkeys : Selector.KeysIn Value.IsPlaced key.ofDocument ds := by
    intro d _ v hv hne
    rcases key.ofDocument_cases hfield hkey d with hd | ⟨x, q, hd, hq⟩ | ⟨err', hd, -⟩
    · rw [hd] at hv
      exact absurd (Except.ok.inj hv).symm hne
    · rw [hd] at hv
      cases hv
      exact ⟨.real x, q, rfl, hq⟩
    · rw [hd] at hv
      cases hv
  obtain ⟨d, hd, hde⟩ :=
    Selector.exists_key_of_select_error Value.orderedKeys_isPlaced hkeys h
  refine ⟨d, hd, ?_⟩
  rcases key.ofDocument_cases hfield hkey d with hd' | ⟨x, q, hd', -⟩ | ⟨err', hd', href⟩
  · rw [hd'] at hde
    cases hde
  · rw [hd'] at hde
    cases hde
  · rw [hd'] at hde
    cases hde
    exact href

/-- A refusal is told as it is, and not as keys without an order. -/
lemma asOrderError_of_refuses {err : Error} (h : key.Refuses d err) :
    Execution.asOrderError err = err := by
  cases h <;> rfl

/-- The sort key of a plan without a predicate is the distance. -/
lemma soleKey_eq_ofDocument (hfield : ∃ parts, Path.segments key.field = .ok parts)
    (hkey : key.Measures) (he : ∀ d, e.eval env d = key.ofDocument d)
    (hpredicate : p.predicate = none) : Execution.soleKey env p e = key.ofDocument := by
  funext d
  have hadmitted : Execution.admitted env p d = .ok true := by rw [Execution.admitted, hpredicate]
  rw [Execution.soleKey, hadmitted, he]
  rcases key.ofDocument_cases hfield hkey d with hd | ⟨x, q, hd, -⟩ | ⟨err, hd, -⟩ <;>
  rw [hd] <;> rfl

/-- A run that starts with whole documents in their order delivers these. -/
lemma answers_of_delivering {x : Execution} {found : List Value}
    (hstart : (p.waiting ds).start env store = (x, none)) (hplan : x.plan = p)
    (hphase : x.phase = .delivering found) (hcolumns : p.columns = none) :
    Answers env store (.ok (.ofPlan p (.documents ds))) ⟨found, none⟩ := by
  have hyields : Execution.Yields env x _ _ := Execution.yields_delivering hphase
  rw [hplan, shown_documents hcolumns] at hyields
  exact ⟨_, rfl, Cursor.delivers_of_yields hstart (Execution.started_of_delivering hphase) hyields⟩

/-- **Plans with an order by distance** deliver what the selection of the nearest finds. -/
theorem answers_nearest (store : Store) (hfield : ∃ parts, Path.segments key.field = .ok parts)
    (hkey : key.Measures) (he : ∀ d, e.eval env d = key.ofDocument d)
    (hpredicate : p.predicate = none) (horder : p.order = [⟨e, .bool false⟩]) {k : Int}
    (hlimit : p.limit = .int k) (hcolumns : p.columns = none) :
    Answers env store (.ok (.ofPlan p (.documents ds)))
      (ranked (Selector.select key.ofDocument (.upTo k.toNat) ds).outcome) := by
  by_cases hk : k ≤ 0
  · -- nothing is pulled
    have hstrategy : p.strategy = .ok .empty := by
      simp [strategy, hlimit, Value.isNull, Value.relate_le_int, hk, Bind.bind, Except.bind, pure,
        Except.pure]
    have hnone : ranked (Selector.select key.ofDocument (.upTo k.toNat) ds).outcome =
        ⟨[], none⟩ := by
      simp [Int.toNat_of_nonpos hk, Selector.select, Room.isNone, ranked]
    rw [hnone]
    refine answers_of_delivering (x := { plan := p, phase := .delivering [] }) ?_ rfl rfl hcolumns
    simp only [Execution.start, waiting, hstrategy, Execution.startAs]
  · have hstrategy : p.strategy = .ok .topK := by
      simp [strategy, hlimit, horder, Value.isNull, Value.relate_le_int, hk, Value.truthy,
        Bind.bind, Except.bind, pure, Except.pure]
    have hselect : Selector.selectCount (Execution.soleKey env p e) p.limit ds =
        Selector.select key.ofDocument (.upTo k.toNat) ds := by
      rw [soleKey_eq_ofDocument hfield hkey he hpredicate, hlimit, Selector.selectCount,
        Selector.ofValue_int]
    have hstart : (p.waiting ds).start env store =
        (p.waiting ds).deliver env (Execution.smallest env p e ds) :=
      Execution.start_of_topK env (k := ⟨e, .bool false⟩) rfl hstrategy horder rfl
    rcases hout : (Selector.select key.ofDocument (.upTo k.toNat) ds).outcome with err | hits
    · obtain ⟨d, -, href⟩ := exists_refused_select hfield hkey hout
      simp only [Execution.deliver, Execution.smallest, hselect, hout,
        asOrderError_of_refuses href] at hstart
      exact ⟨_, rfl, Cursor.delivers_of_start_error hstart⟩
    · simp only [Execution.deliver, Execution.smallest, hselect, hout] at hstart
      exact answers_of_delivering hstart rfl rfl hcolumns

end Plan

end NearDoc
