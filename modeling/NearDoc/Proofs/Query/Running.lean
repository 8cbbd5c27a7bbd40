import NearDoc.Proofs.Query.Rows

/-!
What a run may do. It waits until a row is asked for; once it has started it hands out rows, and it
ends as it fails or as a request finds no further row. When it ends its source is closed and its
record is left. Main statements: what comes of a start, of a request for one row and of a request
for several, each as one of a few cases.
-/

namespace NearDoc

namespace Execution

/-- How the run ended, if it did. -/
def status? (x : Execution) : Option Status :=
  match x.phase with
  | .ended status => some status
  | _ => none

/-- A run that has started and is not over. -/
def Running (x : Execution) : Prop := x.Started ∧ x.status? = none

/-- The accounts of a run that ended are those of another one but for rows and documents. -/
structure SameAccount (x y : Execution) : Prop where
  plan : y.plan = x.plan := by rfl
  closes : y.closes = x.closes := by rfl
  records : y.records = x.records := by rfl

/-- What was counted and recorded before a row is shown. -/
structure SameBooks (x y : Execution) : Prop extends SameAccount x y where
  emitted : y.emitted = x.emitted := by rfl

/-- The records of a run that ends with a status, if queries are logged and the plan has a
strategy. -/
def endRecords (env : Environment) (x : Execution) (status : Status) (details : Fields) :
    List Record :=
  if env.settings.queryLogging then
    (x.plan.strategy.toOption.map fun s => x.completion status s details).toList
  else []

/-- A run that was not over ends: its source is closed, and its record is left after some others. -/
structure Concludes (env : Environment) (x x' : Execution) (status : Status)
    (others : List Record) : Prop where
  finished : x'.status? = some status
  plan : x'.plan = x.plan
  closes : x'.closes = x.closes + 1
  records : ∃ details, x'.records = x.records ++ others ++ x'.endRecords env status details

variable {env : Environment} {store : Store} {source : Source} {x y z : Execution}
variable {ds : List Value} {wanted : Option Nat}

lemma SameAccount.trans (h : SameAccount x y) (h' : SameAccount y z) : SameAccount x z :=
  ⟨h'.plan.trans h.plan, h'.closes.trans h.closes, h'.records.trans h.records⟩

lemma running_iff : x.Running ↔
    (∃ rest left, x.phase = .streaming rest left) ∨ ∃ rest, x.phase = .delivering rest := by
  rcases h : x.phase with source | ⟨rest, left⟩ | rest | status <;>
    simp [Running, Started, status?, h]

/-- A run waits, is running or is over. -/
lemma stages (x : Execution) :
    (∃ source, x.phase = .waiting source) ∨ x.Running ∨ ∃ status, x.phase = .ended status := by
  rw [running_iff]
  rcases h : x.phase with source | ⟨rest, left⟩ | rest | status <;> simp

lemma ends_finish (env : Environment) (x : Execution) (status : Status) (details : Fields) :
    Concludes env x (x.finish env status details) status [] where
  finished := rfl
  plan := rfl
  closes := rfl
  records := ⟨details, by rw [List.append_nil]; rfl⟩

lemma SameAccount.ends {status : Status} {others : List Record} (h : SameAccount x y)
    (hz : Concludes env y z status others) : Concludes env x z status others where
  finished := hz.finished
  plan := hz.plan.trans h.plan
  closes := by rw [hz.closes, h.closes]
  records := by
    rw [← h.records]
    exact hz.records

lemma SameAccount.finish (h : SameAccount x y) (env : Environment) (status : Status)
    (details : Fields) : Concludes env x (y.finish env status details) status [] :=
  h.ends (ends_finish env y status details)

/-! ### One row -/

/-- The document that is due: the next one in order, or the next one that a scan admits. -/
def due? (env : Environment) (x : Execution) : Option Value :=
  match x.phase with
  | .waiting _ | .ended _ | .delivering [] | .streaming _ (some 0) => none
  | .delivering (d :: _) => some d
  | .streaming rest _ =>
    match (pullAdmitted env x.plan rest).outcome with
    | .ok (some (d, _)) => some d
    | _ => none

/-- What a turn may come to, in which a run is asked for its next row. -/
inductive TurnsTo (env : Environment) (x : Execution) :
    Execution → Except Error (Option Value) → Prop where
  /-- Before the start and after the end there is no row. -/
  | idle (h : ¬ x.Running) : TurnsTo env x x (.ok none)
  /-- The document that is due is shown. -/
  | shown {y : Execution} {d r : Value} (h : SameBooks x y) (hy : y.Running)
      (hless : y.remaining < x.remaining) (hdue : x.due? env = some d)
      (hrow : row env x.plan d = .ok r) :
      TurnsTo env x { y with emitted := y.emitted + 1 } (.ok (some r))
  /-- The columns fail on the document that is due, which is counted before. -/
  | lost {y : Execution} {d : Value} {e : Error} (h : SameBooks x y)
      (hdue : x.due? env = some d) (hrow : row env x.plan d = .error e) :
      TurnsTo env x (fail env e { y with emitted := y.emitted + 1 }) (.error e)
  /-- No document is left. -/
  | done {y : Execution} (h : SameBooks x y) (hdue : x.due? env = none) :
      TurnsTo env x (y.finish env .completed []) (.ok none)
  /-- No document comes, for the scan fails. -/
  | failed {y : Execution} {e : Error} (h : SameBooks x y) (hdue : x.due? env = none) :
      TurnsTo env x (y.fail env e) (.error e)

lemma turnsTo_emit {d : Value} (h : SameBooks x y) (hy : y.Running)
    (hless : y.remaining < x.remaining) (hdue : x.due? env = some d) :
    TurnsTo env x (emit env d y).1 (emit env d y).2 := by
  unfold emit
  dsimp only
  rcases hrow : row env y.plan d with e | r
  · exact .lost h hdue (by rwa [← h.plan])
  · exact .shown h hy hless hdue (by rwa [← h.plan])

/-- **One turn**: whatever a run is asked for, its turn comes to one of a few things. -/
theorem turnsTo (env : Environment) (x : Execution) :
    TurnsTo env x (x.advance env).1 (x.advance env).2 := by
  rcases hphase : x.phase with source | ⟨rest, left⟩ | rest | status
  · have hadv : x.advance env = (x, .ok none) := by simp only [advance, hphase]
    rw [hadv]
    exact .idle fun h => h.1 source hphase
  · by_cases hleft : left = some 0
    · subst hleft
      have hadv : x.advance env = (x.finish env .completed [], .ok none) := by
        simp only [advance, hphase]
      rw [hadv]
      exact .done {} (by simp only [due?, hphase])
    · have hdue : x.due? env =
          match (pullAdmitted env x.plan rest).outcome with
          | .ok (some (d, _)) => some d
          | _ => none := by
        rcases left with _ | _ | n
        · simp only [due?, hphase]
        · exact absurd rfl hleft
        · simp only [due?, hphase]
      rw [advance_streaming env hphase hleft]
      rcases hpull : (pullAdmitted env x.plan rest).outcome with e | _ | ⟨d, rest'⟩
      · exact .failed {} (by rw [hdue, hpull])
      · exact .done {} (by rw [hdue, hpull])
      · have hless := length_pullAdmitted hpull
        refine turnsTo_emit {} (running_iff.mpr (.inl ⟨_, _, rfl⟩)) ?_ (by rw [hdue, hpull])
        simpa only [remaining, hphase] using hless
  · cases rest with
    | nil =>
      have hadv : x.advance env = (x.finish env .completed [], .ok none) := by
        simp only [advance, hphase]
      rw [hadv]
      exact .done {} (by simp only [due?, hphase])
    | cons d rest =>
      have hadv : x.advance env = emit env d { x with phase := .delivering rest } := by
        simp only [advance, hphase]
      rw [hadv]
      refine turnsTo_emit {} (running_iff.mpr (.inr ⟨_, rfl⟩)) ?_ (by simp only [due?, hphase])
      simp [remaining, hphase]
  · have hadv : x.advance env = (x, .ok none) := by simp only [advance, hphase]
    rw [hadv]
    exact .idle fun h => by simpa [status?, hphase] using h.2

/-- What a run that is not over may do when its next row is asked for. -/
inductive Advances (env : Environment) (x : Execution) :
    Execution → Except Error (Option Value) → Prop where
  | row {y : Execution} {r : Value} (h : SameAccount x y) (hy : y.Running)
      (hless : y.remaining < x.remaining) : Advances env x y (.ok (some r))
  | done {y : Execution} (h : Concludes env x y .completed []) : Advances env x y (.ok none)
  | failed {y : Execution} {e : Error} (h : Concludes env x y .failed []) :
      Advances env x y (.error e)

theorem advances (env : Environment) (hx : x.Running) :
    Advances env x (x.advance env).1 (x.advance env).2 := by
  have hturn := turnsTo env x
  generalize (x.advance env).1 = y, (x.advance env).2 = reply at hturn ⊢
  cases hturn with
  | idle h => exact absurd hx h
  | shown h hy hless => exact .row (h.toSameAccount.trans {}) hy hless
  | lost h => exact .failed ((h.toSameAccount.trans {}).finish ..)
  | done h => exact .done (h.toSameAccount.finish ..)
  | failed h => exact .failed (h.toSameAccount.finish ..)

/-! ### Several rows -/

/-- What a run that is not over may do when some rows are asked for: it hands out as many as are
wanted, or fewer as no more come, or it fails. -/
inductive Serves (env : Environment) (x : Execution) (wanted : Option Nat) :
    Execution → Except Error (List Value) → Prop where
  | served {y : Execution} {rs : List Value} (h : SameAccount x y) (hy : y.Running)
      (hwanted : wanted = some rs.length) : Serves env x wanted y (.ok rs)
  | exhausted {y : Execution} {rs : List Value} (h : Concludes env x y .completed [])
      (hwanted : wanted ≠ some rs.length) : Serves env x wanted y (.ok rs)
  | failed {y : Execution} {e : Error} (h : Concludes env x y .failed []) :
      Serves env x wanted y (.error e)

/-- One row more is served in answer to a request for one row more. -/
lemma map_pred_eq {n : Nat} (hwanted : wanted ≠ some 0) :
    wanted.map (· - 1) = some n ↔ wanted = some (n + 1) := by
  rcases wanted with _ | _ | k
  · simp
  · exact absurd rfl hwanted
  · simp

theorem serves_collect (env : Environment) (hx : x.Running) {fuel : Nat} (wanted : Option Nat)
    (hfuel : x.remaining < fuel) :
    Serves env x wanted (collect env fuel wanted x).1 (collect env fuel wanted x).2 := by
  induction fuel generalizing x wanted with
  | zero => omega
  | succ fuel ih =>
    by_cases hwanted : wanted = some 0
    · subst hwanted
      exact .served {} hx rfl
    · have hadv := advances env hx
      rw [collect_succ env fuel x hwanted]
      generalize x.advance env = a at hadv
      obtain ⟨x', reply⟩ := a
      cases hadv with
      | failed h => exact .failed h
      | done h => exact .exhausted h hwanted
      | row h hy hless =>
        have hrest := ih hy (wanted.map (· - 1)) (by omega)
        dsimp only
        generalize collect env fuel (wanted.map (· - 1)) x' = b at hrest
        obtain ⟨x'', reply⟩ := b
        cases hrest with
        | failed h' => exact .failed (h.ends h')
        | served h' hy' hw => exact .served (h.trans h') hy' ((map_pred_eq hwanted).mp hw)
        | exhausted h' hw =>
          exact .exhausted (h.ends h') fun hall => hw ((map_pred_eq hwanted).mpr hall)

/-! ### The start -/

/-- The records of a source that could not be opened. -/
def OpenFault (store : Store) (source : Source) (records : List Record) : Prop :=
  records = [] ∨ ∃ name e, source = .collection name ∧ store.documents name = .error e ∧
    records = Store.scanRecords name e

/-- What a start may come to: no row is counted, and of a run that cannot start all is told. -/
inductive StartsTo (env : Environment) (store : Store) (source : Source) (x : Execution) :
    Execution × Option Error → Prop where
  | running {y : Execution} (h : SameBooks x y) (hy : y.Running) :
      StartsTo env store source x (y, none)
  | failed {y : Execution} {e : Error} {faults : List Record}
      (h : SameBooks { x with records := x.records ++ faults } y)
      (hfaults : OpenFault store source faults) :
      StartsTo env store source x (y.fail env e, some e)

lemma startsTo_fail (h : SameBooks x y) (e : Error) :
    StartsTo env store source x (y.fail env e, some e) := by
  have hrecords : y.records = x.records ++ [] := h.records.trans (List.append_nil _).symm
  exact .failed ⟨⟨h.plan, h.closes, hrecords⟩, h.emitted⟩ (.inl rfl)

lemma startsTo_deliver (pass : Pass (Except Error (List Value))) :
    StartsTo env store source x (x.deliver env pass) := by
  unfold deliver
  dsimp only
  split
  · exact startsTo_fail {} _
  · exact .running {} (running_iff.mpr (.inr ⟨_, rfl⟩))

lemma startsTo_startOn {go : List Value → Execution → Execution × Option Error}
    (hgo : ∀ ds, StartsTo env store source x (go ds x)) :
    StartsTo env store source x (x.startOn env store source go) := by
  rcases source with ds | name
  · exact hgo ds
  · rcases hread : store.documents name with e | ds
    · simp only [startOn, openSource, hread]
      exact .failed {} (.inr ⟨name, e, rfl, hread, rfl⟩)
    · simp only [startOn, openSource, hread]
      exact hgo ds

theorem startsTo (env : Environment) (store : Store) (hx : x.phase = .waiting source) :
    StartsTo env store source x (x.start env store) := by
  unfold start
  rw [hx]
  dsimp only
  rcases x.plan.strategy with e | s
  · exact startsTo_fail {} e
  · cases s with
    | empty => exact .running {} (running_iff.mpr (.inr ⟨_, rfl⟩))
    | stream =>
      simp only [startAs]
      split
      · exact startsTo_fail {} _
      · exact startsTo_startOn fun ds => .running {} (running_iff.mpr (.inl ⟨_, _, rfl⟩))
    | topK => exact startsTo_startOn fun ds => startsTo_deliver _
    | sort => exact startsTo_startOn fun ds => startsTo_deliver _

/-- What a run that waits may do when it starts. -/
inductive Starts (env : Environment) (store : Store) (source : Source) (x : Execution) :
    Execution × Option Error → Prop where
  | running {y : Execution} (h : SameAccount x y) (hy : y.Running) :
      Starts env store source x (y, none)
  | failed {y : Execution} {e : Error} {others : List Record} (h : Concludes env x y .failed others)
      (hothers : OpenFault store source others) : Starts env store source x (y, some e)

theorem starts (env : Environment) (store : Store) (hx : x.phase = .waiting source) :
    Starts env store source x (x.start env store) := by
  have hstart := startsTo env store hx
  generalize x.start env store = started at hstart ⊢
  cases hstart with
  | running h hy => exact .running h.toSameAccount hy
  | @failed y e faults h hfaults =>
    have hends : Concludes env x (y.fail env e) .failed faults :=
      ⟨rfl, h.plan, congrArg (· + 1) h.closes, failureDetails e, congrArg (· ++ _) h.records⟩
    exact .failed hends hfaults

/-- What a run that has not ended comes to when rows are asked for, whether it has started or
not. -/
inductive Fetches (env : Environment) (store : Store) (source : Source) (wanted : Option Nat)
    (x : Execution) : Execution → Except Error (List Value) → Prop where
  | unopened {y : Execution} {e : Error} {others : List Record}
      (h : Concludes env x y .failed others) (hothers : OpenFault store source others) :
      Fetches env store source wanted x y (.error e)
  | served {y : Execution} {reply : Except Error (List Value)} (h : Serves env x wanted y reply) :
      Fetches env store source wanted x y reply

lemma SameAccount.serves (h : SameAccount x y) {reply : Except Error (List Value)}
    (hz : Serves env y wanted z reply) : Serves env x wanted z reply := by
  cases hz with
  | served h' hz hw => exact .served (h.trans h') hz hw
  | exhausted h' hw => exact .exhausted (h.ends h') hw
  | failed h' => exact .failed (h.ends h')

end Execution

end NearDoc
