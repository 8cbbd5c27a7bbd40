import NearDoc.Proofs.Query.Turns

/-!
The count of rows in the record of a run. A run counts a document before its columns are looked at,
so it counts the rows that it gave and the one document, if any, that its columns failed on. Main
statement: so it is after any steps, and the record that a run leaves at its end tells this count.
-/

namespace NearDoc

namespace Execution

/-- What a record tells beside the counts: the cause of a failure, and nothing else. -/
def Tells (status : Status) (details : Fields) : Prop :=
  if status = .failed then ∃ e, details = failureDetails e else details = []

/-- The records of a run: some others, and once it has ended its own. -/
def Filed (env : Environment) (others : List Record) (x : Execution) : Prop :=
  match x.status? with
  | none => x.records = others
  | some status =>
    ∃ details, Tells status details ∧ x.records = others ++ x.endRecords env status details

variable {env : Environment} {store : Store} {source : Source} {x y : Execution}
variable {others : List Record} {wanted : Option Nat}

lemma filed_of_none (hx : x.status? = none) (h : x.records = others) : x.Filed env others := by
  unfold Filed
  rwa [hx]

lemma filed_of_some {status : Status} {details : Fields} (hx : x.status? = some status)
    (hdetails : Tells status details)
    (h : x.records = others ++ x.endRecords env status details) : x.Filed env others := by
  unfold Filed
  rw [hx]
  exact ⟨details, hdetails, h⟩

lemma filed_finish {status : Status} {details : Fields} (h : x.records = others)
    (hdetails : Tells status details) : (x.finish env status details).Filed env others := by
  have hrecords : (x.finish env status details).records =
      x.records ++ (x.finish env status details).endRecords env status details := rfl
  exact filed_of_some rfl hdetails (by rw [hrecords, h])

lemma tells_failed (e : Error) : Tells .failed (failureDetails e) := by
  rw [Tells, if_pos rfl]
  exact ⟨e, rfl⟩

lemma tells_nil {status : Status} (h : status ≠ .failed) : Tells status [] := by
  rw [Tells, if_neg h]

lemma filed_fail (h : x.records = others) (e : Error) : (x.fail env e).Filed env others := by
  exact filed_finish h (tells_failed e)

lemma filed_advance (env : Environment) (hx : x.status? = none) (h : x.records = others) :
    (x.advance env).1.Filed env others ∧
      ∀ r, (x.advance env).2 = .ok (some r) → (x.advance env).1.status? = none ∧
        (x.advance env).1.records = others := by
  have hturn := turnsTo env x
  generalize (x.advance env).1 = y, (x.advance env).2 = reply at hturn ⊢
  cases hturn with
  | idle => exact ⟨filed_of_none hx h, nofun⟩
  | shown hbooks hy =>
    have hrecords := hbooks.records.trans h
    exact ⟨filed_of_none hy.2 hrecords, fun _ _ => ⟨hy.2, hrecords⟩⟩
  | lost hbooks =>
    refine ⟨filed_fail ?_ _, nofun⟩
    exact hbooks.records.trans h
  | done hbooks => exact ⟨filed_finish (hbooks.records.trans h) (tells_nil nofun), nofun⟩
  | failed hbooks => exact ⟨filed_fail (hbooks.records.trans h) _, nofun⟩

lemma filed_collect (fuel : Nat) (wanted : Option Nat) (hx : x.status? = none)
    (h : x.records = others) : (collect env fuel wanted x).1.Filed env others := by
  induction fuel generalizing x wanted with
  | zero => exact filed_of_none hx h
  | succ fuel ih =>
    by_cases hwanted : wanted = some 0
    · subst hwanted
      exact filed_of_none hx h
    · obtain ⟨hfiled, hrow⟩ := filed_advance env hx h
      rw [collect_succ env fuel x hwanted]
      rcases hadv : x.advance env with ⟨y, e | _ | r⟩
      · rwa [hadv] at hfiled
      · rwa [hadv] at hfiled
      · rw [hadv] at hrow
        have hrest := ih (wanted.map (· - 1)) (hrow r rfl).1 (hrow r rfl).2
        dsimp only
        rcases hcollect : collect env fuel (wanted.map (· - 1)) y with ⟨z, e | rs⟩ <;>
          rwa [hcollect] at hrest

end Execution

namespace Cursor

open Execution

variable {env : Environment} {store : Store} {source : Source} {c : Cursor}
variable {wanted : Option Nat} {p : Plan} {moments : List Moment}

/-- The records of a cursor whose run has not ended are filed by the step that ends it. -/
lemma filed_perform (m : Moment) (hx : c.execution.status? = none) (h : c.execution.records = [])
    (hsource : ∀ s, c.execution.phase = .waiting s → s = source) :
    ∃ faults, OpenFault m.store source faults ∧
      ((m.perform c).1.execution.status? = none → (m.perform c).1.execution.records = []) ∧
      ((m.perform c).1.execution.status? ≠ none →
        (m.perform c).1.execution.Filed m.env faults) := by
  have hfiled : ∀ {x : Execution}, x.Filed m.env [] → ∃ faults, OpenFault m.store source faults ∧
      (x.status? = none → x.records = []) ∧ (x.status? ≠ none → x.Filed m.env faults) := by
    intro x hx
    refine ⟨[], .inl rfl, fun hnone => ?_, fun _ => hx⟩
    unfold Filed at hx
    rwa [hnone] at hx
  unfold Moment.perform
  rcases hw : m.step.wanted? with _ | wanted
  · obtain ⟨reply, -, hperform⟩ := exists_reply_of_unwanted hw
    rw [hperform]
    refine hfiled ?_
    dsimp only
    split
    · unfold close abandon
      split
      · exact filed_of_none hx h
      · dsimp only
        split
        · exact filed_of_none hx h
        · exact filed_of_none hx h
        · exact filed_finish h (tells_nil nofun)
    · exact filed_of_none hx h
  · rw [perform_of_wanted hw]
    unfold fetch
    split
    · exact hfiled (filed_of_none hx h)
    · rcases stages c.execution with ⟨s, hs⟩ | hrun | ⟨status, hover⟩
      · obtain rfl := hsource s hs
        have hstart := startsTo m.env m.store hs
        generalize c.execution.start m.env m.store = started at hstart
        cases hstart with
        | running hbooks hy =>
          exact hfiled (filed_collect _ _ hy.2 (hbooks.records.trans h))
        | @failed y e faults hbooks hfaults =>
          have hrecords : y.records = c.execution.records ++ faults := hbooks.records
          rw [h, List.nil_append] at hrecords
          exact ⟨faults, hfaults, nofun, fun _ => filed_fail hrecords _⟩
      · rw [start_of_started hrun.1]
        exact hfiled (filed_collect _ _ hx h)
      · simp [status?, hover] at hx

/-- What is counted after some steps, and what is told at the end. -/
structure Tally (p : Plan) (source : Source) (moments : List Moment) (turns : List Turn)
    (c : Cursor) : Prop where
  emitted : c.execution.emitted = turns.countP (·.row?.isSome) + turns.countP Turn.isLost
  lost : turns.countP Turn.isLost = 0 ∨
    turns.countP Turn.isLost = 1 ∧ c.execution.status? = some .failed ∧ p.columns ≠ none
  filed : c.execution.status? ≠ none → ∃ m ∈ moments, ∃ faults, OpenFault m.store source faults ∧
    c.execution.Filed m.env faults

lemma Tally.next {turns : List Turn} (h : Tally p source moments turns c)
    (haccount : Account p source moments c) (m : Moment) :
    Tally p source (moments ++ [m]) (turns ++ m.turns c) (m.perform c).1 := by
  have hsettles := settles_perform m c
  have hemitted := hsettles.emitted
  rw [h.emitted] at hemitted
  refine ⟨by rw [hemitted, List.countP_append, List.countP_append]; omega, ?_, fun hend => ?_⟩
  · rw [List.countP_append]
    by_cases hx : c.execution.status? = none
    · -- nothing is lost before the run ends
      have hnone : turns.countP Turn.isLost = 0 := h.lost.resolve_right (by simp [hx])
      rw [hnone, Nat.zero_add, ← haccount.plan]
      exact hsettles.lost
    · -- after the end nothing is counted
      have hover := Option.isSome_iff_ne_none.mpr hx
      have hsame := (perform_settled m.env m.store m.step (.inr hover)).1
      have hkept := hsettles.emitted
      rw [show (m.perform c).1.execution = c.execution from hsame] at hkept ⊢
      have hzero : (m.turns c).countP Turn.isLost = 0 := by omega
      rw [hzero, Nat.add_zero]
      exact h.lost
  · by_cases hx : c.execution.status? = none
    · obtain ⟨faults, hfaults, -, hfiled⟩ :=
        filed_perform m hx (haccount.intact hx).2 haccount.source_eq
      exact ⟨m, by simp, faults, hfaults, hfiled hend⟩
    · have hover := Option.isSome_iff_ne_none.mpr hx
      have hsame := (perform_settled m.env m.store m.step (.inr hover)).1
      rw [show (m.perform c).1.execution = c.execution from hsame]
      obtain ⟨m', hm', hfiled⟩ := h.filed hx
      exact ⟨m', by simp [hm'], hfiled⟩

lemma tally_after (p : Plan) (source : Source) (moments : List Moment) :
    Tally p source moments (turns moments (.ofPlan p source))
      (after moments (.ofPlan p source)) := by
  induction moments using List.reverseRecOn with
  | nil => exact ⟨rfl, .inl rfl, fun h => absurd rfl h⟩
  | append_singleton moments m ih =>
    rw [turns_append, after_append]
    exact ih.next (.after p source moments) m

/-- **Rows counted**: after any steps on any plan and source, each at its own moment, a run has
counted the rows that it gave and the one document, if any, that its columns failed on; and once it
has ended, its record tells this count. -/
theorem emitted_eq (p : Plan) (source : Source) (moments : List Moment) :
    let c := after moments (.ofPlan p source)
    let given := (turns moments (.ofPlan p source)).countP (·.row?.isSome)
    let lost := (turns moments (.ofPlan p source)).countP Turn.isLost
    c.execution.emitted = given + lost ∧
      (lost = 0 ∨ lost = 1 ∧ c.execution.status? = some .failed ∧ p.columns ≠ none) ∧
      (∀ (m : Moment) (rows : List Value), (m.perform c).2 = .ok rows →
        rows = (m.turns c).filterMap Turn.row?) ∧
      (c.execution.status? = none → c.execution.records = []) ∧
      ∀ status, c.execution.status? = some status →
        ∃ m ∈ moments, ∃ faults details, OpenFault m.store source faults ∧ Tells status details ∧
          c.execution.records = faults ++
            if m.env.settings.queryLogging then
              (p.strategy.toOption.map fun s => Record.query "execute" status.name (details ++
                [("collection", p.collection), ("strategy", .text s.name),
                  ("scanned", .int c.execution.scanned),
                  ("emitted", .int (given + lost : Nat))])).toList
            else [] := by
  intro c given lost
  have haccount := Account.after p source moments
  have htally := tally_after p source moments
  refine ⟨htally.emitted, htally.lost, fun m rows hrows => (settles_perform m c).rows rows hrows,
    fun hnone => (haccount.intact hnone).2, fun status hstatus => ?_⟩
  have hended : c.execution.status? ≠ none := by simp [hstatus]
  obtain ⟨m, hm, faults, hfaults, hfiled⟩ := htally.filed hended
  replace hfiled : c.execution.Filed m.env faults := hfiled
  unfold Filed at hfiled
  rw [hstatus] at hfiled
  obtain ⟨details, htells, hrecords⟩ := hfiled
  refine ⟨m, hm, faults, details, hfaults, htells, ?_⟩
  have hcount : given + lost = c.execution.emitted := htally.emitted.symm
  have hplan : c.execution.plan = p := haccount.plan
  rw [hrecords, hcount, ← hplan]
  rfl

end Cursor

end NearDoc
