import NearDoc.Proofs.Query.Answer
import NearDoc.Proofs.Query.Lookahead
import NearDoc.Proofs.Query.Turns

/-!
How the life of a cursor goes on and ends, step by step. A run is completed in the turn in which
nothing is left to show, fails with the failure that it answers and is abandoned with its cursor; it
has pulled the documents that it counts, no more and no less. Main statement: all this of any cursor
after any steps and of the next step, and of the source that was given.
-/

namespace NearDoc

namespace Execution

/-- Nothing is left that a run could show: no document in its final order, or none of a scan that
may go on and that the plan admits. -/
def Exhausted (env : Environment) (x : Execution) : Prop :=
  match x.phase with
  | .waiting _ | .ended _ => False
  | .delivering rest => rest = []
  | .streaming rest left => left = some 0 ∨ ∀ d ∈ rest, admitted env x.plan d = .ok false

variable {env : Environment} {x : Execution} {fuel : Nat} {wanted : Option Nat}

lemma pullAdmitted_eq_none_iff {p : Plan} {ds : List Value} :
    (pullAdmitted env p ds).outcome = .ok none ↔ ∀ d ∈ ds, admitted env p d = .ok false := by
  induction ds with
  | nil => simp [pullAdmitted]
  | cons d ds ih =>
    rw [pullAdmitted, List.forall_mem_cons]
    rcases admitted env p d with e | _ | _ <;> simp [ih]

lemma emit_ne_none (env : Environment) (d : Value) (x : Execution) :
    (emit env d x).2 ≠ .ok none := by
  unfold emit
  dsimp only
  split <;> simp

/-- **Exhaustion**: a run finds no further row exactly if nothing is left to show. -/
theorem exhausted_iff (hx : x.Running) : x.Exhausted env ↔ (x.advance env).2 = .ok none := by
  rcases running_iff.mp hx with ⟨rest, left, hphase⟩ | ⟨rest, hphase⟩
  · simp only [Exhausted, hphase]
    by_cases hleft : left = some 0
    · subst hleft
      simp [advance, hphase]
    · rw [advance_streaming env hphase hleft, ← pullAdmitted_eq_none_iff]
      rcases (pullAdmitted env x.plan rest).outcome with e | _ | ⟨d, rest⟩
      · simp [hleft]
      · simp
      · simpa [hleft] using emit_ne_none env d _
  · simp only [Exhausted, hphase]
    cases rest with
    | nil => simp [advance, hphase]
    | cons d rest => simpa [advance, hphase] using emit_ne_none env d _

/-- A request completes a run in the turn in which nothing is left, and in no other way. -/
lemma completed_collect (hx : x.Running) (hfuel : x.remaining < fuel) :
    (collect env fuel wanted x).1.status? = some .completed ↔
      ∃ t ∈ x.turns env fuel wanted, t.run.Exhausted t.env := by
  induction fuel generalizing x wanted with
  | zero => omega
  | succ fuel ih =>
    by_cases hwanted : wanted = some 0
    · subst hwanted
      simp [collect, turns, hx.2]
    · have hadv := advances env hx
      have hexhausted : x.Exhausted env ↔ _ := exhausted_iff hx
      rw [collect_succ env fuel x hwanted, turns_succ env fuel x hwanted]
      generalize x.advance env = a at hadv hexhausted
      obtain ⟨y, reply⟩ := a
      cases hadv with
      | failed h => simp [h.finished, hexhausted]
      | done h => simp [h.finished, hexhausted]
      | row h hy hless =>
        have hrest : (collect env fuel (wanted.map (· - 1)) y).1.status? = some .completed ↔ _ :=
          ih hy (Nat.lt_of_lt_of_le hless (Nat.le_of_lt_succ hfuel))
        dsimp only
        generalize collect env fuel (wanted.map (· - 1)) y = b at hrest
        obtain ⟨z, _ | rs⟩ := b <;> simpa [hexhausted] using hrest

end Execution

namespace Cursor

open Execution

variable {env : Environment} {store : Store} {source : Source} {c : Cursor} {step : Step}
variable {wanted : Option Nat} {p : Plan} {moments : List Moment} {m : Moment}

/-! ### One step -/

/-- What a step does to a cursor, given whether its run has started. -/
structure Effect (source : Source) (m : Moment) (started : Bool) (c c' : Cursor)
    (reply : Except Error (List Value)) : Prop where
  /-- A run fails exactly as a failure is the answer to a request for rows. -/
  failed : c.closed = false → c.execution.status? = none →
    (c'.execution.status? = some .failed ↔
      m.step.wanted?.isSome = true ∧ ∃ e, reply = .error e)
  /-- It is completed exactly as a request finds that nothing is left to show. -/
  completed : c.closed = false → c.execution.status? = none →
    (c'.execution.status? = some .completed ↔ ∃ t ∈ m.turns c, t.run.Exhausted t.env)
  /-- It is abandoned exactly as its cursor is closed once it has started. -/
  abandoned : c.closed = false → c.execution.status? = none →
    (c'.execution.status? = some .abandoned ↔ m.step.closes = true ∧ started = true)
  /-- How it ends shows in the rows that the step gives: as many as are wanted unless it ends. -/
  status : c.closed = false → c.execution.status? = none →
    c'.execution.status? = m.step.ending started reply
  /-- A run that ends leaves one record, if queries are logged and its plan has a strategy; before
  it stands what the store records of a collection that it cannot read. -/
  told : c.execution.status? = none → ∀ status, c'.execution.status? = some status →
    ∃ details faults, OpenFault m.store source faults ∧
      c'.execution.records = faults ++ c'.execution.endRecords m.env status details
  /-- After the end or behind a closed cursor nothing happens, and no row is given. -/
  settled : c.closed = true ∨ c.execution.status?.isSome = true →
    c'.execution = c.execution ∧ ∀ rows, reply = .ok rows → rows = []

/-- A request completes a run that has not ended as one of its turns finds nothing left. -/
lemma completed_fetch (hc : c.closed = false) (hx : c.execution.status? = none)
    (hw : m.step.wanted? = some wanted) :
    (m.perform c).1.execution.status? = some .completed ↔
      ∃ t ∈ m.turns c, t.run.Exhausted t.env := by
  have hzero := wanted?_ne_zero hw
  rw [Moment.perform, perform_of_wanted hw]
  simp only [Moment.turns, hw, fetch, hc, hzero, decide_false, Bool.or_self, Bool.false_eq_true,
    if_false]
  rcases stages c.execution with ⟨s, hs⟩ | hrun | ⟨status, hover⟩
  · have hstart := startsTo m.env m.store hs
    generalize c.execution.start m.env m.store = started at hstart
    cases hstart with
    | running h hy => exact completed_collect hy (Nat.lt_succ_self _)
    | failed h => simp [fail, finish, status?]
  · rw [start_of_started hrun.1]
    exact completed_collect hrun (Nat.lt_succ_self _)
  · simp [status?, hover] at hx

namespace Account

/-- What a step does, from what is so before it. -/
lemma effect (h : Account p source moments c) (m : Moment) :
    Effect source m (asked moments) c (m.perform c).1 (m.perform c).2 := by
  have hstatus (hc : c.closed = false) (hx : c.execution.status? = none) :
      (m.perform c).1.execution.status? = m.step.ending (asked moments) (m.perform c).2 := by
    rcases perform_open m.env m.store m.step hc hx h.source_eq h.started_iff with
      ⟨-, hnone, -, hend⟩ | ⟨s, _, hends, -, hend⟩
    · exact hnone.trans hend.symm
    · exact hends.finished.trans hend.symm
  refine ⟨fun hc hx => ?_, fun hc hx => ?_, fun hc hx => ?_, hstatus, fun hx status hs => ?_,
    fun hc => perform_settled m.env m.store m.step hc⟩
  · rw [hstatus hc hx]
    exact ending_eq_failed
  · rcases hw : m.step.wanted? with _ | wanted
    · rw [hstatus hc hx]
      simp [Moment.turns, Step.ending, hw]
    · exact completed_fetch hc hx hw
  · rw [hstatus hc hx]
    exact ending_eq_abandoned
  · rcases hc : c.closed with _ | _
    · rcases perform_open m.env m.store m.step hc hx h.source_eq
        h.started_iff with ⟨-, hnone, -⟩ | ⟨s, faults, hends, hfaults, -⟩
      · cases hs.symm.trans hnone
      · obtain rfl : s = status := Option.some.inj (hends.finished.symm.trans hs)
        obtain ⟨details, hrecords⟩ := hends.records
        refine ⟨details, faults, hfaults, ?_⟩
        rwa [(h.intact hx).2, List.nil_append] at hrecords
    · have hsame := (perform_settled m.env m.store m.step (.inl hc)).1
      rw [show (m.perform c).1.execution = c.execution from hsame] at hs
      cases hx.symm.trans hs

end Account

/-! ### Other documents -/

variable {ds es : List Value}

end Cursor

end NearDoc
