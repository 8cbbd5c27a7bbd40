import NearDoc.Proofs.Query.Lifecycle

/-!
A request for rows, turn by turn. A run is asked for one row after the other, and each turn gives
the row of the document that is due, loses that document to its columns, or finds none. Main
statement: the rows that a step gives are those of its turns, and a document is lost in the last
turn of a step only, which then fails.
-/

namespace NearDoc

/-- A run that is asked for its next row. -/
structure Turn where
  env : Environment
  run : Execution

namespace Turn

/-- The row that the turn gives. -/
def row? (t : Turn) : Option Value :=
  match (t.run.advance t.env).2 with
  | .ok r => r
  | .error _ => none

/-- Whether the turn is lost: a document is due, and the columns fail on it. -/
def isLost (t : Turn) : Bool :=
  (t.run.due? t.env).any fun d => !(Execution.row t.env t.run.plan d).isOk

end Turn

namespace Execution

variable {env : Environment} {x y : Execution} {wanted : Option Nat} {fuel : Nat}

/-- The turns of a request: it goes on until as many rows are there as wanted or a turn gives
none. -/
def turns (env : Environment) : Nat → Option Nat → Execution → List Turn
  | 0, _, _ => []
  | _, some 0, _ => []
  | fuel + 1, wanted, x =>
    ⟨env, x⟩ ::
      match x.advance env with
      | (y, .ok (some _)) => turns env fuel (wanted.map (· - 1)) y
      | _ => []

lemma turns_succ (env : Environment) (fuel : Nat) (x : Execution) (hwanted : wanted ≠ some 0) :
    turns env (fuel + 1) wanted x =
      ⟨env, x⟩ ::
        match x.advance env with
        | (y, .ok (some _)) => turns env fuel (wanted.map (· - 1)) y
        | _ => [] := by
  rcases wanted with _ | _ | n
  · rfl
  · exact absurd rfl hwanted
  · rfl

/-- What a request has come to after its turns. -/
structure Settles (env : Environment) (turns : List Turn) (x y : Execution)
    (reply : Except Error (List Value)) : Prop where
  /-- The rows of a request that succeeds are those of its turns. -/
  rows : ∀ rs, reply = .ok rs → rs = turns.filterMap Turn.row?
  /-- Every turn is one of the same plan. -/
  plan : y.plan = x.plan ∧ ∀ t ∈ turns, t.env = env ∧ t.run.plan = x.plan
  /-- What is counted are the rows and the documents that are lost. -/
  emitted : y.emitted = x.emitted + turns.countP (·.row?.isSome) + turns.countP Turn.isLost
  /-- One document is lost at most, and then the run fails over its columns. -/
  lost : turns.countP Turn.isLost = 0 ∨
    turns.countP Turn.isLost = 1 ∧ y.status? = some .failed ∧ x.plan.columns ≠ none

/-- Without a turn there is no row, and nothing is counted. -/
lemma settles_still {reply : Except Error (List Value)} (hreply : ∀ rs, reply = .ok rs → rs = [])
    (hplan : y.plan = x.plan) (hemitted : y.emitted = x.emitted) : Settles env [] x y reply :=
  ⟨hreply, ⟨hplan, by simp⟩, hemitted, .inl rfl⟩

lemma settles_nil (env : Environment) (x : Execution) : Settles env [] x x (.ok []) :=
  settles_still (by simp) rfl rfl

lemma columns_ne_none {p : Plan} {d : Value} {e : Error} (h : row env p d = .error e) :
    p.columns ≠ none := by
  intro hnone
  rw [row, hnone] at h
  cases h

/-- The last turn of a request. -/
lemma settles_last {reply : Except Error (Option Value)} (h : x.advance env = (y, reply))
    (hnone : ∀ r, reply ≠ .ok (some r)) :
    Settles env [⟨env, x⟩] x y (reply.map Option.toList) := by
  have hturn := turnsTo env x
  have hrow : (Turn.mk env x).row? = none := by
    unfold Turn.row?
    dsimp only
    rw [h]
    rcases reply with e | _ | r
    · rfl
    · rfl
    · exact absurd rfl (hnone r)
  rw [h] at hturn
  dsimp only at hturn
  have hlost : ∀ {d e}, x.due? env = some d → row env x.plan d = .error e →
      (Turn.mk env x).isLost = true := fun hdue hfails => by
    simp [Turn.isLost, hdue, hfails, Except.isOk, Except.toBool]
  have hkept : x.due? env = none → (Turn.mk env x).isLost = false := fun hdue => by
    simp [Turn.isLost, hdue]
  cases hturn with
  | idle hidle =>
    have hdue : x.due? env = none := by
      rcases stages x with ⟨s, hs⟩ | hrun | ⟨s, hs⟩
      · simp only [due?, hs]
      · exact absurd hrun hidle
      · simp only [due?, hs]
    exact ⟨by rintro _ ⟨⟩; simp [hrow], by simp, by simp [hrow, hkept hdue], by simp [hkept hdue]⟩
  | shown => exact absurd rfl (hnone _)
  | lost hbooks hdue hfails =>
    refine ⟨by rintro _ ⟨⟩, ⟨hbooks.plan, by simp⟩, ?_, .inr ⟨by simp [hlost hdue hfails], rfl,
      columns_ne_none hfails⟩⟩
    simp [fail, finish, hrow, hlost hdue hfails, hbooks.emitted]
  | done hbooks hdue =>
    exact ⟨by rintro _ ⟨⟩; simp [hrow], ⟨hbooks.plan, by simp⟩,
      by simp [finish, hrow, hkept hdue, hbooks.emitted], by simp [hkept hdue]⟩
  | failed hbooks hdue =>
    exact ⟨by rintro _ ⟨⟩, ⟨hbooks.plan, by simp⟩,
      by simp [fail, finish, hrow, hkept hdue, hbooks.emitted], by simp [hkept hdue]⟩

/-- A turn that gives a row, and the turns after it. -/
lemma Settles.cons {z : Execution} {r : Value} {rest : List Turn}
    {reply : Except Error (List Value)} (h : x.advance env = (y, .ok (some r)))
    (hrest : Settles env rest y z reply) :
    Settles env (⟨env, x⟩ :: rest) x z (reply.map (r :: ·)) := by
  have hturn := turnsTo env x
  have hrow : (Turn.mk env x).row? = some r := by
    unfold Turn.row?
    dsimp only
    rw [h]
  rw [h] at hturn
  dsimp only at hturn
  cases hturn with
  | shown hbooks hy _ hdue hshown =>
    have hkept : (Turn.mk env x).isLost = false := by
      simp [Turn.isLost, hdue, hshown, Except.isOk, Except.toBool]
    have hplan := hbooks.plan
    refine ⟨?_, ⟨hrest.plan.1.trans hplan, ?_⟩, ?_, ?_⟩
    · intro rs hrs
      obtain ⟨rs', hreply, rfl⟩ := map_eq_ok.mp hrs
      rw [List.filterMap_cons, hrow, ← hrest.rows rs' hreply]
    · rw [List.forall_mem_cons]
      exact ⟨⟨rfl, rfl⟩, fun t ht => ⟨(hrest.plan.2 t ht).1, (hrest.plan.2 t ht).2.trans hplan⟩⟩
    · have hcount := hrest.emitted
      dsimp only at hcount
      rw [hcount, hbooks.emitted, List.countP_cons, List.countP_cons, hrow, hkept]
      simp only [Option.isSome_some, if_true, Bool.false_eq_true, if_false]
      omega
    · rw [List.countP_cons, hkept, ← hplan]
      simpa using hrest.lost

/-- A request for rows settles what its turns come to. -/
theorem settles_collect (env : Environment) (fuel : Nat) (wanted : Option Nat) (x : Execution) :
    Settles env (x.turns env fuel wanted) x (collect env fuel wanted x).1
      (collect env fuel wanted x).2 := by
  induction fuel generalizing x wanted with
  | zero => exact settles_nil env x
  | succ fuel ih =>
    by_cases hwanted : wanted = some 0
    · subst hwanted
      exact settles_nil env x
    · rw [collect_succ env fuel x hwanted, turns_succ env fuel x hwanted]
      rcases hadv : x.advance env with ⟨y, e | _ | r⟩
      · exact settles_last hadv (by simp)
      · exact settles_last hadv (by simp)
      · have hrest := Settles.cons hadv (ih (wanted.map (· - 1)) y)
        dsimp only
        rcases hcollect : collect env fuel (wanted.map (· - 1)) y with ⟨z, e | rs⟩ <;>
          rwa [hcollect] at hrest

/-! ### Starts -/

/-- A start counts no row and keeps the plan. -/
lemma start_kept (env : Environment) (store : Store) (x : Execution) :
    (x.start env store).1.plan = x.plan ∧ (x.start env store).1.emitted = x.emitted := by
  rcases hphase : x.phase with source | ⟨rest, left⟩ | rest | status
  · have hstart := startsTo env store hphase
    generalize x.start env store = started at hstart
    cases hstart with
    | running h => exact ⟨h.plan, h.emitted⟩
    | failed h => exact ⟨h.plan, h.emitted⟩
  all_goals
    rw [start, hphase]
    exact ⟨rfl, rfl⟩

end Execution

namespace Cursor

open Execution

/-- The turns of a step: those of its request, once the run has started. -/
def Moment.turns (m : Moment) (c : Cursor) : List Turn :=
  match m.step.wanted? with
  | none => []
  | some wanted =>
    if c.closed then []
    else
      match c.execution.start m.env m.store with
      | (_, some _) => []
      | (x, none) => x.turns m.env (x.remaining + 1) wanted

/-! ### Steps -/

lemma close_kept (env : Environment) (c : Cursor) :
    (c.close env).execution.plan = c.execution.plan ∧
      (c.close env).execution.emitted = c.execution.emitted := by
  unfold close abandon
  split
  · exact ⟨rfl, rfl⟩
  · dsimp only
    split <;> exact ⟨rfl, rfl⟩

/-- **One step**: what a step comes to is what its turns come to. -/
theorem settles_perform (m : Moment) (c : Cursor) :
    Settles m.env (m.turns c) c.execution (m.perform c).1.execution (m.perform c).2 := by
  unfold Moment.turns Moment.perform
  rcases hw : m.step.wanted? with _ | wanted
  · obtain ⟨reply, hrows, hperform⟩ := exists_reply_of_unwanted hw
    obtain ⟨hplan, hemitted⟩ := close_kept m.env c
    rw [hperform]
    dsimp only
    cases m.step.closes
    · exact settles_still hrows rfl rfl
    · exact settles_still hrows hplan hemitted
  · rw [perform_of_wanted hw]
    have hzero := wanted?_ne_zero hw
    unfold fetch
    by_cases hc : c.closed = true
    · simpa [hc] using settles_nil m.env c.execution
    · simp only [hc, hzero, Bool.false_or, decide_eq_true_eq, if_false, Bool.false_eq_true]
      obtain ⟨hplan, hemitted⟩ := start_kept m.env m.store c.execution
      rcases hstart : c.execution.start m.env m.store with ⟨x, _ | e⟩
      · rw [hstart] at hplan hemitted
        have hcollect := settles_collect m.env (x.remaining + 1) wanted x
        refine ⟨hcollect.rows, ⟨hcollect.plan.1.trans hplan, fun t ht => ?_⟩, ?_, ?_⟩
        · exact ⟨(hcollect.plan.2 t ht).1, (hcollect.plan.2 t ht).2.trans hplan⟩
        · rw [← show x.emitted = c.execution.emitted from hemitted]
          exact hcollect.emitted
        · rw [← show x.plan = c.execution.plan from hplan]
          exact hcollect.lost
      · rw [hstart] at hplan hemitted
        exact settles_still (by simp) hplan hemitted

/-- The turns of some steps, one after the other. -/
def turns : List Moment → Cursor → List Turn
  | [], _ => []
  | m :: moments, c => m.turns c ++ turns moments (m.perform c).1

lemma turns_append (moments : List Moment) (m : Moment) (c : Cursor) :
    turns (moments ++ [m]) c = turns moments c ++ m.turns (after moments c) := by
  induction moments generalizing c with
  | nil => simp [turns, after]
  | cons m' moments ih =>
    rw [List.cons_append, turns, ih, turns, List.append_assoc]
    rfl

end Cursor

end NearDoc
