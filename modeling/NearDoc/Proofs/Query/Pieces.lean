import NearDoc.Proofs.Query.Lifecycle

/-!
Fetching in pieces. A run that is to yield some rows yields those that are left after the pieces
already fetched, and what it has yielded it does not yield again. Main statement: over the documents
on which a cursor fetches all rows at once, any other cursor on the plan gives the same rows piece
by piece, each piece as long as it was asked to be, or shorter where the rows end.
-/

namespace NearDoc

namespace Execution

variable {env : Environment} {store : Store} {x y : Execution} {left rows : List Value}
variable {failure : Option Error} {fuel : Nat}

/-! ### Rows that are left of a run -/

/-- A run that has found its end finds it again. -/
lemma advance_again (h : x.advance env = (y, .ok none)) : y.advance env = (y, .ok none) := by
  rcases stages x with ⟨source, hwaits⟩ | hrun | ⟨status, hover⟩
  · obtain rfl : x = y := by simpa [advance, hwaits] using h
    exact h
  · have hadv := advances env hrun
    rw [h] at hadv
    cases hadv with
    | done hends =>
      rcases hphase : y.phase with source | ⟨rest, n⟩ | rest | status
      case ended => simp only [advance, hphase]
      all_goals
        have hover := hends.finished
        simp [status?, hphase] at hover
  · obtain rfl : x = y := by simpa [advance, hover] using h
    exact h

/-- A run has no more rows left than it may still deliver. -/
lemma length_le_remaining (h : Yields env x rows failure) : rows.length ≤ x.remaining := by
  induction h with
  | done | failed => exact Nat.zero_le _
  | row hadv _ ih =>
    have hless := remaining_lt_of_row hadv
    rw [List.length_cons]
    omega

/-- **One piece**: a run of which some rows are left gives the first of them, as many as are wanted,
and the others are left of it then. -/
theorem collect_piece (hx : x.Started) (h : Yields env x left none) (wanted : Option Nat)
    (hfuel : left.length < fuel) :
    (collect env fuel wanted x).2 = .ok (wanted.elim left left.take) ∧
      (collect env fuel wanted x).1.Started ∧
      Yields env (collect env fuel wanted x).1 (wanted.elim [] left.drop) none := by
  induction fuel generalizing x left wanted with
  | zero => omega
  | succ fuel ih =>
    by_cases hwanted : wanted = some 0
    · subst hwanted
      exact ⟨rfl, hx, h⟩
    · rw [collect_succ env fuel x hwanted]
      have hstarted := started_advance env hx
      cases h with
      | done hadv =>
        rw [hadv] at hstarted ⊢
        refine ⟨by cases wanted <;> simp, hstarted, ?_⟩
        have hnone : wanted.elim [] ([] : List Value).drop = [] := by cases wanted <;> simp
        rw [hnone]
        exact .done (advance_again hadv)
      | @row _ x' r rest _ hadv hrest =>
        rw [hadv] at hstarted ⊢
        have hlen : rest.length < fuel := by simpa using hfuel
        obtain ⟨hreply, hstarted', hleft⟩ := ih hstarted hrest (wanted.map (· - 1)) hlen
        dsimp only
        generalize collect env fuel (wanted.map (· - 1)) x' = b at hreply hstarted' hleft
        obtain ⟨x'', reply⟩ := b
        obtain rfl : reply = _ := hreply
        -- one row more is taken and dropped for the one that was handed out first
        rcases wanted with _ | _ | n
        · exact ⟨rfl, hstarted', hleft⟩
        · exact absurd rfl hwanted
        · exact ⟨rfl, hstarted', hleft⟩

/-- What a run gives when all rows are asked for is what it yields. -/
lemma yields_of_collect (hx : x.Running) (hfuel : x.remaining < fuel)
    (h : (collect env fuel none x).2 = .ok rows) : Yields env x rows none := by
  induction fuel generalizing x rows with
  | zero => omega
  | succ fuel ih =>
    have hadv := advances env hx
    rw [collect_succ env fuel x (by simp)] at h
    generalize hnext : x.advance env = a at h hadv
    obtain ⟨x', reply⟩ := a
    cases hadv with
    | failed => cases h
    | done =>
      obtain rfl : [] = rows := Except.ok.inj h
      exact .done hnext
    | @row r _ hrun hless =>
      dsimp only [Option.map_none] at h
      generalize hrest : collect env fuel none x' = b at h
      obtain ⟨x'', e | rs⟩ := b
      · cases h
      · obtain rfl : _ :: rs = rows := Except.ok.inj h
        have hfuel' : x'.remaining < fuel := Nat.lt_of_lt_of_le hless (by omega)
        exact .row hnext (ih hrun hfuel' (congrArg Prod.snd hrest))

/-! ### The start -/

/-- A run on given documents starts in the same way whatever the store holds. -/
lemma start_documents {ds : List Value} (h : x.phase = .waiting (.documents ds))
    (env : Environment) (store store' : Store) : x.start env store = x.start env store' := by
  unfold start
  rw [h]
  dsimp only
  rcases x.plan.strategy with e | strategy
  · rfl
  · cases strategy <;> rfl

end Execution

namespace Cursor

open Execution

/-- How many rows a step fetches, if it fetches any number that fits, without one all of them. -/
inductive Step.Fetches : Step → Option Nat → Prop where
  | next : Fetches .next (some 1)
  | fetchOne : Fetches .fetchOne (some 1)
  | fetchMany (n : Nat) (h : n ≤ Plan.greatestCount) : Fetches (.fetchMany (.int n)) (some n)
  | fetchRest : Fetches (.fetchMany .null) none
  | fetchAll : Fetches .fetchAll none

/-- These rows are left of a cursor: any step gives the first of them, as many as it fetches, and
the next row is the first, if there is one. -/
structure Leaves (env : Environment) (left : List Value) (c : Cursor) : Prop where
  piece : ∀ store step wanted, Step.Fetches step wanted →
    (c.perform env store step).2 = .ok (wanted.elim left left.take)
  next : ∀ store, (c.next env store).2 = .ok left.head?

/-- An open cursor whose run, once it has started, yields these rows. -/
structure Owes (env : Environment) (left : List Value) (c : Cursor) : Prop where
  isOpen : c.closed = false
  run : ∃ x, (∀ store, c.execution.start env store = (x, none)) ∧ x.Started ∧
    Yields env x left none

variable {env : Environment} {store : Store} {c : Cursor} {left rows : List Value}
variable {step : Step} {wanted : Option Nat}

lemma rowCount_nat {n : Nat} (h : n ≤ Plan.greatestCount) :
    Plan.rowCount (.int n) = .ok (some n) := by
  have hfits : ¬ ((n : Int) < 0 ∨ Plan.greatestCount < n) := by omega
  simp [Plan.rowCount, Value.isNull, Value.index?, hfits]

lemma perform_of_fetches (h : step.Fetches wanted) :
    c.perform env store step = c.fetch env store wanted := by
  cases h with
  | next | fetchOne => exact (fetch_one env store c).symm
  | fetchMany n hn => simp only [perform, Cursor.fetchMany, rowCount_nat hn]
  | fetchRest | fetchAll => rfl

namespace Owes

/-- What a cursor gives of the rows it owes, it does not owe any more. -/
lemma fetch (h : c.Owes env left) (store : Store) (wanted : Option Nat) :
    (c.fetch env store wanted).2 = .ok (wanted.elim left left.take) ∧
      (c.fetch env store wanted).1.Owes env (wanted.elim [] left.drop) := by
  obtain ⟨hopen, x, hstart, hx, hyields⟩ := h
  by_cases hwanted : wanted = some 0
  · subst hwanted
    have hidle : c.fetch env store (some 0) = (c, .ok []) := by simp [Cursor.fetch]
    rw [hidle]
    exact ⟨rfl, hopen, x, hstart, hx, hyields⟩
  · have hfetch : c.fetch env store wanted =
        ({ c with execution := (x.collect env (x.remaining + 1) wanted).1 },
          (x.collect env (x.remaining + 1) wanted).2) := by
      simp [Cursor.fetch, hopen, hwanted, hstart]
    have hlen := length_le_remaining hyields
    obtain ⟨hreply, hstarted, hrest⟩ :=
      collect_piece hx hyields wanted (Nat.lt_succ_of_le hlen)
    rw [hfetch]
    exact ⟨hreply, hopen, _, fun _ => start_of_started hstarted, hstarted, hrest⟩

lemma perform (h : c.Owes env left) (hstep : step.Fetches wanted) (store : Store) :
    (c.perform env store step).2 = .ok (wanted.elim left left.take) ∧
      (c.perform env store step).1.Owes env (wanted.elim [] left.drop) := by
  rw [perform_of_fetches hstep]
  exact h.fetch store wanted

lemma leaves (h : c.Owes env left) : c.Leaves env left where
  piece store _ _ hstep := (h.perform hstep store).1
  next store := by
    have hone := (h.fetch store (some 1)).1
    rw [fetch_one] at hone
    rcases hnext : (c.next env store).2 with e | _ | r
    all_goals
      rw [hnext] at hone
      rcases left with _ | ⟨r', left⟩ <;> simp_all [Except.map]

/-- A cursor that has fetched all rows at once owed them. -/
lemma of_fetch {p : Plan} {ds : List Value}
    (h : ((ofPlan p (.documents ds)).fetch env store none).2 = .ok rows) :
    (ofPlan p (.documents ds)).Owes env rows := by
  let x : Execution := { plan := p, phase := .waiting (.documents ds) }
  have hstarts := starts env store (x := x) rfl
  have hsame : ∀ store', x.start env store' = x.start env store :=
    fun store' => start_documents rfl env store' store
  simp only [Cursor.fetch, ofPlan, Bool.false_or, reduceCtorEq, decide_false,
    Bool.false_eq_true, if_false] at h
  refine ⟨rfl, ?_⟩
  change ∃ y, (∀ store', x.start env store' = (y, none)) ∧ y.Started ∧ Yields env y rows none
  simp only [hsame]
  generalize x.start env store = started at h hstarts
  cases hstarts with
  | failed => cases h
  | @running y _ hrun =>
    exact ⟨y, fun _ => rfl, hrun.1, yields_of_collect hrun (Nat.lt_succ_self _) h⟩

/-- Over any fetching steps the pieces and what is still owed make up what was owed. -/
lemma pieces (h : c.Owes env rows) {moments : List Moment}
    (hmoments : ∀ m ∈ moments, m.env = env ∧ ∃ wanted, m.step.Fetches wanted) :
    ∃ (given : List (List Value)) (left : List Value),
      replies moments c = given.map .ok ∧ given.flatten ++ left = rows ∧
        (after moments c).Owes env left := by
  induction moments generalizing c rows with
  | nil => exact ⟨[], rows, rfl, rfl, h⟩
  | cons m moments ih =>
    obtain ⟨⟨rfl, wanted, hstep⟩, hrest⟩ := List.forall_mem_cons.mp hmoments
    obtain ⟨hreply, howes⟩ := h.perform hstep m.store
    have hparts : wanted.elim rows rows.take ++ wanted.elim [] rows.drop = rows := by
      cases wanted with
      | none => exact List.append_nil rows
      | some n => exact List.take_append_drop n rows
    obtain ⟨given, left, hreplies, hflat, hafter⟩ := ih howes hrest
    refine ⟨wanted.elim rows rows.take :: given, left, ?_, ?_, hafter⟩
    · exact congrArg₂ List.cons hreply hreplies
    · rw [List.flatten_cons, List.append_assoc, hflat, hparts]

end Owes

end Cursor

namespace Plan

open Cursor

/-- **In pieces**: if a cursor on a plan fetches all rows of some documents at once, then a cursor
on the plan that is asked for them in any steps gives pieces that are those rows from the first on,
none lost and none twice; each step gives as many as it fetches of the rows that are left, no row
only where none is left, and all of them when all are fetched. -/
theorem execute_pieces {p : Plan} {env : Environment} {params : Params} {ds rows : List Value}
    {store : Store} {c : Cursor} {moments : List Moment}
    (hc : p.execute env params (some (.documents ds)) = .ok c)
    (hrows : (c.fetch env store none).2 = .ok rows)
    (hmoments : ∀ m ∈ moments, m.env = env ∧ ∃ wanted, m.step.Fetches wanted) :
    ∃ (given : List (List Value)) (left : List Value),
      replies moments c = given.map .ok ∧ given.flatten ++ left = rows ∧
        (after moments c).Leaves env left := by
  obtain ⟨b, -, hb⟩ := bind_eq_ok.mp hc
  obtain rfl : Cursor.ofPlan b (.documents ds) = c := Except.ok.inj hb
  obtain ⟨given, left, hreplies, hflat, hafter⟩ := (Owes.of_fetch hrows).pieces hmoments
  exact ⟨given, left, hreplies, hflat, hafter.leaves⟩

/-- A scan that admits documents but those of one kind, and delivers three of them at most. -/
def threeOthers : Plan :=
  { predicate := some (.compare (.unequal false) (.field "kind") (.literal (.text "x")))
    limit := .int 3
    columns := some [{ expr := .field "kind" }] }

/-- Documents of these kinds. -/
def ofKinds (kinds : List String) : List Value := kinds.map fun k => .object [("kind", .text k)]

lemma strategy_threeOthers : threeOthers.strategy = .ok .stream := by
  rw [strategy_eq ⟨.inr ⟨3, rfl⟩, by simp [threeOthers]⟩]
  rfl

lemma fetch_threeOthers :
    ((Cursor.ofPlan threeOthers (.documents (ofKinds ["a", "x", "b", "x", "c", "d"]))).fetch
      {} {} none).2 = .ok (ofKinds ["a", "b", "c"]) := by
  simp only [Cursor.fetch, Cursor.ofPlan, Execution.start, strategy_threeOthers]
  rfl

theorem execute_pieces_threeOthers :
    ∃ c, threeOthers.execute {} [] (some (.documents (ofKinds ["a", "x", "b", "x", "c", "d"]))) =
        .ok c ∧
      (c.fetch {} {} none).2 = .ok (ofKinds ["a", "b", "c"]) ∧
      ∃ (given : List (List Value)) (left : List Value),
        replies [⟨{}, {}, .fetchMany (.int 0)⟩, ⟨{}, {}, .next⟩, ⟨{}, {}, .fetchMany (.int 1)⟩] c =
            given.map .ok ∧
          given.flatten ++ left = ofKinds ["a", "b", "c"] ∧
          (after [⟨{}, {}, .fetchMany (.int 0)⟩, ⟨{}, {}, .next⟩,
            ⟨{}, {}, .fetchMany (.int 1)⟩] c).Leaves {} left := by
  have hc : threeOthers.execute {} []
      (some (.documents (ofKinds ["a", "x", "b", "x", "c", "d"]))) =
      .ok (.ofPlan threeOthers (.documents (ofKinds ["a", "x", "b", "x", "c", "d"]))) := rfl
  refine ⟨_, hc, fetch_threeOthers, execute_pieces hc fetch_threeOthers ?_⟩
  intro m hm
  simp only [List.mem_cons, List.not_mem_nil, or_false] at hm
  rcases hm with rfl | rfl | rfl
  · exact ⟨rfl, _, .fetchMany 0 (by decide)⟩
  · exact ⟨rfl, _, .next⟩
  · exact ⟨rfl, _, .fetchMany 1 (by decide)⟩

/-- A piece must be of a size that fits: a cursor that fetches all rows refuses to fetch more than
the greatest number of them. -/
theorem not_execute_pieces_ofAnySize :
    ¬ ∀ (p : Plan) (env : Environment) (params : Params) (ds rows : List Value) (store : Store)
      (c : Cursor) (n : Nat),
      p.execute env params (some (.documents ds)) = .ok c →
      (c.fetch env store none).2 = .ok rows →
      (c.fetchMany env store (.int n)).2 = .ok (rows.take n) := by
  intro h
  have hrefused : ((Cursor.ofPlan {} (.documents [])).fetchMany {} {} (.int (2 ^ 63 : Nat))).2 =
      .error .countOutOfRange := rfl
  have hgiven := h {} {} [] [] [] {} (.ofPlan {} (.documents [])) (2 ^ 63) rfl rfl
  cases hrefused.symm.trans hgiven

end Plan

end NearDoc
