import NearDoc.Proofs.Query.FirstPull
import NearDoc.Proofs.Query.Pieces

/-!
How many documents a plan pulls. A scan pulls up to the document of the row it was asked for, and
none beyond its limit; where all documents are brought into an order, the first request pulls every
one of them, and no later one pulls any. Main statement: so it is after any steps on a plan whose
expressions do not fail; only a selection among keys that cannot be compared may stop before the
last document.
-/

namespace NearDoc

namespace Plan

/-- The position, counted from one, of the `r`-th document that a plan admits. -/
def Position (env : Environment) (p : Plan) (ds : List Value) (r n : Nat) : Prop :=
  ∃ before d after, ds = before ++ d :: after ∧ p.passes env d = true ∧
    before.countP (p.passes env) + 1 = r ∧ before.length + 1 = n

/-- How far a scan is that has given `r` rows: right behind the document of the last. -/
def Reached (env : Environment) (p : Plan) (ds : List Value) (r n : Nat) : Prop :=
  (r = 0 ∧ n = 0) ∨ p.Position env ds r n

variable {env : Environment} {p : Plan} {ds before after : List Value} {d : Value} {r n : Nat}

lemma Reached.le_length (h : p.Reached env ds r n) : n ≤ ds.length := by
  obtain ⟨-, rfl⟩ | ⟨before, d, after, rfl, -, -, rfl⟩ := h
  · exact Nat.zero_le _
  · simp

/-- As many documents are admitted up to there as rows were given. -/
lemma Reached.countP_take (h : p.Reached env ds r n) :
    (ds.take n).countP (p.passes env) = r := by
  obtain ⟨rfl, rfl⟩ | ⟨before, d, after, rfl, hd, rfl, rfl⟩ := h
  · rfl
  · rw [List.take_append, List.take_of_length_le (Nat.le_succ _), Nat.add_sub_cancel_left]
    simp [List.countP_append, hd]

/-- The next document that is admitted is that of the next row. -/
lemma Reached.next (h : p.Reached env ds r n) (hdrop : ds.drop n = before ++ d :: after)
    (hbefore : before.countP (p.passes env) = 0) (hd : p.passes env d = true) :
    p.Position env ds (r + 1) (n + (before.length + 1)) := by
  refine ⟨ds.take n ++ before, d, after, ?_, hd, ?_, ?_⟩
  · rw [List.append_assoc, ← hdrop, List.take_append_drop]
  · rw [List.countP_append, h.countP_take, hbefore]
  · rw [List.length_append, List.length_take, Nat.min_eq_left h.le_length, Nat.add_assoc]

/-- Where no document is left that is admitted, all rows were given. -/
lemma Reached.countP_eq (h : p.Reached env ds r n)
    (hdrop : (ds.drop n).countP (p.passes env) = 0) : ds.countP (p.passes env) = r := by
  conv_lhs => rw [← List.take_append_drop n ds]
  rw [List.countP_append, h.countP_take, hdrop, Nat.add_zero]

/-- A scan has room for a row. -/
lemma pos_of_stream (hp : p.Declared) (hs : p.strategy = .ok .stream) :
    ∀ n : Int, p.limit = .int n → 0 < n := by
  intro n hn
  by_contra hle
  have hcut : p.cutAt = some 0 := by
    simp only [cutAt, hn, Option.some.injEq]
    omega
  rw [strategy_eq hp.typed] at hs
  simp [hn, Value.isNull, hcut] at hs

end Plan

namespace Execution

variable {env : Environment} {store : Store} {p : Plan} {ds : List Value} {x y : Execution}
variable {r n : Nat}

/-! ### Scans -/

/-- What a scan pulls on documents on which the predicate does not fail: those up to the first that
is admitted, or all of them. -/
lemma pullAdmitted_finds (he : p.Evaluates env ds) {l : List Value} (hl : ∀ d ∈ l, d ∈ ds) :
    (pullAdmitted env p l = ⟨l.length, .ok none⟩ ∧ l.countP (p.passes env) = 0) ∨
      ∃ before d after, l = before ++ d :: after ∧ before.countP (p.passes env) = 0 ∧
        p.passes env d = true ∧
        pullAdmitted env p l = ⟨before.length + 1, .ok (some (d, after))⟩ := by
  induction l with
  | nil => exact .inl ⟨rfl, rfl⟩
  | cons a l ih =>
    rw [List.forall_mem_cons] at hl
    rw [pullAdmitted, Plan.admitted_eq he hl.1]
    rcases ha : p.passes env a with _ | _
    · obtain ⟨hpull, hnone⟩ | ⟨before, d, after, rfl, hbefore, hd, hpull⟩ := ih hl.2
      · exact .inl ⟨by simp only [hpull, List.length_cons], by simp [ha, hnone]⟩
      · exact .inr ⟨a :: before, d, after, rfl, by simp [ha, hbefore], hd,
          by simp only [hpull, List.length_cons]⟩
    · exact .inr ⟨[], a, l, rfl, rfl, ha, rfl⟩

/-- A scan after `r` rows. -/
inductive Scans (env : Environment) (p : Plan) (ds : List Value) : Nat → Execution → Prop where
  | waits {x : Execution} (hplan : x.plan = p) (hphase : x.phase = .waiting (.documents ds))
      (hscanned : x.scanned = 0) : Scans env p ds 0 x
  | streaming {x : Execution} {r : Nat} (hplan : x.plan = p)
      (hphase : x.phase = .streaming (ds.drop x.scanned) (p.cutAt.map (· - r)))
      (hreached : p.Reached env ds r x.scanned) (hle : ∀ n ∈ p.cutAt, r ≤ n) : Scans env p ds r x
  /-- It was stopped by the limit or from outside. -/
  | stopped {x : Execution} {r : Nat} {status : Status} (hphase : x.phase = .ended status)
      (hreached : p.Reached env ds r x.scanned)
      (hcut : status = .completed → p.cutAt = some r) : Scans env p ds r x
  /-- It came to the last document before the limit. -/
  | exhausted {x : Execution} {r : Nat} (hphase : x.phase = .ended .completed)
      (hscanned : x.scanned = ds.length) (hcount : r = ds.countP (p.passes env))
      (hcut : p.cutAt ≠ some r) : Scans env p ds r x

namespace Scans

/-- A scan has documents before it, or it does nothing any more. -/
lemma streaming_or_idle (h : Scans env p ds r x) :
    (x.plan = p ∧ x.phase = .streaming (ds.drop x.scanned) (p.cutAt.map (· - r)) ∧
        p.Reached env ds r x.scanned ∧ ∀ n ∈ p.cutAt, r ≤ n) ∨
      x.advance env = (x, .ok none) ∧ x.abandon env = x := by
  cases h with
  | streaming hplan hphase hreached hle => exact .inl ⟨hplan, hphase, hreached, hle⟩
  | waits _ hphase | stopped hphase | exhausted hphase =>
    exact .inr ⟨by simp only [Execution.advance, hphase], by simp only [Execution.abandon, hphase]⟩

/-- **One row of a scan**: the next turn gives the row of the next document admitted, or none. -/
lemma advance (hp : p.Declared) (hl : p.Labelled) (he : p.Evaluates env ds)
    (h : Scans env p ds r x) :
    ∃ reply, (x.advance env).2 = .ok reply ∧
      Scans env p ds (r + reply.toList.length) (x.advance env).1 := by
  obtain ⟨rfl, hphase, hreached, hle⟩ | ⟨hidle, -⟩ := h.streaming_or_idle
  · by_cases hleft : x.plan.cutAt.map (· - r) = some 0
    · have hadv : x.advance env = (x.finish env .completed [], .ok none) := by
        rw [hleft] at hphase
        simp only [Execution.advance, hphase]
      obtain ⟨n, hn, hzero⟩ := Option.map_eq_some_iff.mp hleft
      have hr : r = n := Nat.le_antisymm (hle n hn) (by omega)
      rw [hadv]
      exact ⟨none, rfl, .stopped rfl hreached fun _ => hr ▸ hn⟩
    · have hadv := advance_streaming env hphase hleft
      have hmem : ∀ d ∈ ds.drop x.scanned, d ∈ ds := fun d hd => List.mem_of_mem_drop hd
      obtain ⟨hpull, hnone⟩ | ⟨before, d, after, hdrop, hbefore, hd, hpull⟩ :=
        pullAdmitted_finds he hmem
      · rw [hpull] at hadv
        rw [hadv]
        refine ⟨none, rfl, .exhausted rfl ?_ (hreached.countP_eq hnone).symm ?_⟩
        · have hall := hreached.le_length
          simp only [finish, List.length_drop]
          omega
        · intro hcut
          exact hleft (by simp [hcut])
      · have hrow : row env x.plan d = .ok (x.plan.shownRow env d) :=
          Plan.row_eq he hp hl (hmem d (by simp [hdrop]))
        have hnext := hreached.next hdrop hbefore hd
        rw [hpull] at hadv
        rw [hadv.trans (emit_ok hrow)]
        refine ⟨some _, rfl, .streaming rfl ?_ (.inr hnext) fun n hn => ?_⟩
        · have hafter : ds.drop (x.scanned + (before.length + 1)) = after := by
            rw [← List.drop_drop, hdrop]
            simp
          simp [hafter, Nat.sub_sub, Function.comp_def]
        · rcases Nat.lt_or_ge r n with hlt | hge
          · exact hlt
          · exact absurd (by simp [Option.mem_def.mp hn]; omega) hleft
  · rw [hidle]
    exact ⟨none, rfl, h⟩

lemma collect (hp : p.Declared) (hl : p.Labelled) (he : p.Evaluates env ds)
    (h : Scans env p ds r x) (fuel : Nat) (wanted : Option Nat) :
    ∃ rows, (collect env fuel wanted x).2 = .ok rows ∧
      Scans env p ds (r + rows.length) (collect env fuel wanted x).1 := by
  induction fuel generalizing x r wanted with
  | zero => exact ⟨[], rfl, h⟩
  | succ fuel ih =>
    by_cases hwanted : wanted = some 0
    · subst hwanted
      exact ⟨[], rfl, h⟩
    · obtain ⟨reply, hreply, hnext⟩ := h.advance hp hl he
      rw [collect_succ env fuel x hwanted]
      generalize x.advance env = a at hreply hnext
      obtain ⟨x', _⟩ := a
      cases hreply
      rcases reply with _ | row
      · exact ⟨[], rfl, hnext⟩
      · obtain ⟨rows, hrows, hrest⟩ := ih hnext (wanted.map (· - 1))
        dsimp only
        generalize Execution.collect env fuel (wanted.map (· - 1)) x' = b at hrows hrest
        obtain ⟨x'', _⟩ := b
        cases hrows
        refine ⟨row :: rows, rfl, ?_⟩
        simpa [Nat.add_assoc, Nat.add_comm 1] using hrest

/-- Opening its source a scan pulls nothing. -/
lemma start (hp : p.Declared) (hs : p.strategy = .ok .stream) (h : Scans env p ds r x)
    (store : Store) : ∃ y, x.start env store = (y, none) ∧ Scans env p ds r y := by
  by_cases hx : x.Started
  · exact ⟨x, start_of_started hx, h⟩
  · cases h with
    | streaming _ hphase => exact absurd (started_of_streaming hphase) hx
    | stopped hphase | exhausted hphase => exact absurd (by simp [Started, hphase]) hx
    | waits hplan hphase hscanned =>
      subst hplan
      have hcount := Plan.rowCount_eq hp (Plan.pos_of_stream hp hs)
      refine ⟨{ x with phase := .streaming ds x.plan.cutAt }, ?_, .streaming rfl ?_ ?_ ?_⟩
      · simp only [Execution.start, hphase, hs, startAs, hcount, startOn, openSource]
      · simp [hscanned]
      · exact .inl ⟨rfl, hscanned⟩
      · exact fun n _ => Nat.zero_le n

lemma abandon (h : Scans env p ds r x) : Scans env p ds r (x.abandon env) := by
  obtain ⟨-, hphase, hreached, -⟩ | ⟨-, hidle⟩ := h.streaming_or_idle
  · have hend : x.abandon env = x.finish env .abandoned [] := by
      simp only [Execution.abandon, hphase]
    rw [hend]
    exact .stopped rfl hreached fun h => (by cases h)
  · rwa [hidle]

end Scans

/-! ### Documents brought into an order -/

/-- What goes on to hold of a run once it has started. -/
structure Kept (env : Environment) (Q : Execution → Prop) : Prop where
  started : ∀ x, Q x → x.Started
  advance : ∀ x, Q x → Q (x.advance env).1
  abandon : ∀ x, Q x → Q (x.abandon env)

lemma Kept.collect {Q : Execution → Prop} (hQ : Kept env Q) (h : Q x) (fuel : Nat)
    (wanted : Option Nat) : Q (collect env fuel wanted x).1 := by
  induction fuel generalizing x wanted with
  | zero => exact h
  | succ fuel ih =>
    by_cases hwanted : wanted = some 0
    · subst hwanted
      exact h
    · have hadv := hQ.advance x h
      rw [collect_succ env fuel x hwanted]
      generalize x.advance env = a at hadv
      obtain ⟨x', _ | _ | r⟩ := a
      · exact hadv
      · exact hadv
      · have hrest := ih hadv (wanted.map (· - 1))
        dsimp only
        generalize Execution.collect env fuel (wanted.map (· - 1)) x' = b at hrest
        obtain ⟨x'', _ | rs⟩ := b <;> exact hrest

/-- A run that has pulled `n` documents and has none before it. -/
structure Holds (n : Nat) (x : Execution) : Prop where
  scanned : x.scanned = n
  started : x.Started
  still : ∀ rest left, x.phase ≠ .streaming rest left

lemma holds_finish (h : x.scanned = n) (env : Environment) (status : Status) (details : Fields) :
    Holds n (x.finish env status details) :=
  ⟨h, fun _ h => (by cases h), fun _ _ h => (by cases h)⟩

lemma holds_deliver {pass : Pass (Except Error (List Value))} (h0 : x.scanned = 0)
    (hpass : pass.pulled = n) (env : Environment) : Holds n (x.deliver env pass).1 := by
  have hscanned : x.scanned + pass.pulled = n := by omega
  unfold deliver
  dsimp only
  split
  · exact holds_finish hscanned env _ _
  · exact ⟨hscanned, fun _ h => (by cases h), fun _ _ h => (by cases h)⟩

lemma kept_holds (env : Environment) (n : Nat) : Kept env (Holds n) where
  started _ h := h.started
  advance x h := by
    rcases hphase : x.phase with source | ⟨rest, left⟩ | rest | status
    · exact absurd hphase (h.started source)
    · exact absurd hphase (h.still rest left)
    · cases rest with
      | nil =>
        have hadv : x.advance env = (x.finish env .completed [], .ok none) := by
          simp only [advance, hphase]
        rw [hadv]
        exact holds_finish h.scanned env _ _
      | cons d rest =>
        have hadv : x.advance env = emit env d { x with phase := .delivering rest } := by
          simp only [advance, hphase]
        rw [hadv]
        unfold emit
        dsimp only
        split
        · exact ⟨h.scanned, fun _ h => (by cases h), fun _ _ h => (by cases h)⟩
        · exact holds_finish (x := { x with emitted := x.emitted + 1, phase := .delivering rest })
            h.scanned env _ _
    · have hadv : x.advance env = (x, .ok none) := by simp only [advance, hphase]
      rwa [hadv]
  abandon x h := by
    unfold abandon
    split
    · exact h
    · exact h
    · exact holds_finish h.scanned env _ _

/-- Nothing goes on in a run that failed. -/
lemma Kept.or_failed {Q : Execution → Prop} (hQ : Kept env Q) :
    Kept env fun x => Q x ∨ x.status? = some .failed := by
  have hphase {x : Execution} (hx : x.status? = some .failed) : x.phase = .ended .failed := by
    unfold status? at hx
    split at hx <;> simp_all
  refine ⟨fun x h => ?_, fun x h => ?_, fun x h => ?_⟩
  · exact h.elim (hQ.started x) fun hx => by simp [Started, hphase hx]
  · exact h.imp (hQ.advance x) fun hx => by
      simpa only [Execution.advance, hphase hx] using hx
  · exact h.imp (hQ.abandon x) fun hx => by
      simpa only [Execution.abandon, hphase hx] using hx

end Execution

namespace Cursor

open Execution

variable {env : Environment} {store : Store} {p : Plan} {ds : List Value} {c : Cursor}
variable {moments : List Moment} {r n : Nat} {Q : Execution → Prop}

/-- How many rows some replies hold. -/
def given (replies : List (Except Error (List Value))) : Nat :=
  (replies.flatMap fun reply => reply.toOption.getD []).length

/-! ### Steps of a scan -/

lemma scans_fetch (hp : p.Declared) (hl : p.Labelled) (he : p.Evaluates env ds)
    (hs : p.strategy = .ok .stream) (h : Scans env p ds r c.execution) (store : Store)
    (wanted : Option Nat) :
    ∃ rows, (c.fetch env store wanted).2 = .ok rows ∧
      Scans env p ds (r + rows.length) (c.fetch env store wanted).1.execution := by
  unfold fetch
  split
  · exact ⟨[], rfl, h⟩
  · obtain ⟨y, hstart, hy⟩ := h.start hp hs store
    rw [hstart]
    exact hy.collect hp hl he _ wanted

/-- A step gives rows of a scan as the scan goes on. -/
lemma scans_perform (hp : p.Declared) (hl : p.Labelled) (he : p.Evaluates env ds)
    (hs : p.strategy = .ok .stream) (h : Scans env p ds r c.execution) (store : Store)
    (step : Step) :
    Scans env p ds (r + given [(c.perform env store step).2])
      (c.perform env store step).1.execution := by
  rcases hw : step.wanted? with _ | wanted
  · obtain ⟨reply, hrows, hperform⟩ := exists_reply_of_unwanted hw
    have hnone : given [reply] = 0 := by
      rcases reply with e | rows
      · rfl
      · rw [hrows rows rfl]
        rfl
    rw [hperform, hnone]
    dsimp only
    split
    · unfold close
      split
      · exact h
      · exact h.abandon
    · exact h
  · rw [perform_of_wanted hw]
    obtain ⟨rows, hrows, hnext⟩ := scans_fetch hp hl he hs h store wanted
    have hgiven : given [.ok rows] = rows.length := by simp [given, Except.toOption]
    rw [hrows, hgiven]
    exact hnext

/-- **Any steps of a scan**: it is where the rows that it gave have led it. -/
lemma scans_after (hp : p.Declared) (hl : p.Labelled) (he : p.Evaluates env ds)
    (hs : p.strategy = .ok .stream) (h : Scans env p ds r c.execution)
    (hmoments : ∀ m ∈ moments, m.env = env) :
    Scans env p ds (r + given (replies moments c)) (after moments c).execution := by
  induction moments generalizing c r with
  | nil => exact h
  | cons m moments ih =>
    obtain ⟨rfl, hrest⟩ := List.forall_mem_cons.mp hmoments
    have hnext := ih (scans_perform hp hl he hs h m.store m.step) hrest
    have hsum : r + given (replies (m :: moments) c) =
        r + given [(c.perform m.env m.store m.step).2] +
          given (replies moments (c.perform m.env m.store m.step).1) := by
      simp [given, replies, Moment.perform, Nat.add_assoc]
    rw [hsum]
    exact hnext

/-! ### Steps of any run -/

lemma kept_perform (hQ : Kept env Q) (h : Q c.execution) (store : Store) (step : Step) :
    Q (c.perform env store step).1.execution := by
  rcases hw : step.wanted? with _ | wanted
  · obtain ⟨reply, -, hperform⟩ := exists_reply_of_unwanted hw
    rw [hperform]
    dsimp only
    split
    · unfold close
      split
      · exact h
      · exact hQ.abandon _ h
    · exact h
  · rw [perform_of_wanted hw]
    unfold fetch
    split
    · exact h
    · rw [start_of_started (hQ.started _ h)]
      exact hQ.collect h _ wanted

lemma kept_after (hQ : Kept env Q) (h : Q c.execution) (hmoments : ∀ m ∈ moments, m.env = env) :
    Q (after moments c).execution := by
  induction moments generalizing c with
  | nil => exact h
  | cons m moments ih =>
    obtain ⟨rfl, hrest⟩ := List.forall_mem_cons.mp hmoments
    exact ih (kept_perform hQ h m.store m.step) hrest

/-- What holds of a run as it starts, and goes on to hold, holds from the first request on. -/
lemma kept_of_asked (hQ : Kept env Q) (hstart : ∀ store, Q (c.execution.start env store).1)
    (hopen : c.closed = false) (hmoments : ∀ m ∈ moments, m.env = env)
    (hasked : asked moments = true) : Q (after moments c).execution := by
  induction moments with
  | nil => cases hasked
  | cons m moments ih =>
    obtain ⟨rfl, hrest⟩ := List.forall_mem_cons.mp hmoments
    rcases hw : m.step.wanted? with _ | wanted
    · rcases hstep : m.step.closes with _ | _
      · -- the step does nothing, and the request is still to come
        have hsame : (m.perform c).1 = c := (perform_of_idle hw hstep).1
        have hlater : asked moments = true := by
          simpa [asked, opening?_cons, hstep, hw] using hasked
        have hafter : after (m :: moments) c = after moments c := by
          change after moments (m.perform c).1 = after moments c
          rw [hsame]
        rw [hafter]
        exact ih hrest hlater
      · simp [asked, opening?_cons, hstep] at hasked
    · refine kept_after (c := (m.perform c).1) hQ ?_ hrest
      have hpull := hstart m.store
      rw [Moment.perform, perform_of_wanted hw]
      unfold fetch
      simp only [hopen, wanted?_ne_zero hw, decide_false, Bool.or_self, Bool.false_eq_true,
        if_false]
      generalize c.execution.start m.env m.store = started at hpull
      obtain ⟨x, _ | e⟩ := started
      · exact hQ.collect hpull _ wanted
      · exact hpull

end Cursor

namespace Plan

open Cursor Execution

variable {env : Environment} {store : Store} {p b : Plan} {ds : List Value} {k : SortKey}
variable {moments : List Moment}

/-! ### The first request -/

/-- Everything is pulled before it is sorted, whether the keys compare or not. -/
lemma pulled_sorted (he : p.Evaluates env ds) :
    (cut p.limit (sorted env p ds)).pulled = ds.length :=
  (pullKeyed_pulled env p ds).2 _ (pullKeyed_eq he)

/-- A selection that succeeds has pulled everything. -/
lemma pulled_smallest {n : Int} (hn : p.limit = .int n) (hpos : 0 < n)
    {l : List Value} (h : (smallest env p k.expr ds).outcome = .ok l) :
    (smallest env p k.expr ds).pulled = ds.length := by
  have hroom : (Room.upTo n.toNat).isNone = false := by
    obtain ⟨m, hm⟩ : ∃ m, n.toNat = m + 1 := ⟨n.toNat - 1, by omega⟩
    rw [hm]
    rfl
  simp only [smallest, selectCount_eq hn, Selector.select, hroom, Bool.false_eq_true,
    if_false] at h ⊢
  split at h
  · rename_i ranked hranked
    obtain ⟨s, hs, -⟩ := bind_eq_ok.mp hranked
    exact (offerAll_pulled ..).2 s hs
  · cases h

/-- A plan that keeps the smallest keys has one ascending key and room for a row. -/
lemma shape_of_topK (hp : p.Declared) (hs : p.strategy = .ok .topK) :
    ∃ k n, p.order = [k] ∧ k.descending = .bool false ∧ p.limit = .int n ∧ 0 < n := by
  rw [strategy_eq hp.typed, Except.ok.injEq] at hs
  rcases hp.limit with hnull | ⟨n, hn, -⟩
  · rw [hnull, if_pos (by rfl)] at hs
    split at hs <;> cases hs
  · rw [hn, if_neg (by simp [Value.isNull])] at hs
    split at hs
    · cases hs
    · rename_i hcut
      split at hs
      · cases hs
      · rename_i k hk
        obtain ⟨descending, hdescending⟩ := hp.descending k (by simp [hk])
        cases descending with
        | true => simp [hdescending, Value.isTrue] at hs
        | false =>
          refine ⟨k, n, hk, hdescending, hn, ?_⟩
          simp only [cutAt, hn, Option.some.injEq] at hcut
          omega
      · cases hs

/-- No two documents have sort keys that cannot be compared. -/
def KeysCompare (env : Environment) (p : Plan) (ds : List Value) : Prop :=
  (ds.filterMap (p.keyOf? env)).Pairwise fun k k' => ∀ e, ¬ k.Clash k' e

lemma not_fails (he : p.Evaluates env ds) {d : Value} (hd : d ∈ ds) (e : Error) :
    ¬ p.Fails env d e := by
  rintro (hadmitted | ⟨-, hk, hkey⟩)
  · cases (admitted_eq he hd).symm.trans hadmitted
  · obtain ⟨v, hv⟩ := he.keys _ hk d hd
    cases hv.symm.trans hkey

/-- The first request of a plan that keeps the smallest keys pulls everything, unless it fails, and
it does not fail over keys that compare. -/
lemma start_selection (hp : p.Declared) (he : p.Evaluates env ds) (hs : p.strategy = .ok .topK)
    (store : Store) :
    (Holds ds.length ((p.waiting ds).start env store).1 ∨
        ((p.waiting ds).start env store).1.status? = some .failed) ∧
      (p.KeysCompare env ds → Holds ds.length ((p.waiting ds).start env store).1) := by
  obtain ⟨k, n, hk, -, hn, hpos⟩ := shape_of_topK hp hs
  have hstart : (p.waiting ds).start env store =
      (p.waiting ds).deliver env (smallest env p k.expr ds) :=
    start_of_topK env rfl hs hk rfl
  have hholds {l : List Value} (h : (smallest env p k.expr ds).outcome = .ok l) :
      Holds ds.length ((p.waiting ds).deliver env (smallest env p k.expr ds)).1 :=
    holds_deliver rfl (pulled_smallest hn hpos h) env
  rw [hstart]
  refine ⟨?_, fun hcompare => ?_⟩
  · rcases houtcome : (smallest env p k.expr ds).outcome with e | l
    · refine .inr ?_
      simp only [deliver, houtcome]
      rfl
    · exact .inl (hholds houtcome)
  · have hmeets := smallest_meets (Q := fun _ => False) hk hn (fun _ h => h)
      (fun d hd e h => not_fails he hd e h) hcompare
    rcases houtcome : (smallest env p k.expr ds).outcome with e | l
    · exact (hmeets.error houtcome).elim
    · exact hholds houtcome

/-- What a plan has pulled after some steps that have given `r` rows. -/
structure Demands (env : Environment) (b : Plan) (ds : List Value) (moments : List Moment)
    (r : Nat) (c : Cursor) : Prop where
  /-- Nothing is pulled before a row is asked for. -/
  unasked : asked moments = false → c.scanned = 0
  /-- A scan pulls up to the document of the last row, and at the limit nothing beyond. -/
  stream : b.strategy = .ok .stream → 1 ≤ r →
    c.execution.status? ≠ some .completed ∨ b.cutAt = some r → b.Position env ds r c.scanned
  /-- A scan that finds no further row before the limit has pulled everything. -/
  exhausted : b.strategy = .ok .stream → c.execution.status? = some .completed →
    b.cutAt ≠ some r → c.scanned = ds.length ∧ r = ds.countP (b.passes env)
  /-- The first request of a sort pulls everything, and no later step pulls anything. -/
  sort : b.strategy = .ok .sort → asked moments = true → c.scanned = ds.length
  /-- So does that of a selection of the smallest keys, if the keys compare or it succeeds. -/
  topK : b.strategy = .ok .topK → asked moments = true →
    b.KeysCompare env ds ∨ c.execution.status? ≠ some .failed → c.scanned = ds.length
  /-- Without room for a row nothing is pulled. -/
  empty : b.strategy = .ok .empty → c.scanned = 0

/-- **Documents pulled**: whatever is done with a cursor on a plan whose expressions do not fail, it
pulls as many documents as the plan needs for the rows that it has given. -/
theorem execute_demands {params : Params} (hp : p.Declared) (hb : p.bind env params = .ok b)
    (he : b.Evaluates env ds) (hmoments : ∀ m ∈ moments, m.env = env) :
    ∃ c, p.execute env params (some (.documents ds)) = .ok c ∧
      b.Demands env ds moments (given (replies moments c)) (after moments c) := by
  obtain ⟨hdeclared, hlabelled⟩ := hp.bind hb
  refine ⟨.ofPlan b (.documents ds), ?_, ?_⟩
  · simp only [execute, hb, Bind.bind, Except.bind]
    rfl
  have hunasked (h : asked moments = false) :
      (after moments (.ofPlan b (.documents ds))).execution.scanned = 0 := by
    rw [(Account.after b (.documents ds) moments).waits h]
  have hscans (hs : b.strategy = .ok .stream) :=
    scans_after (c := .ofPlan b (.documents ds)) hdeclared hlabelled he hs (.waits rfl rfl rfl)
      hmoments
  rw [Nat.zero_add] at hscans
  have hkept {Q : Execution → Prop} (hQ : Kept env Q)
      (hstart : ∀ store, Q ((b.waiting ds).start env store).1) (hasked : asked moments = true) :
      Q (after moments (.ofPlan b (.documents ds))).execution :=
    kept_of_asked hQ hstart rfl hmoments hasked
  generalize given (replies moments (.ofPlan b (.documents ds))) = r at hscans
  refine ⟨hunasked, fun hs hr hgoing => ?_, fun hs hdone hcut => ?_, fun hs hasked => ?_,
    fun hs hasked hgoing => ?_, fun hs => ?_⟩
  · cases hscans hs with
    | waits => omega
    | streaming _ _ hreached | stopped _ hreached =>
      exact hreached.resolve_left (by omega)
    | exhausted hphase _ _ hcut => simp [status?, hphase, hcut] at hgoing
  · cases hscans hs with
    | waits _ hphase | streaming _ hphase => simp [status?, hphase] at hdone
    | @stopped _ _ status hphase _ hstopped =>
      have hstatus : status = .completed := by simpa [status?, hphase] using hdone
      exact absurd (hstopped hstatus) hcut
    | exhausted _ hscanned hcount => exact ⟨hscanned, hcount⟩
  · refine (hkept (kept_holds env ds.length) (fun store => ?_) hasked).scanned
    have hstart : (b.waiting ds).start env store =
        (b.waiting ds).deliver env (cut b.limit (sorted env b ds)) :=
      start_of_sort env rfl hs rfl
    rw [hstart]
    exact holds_deliver rfl (pulled_sorted he) env
  · rcases hgoing with hcompare | hgoing
    · exact (hkept (kept_holds env ds.length)
        (fun store => (start_selection hdeclared he hs store).2 hcompare) hasked).scanned
    · exact ((hkept (kept_holds env ds.length).or_failed
        (fun store => (start_selection hdeclared he hs store).1) hasked).resolve_right
          hgoing).scanned
  · rcases hasked : asked moments with _ | _
    · exact hunasked hasked
    · refine (hkept (kept_holds env 0) (fun store => ?_) hasked).scanned
      simp only [Execution.start, waiting, hs, startAs]
      exact ⟨rfl, fun _ h => (by cases h), fun _ _ h => (by cases h)⟩

lemma evaluates_threeOthers (kinds : List String) :
    threeOthers.Evaluates {} (ofKinds kinds) where
  predicate := by
    rintro e ⟨⟩ d hd
    obtain ⟨kind, -, rfl⟩ := List.mem_map.mp hd
    exact ⟨_, rfl⟩
  keys := by simp [threeOthers]
  columns := by
    rintro columns ⟨⟩ c hc d hd
    obtain ⟨kind, -, rfl⟩ := List.mem_map.mp hd
    obtain rfl := List.mem_singleton.mp hc
    exact ⟨_, rfl⟩

/-- Of six documents three are given, one by one or two at once, and the last is not pulled. -/
theorem execute_demands_threeOthers :
    threeOthers.Declared ∧ threeOthers.bind {} [] = .ok threeOthers ∧
      threeOthers.Evaluates {} (ofKinds ["a", "x", "b", "x", "c", "d"]) ∧
      ∃ c, threeOthers.execute {} []
          (some (.documents (ofKinds ["a", "x", "b", "x", "c", "d"]))) = .ok c ∧
        threeOthers.Demands {} (ofKinds ["a", "x", "b", "x", "c", "d"])
          [⟨{}, {}, .next⟩, ⟨{}, {}, .fetchMany (.int 2)⟩, ⟨{}, {}, .next⟩]
          (given (replies [⟨{}, {}, .next⟩, ⟨{}, {}, .fetchMany (.int 2)⟩, ⟨{}, {}, .next⟩] c))
          (after [⟨{}, {}, .next⟩, ⟨{}, {}, .fetchMany (.int 2)⟩, ⟨{}, {}, .next⟩] c) := by
  have hp : threeOthers.Declared :=
    ⟨.inr ⟨3, rfl, by decide⟩, by simp [threeOthers], by simp [threeOthers]⟩
  have hb : threeOthers.bind {} [] = .ok threeOthers := rfl
  have he : threeOthers.Evaluates {} (ofKinds ["a", "x", "b", "x", "c", "d"]) :=
    evaluates_threeOthers _
  exact ⟨hp, hb, he, execute_demands hp hb he (by simp)⟩

/-- The document with the smallest key. -/
def smallestKey : Plan := { order := [{ expr := .field "a" }], limit := .int 1 }

/-- Three documents, the second with a key that does not compare with the others. -/
def mixedKeys : List Value :=
  [.object [("a", .int 1)], .object [("a", .text "x")], .object [("a", .int 2)]]

lemma declared_smallestKey : smallestKey.Declared :=
  ⟨.inr ⟨1, rfl, by decide⟩, by simp [smallestKey], by simp [smallestKey]⟩

lemma evaluates_smallestKey : smallestKey.Evaluates {} mixedKeys := by
  refine ⟨by simp [smallestKey], fun k hk d hd => ?_, by simp [smallestKey]⟩
  obtain rfl := List.mem_singleton.mp hk
  simp only [mixedKeys, List.mem_cons, List.not_mem_nil, or_false] at hd
  rcases hd with rfl | rfl | rfl <;> exact ⟨_, rfl⟩

/-- Keys must compare: a selection stops at a document whose key cannot be compared. -/
theorem not_execute_demands_ofAnyKeys :
    ¬ ∀ (p b : Plan) (env : Environment) (params : Params) (ds : List Value)
      (moments : List Moment), p.Declared → p.bind env params = .ok b → b.Evaluates env ds →
      (∀ m ∈ moments, m.env = env) → b.strategy = .ok .topK → asked moments = true →
      (after moments (.ofPlan b (.documents ds))).scanned = ds.length := by
  intro h
  have hb : smallestKey.bind {} [] = .ok smallestKey := rfl
  have hs : smallestKey.strategy = .ok .topK := by
    rw [strategy_eq declared_smallestKey.typed]
    rfl
  have hall := h smallestKey smallestKey {} [] mixedKeys [⟨{}, {}, .next⟩] declared_smallestKey hb
    evaluates_smallestKey (by simp) hs rfl
  have htwo : (after [⟨{}, {}, .next⟩] (.ofPlan smallestKey (.documents mixedKeys))).scanned = 2 := by
    decide +kernel
  cases htwo.symm.trans hall

end Plan

end NearDoc
