import Mathlib.Data.List.Basic
import Mathlib.Tactic.Common
import NearDoc.Query.Cursor

/-!
The rows of a run. A run that has started yields row after row up to its end or a failure. Main
statements: a scan yields the rows of the documents it admits, documents in their final order yield
one row each, and a cursor hands out what its run yields, one by one or all at once.
-/

namespace NearDoc

namespace Execution

/-- A run that has started yields rows, up to its end or a failure. -/
inductive Yields (env : Environment) : Execution → List Value → Option Error → Prop where
  | done {x x' : Execution} (h : x.advance env = (x', .ok none)) : Yields env x [] none
  | failed {x x' : Execution} {e : Error} (h : x.advance env = (x', .error e)) :
      Yields env x [] (some e)
  | row {x x' : Execution} {r : Value} {rs : List Value} {failure : Option Error}
      (h : x.advance env = (x', .ok (some r))) (rest : Yields env x' rs failure) :
      Yields env x (r :: rs) failure

/-- A run that does not wait any more. -/
def Started (x : Execution) : Prop := ∀ source, x.phase ≠ .waiting source

end Execution

namespace Cursor

/-- A cursor hands out rows on request, up to the end of its run or a failure. -/
inductive Delivers (env : Environment) (store : Store) : Cursor → List Value → Option Error → Prop
    where
  | done {c c' : Cursor} (h : c.next env store = (c', .ok none)) : Delivers env store c [] none
  | failed {c c' : Cursor} {e : Error} (h : c.next env store = (c', .error e)) :
      Delivers env store c [] (some e)
  | row {c c' : Cursor} {r : Value} {rs : List Value} {failure : Option Error}
      (h : c.next env store = (c', .ok (some r))) (rest : Delivers env store c' rs failure) :
      Delivers env store c (r :: rs) failure

end Cursor

namespace Plan

/-- A run on given documents that waits. -/
def waiting (p : Plan) (ds : List Value) : Execution :=
  { plan := p, phase := .waiting (.documents ds) }

/-- The rows of documents in their final order. -/
def shown (env : Environment) (p : Plan) : List Value → Found Value
  | [] => ⟨[], none⟩
  | d :: ds =>
    match Execution.row env p d with
    | .error e => ⟨[], some e⟩
    | .ok r => let rest := shown env p ds; ⟨r :: rest.items, rest.failure⟩

/-- The rows of a scan that may deliver so many more. -/
def scanned (env : Environment) (p : Plan) : Option Nat → List Value → Found Value
  | some 0, _ => ⟨[], none⟩
  | _, [] => ⟨[], none⟩
  | left, d :: ds =>
    match Execution.admitted env p d with
    | .error e => ⟨[], some e⟩
    | .ok false => scanned env p left ds
    | .ok true =>
      match Execution.row env p d with
      | .error e => ⟨[], some e⟩
      | .ok r => let rest := scanned env p (left.map (· - 1)) ds; ⟨r :: rest.items, rest.failure⟩

end Plan

namespace Execution

variable {env : Environment} {store : Store} {x x' : Execution} {rs : List Value}
variable {failure : Option Error}

/-! ### One document -/

lemma emit_error {d : Value} {e : Error} (h : row env x.plan d = .error e) :
    ∃ x', emit env d x = (x', .error e) := by
  simp only [emit, h]
  exact ⟨_, rfl⟩

lemma emit_ok {d r : Value} (h : row env x.plan d = .ok r) :
    emit env d x = ({ x with emitted := x.emitted + 1 }, .ok (some r)) := by
  simp only [emit, h]

/-! ### Documents in their final order -/

lemma yields_delivering {ds : List Value} (h : x.phase = .delivering ds) :
    Yields env x (x.plan.shown env ds).items (x.plan.shown env ds).failure := by
  induction ds generalizing x with
  | nil =>
    have hadv : x.advance env = (x.finish env .completed [], .ok none) := by simp only [advance, h]
    exact .done hadv
  | cons d ds ih =>
    have hadv : x.advance env = emit env d { x with phase := .delivering ds } := by
      simp only [advance, h]
    simp only [Plan.shown]
    rcases hr : row env x.plan d with e | r
    · obtain ⟨x', hx'⟩ := emit_error (x := { x with phase := .delivering ds }) hr
      exact .failed (hadv.trans hx')
    · exact .row (hadv.trans (emit_ok (x := { x with phase := .delivering ds }) hr)) (ih rfl)

/-! ### Scans -/

lemma length_pullAdmitted {p : Plan} {ds rest : List Value} {d : Value}
    (h : (pullAdmitted env p ds).outcome = .ok (some (d, rest))) : rest.length < ds.length := by
  induction ds with
  | nil => simp [pullAdmitted] at h
  | cons a ds ih =>
    simp only [pullAdmitted] at h
    split at h
    · cases h
    · cases h
      simp
    · have := ih h
      simp only [List.length_cons]
      omega

/-- A scan goes on from the document that is pulled next. -/
lemma scanned_eq_pullAdmitted {p : Plan} {left : Option Nat} (hleft : left ≠ some 0)
    (ds : List Value) :
    p.scanned env left ds =
      match (pullAdmitted env p ds).outcome with
      | .error e => ⟨[], some e⟩
      | .ok none => ⟨[], none⟩
      | .ok (some (d, rest)) =>
        match row env p d with
        | .error e => ⟨[], some e⟩
        | .ok r =>
          let found := p.scanned env (left.map (· - 1)) rest
          ⟨r :: found.items, found.failure⟩ := by
  induction ds with
  | nil => rcases left with _ | _ | n <;> simp_all [Plan.scanned, pullAdmitted]
  | cons d ds ih =>
    have hstep : p.scanned env left (d :: ds) =
        match admitted env p d with
        | .error e => ⟨[], some e⟩
        | .ok false => p.scanned env left ds
        | .ok true =>
          match row env p d with
          | .error e => ⟨[], some e⟩
          | .ok r =>
            let rest := p.scanned env (left.map (· - 1)) ds
            ⟨r :: rest.items, rest.failure⟩ := by
      rcases left with _ | _ | n
      · rfl
      · exact absurd rfl hleft
      · rfl
    rw [hstep, pullAdmitted]
    rcases hadm : admitted env p d with e | b
    · rfl
    · cases b
      · exact ih
      · rfl

/-- A scan that may go on pulls documents until one is admitted. -/
lemma advance_streaming (env : Environment) {ds : List Value} {left : Option Nat}
    (h : x.phase = .streaming ds left) (hleft : left ≠ some 0) :
    x.advance env =
      match (pullAdmitted env x.plan ds).outcome with
      | .error e =>
        (fail env e { x with scanned := x.scanned + (pullAdmitted env x.plan ds).pulled }, .error e)
      | .ok none =>
        (finish env .completed []
          { x with scanned := x.scanned + (pullAdmitted env x.plan ds).pulled }, .ok none)
      | .ok (some (d, rest)) =>
        emit env d { x with
          scanned := x.scanned + (pullAdmitted env x.plan ds).pulled
          phase := .streaming rest (left.map (· - 1)) } := by
  obtain ⟨plan, phase, scanned, emitted, closes, records⟩ := x
  obtain rfl : phase = .streaming ds left := h
  rcases left with _ | _ | n
  · rfl
  · exact absurd rfl hleft
  · rfl

lemma yields_streaming {ds : List Value} {left : Option Nat} (h : x.phase = .streaming ds left) :
    Yields env x (x.plan.scanned env left ds).items (x.plan.scanned env left ds).failure := by
  generalize hn : ds.length = n
  induction n using Nat.strongRecOn generalizing x ds left with
  | _ n ih =>
  by_cases hleft : left = some 0
  · subst hleft
    have hnone : x.plan.scanned env (some 0) ds = ⟨[], none⟩ := by cases ds <;> rfl
    rw [hnone]
    have hadv : x.advance env = (x.finish env .completed [], .ok none) := by simp only [advance, h]
    exact .done hadv
  · have hadv := advance_streaming env h hleft
    rw [scanned_eq_pullAdmitted hleft]
    rcases hpull : (pullAdmitted env x.plan ds).outcome with e | _ | ⟨d, rest⟩
    · rw [hpull] at hadv
      exact .failed hadv
    · rw [hpull] at hadv
      exact .done hadv
    · rw [hpull] at hadv
      dsimp only at hadv ⊢
      rcases hr : row env x.plan d with e | r
      · obtain ⟨x', hx'⟩ := emit_error (x := { x with
          scanned := x.scanned + (pullAdmitted env x.plan ds).pulled
          phase := .streaming rest (left.map (· - 1)) }) hr
        exact .failed (hadv.trans hx')
      · refine .row (hadv.trans (emit_ok (x := { x with
          scanned := x.scanned + (pullAdmitted env x.plan ds).pulled
          phase := .streaming rest (left.map (· - 1)) }) hr)) ?_
        exact ih _ (hn ▸ length_pullAdmitted hpull) rfl rfl

/-! ### Runs that have started -/

lemma started_of_delivering {ds : List Value} (h : x.phase = .delivering ds) : x.Started :=
  fun source hw => by simp [h] at hw

lemma started_of_streaming {ds : List Value} {left : Option Nat}
    (h : x.phase = .streaming ds left) : x.Started := fun source hw => by simp [h] at hw

lemma start_of_started (h : x.Started) : x.start env store = (x, none) := by
  unfold start
  split
  · exact absurd (by assumption) (h _)
  · rfl

/-- A run that sorts delivers all documents in order, cut at the limit. -/
lemma start_of_sort (env : Environment) {source : Source} {ds : List Value}
    (hphase : x.phase = .waiting source) (hs : x.plan.strategy = .ok .sort)
    (hopen : (openSource store source).1 = .ok ds) :
    x.start env store = x.deliver env (cut x.plan.limit (sorted env x.plan ds)) := by
  obtain ⟨records, hsource⟩ : ∃ records, openSource store source = (.ok ds, records) :=
    ⟨_, Prod.ext hopen rfl⟩
  simp only [start, hphase, hs, startAs, startOn, hsource]

/-- A run that selects delivers the documents with the smallest keys. -/
lemma start_of_topK (env : Environment) {source : Source} {ds : List Value} {k : SortKey}
    (hphase : x.phase = .waiting source) (hs : x.plan.strategy = .ok .topK)
    (hk : x.plan.order = [k]) (hopen : (openSource store source).1 = .ok ds) :
    x.start env store = x.deliver env (smallest env x.plan k.expr ds) := by
  obtain ⟨records, hsource⟩ : ∃ records, openSource store source = (.ok ds, records) :=
    ⟨_, Prod.ext hopen rfl⟩
  simp only [start, hphase, hs, startAs, startOn, hsource, hk, List.map_cons, List.headD_cons]

lemma started_fail (e : Error) : (x.fail env e).Started := fun source => by simp [fail, finish]

lemma started_emit (h : x.Started) (d : Value) : (emit env d x).1.Started := by
  unfold emit
  dsimp only
  split
  · exact h
  · exact started_fail _

/-- A run that has started does not wait again. -/
lemma started_advance (env : Environment) (h : x.Started) : (x.advance env).1.Started := by
  unfold advance
  split
  · exact h
  · exact h
  · exact fun source => by simp [finish]
  · exact fun source => by simp [finish]
  · exact started_emit (started_of_delivering rfl) _
  · dsimp only
    split
    · exact started_fail _
    · exact fun source => by simp [finish]
    · exact started_emit (started_of_streaming rfl) _

/-! ### All rows at once -/

lemma collect_succ (env : Environment) (fuel : Nat) (x : Execution) {wanted : Option Nat}
    (hwanted : wanted ≠ some 0) :
    collect env (fuel + 1) wanted x =
      match x.advance env with
      | (x, .error e) => (x, .error e)
      | (x, .ok none) => (x, .ok [])
      | (x, .ok (some r)) =>
        match collect env fuel (wanted.map (· - 1)) x with
        | (x, .ok rs) => (x, .ok (r :: rs))
        | (x, .error e) => (x, .error e) := by
  rcases wanted with _ | _ | n
  · rfl
  · exact absurd rfl hwanted
  · rfl

/-- A run that ends without a failure is collected whole, given enough fuel. -/
lemma collect_of_yields (h : Yields env x rs none) {fuel : Nat} (hfuel : rs.length < fuel) :
    ∃ x', collect env fuel none x = (x', .ok rs) := by
  induction rs generalizing x fuel with
  | nil =>
    obtain ⟨fuel, rfl⟩ := Nat.exists_eq_succ_of_ne_zero (Nat.ne_of_gt hfuel)
    cases h with
    | @done _ x' h => exact ⟨x', by simp only [collect, h]⟩
  | cons r rs ih =>
    obtain ⟨fuel, rfl⟩ := Nat.exists_eq_succ_of_ne_zero (Nat.ne_zero_of_lt hfuel)
    cases h with
    | row h hrest =>
      obtain ⟨x'', hx''⟩ := ih hrest (by simpa using hfuel)
      exact ⟨x'', by simp only [collect, h, Option.map_none, hx'']⟩

end Execution

namespace Cursor

open Execution

variable {env : Environment} {store : Store} {x x' : Execution} {rs : List Value}
variable {failure : Option Error}

/-- **All rows**: a cursor fetches what its run yields once it has started. -/
theorem fetch_of_yields (hstart : x.start env store = (x', none)) (h : Yields env x' rs none)
    (hlen : rs.length ≤ x'.remaining) :
    (Cursor.fetch env store none { execution := x }).2 = .ok rs := by
  obtain ⟨x'', hx''⟩ := collect_of_yields h (Nat.lt_succ_of_le hlen)
  simp only [fetch, hstart]
  simp [hx'']

/-- A run that has started and yields rows is handed out row by row. -/
lemma delivers_of_started (hx : x.Started) (h : Yields env x rs failure) :
    Delivers env store { execution := x } rs failure := by
  have hnext : ∀ {x : Execution}, x.Started → Cursor.next env store { execution := x } =
      ({ execution := (x.advance env).1 }, (x.advance env).2) := fun hx => by
    simp only [Cursor.next, Execution.next, Bool.false_eq_true, if_false, start_of_started hx]
  induction h with
  | done h => exact .done (by rw [hnext hx, h])
  | failed h => exact .failed (by rw [hnext hx, h])
  | row h _ ih =>
    have hstarted := started_advance env hx
    rw [h] at hstarted
    exact .row (by rw [hnext hx, h]) (ih hstarted)

/-- **Row by row**: a cursor delivers what its run yields once it has started. -/
theorem delivers_of_yields (hstart : x.start env store = (x', none)) (hx : x'.Started)
    (h : Yields env x' rs failure) : Delivers env store { execution := x } rs failure := by
  have hnext : Cursor.next env store { execution := x } =
      Cursor.next env store { execution := x' } := by
    simp only [Cursor.next, Execution.next, Bool.false_eq_true, if_false, hstart,
      start_of_started hx]
  have hd : Delivers env store { execution := x' } rs failure := delivers_of_started hx h
  cases hd with
  | done hd => exact .done (hnext.trans hd)
  | failed hd => exact .failed (hnext.trans hd)
  | row hd rest => exact .row (hnext.trans hd) rest

/-- What a cursor delivers is settled. -/
theorem Delivers.unique {c : Cursor} {rs' : List Value} {failure' : Option Error}
    (h : Delivers env store c rs failure) (h' : Delivers env store c rs' failure') :
    rs = rs' ∧ failure = failure' := by
  induction h generalizing rs' failure' with
  | done hnext =>
    cases h' with
    | done => exact ⟨rfl, rfl⟩
    | failed hnext' => cases hnext.symm.trans hnext'
    | row hnext' _ => cases hnext.symm.trans hnext'
  | failed hnext =>
    cases h' with
    | done hnext' => cases hnext.symm.trans hnext'
    | failed hnext' =>
      cases hnext.symm.trans hnext'
      exact ⟨rfl, rfl⟩
    | row hnext' _ => cases hnext.symm.trans hnext'
  | row hnext _ ih =>
    cases h' with
    | done hnext' => cases hnext.symm.trans hnext'
    | failed hnext' => cases hnext.symm.trans hnext'
    | row hnext' hrest' =>
      cases hnext.symm.trans hnext'
      obtain ⟨rfl, rfl⟩ := ih hrest'
      exact ⟨rfl, rfl⟩

/-- A cursor delivers nothing if its run fails to start. -/
lemma delivers_of_start_error {e : Error} (hstart : x.start env store = (x', some e)) :
    Delivers env store { execution := x } [] (some e) :=
  have hnext : Cursor.next env store { execution := x } =
      ({ execution := x' }, .error e) := by
    simp only [Cursor.next, Execution.next, Bool.false_eq_true, if_false, hstart]
  .failed hnext

end Cursor

end NearDoc
