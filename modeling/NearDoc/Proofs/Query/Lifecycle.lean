import NearDoc.Proofs.Query.Answer
import NearDoc.Proofs.Query.Lookahead

/-!
The life of a cursor under any steps. Its run waits until a row is asked for; it ends once, as it
fails, as a request finds no further row or as the cursor is closed; and when it ends its iterator
is closed and the record is left. Main statements: what a step does to an open cursor, and what is
so after any steps, each at its own moment.
-/

namespace NearDoc

namespace Cursor

open Execution

/-- What may be done with a cursor. A cursor in a block is closed when the block is left. -/
inductive Step where
  | next
  | fetchOne
  | fetchMany (size : Value)
  | fetchAll
  | close
  | leave

namespace Step

/-- How many rows a step asks for, without a number all of them, if it asks for a row at all. -/
def wanted? : Step → Option (Option Nat)
  | .next | .fetchOne => some (some 1)
  | .fetchMany size =>
    match Plan.rowCount size with
    | .ok (some 0) | .error _ => none
    | .ok wanted => some wanted
  | .fetchAll => some none
  | .close | .leave => none

def closes : Step → Bool
  | .close | .leave => true
  | _ => false

/-- How a run ends in a step, by what the step asks for and the reply. -/
def ending (step : Step) (started : Bool) (reply : Except Error (List Value)) : Option Status :=
  match step.wanted?, reply with
  | none, _ => if step.closes && started then some .abandoned else none
  | some _, .error _ => some .failed
  | some wanted, .ok rows => if wanted = some rows.length then none else some .completed

end Step

/-- What a step does, and the rows it gives. -/
def perform (env : Environment) (store : Store) (c : Cursor) :
    Step → Cursor × Except Error (List Value)
  | .next | .fetchOne => ((c.next env store).1, (c.next env store).2.map Option.toList)
  | .fetchMany size => c.fetchMany env store size
  | .fetchAll => c.fetch env store none
  | .close | .leave => (c.close env, .ok [])

/-- A step at its moment: the settings and the store as they are then. -/
structure Moment where
  env : Environment
  store : Store
  step : Step

def Moment.perform (m : Moment) (c : Cursor) : Cursor × Except Error (List Value) :=
  Cursor.perform m.env m.store c m.step

/-- A cursor after some steps. -/
def after (moments : List Moment) (c : Cursor) : Cursor :=
  moments.foldl (fun c m => (m.perform c).1) c

/-- What a cursor gives at some moments, one after the other. -/
def replies : List Moment → Cursor → List (Except Error (List Value))
  | [], _ => []
  | m :: moments, c => (m.perform c).2 :: replies moments (m.perform c).1

/-- The cursor as it is on other documents. -/
def mirror (es : List Value) (c : Cursor) : Cursor := { c with execution := c.execution.mirror es }

/-- The first of some moments at which a row is asked for before the cursor is closed. -/
def opening? (moments : List Moment) : Option Moment :=
  (moments.takeWhile fun m => !m.step.closes).find? fun m => m.step.wanted?.isSome

/-- Whether a row is asked for before the cursor is closed. -/
def asked (moments : List Moment) : Bool := (opening? moments).isSome

variable {env : Environment} {store : Store} {source : Source} {c : Cursor} {step : Step}
variable {wanted : Option Nat}

lemma wanted?_ne_zero (h : step.wanted? = some wanted) : wanted ≠ some 0 := by
  rintro rfl
  cases step with
  | fetchMany size =>
    simp only [Step.wanted?] at h
    split at h
    · cases h
    · cases h
    · rename_i hne _
      exact hne (by simp_all)
  | _ => simp_all [Step.wanted?]

lemma not_closes_of_wanted? (h : step.wanted? = some wanted) : step.closes = false := by
  cases step <;> simp_all [Step.wanted?, Step.closes]

lemma ending_eq_failed {started : Bool} {reply : Except Error (List Value)} :
    step.ending started reply = some .failed ↔
      step.wanted?.isSome = true ∧ ∃ e, reply = .error e := by
  rcases hw : step.wanted? with _ | wanted <;> rcases reply with e | rows <;>
    simp [Step.ending, hw]

lemma ending_eq_abandoned {started : Bool} {reply : Except Error (List Value)} :
    step.ending started reply = some .abandoned ↔ step.closes = true ∧ started = true := by
  rcases hw : step.wanted? with _ | wanted
  · simp [Step.ending, hw]
  · rw [not_closes_of_wanted? hw]
    rcases reply with e | rows <;> simp [Step.ending, hw]

/-- The next row is what a request for one row gives. -/
lemma fetch_one (env : Environment) (store : Store) (c : Cursor) :
    c.fetch env store (some 1) =
      ((c.next env store).1, (c.next env store).2.map Option.toList) := by
  have hcollect : ∀ (x : Execution) (fuel : Nat), x.collect env (fuel + 1) (some 1) =
      ((x.advance env).1, (x.advance env).2.map Option.toList) := fun x fuel => by
    rw [collect_succ env fuel x (by simp)]
    rcases x.advance env with ⟨x', _ | _ | r⟩
    · rfl
    · rfl
    · cases fuel <;> rfl
  unfold fetch next
  by_cases hc : c.closed
  · simp [hc, Except.map]
  · simp only [hc, Execution.next, Bool.false_or, Bool.false_eq_true, if_false,
      decide_eq_true_eq, Option.some.injEq, Nat.one_ne_zero]
    rcases c.execution.start env store with ⟨x, _ | e⟩
    · simp [hcollect]
    · rfl

/-- A step that asks for rows fetches them. -/
lemma perform_of_wanted (h : step.wanted? = some wanted) :
    c.perform env store step = c.fetch env store wanted := by
  cases step with
  | next | fetchOne =>
    cases h
    exact (fetch_one env store c).symm
  | fetchMany size =>
    simp only [perform, fetchMany]
    simp only [Step.wanted?] at h
    split at h
    · cases h
    · cases h
    · rename_i hrow
      cases h
      rw [hrow]
  | fetchAll =>
    cases h
    rfl
  | close | leave => cases h

/-- A step that asks for no row at most closes the cursor. What it answers is settled by the step,
and it gives no row. -/
lemma exists_reply_of_unwanted (h : step.wanted? = none) :
    ∃ reply : Except Error (List Value), (∀ rows, reply = .ok rows → rows = []) ∧
      ∀ (env : Environment) (store : Store) (c : Cursor),
        c.perform env store step = (if step.closes then c.close env else c, reply) := by
  cases step with
  | next | fetchOne | fetchAll => cases h
  | fetchMany size =>
    simp only [Step.wanted?] at h
    simp only [perform, fetchMany]
    split at h
    · rename_i hrow
      exact ⟨.ok [], by simp, fun env store c => by simp [hrow, fetch, Step.closes]⟩
    · rename_i e hrow
      exact ⟨.error e, by simp, fun env store c => by simp [hrow, Step.closes]⟩
    · cases h
  | close | leave => exact ⟨.ok [], by simp, fun env store c => rfl⟩

/-- A step that neither asks for a row nor closes does nothing. -/
lemma perform_of_idle (h : step.wanted? = none) (hstep : step.closes = false) :
    (c.perform env store step).1 = c ∧
      ∀ rows, (c.perform env store step).2 = .ok rows → rows = [] := by
  obtain ⟨reply, hrows, hperform⟩ := exists_reply_of_unwanted h
  rw [hperform, if_neg (by simp [hstep])]
  exact ⟨rfl, hrows⟩

lemma perform_of_closes (h : step.closes = true) :
    c.perform env store step = (c.close env, .ok []) := by
  cases step <;> first | rfl | cases h

/-! ### One step -/

lemma fetch_of_closed (h : c.closed = true) : c.fetch env store wanted = (c, .ok []) := by
  simp [fetch, h]

lemma fetch_of_over {status : Status} (h : c.execution.status? = some status) :
    c.fetch env store wanted = (c, .ok []) := by
  obtain ⟨⟨plan, phase, scanned, emitted, closes, records⟩, closed⟩ := c
  obtain rfl : phase = .ended status := by
    cases phase <;> simp_all [status?]
  rcases wanted with _ | _ | n <;> cases closed <;> rfl

/-- An open cursor whose run has not ended fetches what the run comes to. -/
lemma fetches (env : Environment) (store : Store) (hc : c.closed = false)
    (hw : wanted ≠ some 0) (hx : c.execution.status? = none)
    (hsource : ∀ s, c.execution.phase = .waiting s → s = source) :
    (c.fetch env store wanted).1.closed = false ∧
      Fetches env store source wanted c.execution (c.fetch env store wanted).1.execution
        (c.fetch env store wanted).2 := by
  have hidle : (c.closed || wanted = some 0) = false := by simp [hc, hw]
  simp only [fetch, hidle, Bool.false_eq_true, if_false]
  rcases stages c.execution with ⟨s, hs⟩ | hrun | ⟨status, hover⟩
  · obtain rfl := hsource s hs
    have hstart := starts env store hs
    generalize c.execution.start env store = started at hstart
    cases hstart with
    | failed h hothers => exact ⟨hc, .unopened h hothers⟩
    | running h hy => exact ⟨hc, .served (h.serves (serves_collect env hy wanted (by omega)))⟩
  · rw [start_of_started hrun.1]
    exact ⟨hc, .served (serves_collect env hrun wanted (by omega))⟩
  · simp [status?, hover] at hx

/-- A source that is opened is as good as the documents that it has. -/
lemma start_opened {x : Execution} {ds : List Value} (hx : x.phase = .waiting source)
    (hopen : (openSource store source).1 = .ok ds) (env : Environment) (later : Store) :
    ({ x with phase := .waiting (.documents ds) } : Execution).start env later =
      x.start env store := by
  unfold start
  rw [hx]
  dsimp only
  rcases x.plan.strategy with e | s
  · rfl
  · rcases hsource : openSource store source with ⟨opened, records⟩
    obtain rfl : opened = .ok ds := by rw [← hopen, hsource]
    cases s <;> simp only [startAs, startOn, hsource] <;> rfl

/-- The cursor, waiting on given documents. -/
def onDocuments (ds : List Value) (c : Cursor) : Cursor :=
  { c with execution := { c.execution with phase := .waiting (.documents ds) } }

lemma fetch_onDocuments {ds : List Value} (hx : c.execution.phase = .waiting source)
    (hopen : (openSource store source).1 = .ok ds) (hc : c.closed = false) (env : Environment)
    (later : Store) (hw : wanted ≠ some 0) :
    (c.onDocuments ds).fetch env later wanted = c.fetch env store wanted := by
  have hstart : (c.onDocuments ds).execution.start env later = c.execution.start env store :=
    start_opened hx hopen env later
  have hclosed : (c.onDocuments ds).closed = false := hc
  unfold fetch
  simp only [hclosed, hc, hw, hstart, decide_false, Bool.or_self, Bool.false_eq_true, if_false]

lemma draws_fetch (hx : c.execution.Started) {ds : List Value} (h : c.execution.Draws ds) :
    (c.fetch env store wanted).1.execution.Draws ds := by
  unfold fetch
  split
  · exact h
  · rw [start_of_started hx]
    exact draws_collect h env _ wanted

lemma draws_fetch_of_waiting (env : Environment) (store : Store) (hc : c.closed = false)
    (hw : wanted ≠ some 0) (hx : c.execution.phase = .waiting source)
    (h0 : c.execution.scanned = 0) :
    (c.fetch env store wanted).1.execution.Draws (offered store source) := by
  have hdraws := draws_start hx h0 env store
  unfold fetch
  simp only [hc, hw, decide_false, Bool.or_self, Bool.false_eq_true, if_false]
  generalize c.execution.start env store = started at hdraws
  obtain ⟨x, _ | e⟩ := started
  · exact draws_collect hdraws env _ wanted
  · exact hdraws

/-! ### Any steps -/

/-- The state of a cursor after some steps. -/
structure Account (p : Plan) (source : Source) (moments : List Moment) (c : Cursor) : Prop where
  plan : c.execution.plan = p
  closed : c.closed = moments.any fun m => m.step.closes
  /-- Before a row is asked for, nothing has happened. -/
  waits : asked moments = false → c.execution = { plan := p, phase := .waiting source }
  started : asked moments = true → c.execution.Started
  /-- As long as the run has not ended, its iterator is open and nothing is recorded. -/
  intact : c.execution.status? = none → c.execution.closes = 0 ∧ c.execution.records = []
  /-- The iterator of a run that ended was closed once. -/
  once : ∀ status, c.execution.status? = some status → c.execution.closes = 1
  /-- No run goes on behind a closed cursor. -/
  released : c.closed = true → ¬ c.execution.Running
  /-- The run counts the documents that it pulled from its source, as that was when it started. -/
  pulled : ∀ m, opening? moments = some m → c.execution.Draws (offered m.store source)

variable {p : Plan} {moments : List Moment} {m : Moment}

lemma opening?_cons (m : Moment) (moments : List Moment) :
    opening? (m :: moments) =
      if m.step.closes then none
      else if m.step.wanted?.isSome then some m
      else opening? moments := by
  cases hstep : m.step.closes <;> cases hw : m.step.wanted?.isSome <;>
    simp [opening?, hstep, hw]

lemma opening?_append (moments : List Moment) (m : Moment) :
    opening? (moments ++ [m]) = (opening? moments).or
      (if !(moments.any fun m => m.step.closes) && m.step.wanted?.isSome then some m
        else none) := by
  induction moments with
  | nil =>
    rcases hw : m.step.wanted? with _ | wanted
    · simp [opening?, List.takeWhile_cons, hw, apply_ite]
    · simp [opening?, not_closes_of_wanted? hw, hw]
  | cons a moments ih =>
    rw [List.cons_append, opening?_cons, opening?_cons, ih]
    cases ha : a.step.closes <;> cases hw : a.step.wanted?.isSome <;> simp [ha]

lemma asked_append (moments : List Moment) (m : Moment) :
    asked (moments ++ [m]) =
      (asked moments || (!(moments.any fun m => m.step.closes) && m.step.wanted?.isSome)) := by
  rw [asked, opening?_append, Option.isSome_or, asked]
  split <;> simp_all

lemma exists_opening (h : asked moments = true) : ∃ m, opening? moments = some m :=
  Option.isSome_iff_exists.mp h

lemma mem_of_opening? (h : opening? moments = some m) : m ∈ moments :=
  (List.takeWhile_sublist _).subset (List.mem_of_find?_eq_some h)

lemma closed_perform (env : Environment) (store : Store) (c : Cursor) (step : Step) :
    (c.perform env store step).1.closed = (c.closed || step.closes) := by
  rcases hw : step.wanted? with _ | wanted
  · cases hstep : step.closes
    · rw [(perform_of_idle hw hstep).1, Bool.or_false]
    · rw [perform_of_closes hstep, Bool.or_true]
      unfold close
      split <;> simp_all
  · rw [perform_of_wanted hw, not_closes_of_wanted? hw, Bool.or_false]
    unfold fetch
    split
    · rfl
    · split <;> rfl

lemma abandon_of_over {x : Execution} {status : Status} (h : x.status? = some status) :
    x.abandon env = x := by
  unfold abandon
  rcases hphase : x.phase with s | ⟨rest, left⟩ | rest | status' <;> simp_all [status?]

/-- Behind a closed cursor, and after the end of the run, no step does anything. -/
lemma perform_settled (env : Environment) (store : Store) (step : Step)
    (h : c.closed = true ∨ c.execution.status?.isSome = true) :
    (c.perform env store step).1.execution = c.execution ∧
      ∀ rows, (c.perform env store step).2 = .ok rows → rows = [] := by
  rcases hw : step.wanted? with _ | wanted
  · cases hstep : step.closes
    · exact ⟨by rw [(perform_of_idle hw hstep).1], (perform_of_idle hw hstep).2⟩
    · rw [perform_of_closes hstep]
      refine ⟨?_, fun rows h => by cases h; rfl⟩
      unfold close
      split
      · rfl
      · obtain ⟨status, hover⟩ := Option.isSome_iff_exists.mp (h.resolve_left (by assumption))
        exact abandon_of_over hover
  · have hfetch : c.fetch env store wanted = (c, .ok []) := by
      rcases h with h | h
      · exact fetch_of_closed h
      · obtain ⟨status, hover⟩ := Option.isSome_iff_exists.mp h
        exact fetch_of_over hover
    rw [perform_of_wanted hw, hfetch]
    exact ⟨rfl, fun rows h => by cases h; rfl⟩

/-- A step that asks for no row leaves a run that waits as it is. -/
lemma perform_of_waiting (hw : step.wanted? = none) (hx : c.execution.phase = .waiting source) :
    (c.perform env store step).1.execution = c.execution := by
  cases hstep : step.closes
  · rw [(perform_of_idle hw hstep).1]
  · rw [perform_of_closes hstep]
    unfold close
    split
    · rfl
    · simp only [abandon, hx]

lemma ends_abandon (env : Environment) {x : Execution} (hx : x.Running) :
    Concludes env x (x.abandon env) .abandoned [] := by
  have habandon : x.abandon env = x.finish env .abandoned [] := by
    rcases running_iff.mp hx with ⟨rest, left, h⟩ | ⟨rest, h⟩ <;> simp only [abandon, h]
  rw [habandon]
  exact ends_finish ..

/-- What a step does to an open cursor whose run has not ended: the run waits or goes on, or it ends
as the step and its reply say. -/
lemma perform_open (env : Environment) (store : Store) (step : Step) (hc : c.closed = false)
    (hx : c.execution.status? = none)
    (hsource : ∀ s, c.execution.phase = .waiting s → s = source) {started : Bool}
    (hstarted : started = true ↔ c.execution.Started) :
    SameAccount c.execution (c.perform env store step).1.execution ∧
        (c.perform env store step).1.execution.status? = none ∧
        (started = true ∨ step.wanted?.isSome = true →
          (c.perform env store step).1.execution.Started) ∧
        step.ending started (c.perform env store step).2 = none ∨
      ∃ status others,
        Concludes env c.execution (c.perform env store step).1.execution status others ∧
        OpenFault store source others ∧
        step.ending started (c.perform env store step).2 = some status := by
  rcases hw : step.wanted? with _ | wanted
  · cases hstep : step.closes
    · left
      rw [(perform_of_idle hw hstep).1]
      exact ⟨{}, hx, by simpa using hstarted.mp, by simp [Step.ending, hw, hstep]⟩
    · rcases stages c.execution with ⟨s, hs⟩ | hrun | ⟨status, hover⟩
      · left
        have hnot : started = false := by
          cases started
          · rfl
          · exact absurd hs (hstarted.mp rfl s)
        rw [perform_of_waiting hw hs]
        exact ⟨{}, hx, by simp [hnot], by simp [Step.ending, hw, hnot]⟩
      · right
        refine ⟨.abandoned, [], ?_, .inl rfl, ?_⟩
        · simp only [perform_of_closes hstep, close, hc, Bool.false_eq_true, if_false]
          exact ends_abandon env hrun
        · simp [Step.ending, hw, hstep, hstarted.mpr hrun.1]
      · simp [status?, hover] at hx
  · have hfetch := (fetches env store hc (wanted?_ne_zero hw) hx hsource).2
    rw [perform_of_wanted hw]
    generalize c.fetch env store wanted = fetched at hfetch
    obtain ⟨c', reply⟩ := fetched
    cases hfetch with
    | unopened h hothers =>
      exact .inr ⟨.failed, _, h, hothers, by simp [Step.ending, hw]⟩
    | served h =>
      cases h with
      | served h hy hwanted =>
        exact .inl ⟨h, hy.2, fun _ => hy.1, by simp [Step.ending, hw, hwanted]⟩
      | exhausted h hwanted =>
        exact .inr ⟨.completed, [], h, .inl rfl, by simp [Step.ending, hw, hwanted]⟩
      | failed h => exact .inr ⟨.failed, [], h, .inl rfl, by simp [Step.ending, hw]⟩

lemma started_of_over {x : Execution} {status : Status} (h : x.status? = some status) :
    x.Started := by
  intro s hs
  simp [status?, hs] at h

lemma not_running_abandon (env : Environment) (x : Execution) : ¬ (x.abandon env).Running := by
  rcases stages x with ⟨s, hs⟩ | hrun | ⟨status, hover⟩
  · intro h
    simp only [abandon, hs] at h
    exact h.1 s hs
  · exact fun h => by simpa [(ends_abandon env hrun).finished] using h.2
  · have hstatus : x.status? = some status := by simp [status?, hover]
    rw [abandon_of_over hstatus]
    exact fun h => by simpa [hstatus] using h.2

lemma draws_perform (hx : c.execution.Started) {ds : List Value} (h : c.execution.Draws ds)
    (env : Environment) (store : Store) (step : Step) :
    (c.perform env store step).1.execution.Draws ds := by
  rcases hw : step.wanted? with _ | wanted
  · cases hstep : step.closes
    · rwa [(perform_of_idle hw hstep).1]
    · rw [perform_of_closes hstep]
      unfold close
      split
      · exact h
      · exact draws_abandon h env
  · rw [perform_of_wanted hw]
    exact draws_fetch hx h

lemma after_append (moments : List Moment) (m : Moment) (c : Cursor) :
    after (moments ++ [m]) c = (m.perform (after moments c)).1 := by
  simp [after]

lemma replies_append (moments : List Moment) (m : Moment) (c : Cursor) :
    replies (moments ++ [m]) c = replies moments c ++ [(m.perform (after moments c)).2] := by
  induction moments generalizing c with
  | nil => rfl
  | cons m' moments ih => exact congrArg _ (ih (m'.perform c).1)

namespace Account

lemma started_iff (h : Account p source moments c) :
    asked moments = true ↔ c.execution.Started := by
  refine ⟨h.started, fun hx => ?_⟩
  cases hasked : asked moments
  · have hwaits := h.waits hasked
    exact absurd (by rw [hwaits]) (hx source)
  · rfl

lemma source_eq (h : Account p source moments c) (s : Source)
    (hs : c.execution.phase = .waiting s) : s = source := by
  cases hasked : asked moments
  · rw [h.waits hasked] at hs
    exact (Phase.waiting.inj hs).symm
  · exact absurd hs (h.started hasked s)

lemma ofPlan (p : Plan) (source : Source) : Account p source [] (.ofPlan p source) where
  plan := rfl
  closed := rfl
  waits _ := rfl
  started h := by simp [asked, opening?] at h
  intact _ := ⟨rfl, rfl⟩
  once _ h := by simp [Cursor.ofPlan, status?] at h
  released h := by simp [Cursor.ofPlan] at h
  pulled m h := by simp [opening?] at h

lemma asked_next (h : Account p source moments c) (m : Moment) :
    asked (moments ++ [m]) = true ↔
      asked moments = true ∨ c.closed = false ∧ m.step.wanted?.isSome = true := by
  rw [asked_append, ← h.closed]
  simp

/-- The run keeps its plan, ends at most once and closes its source when it ends. -/
lemma accounts_next (h : Account p source moments c) (m : Moment) :
    (m.perform c).1.execution.plan = p ∧
      ((m.perform c).1.execution.status? = none →
        (m.perform c).1.execution.closes = 0 ∧ (m.perform c).1.execution.records = []) ∧
      (∀ status, (m.perform c).1.execution.status? = some status →
        (m.perform c).1.execution.closes = 1) ∧
      (asked (moments ++ [m]) = true → (m.perform c).1.execution.Started) := by
  by_cases hset : c.closed = true ∨ c.execution.status?.isSome = true
  · have hsame : (m.perform c).1.execution = c.execution :=
      (perform_settled m.env m.store m.step hset).1
    rw [hsame, h.asked_next m]
    refine ⟨h.plan, h.intact, h.once, ?_⟩
    rintro (hold | ⟨hc, -⟩)
    · exact h.started hold
    · obtain ⟨status, hover⟩ := Option.isSome_iff_exists.mp (hset.resolve_left (by simp [hc]))
      exact started_of_over hover
  · obtain ⟨hc, hx⟩ : c.closed = false ∧ c.execution.status? = none := by simpa using hset
    rw [h.asked_next m]
    rcases perform_open m.env m.store m.step hc hx h.source_eq
      h.started_iff with ⟨hsame, hnone, hstarted, -⟩ | ⟨status, others, hends, -, -⟩
    · refine ⟨hsame.plan.trans h.plan, fun _ => ?_, fun status hover => ?_, fun hnew => ?_⟩
      · exact ⟨hsame.closes.trans (h.intact hx).1, hsame.records.trans (h.intact hx).2⟩
      · cases hnone.symm.trans hover
      · exact hstarted (hnew.imp_right And.right)
    · refine ⟨hends.plan.trans h.plan, fun hnone => ?_, fun _ _ => ?_, fun _ => ?_⟩
      · cases hends.finished.symm.trans hnone
      · rw [show (m.perform c).1.execution.closes = _ from hends.closes, (h.intact hx).1]
      · exact started_of_over hends.finished

lemma waits_next (h : Account p source moments c) (m : Moment)
    (hnew : asked (moments ++ [m]) = false) :
    (m.perform c).1.execution = { plan := p, phase := .waiting source } := by
  have hnot := h.asked_next m
  rw [hnew] at hnot
  simp only [Bool.false_eq_true, false_iff, not_or, not_and, Bool.not_eq_true,
    Option.isSome_eq_false_iff, Option.isNone_iff_eq_none] at hnot
  have hwaits := h.waits hnot.1
  rw [← hwaits]
  cases hc : c.closed
  · exact perform_of_waiting (hnot.2 hc) (congrArg phase hwaits)
  · exact (perform_settled m.env m.store m.step (.inl hc)).1

lemma released_next (h : Account p source moments c) (m : Moment)
    (hnew : (m.perform c).1.closed = true) : ¬ (m.perform c).1.execution.Running := by
  cases hc : c.closed
  · rw [show (m.perform c).1.closed = _ from closed_perform .., hc, Bool.false_or] at hnew
    rw [Moment.perform, perform_of_closes hnew]
    simp only [close, hc, Bool.false_eq_true, if_false]
    exact not_running_abandon m.env c.execution
  · rw [show (m.perform c).1.execution = c.execution from
      (perform_settled m.env m.store m.step (.inl hc)).1]
    exact h.released hc

lemma pulled_next (h : Account p source moments c) (m m' : Moment)
    (hopening : opening? (moments ++ [m]) = some m') :
    (m.perform c).1.execution.Draws (offered m'.store source) := by
  rw [opening?_append] at hopening
  rcases hold : opening? moments with _ | m''
  · -- the run starts now
    have hnot : asked moments = false := by rw [asked, hold]; rfl
    rw [hold, Option.none_or, ← h.closed] at hopening
    obtain ⟨⟨hc, hw⟩, rfl⟩ : (c.closed = false ∧ m.step.wanted?.isSome = true) ∧ m = m' := by
      simpa using hopening
    obtain ⟨wanted, hw⟩ := Option.isSome_iff_exists.mp hw
    have hwaits := h.waits hnot
    rw [Moment.perform, perform_of_wanted hw]
    exact draws_fetch_of_waiting m.env m.store hc (wanted?_ne_zero hw) (congrArg phase hwaits)
      (by rw [hwaits])
  · rw [hold, Option.some_or] at hopening
    cases hopening
    exact draws_perform (h.started (by rw [asked, hold]; rfl)) (h.pulled m' hold) m.env m.store
      m.step

/-- What is so of a cursor stays so with every step. -/
theorem next (h : Account p source moments c) (m : Moment) :
    Account p source (moments ++ [m]) (m.perform c).1 where
  plan := (h.accounts_next m).1
  closed := by
    rw [show (m.perform c).1.closed = _ from closed_perform .., h.closed]
    simp
  waits := h.waits_next m
  started := (h.accounts_next m).2.2.2
  intact := (h.accounts_next m).2.1
  once := (h.accounts_next m).2.2.1
  released := h.released_next m
  pulled := h.pulled_next m

/-- A cursor after any steps. -/
theorem after (p : Plan) (source : Source) (moments : List Moment) :
    Account p source moments (after moments (.ofPlan p source)) := by
  induction moments using List.reverseRecOn with
  | nil => exact .ofPlan p source
  | append_singleton moments m ih =>
    rw [Cursor.after, List.foldl_append]
    exact ih.next m

end Account

end Cursor

end NearDoc
