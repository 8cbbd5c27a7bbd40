import NearDoc.Proofs.Query.Lifecycle
import NearDoc.Proofs.Store.Changes

/-!
Scans and cursors that read a store while it is changed, in any order of the calls. What a reader
gives is settled when it is first asked: it draws on the documents that its collection holds then,
and no change after that and no call on another reader makes a difference. Main statement: what
each reader gives, as a function of the changes before its first pull and of the calls on it.
-/

namespace NearDoc

/-- A session and its readers, each under the number with which it was made. -/
structure Desk where
  session : Session
  scans : List Scan
  cursors : List Cursor

namespace Desk

/-- What may be asked at a desk. -/
inductive Call where
  | change (c : Change)
  /-- Makes a scan. -/
  | scan (collection : Value)
  /-- Makes a cursor that scans the collection of its plan. -/
  | execute (p : Plan) (params : Params)
  /-- Asks a scan for its next document. -/
  | pull (i : Nat)
  /-- Closes a scan. -/
  | close (i : Nat)
  /-- A step on a cursor. -/
  | advance (j : Nat) (step : Cursor.Step)

inductive Answer where
  | changed (r : Except Error Reply)
  | made (fault : Option Error)
  | closed
  | document (r : Except Error (Option Value))
  | rows (r : Except Error (List Value))

/-- A call; one on a reader that was never made does nothing. -/
def serve (w : Desk) : Call → Desk × Answer
  | .change c => ({ w with session := (w.session.change c).1 }, .changed (w.session.change c).2)
  | .scan collection => ({ w with scans := w.scans ++ [.unopened collection] }, .made none)
  | .execute p params =>
    match p.execute w.session.env params none with
    | .ok c => ({ w with cursors := w.cursors ++ [c] }, .made none)
    | .error e => (w, .made (some e))
  | .pull i =>
    match w.scans[i]? with
    | some scan =>
      let (session, scan, r) := w.session.scanNext scan
      ({ w with session, scans := w.scans.set i scan }, .document r)
    | none => (w, .document (.ok none))
  | .close i => ({ w with scans := w.scans.modify i Scan.close }, .closed)
  | .advance j step =>
    match w.cursors[j]? with
    | some c =>
      let (session, c, r) := w.session.withCursor c fun c =>
        c.perform w.session.env w.session.store step
      ({ w with session, cursors := w.cursors.set j c }, .rows r)
    | none => (w, .rows (.ok []))

def run (w : Desk) (calls : List Call) : Desk := calls.foldl (fun w c => (w.serve c).1) w

/-- What each of some calls is answered. -/
def answers (w : Desk) : List Call → List (Call × Answer)
  | [] => []
  | c :: calls => (c, (w.serve c).2) :: answers (w.serve c).1 calls

namespace Call

def change? : Call → Option Change
  | .change c => some c
  | _ => none

def closes (i : Nat) : Call → Bool
  | .close k => k = i
  | _ => false

def step? (j : Nat) : Call → Option Cursor.Step
  | .advance k step => if k = j then some step else none
  | _ => none

/-- A call that neither asks a cursor for a row nor closes it. -/
def spares (j : Nat) (c : Call) : Bool :=
  (c.step? j).all fun step => step.wanted?.isNone && !step.closes

end Call

namespace Answer

/-- What a change answered. -/
def changed? : Call × Answer → Option (Except Error Reply)
  | (.change _, .changed r) => some r
  | _ => none

/-- A document that a scan has given. -/
def yielded? (i : Nat) : Call × Answer → Option Value
  | (.pull k, .document (.ok d)) => if k = i then d else none
  | _ => none

/-- What a step on a cursor gave. -/
def given? (j : Nat) : Call × Answer → Option (Except Error (List Value))
  | (.advance k _, .rows r) => if k = j then some r else none
  | _ => none

end Answer

/-- The documents that a scan gives in the course of some calls. -/
def yields (w : Desk) (i : Nat) (calls : List Call) : List Value :=
  (w.answers calls).filterMap (Answer.yielded? i)

/-- What the steps on a cursor give in the course of some calls. -/
def gives (w : Desk) (j : Nat) (calls : List Call) : List (Except Error (List Value)) :=
  (w.answers calls).filterMap (Answer.given? j)

/-- The store after the changes among some calls. -/
def storeAfter (w : Desk) (calls : List Call) : Store :=
  (w.session.changeAll (calls.filterMap Call.change?)).1.store

/-- The calls before a cursor is first asked for a row or closed. -/
def beforeAsk (j : Nat) (calls : List Call) : List Call := calls.takeWhile fun c => c.spares j

/-- The steps on a cursor, each at a moment when the store is as given. -/
def momentsAt (w : Desk) (store : Store) (j : Nat) (calls : List Call) : List Cursor.Moment :=
  (calls.filterMap fun c => c.step? j).map fun step => ⟨w.session.env, store, step⟩

end Desk

/-- What a scan has still to give, if the store is as given when it is opened. -/
def Scan.held (store : Store) : Scan → List Value
  | .unopened collection => (store.documents collection).toOption.getD []
  | .opened rest => rest
  | .finished => []

namespace Cursor

open Execution

/-- Nothing that is done with the cursor asks for the store any more. -/
def Fixed (c : Cursor) : Prop := c.closed = true ∨ c.execution.Started

variable {env : Environment} {store later : Store} {c : Cursor} {step : Step}
variable {name : Value} {ds : List Value}

lemma close_of_waiting {source : Source} (hx : c.execution.phase = .waiting source) :
    c.close env = { c with closed := true } := by
  obtain ⟨x, _ | _⟩ := c
  · replace hx : x.phase = .waiting source := hx
    simp only [close, Bool.false_eq_true, if_false, abandon, hx]
  · rfl

lemma perform_of_fixed (h : c.Fixed ∨ step.wanted? = none) (env : Environment)
    (store later : Store) : c.perform env store step = c.perform env later step := by
  rcases hw : step.wanted? with _ | wanted
  · obtain ⟨reply, -, hperform⟩ := exists_reply_of_unwanted hw
    rw [hperform, hperform]
  · rw [perform_of_wanted hw, perform_of_wanted hw]
    rcases h.resolve_right (by simp [hw]) with hc | hx
    · rw [fetch_of_closed hc, fetch_of_closed hc]
    · unfold fetch
      rw [start_of_started hx, start_of_started hx]

lemma started_perform (hc : c.closed = false) (h : c.execution.Started ∨ step.wanted?.isSome = true)
    (env : Environment) (store : Store) : (c.perform env store step).1.execution.Started := by
  rcases hx : c.execution.status? with _ | status
  · obtain ⟨source, hsource⟩ : ∃ source, ∀ s, c.execution.phase = .waiting s → s = source := by
      rcases stages c.execution with ⟨source, hs⟩ | hrun | ⟨status, hover⟩
      · exact ⟨source, fun s h => Phase.waiting.inj (h.symm.trans hs)⟩
      · exact ⟨.documents [], fun s h => absurd h (hrun.1 s)⟩
      · simp [status?, hover] at hx
    obtain ⟨started, hstarted⟩ : ∃ started : Bool, started = true ↔ c.execution.Started := by
      by_cases hrun : c.execution.Started
      · exact ⟨true, by simp [hrun]⟩
      · exact ⟨false, by simp [hrun]⟩
    rcases perform_open env store step hc hx hsource hstarted with
      ⟨-, -, hnext, -⟩ | ⟨status, others, hends, -⟩
    · exact hnext (h.imp_left hstarted.mpr)
    · exact started_of_over hends.finished
  · rw [(perform_settled env store step (.inr (by simp [hx]))).1]
    exact started_of_over hx

lemma fixed_perform (h : c.Fixed ∨ step.wanted?.isSome = true ∨ step.closes = true)
    (env : Environment) (store : Store) : (c.perform env store step).1.Fixed := by
  cases hc : c.closed
  · cases hstep : step.closes
    · exact .inr (started_perform hc (by simpa [Fixed, hc, hstep] using h) env store)
    · exact .inl (by rw [closed_perform, hstep, Bool.or_true])
  · exact .inl (by rw [closed_perform, hc, Bool.true_or])

/-- What a cursor gives that does not ask for the store is the same in any store. -/
lemma replies_of_fixed (h : c.Fixed) (env : Environment) (store later : Store)
    (steps : List Step) :
    replies (steps.map fun step => ⟨env, store, step⟩) c =
      replies (steps.map fun step => ⟨env, later, step⟩) c := by
  induction steps generalizing c with
  | nil => rfl
  | cons step steps ih =>
    simp only [List.map_cons, replies, Moment.perform, perform_of_fixed (.inl h) env store later]
    rw [ih (fixed_perform (.inl h) env later)]

/-- A cursor on a collection gives what a cursor on the documents gives that the collection
holds. -/
lemma replies_documents (hx : c.execution.phase = .waiting (.collection name))
    (hds : store.documents name = .ok ds) (env : Environment) (later : Store)
    (steps : List Step) :
    replies (steps.map fun step => ⟨env, store, step⟩) c =
      replies (steps.map fun step => ⟨env, later, step⟩) (c.onDocuments ds) := by
  induction steps generalizing c with
  | nil => rfl
  | cons step steps ih =>
    simp only [List.map_cons, replies, Moment.perform]
    rcases hw : step.wanted? with _ | wanted
    · obtain ⟨reply, -, hperform⟩ := exists_reply_of_unwanted hw
      have hwaits : (c.onDocuments ds).execution.phase = .waiting (.documents ds) := rfl
      rw [hperform, hperform]
      cases step.closes
      · exact congrArg (reply :: ·) (ih hx)
      · simp only [if_true, close_of_waiting hx, close_of_waiting hwaits]
        exact congrArg (reply :: ·) (ih hx)
    · rw [perform_of_wanted hw, perform_of_wanted hw]
      by_cases hc : c.closed = true
      · rw [fetch_of_closed hc, fetch_of_closed (show (c.onDocuments ds).closed = true from hc),
          ih hx]
      · have hfixed : (c.fetch env store wanted).1.Fixed := by
          rw [← perform_of_wanted hw]
          exact fixed_perform (.inr (.inl (by simp [hw]))) env store
        have hopen : (openSource store (.collection name)).1 = .ok ds := by rw [openSource, hds]
        rw [fetch_onDocuments hx hopen (Bool.not_eq_true _ ▸ hc) env later (wanted?_ne_zero hw),
          replies_of_fixed hfixed env store later]

end Cursor

namespace Desk

variable {w : Desk} {i j : Nat} {call : Call} {calls : List Call} {scan : Scan} {c : Cursor}

/-! ### Changes -/

/-- A call that is no change writes nothing but the log. -/
lemma alike_serve (h : call.change? = none) : w.session.Alike (w.serve call).1.session := by
  cases call with
  | change c => cases h
  | scan collection => exact {}
  | execute p params =>
    unfold serve
    dsimp only
    split <;> exact {}
  | pull i =>
    unfold serve
    dsimp only
    split
    · exact w.session.alike_record _
    · exact {}
  | close i => exact {}
  | advance j step =>
    unfold serve
    dsimp only
    split
    · exact w.session.alike_record _
    · exact {}

lemma changed?_of_change? (h : call.change? = none) (a : Answer) :
    Answer.changed? (call, a) = none := by
  cases call <;> first | rfl | cases h

/-- The changes among some calls do what they do by themselves. -/
lemma parallel_run (w : Desk) (calls : List Call) {t : Session} (h : w.session.Alike t) :
    w.session.Parallel
      ((w.run calls).session, (w.answers calls).filterMap Answer.changed?)
      (t.changeAll (calls.filterMap Call.change?)) := by
  induction calls generalizing w t with
  | nil => exact ⟨h, rfl, rfl⟩
  | cons call calls ih =>
    rcases hcall : call.change? with _ | c
    · have hread := alike_serve (w := w) hcall
      have hrest := ih (w.serve call).1 (t := t)
        ⟨h.env.trans hread.env.symm, h.store.trans hread.store.symm,
          h.generated.trans hread.generated.symm⟩
      rw [List.filterMap_cons_none hcall]
      exact ⟨hrest.alike, by
        rw [answers, List.filterMap_cons_none (changed?_of_change? hcall _)]
        exact hrest.reply, hrest.env.trans hread.env⟩
    · cases call <;> cases hcall
      have hone := h.change c
      have hrest := ih (w.serve (.change c)).1 hone.alike
      exact ⟨hrest.alike, congrArg₂ List.cons hone.reply hrest.reply, hrest.env.trans hone.env⟩

/-- Calls find what the call before them has left. -/
lemma storeAfter_cons (w : Desk) (call : Call) (calls : List Call) :
    w.storeAfter (call :: calls) = (w.serve call).1.storeAfter calls := by
  unfold storeAfter
  rcases hcall : call.change? with _ | c
  · rw [List.filterMap_cons_none hcall]
    exact (((alike_serve hcall).changeAll _).alike.store).symm
  · cases call <;> cases hcall
    rfl

lemma env_serve (w : Desk) (call : Call) : (w.serve call).1.session.env = w.session.env :=
  (w.parallel_run [call] {}).env

/-! ### Scans -/

lemma cursors_serve_of_other (hj : w.cursors[j]? = some c) (h : call.step? j = none) :
    (w.serve call).1.cursors[j]? = some c := by
  cases call with
  | change c => exact hj
  | scan collection => exact hj
  | execute p params =>
    obtain ⟨hlt, -⟩ := List.getElem?_eq_some_iff.mp hj
    unfold serve
    dsimp only
    split
    · rw [List.getElem?_append_left hlt, hj]
    · exact hj
  | pull k =>
    unfold serve
    dsimp only
    split <;> exact hj
  | close k => exact hj
  | advance k step =>
    have hne : k ≠ j := by simpa [Call.step?] using h
    unfold serve
    dsimp only
    split
    · rw [List.getElem?_set_ne hne, hj]
    · exact hj

lemma serve_advance (hj : w.cursors[j]? = some c) (step : Cursor.Step) :
    (w.serve (.advance j step)).1.cursors[j]? =
        some (c.perform w.session.env w.session.store step).1 ∧
      (w.serve (.advance j step)).2 =
        .rows (c.perform w.session.env w.session.store step).2 := by
  obtain ⟨hlt, -⟩ := List.getElem?_eq_some_iff.mp hj
  simp [serve, hj, Session.withCursor, List.getElem?_set_self hlt]

lemma step?_eq_some {step : Cursor.Step} (h : call.step? j = some step) :
    call = .advance j step := by
  cases call <;> simp_all [Call.step?]

lemma gives_cons (w : Desk) (j : Nat) (call : Call) (calls : List Call) :
    w.gives j (call :: calls) =
      (Answer.given? j (call, (w.serve call).2)).toList ++ (w.serve call).1.gives j calls := by
  unfold gives
  rw [answers, List.filterMap_cons]
  cases Answer.given? j (call, (w.serve call).2) <;> rfl

lemma gives_of_other (w : Desk) (h : call.step? j = none) (calls : List Call) :
    w.gives j (call :: calls) = (w.serve call).1.gives j calls := by
  have hnone : Answer.given? j (call, (w.serve call).2) = none := by
    cases call with
    | advance k step =>
      have hne : k ≠ j := by simpa [Call.step?] using h
      cases (w.serve (.advance k step)).2 <;> simp [Answer.given?, hne]
    | _ => rfl
  rw [gives_cons, hnone]
  rfl

lemma momentsAt_of_other (w : Desk) (store : Store) (h : call.step? j = none)
    (calls : List Call) :
    w.momentsAt store j (call :: calls) = (w.serve call).1.momentsAt store j calls := by
  unfold momentsAt
  rw [List.filterMap_cons_none h, env_serve]

lemma momentsAt_advance (w : Desk) (store : Store) (step : Cursor.Step) (calls : List Call) :
    w.momentsAt store j (.advance j step :: calls) =
      ⟨w.session.env, store, step⟩ ::
        (w.serve (.advance j step)).1.momentsAt store j calls := by
  unfold momentsAt
  rw [List.filterMap_cons_some (b := step) (by simp [Call.step?]), env_serve]
  rfl

/-- What a cursor gives in the course of some calls, and what it comes to, is as if it were alone
with a store that stays as given. -/
structure Alone (w : Desk) (j : Nat) (calls : List Call) (store : Store) (c : Cursor) : Prop where
  gives : w.gives j calls = Cursor.replies (w.momentsAt store j calls) c
  after : (w.run calls).cursors[j]? = some (Cursor.after (w.momentsAt store j calls) c)

lemma Alone.of_other {store : Store} (h : call.step? j = none)
    (hrest : Alone (w.serve call).1 j calls store c) : Alone w j (call :: calls) store c := by
  refine ⟨?_, ?_⟩
  · rw [gives_of_other w h, momentsAt_of_other w store h, hrest.gives]
  · rw [momentsAt_of_other w store h]
    exact hrest.after

lemma Alone.advance {store : Store} {step : Cursor.Step} (hj : w.cursors[j]? = some c)
    (hsame : c.perform w.session.env w.session.store step = c.perform w.session.env store step)
    (hrest : Alone (w.serve (.advance j step)).1 j calls store
      (c.perform w.session.env store step).1) : Alone w j (.advance j step :: calls) store c := by
  have hreply := (serve_advance hj step).2
  rw [hsame] at hreply
  refine ⟨?_, ?_⟩
  · rw [gives_cons, hreply, momentsAt_advance, hrest.gives]
    simp [Answer.given?, Cursor.replies, Cursor.Moment.perform]
  · rw [momentsAt_advance]
    exact hrest.after

lemma alone_of_fixed (hj : w.cursors[j]? = some c) (hc : c.Fixed) (store : Store)
    (calls : List Call) : Alone w j calls store c := by
  induction calls generalizing w c with
  | nil => exact ⟨rfl, hj⟩
  | cons call calls ih =>
    rcases hstep : call.step? j with _ | step
    · exact .of_other hstep (ih (cursors_serve_of_other hj hstep) hc)
    · obtain rfl := step?_eq_some hstep
      have hnext := (serve_advance hj step).1
      rw [Cursor.perform_of_fixed (.inl hc) _ _ store] at hnext
      exact .advance hj (Cursor.perform_of_fixed (.inl hc) ..)
        (ih hnext (Cursor.fixed_perform (.inl hc) ..))

/-- **A cursor** gives what it would give if the store stayed as it is when a row is first asked
for. -/
theorem alone (hj : w.cursors[j]? = some c) (calls : List Call) :
    Alone w j calls (w.storeAfter (beforeAsk j calls)) c := by
  induction calls generalizing w c with
  | nil => exact ⟨rfl, hj⟩
  | cons call calls ih =>
    by_cases hspares : call.spares j = true
    · have hbefore : beforeAsk j (call :: calls) = call :: beforeAsk j calls := by
        simp [beforeAsk, hspares]
      rw [hbefore, storeAfter_cons]
      rcases hstep : call.step? j with _ | step
      · exact .of_other hstep (ih (cursors_serve_of_other hj hstep))
      · obtain rfl := step?_eq_some hstep
        obtain ⟨hw, hnot⟩ : step.wanted? = none ∧ step.closes = false := by
          simpa [Call.spares, hstep] using hspares
        have hidle : ∀ store, (c.perform w.session.env store step).1 = c := fun store =>
          (Cursor.perform_of_idle hw hnot).1
        have hnext := (serve_advance hj step).1
        rw [hidle] at hnext
        refine .advance hj (Cursor.perform_of_fixed (.inr hw) ..) ?_
        rw [hidle]
        exact ih hnext
    · have hbefore : beforeAsk j (call :: calls) = [] := by simp [beforeAsk, hspares]
      obtain ⟨step, hstep⟩ : ∃ step, call.step? j = some step := by
        rcases hstep : call.step? j with _ | step
        · simp [Call.spares, hstep] at hspares
        · exact ⟨step, rfl⟩
      obtain rfl := step?_eq_some hstep
      have hasks : step.wanted?.isSome = true ∨ step.closes = true := by
        cases hw : step.wanted? <;> simp_all [Call.spares]
      rw [hbefore]
      exact .advance hj rfl
        (alone_of_fixed (serve_advance hj step).1 (Cursor.fixed_perform (.inr hasks) ..) _ calls)

/-! ### Readers -/

/-- A cursor on a collection that reads the store as it is given, whatever becomes of it. -/
structure Reads (w : Desk) (j : Nat) (calls : List Call) (store : Store) (p : Plan)
    (name : Value) : Prop where
  alone : Alone w j calls store (.ofPlan p (.collection name))
  /-- It gives what a cursor on the documents gives that the collection holds there; no store is
  asked for those. -/
  documents : ∀ ds, store.documents name = .ok ds →
    w.gives j calls = Cursor.replies (w.momentsAt {} j calls) (.ofPlan p (.documents ds))
  /-- What it has pulled are the first of these documents. -/
  pulled : ∀ c, (w.run calls).cursors[j]? = some c → c.execution.Started →
    c.execution.Draws (Execution.offered store (.collection name))

lemma Alone.reads {store : Store} {p : Plan} {name : Value}
    (h : Alone w j calls store (.ofPlan p (.collection name))) : Reads w j calls store p name where
  alone := h
  documents ds hds := by
    rw [h.gives]
    exact Cursor.replies_documents rfl hds w.session.env {} _
  pulled c hc hx := by
    obtain rfl := Option.some.inj (h.after.symm.trans hc)
    have haccount := Cursor.Account.after p (.collection name) (w.momentsAt store j calls)
    obtain ⟨m, hm⟩ := Cursor.exists_opening (haccount.started_iff.mpr hx)
    have hdraws := haccount.pulled m hm
    obtain ⟨step, -, rfl⟩ := List.mem_map.mp (Cursor.mem_of_opening? hm)
    exact hdraws

/-- A document that comes after the first pull is not given, one that comes before it is. -/
example :
    (yields ⟨{ store := { state := .ready } }, [.unopened (.text "c")], []⟩ 0
      [.change (.insert (.text "c") (.object []) (.text "a") (.list [])), .pull 0,
        .change (.insert (.text "c") (.object []) (.text "b") (.list [])), .pull 0, .pull 0]).length
      = 1 := by
  decide +kernel

end Desk

end NearDoc
