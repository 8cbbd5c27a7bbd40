import NearDoc.Proofs.Outcome
import NearDoc.Proofs.Query.Rows

/-!
The documents that a run pulls. Main statement: what a run counts as scanned are the documents it
has taken from the front of its source, and each way of going on keeps it so.
-/

namespace NearDoc

namespace Execution

variable {env : Environment} {store : Store} {source : Source} {x : Execution} {ds : List Value}

/-- The documents that a source has for a run that starts now; none if it cannot be opened. -/
def offered (store : Store) (source : Source) : List Value :=
  (openSource store source).1.toOption.getD []

/-- A run has pulled as many of some documents as it counts: a scan has the others still before it,
and rows in their final order come of all of them. -/
structure Draws (ds : List Value) (x : Execution) : Prop where
  scanned_le : x.scanned ≤ ds.length
  streaming : ∀ rest left, x.phase = .streaming rest left → rest = ds.drop x.scanned
  delivering : ∀ rest, x.phase = .delivering rest →
    x.scanned = ds.length ∨ x.scanned = 0 ∧ rest = []

lemma draws_finish (env : Environment) (h : x.scanned ≤ ds.length) (status : Status)
    (details : Fields) : (x.finish env status details).Draws ds :=
  ⟨h, nofun, nofun⟩

lemma draws_emit (h : x.Draws ds) (env : Environment) (d : Value) : (emit env d x).1.Draws ds := by
  unfold emit fail
  dsimp only
  split
  · exact ⟨h.scanned_le, h.streaming, h.delivering⟩
  · exact draws_finish env (x := { x with emitted := x.emitted + 1 }) h.scanned_le ..

lemma pullAdmitted_pulled (env : Environment) (p : Plan) (ds : List Value) :
    (pullAdmitted env p ds).pulled ≤ ds.length ∧
      ∀ d rest, (pullAdmitted env p ds).outcome = .ok (some (d, rest)) →
        rest = ds.drop (pullAdmitted env p ds).pulled := by
  induction ds with
  | nil => simp [pullAdmitted]
  | cons a ds ih =>
    obtain ⟨hle, hrest⟩ := ih
    simp only [pullAdmitted]
    split
    · simp
    · refine ⟨by simp, fun d rest h => ?_⟩
      cases h
      rfl
    · exact ⟨by simpa using hle, fun d rest h => by simpa using hrest d rest h⟩

lemma draws_advance (h : x.Draws ds) (env : Environment) : (x.advance env).1.Draws ds := by
  rcases hphase : x.phase with source | ⟨rest, left⟩ | rest | status
  · simpa only [advance, hphase] using h
  · by_cases hleft : left = some 0
    · simpa only [advance, hphase, hleft] using draws_finish env h.scanned_le ..
    · obtain ⟨hle, hrest⟩ := pullAdmitted_pulled env x.plan rest
      have hstream : rest = ds.drop x.scanned := h.streaming rest left hphase
      have hscanned : x.scanned + (pullAdmitted env x.plan rest).pulled ≤ ds.length := by
        have hlen := congrArg List.length hstream
        have hall := h.scanned_le
        rw [List.length_drop] at hlen
        omega
      rw [advance_streaming env hphase hleft]
      rcases hpull : (pullAdmitted env x.plan rest).outcome with e | _ | ⟨d, rest'⟩
      · exact draws_finish env hscanned ..
      · exact draws_finish env hscanned ..
      · refine draws_emit ⟨hscanned, ?_, by rintro _ ⟨⟩⟩ env d
        rintro _ _ ⟨⟩
        rw [hrest d rest' hpull, ← List.drop_drop, ← hstream]
  · cases rest with
    | nil => simpa only [advance, hphase] using draws_finish env h.scanned_le ..
    | cons d rest =>
      simp only [advance, hphase]
      have hall : x.scanned = ds.length :=
        (h.delivering _ hphase).resolve_right fun hnone => List.cons_ne_nil _ _ hnone.2
      exact draws_emit (x := { x with phase := .delivering rest })
        ⟨h.scanned_le, by rintro _ _ ⟨⟩, fun _ _ => .inl hall⟩ env d
  · simpa only [advance, hphase] using h

lemma draws_collect (h : x.Draws ds) (env : Environment) (fuel : Nat) (wanted : Option Nat) :
    (collect env fuel wanted x).1.Draws ds := by
  induction fuel generalizing x wanted with
  | zero => exact h
  | succ fuel ih =>
    by_cases hwanted : wanted = some 0
    · subst hwanted
      exact h
    · have hadv := draws_advance h env
      rw [collect_succ env fuel x hwanted]
      generalize x.advance env = a at hadv
      obtain ⟨x', _ | _ | r⟩ := a
      · exact hadv
      · exact hadv
      · have hrest := ih hadv (wanted.map (· - 1))
        dsimp only
        generalize collect env fuel (wanted.map (· - 1)) x' = b at hrest
        obtain ⟨x'', _ | rs⟩ := b <;> exact hrest

/-- A pass pulls no more than so many documents, and all of them if it succeeds. -/
def PullsUpTo (n : Nat) {α : Type} (pass : Pass (Except Error α)) : Prop :=
  pass.pulled ≤ n ∧ ∀ a, pass.outcome = .ok a → pass.pulled = n

lemma pullKeyed_pulled (env : Environment) (p : Plan) (ds : List Value) :
    PullsUpTo ds.length (pullKeyed env p ds) := by
  induction ds with
  | nil => exact ⟨Nat.le_refl _, fun _ _ => rfl⟩
  | cons a ds ih =>
    simp only [pullKeyed]
    split
    · exact ⟨by simp, nofun⟩
    · refine ⟨by simpa using ih.1, fun l h => ?_⟩
      obtain ⟨l', hl', -⟩ := map_eq_ok.mp h
      simpa using ih.2 l' hl'

lemma offerAll_pulled {α : Type} (key : α → Except Error Value) (s : Selector α) (items : List α) :
    PullsUpTo items.length (s.offerAll key items) := by
  induction items generalizing s with
  | nil => exact ⟨Nat.le_refl _, fun _ _ => rfl⟩
  | cons a items ih =>
    simp only [Selector.offerAll]
    split
    · exact ⟨by simp, nofun⟩
    · exact ⟨by simpa using (ih s).1, fun t h => by simpa using (ih s).2 t h⟩
    · split
      · exact ⟨by simp, nofun⟩
      · rename_i s' _ _
        exact ⟨by simpa using (ih s').1, fun t h => by simpa using (ih s').2 t h⟩

lemma sorted_pulled (env : Environment) (p : Plan) (ds : List Value) :
    PullsUpTo ds.length (cut p.limit (sorted env p ds)) := by
  obtain ⟨hle, hall⟩ := pullKeyed_pulled env p ds
  refine ⟨hle, fun rows h => ?_⟩
  obtain ⟨l, hl, -⟩ := bind_eq_ok.mp h
  obtain ⟨entries, hentries, -⟩ := bind_eq_ok.mp hl
  exact hall entries hentries

/-- A pass that pulls nothing answers no rows. -/
def PullsNone (pass : Pass (Except Error (List Value))) : Prop :=
  pass.pulled = 0 ∧ ∀ rows, pass.outcome = .ok rows → rows = []

/-- Nothing is pulled when there is no room for a row. -/
lemma smallest_pulled (env : Environment) (p : Plan) (key : Expr) (ds : List Value) :
    PullsUpTo ds.length (smallest env p key ds) ∨ PullsNone (smallest env p key ds) := by
  unfold smallest Selector.selectCount
  rcases Room.ofValue p.limit with e | room
  · exact .inr ⟨rfl, nofun⟩
  · unfold Selector.select
    dsimp only
    split
    · exact .inr ⟨rfl, by rintro _ ⟨⟩; rfl⟩
    · obtain ⟨hle, hall⟩ := offerAll_pulled (soleKey env p key) (.empty room) ds
      refine .inl ⟨hle, fun rows h => ?_⟩
      dsimp only at h ⊢
      split at h
      · rename_i hranked
        obtain ⟨s, hs, -⟩ := bind_eq_ok.mp hranked
        exact hall s hs
      · cases h

lemma draws_deliver {pass : Pass (Except Error (List Value))} (hx : x.scanned = 0)
    (h : PullsUpTo ds.length pass ∨ PullsNone pass) : (x.deliver env pass).1.Draws ds := by
  have hle : pass.pulled ≤ ds.length := by
    rcases h with h | h
    · exact h.1
    · exact h.1 ▸ Nat.zero_le _
  unfold deliver
  dsimp only
  split
  · exact draws_finish env (by simpa [hx] using hle) ..
  · rename_i rows hrows
    refine ⟨by simpa [hx] using hle, nofun, ?_⟩
    rintro _ ⟨⟩
    refine h.imp (fun h => ?_) fun h => ⟨?_, h.2 rows hrows⟩
    · simpa [hx] using h.2 rows hrows
    · simpa [hx] using h.1

lemma draws_startOn {go : List Value → Execution → Execution × Option Error}
    (hx : x.scanned = 0) (hgo : ∀ ds, (go ds x).1.Draws ds) :
    (x.startOn env store source go).1.Draws (offered store source) := by
  unfold startOn offered
  rcases openSource store source with ⟨e | ds, records⟩
  · exact draws_finish env (by simp [hx]) ..
  · exact hgo ds

lemma draws_start (hx : x.phase = .waiting source) (h0 : x.scanned = 0) (env : Environment)
    (store : Store) : (x.start env store).1.Draws (offered store source) := by
  unfold start
  rw [hx]
  dsimp only
  rcases x.plan.strategy with e | s
  · exact draws_finish env (by simp [h0]) ..
  · cases s with
    | empty =>
      refine ⟨by simp [startAs, h0], by rintro _ _ ⟨⟩, ?_⟩
      rintro _ ⟨⟩
      exact .inr ⟨h0, rfl⟩
    | stream =>
      simp only [startAs]
      split
      · exact draws_finish env (by simp [h0]) ..
      · refine draws_startOn h0 fun ds => ⟨by simp [h0], ?_, by rintro _ ⟨⟩⟩
        rintro _ _ ⟨⟩
        simp [h0]
    | topK => exact draws_startOn h0 fun ds => draws_deliver h0 (smallest_pulled ..)
    | sort => exact draws_startOn h0 fun ds => draws_deliver h0 (.inl (sorted_pulled ..))

lemma draws_abandon (h : x.Draws ds) (env : Environment) : (x.abandon env).Draws ds := by
  unfold abandon
  split
  · exact h
  · exact h
  · exact draws_finish env h.scanned_le ..

end Execution

end NearDoc
