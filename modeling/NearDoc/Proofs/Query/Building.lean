import NearDoc.Proofs.Expr.Connective
import NearDoc.Proofs.Expr.Parts
import NearDoc.Proofs.Query.Assignments
import NearDoc.Proofs.Validation.Near

/-!
What a builder comes to, told by the calls that have succeeded. Asking for the nearest documents
needs a builder without order and limit and settles both for good; conditions are joined in the
order of the calls. Main statement: so it is after any calls, failed ones among them.
-/

namespace NearDoc

/-- The distance call of some arguments: of the operator registered for as many, on the field, on
the embedding that the target is cast to, and on the metric if one is named. -/
inductive NearArguments.Measured (ops : Operators) (a : NearArguments) : Expr → Prop where
  | unnamed {field : String} {target : Embedding} {op : Operator}
      (hfield : Check.path a.field = .ok field) (htarget : Embedding.ofValue a.target = .ok target)
      (hmetric : a.metric = .null) (hop : ops.resolve distanceName (.int 2) = .ok op) :
      Measured ops a (.call op [.field field, .literal (.embedding target)] none)
  | named {field metric : String} {target : Embedding} {op : Operator}
      (hfield : Check.path a.field = .ok field) (htarget : Embedding.ofValue a.target = .ok target)
      (hmetric : Check.text a.metric = .ok metric)
      (hop : ops.resolve distanceName (.int 3) = .ok op) :
      Measured ops a
        (.call op [.field field, .literal (.embedding target), .literal (.text metric)] none)

namespace BuilderCall

/-- The condition that a call asks for. -/
inductive Asks (ops : Operators) : BuilderCall → Expr → Prop where
  | filter {condition : Clause} {e : Expr} (h : condition.resolve ops = .ok e) :
      Asks ops (.filter condition) e
  | within {a : NearArguments} {distance : Expr} {most : Binary64} (h : a.Measured ops distance)
      (hmost : Check.threshold a.bound = .ok most) :
      Asks ops (.within a) (.compare (.order .le) distance (.literal (.real most)))

def isCondition : BuilderCall → Bool
  | .filter _ | .within _ => true
  | _ => false

/-- A call on the order or the limit. -/
def isOrdering : BuilderCall → Bool
  | .nearest _ | .orderBy .. | .limit _ => true
  | _ => false

end BuilderCall

namespace Builder

/-- What a call makes of a builder when it succeeds. -/
inductive Effect (b : Builder) : BuilderCall → Builder → Prop where
  | condition {c : BuilderCall} {e : Expr} (h : c.Asks b.operators e) :
      Effect b c { b with conditions := b.conditions ++ [e] }
  | nearest {a : NearArguments} {key : Expr} {k : Int} (horder : b.order = [])
      (hlimit : b.limit = none) (hkey : a.Measured b.operators key)
      (hcount : Check.count a.bound = .ok k) :
      Effect b (.nearest a) { b with order := [{ expr := key }], limit := some k, nearest := true }
  | orderBy {key : Clause} {descending : Value} (e : Expr) (hfree : b.nearest = false) :
      Effect b (.orderBy key descending) { b with order := b.order ++ [⟨e, descending⟩] }
  | limit {n : Value} (i : Int) (hfree : b.nearest = false) :
      Effect b (.limit n) { b with limit := some i }
  | select {fields : List Value} {computed : List (String × Clause)} (columns : List Column) :
      Effect b (.select fields computed) { b with columns := some columns }

variable {env : Environment} {b after : Builder} {a : NearArguments} {c : BuilderCall}

lemma measured_of_distance {β : Type} {ms : Metrics} {boundName : String}
    {check : Value → Except Issue.Fault β} {spec : NearSpec β} {e : Expr}
    (hspec : NearSpec.check ms boundName check a = .ok spec) (h : b.distance spec = .ok e) :
    a.Measured b.operators e ∧ check a.bound = .ok spec.bound := by
  obtain ⟨hfield, htarget, hbound, hmetric⟩ := NearSpec.of_check_eq_ok hspec
  obtain ⟨parts, hparts⟩ := Check.segments_of_path hfield
  have hpath : Expr.field? (.text spec.field) = .ok (.field spec.field) := by
    rw [Expr.field?, hparts]
    rfl
  refine ⟨?_, hbound⟩
  simp only [distance, Operators.distanceCall, hpath, bind, Except.bind, Embedding.ofValue] at h
  obtain ⟨op, hop, rfl⟩ := map_eq_ok.mp h
  obtain ⟨hnull, hm⟩ | ⟨s, htext, hm⟩ := Check.of_metric_eq_ok hmetric
  · rw [hm] at hop ⊢
    exact .unnamed hfield htarget hnull hop
  · rw [hm] at hop ⊢
    exact .named hfield htarget htext hop

/-- **Success**: a call that succeeds has its effect and no other. -/
theorem effect_of_call (h : b.call env c = .ok after) : Effect b c after := by
  cases c with
  | filter condition =>
    obtain ⟨e, he, h⟩ := bind_eq_ok.mp h
    cases h
    exact .condition (.filter he)
  | within a =>
    obtain ⟨spec, hspec, h⟩ := bind_eq_ok.mp h
    obtain ⟨e, he, h⟩ := bind_eq_ok.mp h
    cases h
    obtain ⟨hmeasured, hbound⟩ := measured_of_distance hspec he
    exact .condition (.within hmeasured hbound)
  | nearest a =>
    obtain ⟨spec, hspec, h⟩ := bind_eq_ok.mp h
    dsimp only at h
    split at h
    · cases h
    · rename_i horder
      split at h
      · cases h
      · rename_i hlimit
        obtain ⟨e, he, h⟩ := bind_eq_ok.mp h
        cases h
        obtain ⟨hmeasured, hbound⟩ := measured_of_distance hspec he
        exact .nearest (by simpa using horder) (by simpa using hlimit) hmeasured hbound
  | orderBy key descending =>
    simp only [call, orderBy] at h
    split at h
    · cases h
    · rename_i hfree
      obtain ⟨e, -, h⟩ := bind_eq_ok.mp h
      cases h
      exact .orderBy e (by simpa using hfree)
  | limit n =>
    simp only [call, limitTo] at h
    split at h
    · cases h
    · rename_i hfree
      cases n with
      | int i =>
        cases h
        exact .limit i (by simpa using hfree)
      | _ => cases h
  | select fields computed =>
    simp only [call, select] at h
    split at h
    · cases h
    · obtain ⟨plain, -, h⟩ := bind_eq_ok.mp h
      obtain ⟨named, -, h⟩ := bind_eq_ok.mp h
      cases h
      exact .select _

end Builder

/-! ### The predicate -/

namespace Expr

variable {env env' : Environment} {params : Params} {d : Value} {es bound : List Expr}

lemma isTrue_iff {v : Value} : v.isTrue = true ↔ v = .bool true := by
  cases v <;> simp [Value.isTrue]

/-- A conjunction of operands that do not fail is exactly true if all of them are. -/
lemma exists_eval_all (h : ∀ b ∈ bound, ∃ v, b.eval env d = .ok v) :
    ∃ v, (Expr.all bound).eval env d = .ok v ∧
      (v.isTrue = true ↔ ∀ b ∈ bound, b.eval env d = .ok (.bool true)) := by
  choose! value hvalue using h
  have houtcomes : bound.map (eval env d) = (bound.map value).map .ok := by
    rw [List.map_map]
    exact List.map_congr_left hvalue
  have htrue : (∀ b ∈ bound, b.eval env d = .ok (.bool true)) ↔
      ∀ t ∈ (bound.map value).map Value.truth?, t = some true := by
    rw [List.map_map, List.forall_mem_map]
    refine forall₂_congr fun b hb => ?_
    rw [hvalue b hb, Except.ok.injEq, Function.comp_apply, Value.truth?_eq_some]
  have heval : (Expr.all bound).eval env d = connect false false (bound.map (eval env d)) :=
    eval_junction false bound
  rw [houtcomes, connect_ok] at heval
  refine ⟨_, heval, ?_⟩
  rw [htrue]
  split_ifs with hfalse hnone
  · exact iff_of_false (by simp [Value.isTrue]) fun h => by simpa using h _ hfalse
  · obtain hnone | hnone := hnone
    · cases hnone
    · exact iff_of_false (by simp [Value.isTrue]) fun h => by simpa using h _ hnone
  · refine iff_of_true rfl fun t ht => ?_
    rcases t with _ | _ | _
    · exact absurd (.inr ht) hnone
    · exact absurd ht hfalse
    · rfl

end Expr

namespace Builder

variable {env : Environment} {params : Params} {b : Builder} {plan : Plan}

lemma admitted_of_eval {x : Expr} {d v : Value} (hpredicate : plan.predicate = some x)
    (hv : x.eval env d = .ok v) : Execution.admitted env plan d = .ok v.isTrue := by
  rw [Execution.admitted, hpredicate]
  simp only [Expr.admits, hv]
  rfl

/-- A bound plan admits a document on which no condition fails if all conditions are exactly true
there. -/
theorem admitted_of_bind (h : b.build.bind env params = .ok plan) :
    ∃ bound, List.Forall₂ (fun e x => e.bind env params = .ok x) b.conditions bound ∧
      ∀ env' d, (∀ x ∈ bound, ∃ v, x.eval env' d = .ok v) →
        ∃ m, Execution.admitted env' plan d = .ok m ∧
          (m = true ↔ ∀ x ∈ bound, x.eval env' d = .ok (.bool true)) := by
  obtain ⟨predicate, hpredicate, h⟩ := bind_eq_ok.mp h
  obtain ⟨order, -, h⟩ := bind_eq_ok.mp h
  obtain ⟨columns, -, h⟩ := bind_eq_ok.mp h
  cases h
  change b.predicate.mapM _ = _ at hpredicate
  rw [Builder.predicate] at hpredicate
  rcases hconditions : b.conditions with _ | ⟨e, _ | ⟨e', es⟩⟩
  · rw [hconditions] at hpredicate
    cases hpredicate
    exact ⟨[], .nil, fun env' d _ => ⟨true, rfl, by simp⟩⟩
  · rw [hconditions] at hpredicate
    obtain ⟨x, hx, hpredicate⟩ := map_eq_ok.mp hpredicate
    subst hpredicate
    refine ⟨[x], .cons hx .nil, fun env' d hvalues => ?_⟩
    obtain ⟨v, hv⟩ := hvalues x (by simp)
    refine ⟨v.isTrue, admitted_of_eval rfl hv, ?_⟩
    rw [Expr.isTrue_iff, List.forall_mem_singleton, hv, Except.ok.injEq]
  · rw [hconditions] at hpredicate
    obtain ⟨x, hx, hpredicate⟩ := map_eq_ok.mp hpredicate
    subst hpredicate
    obtain ⟨bound, hbound, rfl⟩ := Expr.bind_all_eq_ok.mp hx
    refine ⟨bound, Expr.bindEach_eq_ok.mp hbound, fun env' d hvalues => ?_⟩
    obtain ⟨v, hv, htrue⟩ := Expr.exists_eval_all hvalues
    exact ⟨v.isTrue, admitted_of_eval rfl hv, htrue⟩

end Builder

/-! ### Calls one after the other -/

/-- A builder in the course of some calls, each made in an environment of its own, and those of them
that have succeeded. -/
structure Progress where
  builder : Builder
  made : List (Environment × BuilderCall) := []

namespace Progress

def step (p : Progress) (s : Environment × BuilderCall) : Progress :=
  match p.builder.attempt s.1 s.2 with
  | (after, none) => ⟨after, p.made ++ [s]⟩
  | (after, some _) => { p with builder := after }

def run (p : Progress) (steps : List (Environment × BuilderCall)) : Progress := steps.foldl step p

/-- Order and limit of a builder by the calls on them that have succeeded: they are free as long as
the nearest documents were not asked for, and settled by the one call that asks for them. -/
inductive Settlement (ops : Operators) : List (Environment × BuilderCall) → Builder → Prop where
  | free {made : List (Environment × BuilderCall)} {b : Builder} (hfree : b.nearest = false)
      (hmade : ∀ env a, (env, .nearest a) ∉ made)
      (hnone : b.order = [] → b.limit = none → made = []) : Settlement ops made b
  | settled {env : Environment} {a : NearArguments} {b : Builder} {key : Expr} {k : Int}
      (hsettled : b.nearest = true) (hkey : a.Measured ops key)
      (hcount : Check.count a.bound = .ok k) (horder : b.order = [{ expr := key }])
      (hlimit : b.limit = some k) : Settlement ops [(env, .nearest a)] b

/-- What the calls keep. -/
structure Kept (ops : Operators) (p : Progress) : Prop where
  operators : p.builder.operators = ops
  conditions : List.Forall₂ (fun s e => s.2.Asks ops e) (p.made.filter (·.2.isCondition))
    p.builder.conditions
  ordering : Settlement ops (p.made.filter (·.2.isOrdering)) p.builder

variable {ops : Operators} {p : Progress} {env : Environment} {c : BuilderCall}
variable {made : List (Environment × BuilderCall)} {b after : Builder}

/-- Only order and limit matter. -/
lemma Settlement.congr (h : Settlement ops made b) (hnearest : after.nearest = b.nearest)
    (horder : after.order = b.order) (hlimit : after.limit = b.limit) :
    Settlement ops made after := by
  cases h with
  | free hfree hmade hnone =>
    exact .free (hnearest.trans hfree) hmade fun ho hl => hnone (horder ▸ ho) (hlimit ▸ hl)
  | settled hsettled hkey hcount ho hl =>
    exact .settled (hnearest.trans hsettled) hkey hcount (horder.trans ho) (hlimit.trans hl)

/-- A call on a free order or limit that is not for the nearest documents leaves them free. -/
lemma Settlement.extend (h : Settlement ops made b) (hfree : b.nearest = false)
    (hc : ∀ a, c ≠ .nearest a) (hnearest : after.nearest = b.nearest)
    (hset : after.order ≠ [] ∨ after.limit ≠ none) :
    Settlement ops (made ++ [(env, c)]) after := by
  cases h with
  | free _ hmade _ =>
    refine .free (hnearest.trans hfree) (fun env' a hmem => ?_) fun ho hl =>
      (hset.elim (· ho) (· hl)).elim
    rcases List.mem_append.mp hmem with hmem | hmem
    · exact hmade env' a hmem
    · exact hc a (congrArg Prod.snd (List.mem_singleton.mp hmem)).symm
  | settled hsettled =>
    rw [hsettled] at hfree
    cases hfree

/-- Calls that were made before the nearest documents are asked for were none on order or limit. -/
lemma Settlement.eq_nil (h : Settlement ops made b) (horder : b.order = [])
    (hlimit : b.limit = none) : made = [] := by
  cases h with
  | free _ _ hnone => exact hnone horder hlimit
  | settled _ _ _ ho =>
    rw [horder] at ho
    cases ho

/-- One more call of a kind. -/
lemma filter_of_kind (kind : BuilderCall → Bool) (hc : kind c = true) :
    (made ++ [(env, c)]).filter (fun s => kind s.2) =
      made.filter (fun s => kind s.2) ++ [(env, c)] := by
  rw [List.filter_append, List.filter_singleton, hc]
  rfl

/-- One more call of another kind. -/
lemma filter_of_other (kind : BuilderCall → Bool) (hc : kind c = false) :
    (made ++ [(env, c)]).filter (fun s => kind s.2) = made.filter (fun s => kind s.2) := by
  rw [List.filter_append, List.filter_singleton, hc]
  exact List.append_nil _

/-- A call that succeeds adds the condition that it asks for, if it asks for one. -/
lemma conditions_effect (heffect : b.Effect c after)
    (h : List.Forall₂ (fun s e => s.2.Asks b.operators e) (made.filter (·.2.isCondition))
      b.conditions) :
    List.Forall₂ (fun s e => s.2.Asks b.operators e)
      ((made ++ [(env, c)]).filter (·.2.isCondition)) after.conditions := by
  cases heffect with
  | condition hasks =>
    have hkind : c.isCondition = true := by cases hasks <;> rfl
    rw [filter_of_kind BuilderCall.isCondition hkind]
    exact List.rel_append h (.cons hasks .nil)
  | nearest | orderBy | limit | select =>
    rw [filter_of_other BuilderCall.isCondition rfl]
    exact h

/-- A call that succeeds settles order and limit, extends them while they are free, or leaves them
alone. -/
lemma Settlement.effect (h : Settlement b.operators (made.filter (·.2.isOrdering)) b)
    (heffect : b.Effect c after) :
    Settlement b.operators ((made ++ [(env, c)]).filter (·.2.isOrdering)) after := by
  cases heffect with
  | condition hasks =>
    have hkind : c.isOrdering = false := by cases hasks <;> rfl
    rw [filter_of_other BuilderCall.isOrdering hkind]
    exact h.congr rfl rfl rfl
  | nearest horder hlimit hkey hcount =>
    rw [filter_of_kind BuilderCall.isOrdering rfl, h.eq_nil horder hlimit]
    exact .settled rfl hkey hcount rfl rfl
  | orderBy e hfree =>
    rw [filter_of_kind BuilderCall.isOrdering rfl]
    exact h.extend hfree nofun rfl (.inl (by simp))
  | limit i hfree =>
    rw [filter_of_kind BuilderCall.isOrdering rfl]
    exact h.extend hfree nofun rfl (.inr (by simp))
  | select columns =>
    rw [filter_of_other BuilderCall.isOrdering rfl]
    exact h.congr rfl rfl rfl

lemma operators_effect (heffect : b.Effect c after) : after.operators = b.operators := by
  cases heffect <;> rfl

/-- **One call**: what is kept is kept, whether the call succeeds or not. -/
theorem Kept.step (h : p.Kept ops) (s : Environment × BuilderCall) : (p.step s).Kept ops := by
  obtain ⟨b, made⟩ := p
  unfold Progress.step
  rcases hcall : b.call s.1 s.2 with e | after
  · rw [Builder.attempt_of_error hcall]
    exact h
  · rw [Builder.attempt_of_ok hcall]
    obtain ⟨rfl, hconditions, hordering⟩ := h
    have heffect := Builder.effect_of_call hcall
    exact ⟨operators_effect heffect, conditions_effect heffect hconditions,
      hordering.effect heffect⟩

/-- **Calls**: what is kept is kept. -/
theorem Kept.run (h : p.Kept ops) (steps : List (Environment × BuilderCall)) :
    (p.run steps).Kept ops := by
  induction steps generalizing p with
  | nil => exact h
  | cons s steps ih => exact ih (h.step s)

/-- The call for the nearest documents is the only one on order and limit. -/
lemma Kept.of_nearest (h : p.Kept ops) {a : NearArguments} (hmem : (env, .nearest a) ∈ p.made) :
    p.builder.nearest = true ∧ ∃ key k, a.Measured ops key ∧ Check.count a.bound = .ok k ∧
      p.builder.order = [{ expr := key }] ∧ p.builder.limit = some k := by
  have hmade : (env, .nearest a) ∈ p.made.filter (·.2.isOrdering) :=
    List.mem_filter.mpr ⟨hmem, rfl⟩
  have hordering := h.ordering
  generalize p.made.filter (·.2.isOrdering) = made at hmade hordering
  cases hordering with
  | free _ hnone => exact absurd hmade (hnone env a)
  | settled hsettled hkey hcount horder hlimit =>
    cases List.mem_singleton.mp hmade
    exact ⟨hsettled, _, _, hkey, hcount, horder, hlimit⟩

/-- What a builder is, by the calls that have succeeded. -/
structure Explained (ops : Operators) (p : Progress) : Prop where
  /-- A session makes a call statement by statement, and one that fails has changed nothing. -/
  failed : ∀ (s : Session) c after e, (s.build p.builder c).2 = (after, some e) →
    p.builder.attempt s.env c = (after, some e) ∧ after.build = p.builder.build
  /-- Once the nearest documents were asked for, the plan has their distance as its only key, in
  ascending order, and their number as its limit. -/
  nearest : ∀ env a, (env, .nearest a) ∈ p.made → ∃ key k,
    a.Measured ops key ∧ Check.count a.bound = .ok k ∧
      p.builder.build.order = [{ expr := key }] ∧ p.builder.build.limit = .int k
  /-- After that no call on order or limit succeeds. -/
  settled : ∀ env a, (env, .nearest a) ∈ p.made → ∀ env' c, c.isOrdering = true →
    ∃ e, p.builder.attempt env' c = (p.builder, some e)
  /-- Before it none has. -/
  first : ∀ env a after, p.builder.attempt env (.nearest a) = (after, none) →
    ∀ s ∈ p.made, s.2.isOrdering = false
  /-- Every successful call for a condition has added the one that it asks for. -/
  conditions : List.Forall₂ (fun s e => s.2.Asks ops e) (p.made.filter (·.2.isCondition))
    p.builder.conditions
  /-- The plan, once it is bound, admits a document on which no condition fails if all of them are
  exactly true there. -/
  admits : ∀ env params plan, p.builder.build.bind env params = .ok plan →
    ∃ bound, List.Forall₂ (fun e x => e.bind env params = .ok x) p.builder.conditions bound ∧
      ∀ env' d, (∀ x ∈ bound, ∃ v, x.eval env' d = .ok v) →
        ∃ m, Execution.admitted env' plan d = .ok m ∧
          (m = true ↔ ∀ x ∈ bound, x.eval env' d = .ok (.bool true))

theorem Kept.explained (h : p.Kept ops) : p.Explained ops where
  failed s c after e hfail := by
    have hattempt : p.builder.attempt s.env c = (after, some e) :=
      (s.build_eq_attempt p.builder c).symm.trans hfail
    refine ⟨hattempt, ?_⟩
    rcases hcall : p.builder.call s.env c with e' | after'
    · rw [Builder.attempt_of_error hcall] at hattempt
      cases hattempt
      rfl
    · rw [Builder.attempt_of_ok hcall] at hattempt
      cases hattempt
  nearest env a hmem := by
    obtain ⟨-, key, k, hkey, hcount, horder, hlimit⟩ := h.of_nearest hmem
    refine ⟨key, k, hkey, hcount, horder, ?_⟩
    rw [Builder.build, hlimit]
    rfl
  settled env a hmem env' c hc := by
    obtain ⟨hsettled, key, k, -, -, horder, -⟩ := h.of_nearest hmem
    rcases hcall : p.builder.call env' c with e | after
    · exact ⟨e, Builder.attempt_of_error hcall⟩
    · cases Builder.effect_of_call hcall with
      | condition hasks => cases hasks <;> cases hc
      | nearest hnone =>
        rw [hnone] at horder
        cases horder
      | orderBy _ hfree | limit _ hfree =>
        rw [hsettled] at hfree
        cases hfree
      | select => cases hc
  first env a after hattempt s hs := by
    rcases hcall : p.builder.call env (.nearest a) with e | after'
    · rw [Builder.attempt_of_error hcall] at hattempt
      cases hattempt
    · cases Builder.effect_of_call hcall with
      | condition hasks => cases hasks
      | nearest horder hlimit =>
        have hnone := h.ordering.eq_nil horder hlimit
        simpa using List.filter_eq_nil_iff.mp hnone s hs
  conditions := h.conditions
  admits env params plan hbind := Builder.admitted_of_bind hbind

/-- **Building**: after any calls on a new builder, each made in an environment of its own, the
builder is what the calls that have succeeded make of it. -/
theorem explained_run (ops : Operators) (collection : Value)
    (steps : List (Environment × BuilderCall)) :
    (run { builder := { operators := ops, collection } } steps).Explained ops := by
  have hnew : Kept ops { builder := { operators := ops, collection } } :=
    ⟨rfl, .nil, .free rfl (fun _ _ => List.not_mem_nil) fun _ _ => rfl⟩
  exact (hnew.run steps).explained

/-- A condition that is no text of one, and a second limit, are refused. -/
example :
    let near (bound : Value) : NearArguments := ⟨.text "v", .list [.int 1], bound, .null⟩
    let p := run { builder := { operators := .standard } }
      [({}, .filter (.value (.text "a ="))), ({}, .within (near (.real (.ofInt 1)))),
        ({}, .nearest (near (.int 2))), ({}, .limit (.int 5)),
        ({}, .filter (.value (.text "a = 1")))]
    p.made.length = 3 ∧ p.builder.conditions.length = 2 ∧ p.builder.order.length = 1 ∧
      p.builder.limit = some 2 := by
  decide +kernel

end Progress

end NearDoc
