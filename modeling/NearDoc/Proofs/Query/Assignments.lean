import NearDoc.Proofs.Outcome
import NearDoc.Session

/-!
The calls of a builder statement by statement. What a statement has assigned stays even if a later
one fails. Main statement: a call checks all that it checks before it assigns anything, so that it
is made as a whole or not at all.
-/

namespace NearDoc

namespace Builder

/-- Statements that read a builder and assign its fields. -/
abbrev Action := EStateM Error Builder

namespace Action

variable {α β : Type} {b : Builder}

/-- A computation that leaves the builder alone. -/
def check (x : Except Error α) : Action α := MonadExcept.ofExcept x

/-- What comes of a computation that leaves the builder alone. -/
def checked (b : Builder) : Except Error α → EStateM.Result Error Builder α
  | .ok a => .ok a b
  | .error e => .error e b

lemma run_bind (x : Action α) (f : α → Action β) :
    (x >>= f).run b = match x.run b with
      | .ok a s => (f a).run s
      | .error e s => .error e s := by
  simp only [EStateM.run, bind, EStateM.bind]
  cases x b <;> rfl

lemma run_get_bind (f : Builder → Action β) : (get >>= f).run b = (f b).run b := by
  cases b
  rfl

lemma run_check (x : Except Error α) : (check x).run b = checked b x := by
  cases x <;> rfl

/-- Of two computations that leave the builder alone the second may depend on the first. -/
lemma run_checked {x : Action α} {y : Except Error α} {f : α → Action β} {g : α → Except Error β}
    (hx : x.run b = checked b y) (h : ∀ a, (f a).run b = checked b (g a)) :
    (x >>= f).run b = checked b (y >>= g) := by
  rw [run_bind, hx]
  cases y with
  | error e => rfl
  | ok a => exact h a

/-- Computations that leave the builder alone leave it alone together. -/
lemma run_mapM {f : α → Action β} {g : α → Except Error β}
    (h : ∀ a, (f a).run b = checked b (g a)) (l : List α) :
    (l.mapM f).run b = checked b (l.mapM g) := by
  induction l with
  | nil => rfl
  | cons a l ih =>
    rw [List.mapM_cons, List.mapM_cons]
    exact run_checked (h a) fun _ => run_checked ih fun _ => rfl

end Action

open Builder.Action

/-! ### The calls -/

def doFilter (condition : Clause) : Action Unit := do
  let condition ← check (condition.resolve (← get).operators)
  modify fun b => { b with conditions := b.conditions ++ [condition] }

def doWithin (env : Environment) (a : NearArguments) : Action Unit := do
  let spec ← check (NearSpec.within env.metrics a)
  let distance ← check ((← get).distance spec)
  let condition := Expr.compare (.order .le) distance (.literal (.real spec.bound))
  modify fun b => { b with conditions := b.conditions ++ [condition] }

def doNearest (env : Environment) (a : NearArguments) : Action Unit := do
  let spec ← check (NearSpec.nearest env.metrics a)
  if !(← get).order.isEmpty then throw .nearestAfterOrdering
  if (← get).limit.isSome then throw .nearestAfterLimit
  let distance ← check ((← get).distance spec)
  -- three assignments, between which nothing may fail
  modify fun b => { b with order := [{ expr := distance }] }
  modify fun b => { b with limit := some spec.bound }
  modify fun b => { b with nearest := true }

def doOrderBy (key : Clause) (descending : Value) : Action Unit := do
  if (← get).nearest then throw .nearestOrders
  let key ← check (key.resolve (← get).operators)
  modify fun b => { b with order := b.order ++ [⟨key, descending⟩] }

def doLimit (n : Value) : Action Unit := do
  if (← get).nearest then throw .nearestLimits
  match n with
  | .int i => modify fun b => { b with limit := some i }
  | v => throw (.limitNotInteger v.typeName)

def doSelect (fields : List Value) (computed : List (String × Clause)) : Action Unit := do
  if computed.any (·.1 = ownName) then throw .wrongArguments
  let plain ← fields.mapM fun f => do
    let e ← check (Expr.field? f)
    return ({ expr := e } : Column)
  let named ← computed.mapM fun (name, clause) => do
    let e ← check (clause.resolve (← get).operators)
    return (⟨e, .text name⟩ : Column)
  modify fun b => { b with columns := some (plain ++ named) }

/-- One call on a builder. -/
def perform (env : Environment) : BuilderCall → Action Unit
  | .filter condition => doFilter condition
  | .within a => doWithin env a
  | .nearest a => doNearest env a
  | .orderBy key descending => doOrderBy key descending
  | .limit n => doLimit n
  | .select fields computed => doSelect fields computed

/-- A builder after a call that is made as a whole or not at all. -/
def settled (b : Builder) : Except Error Builder → EStateM.Result Error Builder Unit
  | .ok after => .ok () after
  | .error e => .error e b

/-! ### Whole or not at all -/

variable {α : Type}

/-- A check that comes first: either it fails, or what follows is made as a whole or not at all. -/
lemma run_first {b : Builder} {x : Action α} {y : Except Error α} {f : α → Action Unit}
    {g : α → Except Error Builder} (hx : x.run b = checked b y)
    (h : ∀ a, (f a).run b = b.settled (g a)) : (x >>= f).run b = b.settled (y >>= g) := by
  rw [run_bind, hx]
  cases y with
  | error e => rfl
  | ok a => exact h a

/-- A refusal that comes first. -/
lemma run_refuse {b : Builder} {c : Prop} [Decidable c] {e : Error} {f : Unit → Action Unit}
    {g : Unit → Except Error Builder} (h : ¬ c → (f ()).run b = b.settled (g ())) :
    (if c then throw e >>= f else f ()).run b = b.settled (if c then throw e >>= g else g ()) := by
  by_cases hc : c
  · rw [if_pos hc, if_pos hc]
    rfl
  · rw [if_neg hc, if_neg hc]
    exact h hc

lemma run_doFilter (b : Builder) (condition : Clause) :
    (doFilter condition).run b = b.settled (b.filter condition) := by
  rw [doFilter, filter, run_get_bind]
  exact run_first (run_check _) fun _ => rfl

lemma run_doWithin (env : Environment) (b : Builder) (a : NearArguments) :
    (doWithin env a).run b = b.settled (b.within env a) := by
  refine run_first (run_check _) fun spec => ?_
  rw [run_get_bind]
  exact run_first (run_check _) fun _ => rfl

lemma run_doNearest (env : Environment) (b : Builder) (a : NearArguments) :
    (doNearest env a).run b = b.settled (b.takeNearest env a) := by
  refine run_first (run_check _) fun spec => ?_
  rw [run_get_bind]
  refine run_refuse fun _ => ?_
  rw [run_get_bind]
  refine run_refuse fun _ => ?_
  rw [run_get_bind]
  exact run_first (run_check _) fun _ => rfl

lemma run_doOrderBy (b : Builder) (key : Clause) (descending : Value) :
    (doOrderBy key descending).run b = b.settled (b.orderBy key descending) := by
  rw [doOrderBy, orderBy, run_get_bind]
  refine run_refuse fun _ => ?_
  rw [run_get_bind]
  exact run_first (run_check _) fun _ => rfl

lemma run_doLimit (b : Builder) (n : Value) : (doLimit n).run b = b.settled (b.limitTo n) := by
  unfold doLimit limitTo
  rw [run_get_bind]
  by_cases hnearest : b.nearest = true
  · rw [if_pos hnearest, if_pos hnearest]
    rfl
  · rw [if_neg hnearest, if_neg hnearest]
    cases n <;> rfl

lemma run_doSelect (b : Builder) (fields : List Value) (computed : List (String × Clause)) :
    (doSelect fields computed).run b = b.settled (b.select fields computed) := by
  unfold doSelect select
  refine run_refuse fun _ => ?_
  refine run_first (run_mapM (fun f => run_checked (run_check _) fun _ => rfl) fields) fun _ => ?_
  refine run_first (run_mapM (fun c => ?_) computed) fun _ => rfl
  rw [run_get_bind]
  exact run_checked (run_check _) fun _ => rfl

/-- **Whole or not at all**: a call that fails has assigned nothing. -/
theorem run_perform (env : Environment) (b : Builder) (c : BuilderCall) :
    (perform env c).run b = b.settled (b.call env c) := by
  cases c with
  | filter condition => exact run_doFilter b condition
  | within a => exact run_doWithin env b a
  | nearest a => exact run_doNearest env b a
  | orderBy key descending => exact run_doOrderBy b key descending
  | limit n => exact run_doLimit b n
  | select fields computed => exact run_doSelect b fields computed

/-- A builder after a call, and the failure of the call if it fails. -/
def attempt (env : Environment) (b : Builder) (c : BuilderCall) : Builder × Option Error :=
  match (perform env c).run b with
  | .ok () after => (after, none)
  | .error e after => (after, some e)

variable {env : Environment} {b after : Builder} {c : BuilderCall} {e : Error}

lemma attempt_of_ok (h : b.call env c = .ok after) : b.attempt env c = (after, none) := by
  rw [attempt, run_perform, h]
  rfl

lemma attempt_of_error (h : b.call env c = .error e) : b.attempt env c = (b, some e) := by
  rw [attempt, run_perform, h]
  rfl

end Builder

/-- A session makes a call statement by statement. -/
theorem Session.build_eq_attempt (s : Session) (b : Builder) (c : BuilderCall) :
    (s.build b c).2 = b.attempt s.env c := by
  unfold Session.build
  rcases hcall : b.call s.env c with e | after
  · exact (Builder.attempt_of_error hcall).symm
  · exact (Builder.attempt_of_ok hcall).symm

end NearDoc
