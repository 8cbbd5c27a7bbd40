import NearDoc.Expr.Eval
import NearDoc.Proofs.Outcome

/-!
The connectives as functions of what their operands come to. A conjunction stops at the first false
operand and a disjunction at the first true one; otherwise they differ in nothing, so both are read
as one connective with the truth value that stops it. Main statements: negation turns the one into
the other, a connective directly inside itself may be opened up, and which failure there is, and
which value, is said without the order of evaluation.
-/

namespace NearDoc

namespace Value

/-- The truth value that a value is, if it is one. -/
def truth? : Value → Option Bool
  | .bool b => some b
  | _ => none

/-- What a value counts for in a connective: itself if it is a truth value, and otherwise
nothing. -/
def truth (v : Value) : Value := v.truth?.elim .undefined .bool

@[simp]
lemma truth?_bool (b : Bool) : (Value.bool b).truth? = some b := rfl

@[simp]
lemma truth?_undefined : Value.undefined.truth? = none := rfl

lemma truth?_eq_some {v : Value} {b : Bool} : v.truth? = some b ↔ v = .bool b := by
  cases v <;> simp [truth?]

lemma truth_cases (v : Value) :
    v.truth = .bool true ∨ v.truth = .bool false ∨ v.truth = .undefined := by
  rw [truth]
  rcases v.truth? with _ | _ | _ <;> simp

end Value

namespace Expr

lemma truth?_negate (v : Value) : (negate v).truth? = v.truth?.map (!·) := by
  cases v <;> rfl

lemma negate_negate (v : Value) : negate (negate v) = v.truth := by
  cases v <;> simp [negate, Value.truth, Value.truth?]

/-- The conjunction, which a false operand stops, or the disjunction, which a true one does. -/
def junction (stop : Bool) (es : List Expr) : Expr := if stop then .any es else .all es

/-- The value of a connective on what its operands come to, from the left. -/
def connect (stop undecided : Bool) : List (Except Error Value) → Except Error Value
  | [] => .ok (if undecided then .undefined else .bool !stop)
  | .error e :: _ => .error e
  | .ok v :: outcomes =>
    if v.truth? = some stop then .ok (.bool stop)
    else connect stop (undecided || v.truth?.isNone) outcomes

variable {stop undecided : Bool}

/-! ### Rewriting outcomes -/

/-- De Morgan: the negated connective is the other one of the negated operands. -/
lemma connect_negate (outcomes : List (Except Error Value)) :
    (connect stop undecided outcomes).map negate =
      connect (!stop) undecided (outcomes.map (·.map negate)) := by
  induction outcomes generalizing undecided with
  | nil => cases undecided <;> rfl
  | cons outcome outcomes ih =>
    rcases outcome with e | v
    · rfl
    · have hstop : (negate v).truth? = some (!stop) ↔ v.truth? = some stop := by
        rw [truth?_negate]
        rcases v.truth? with _ | b <;> simp
      change Except.map negate _ = connect (!stop) undecided (.ok (negate v) :: _)
      rw [connect, connect]
      by_cases hv : v.truth? = some stop
      · rw [if_pos hv, if_pos (hstop.mpr hv)]
        rfl
      · rw [if_neg hv, if_neg (mt hstop.mp hv), ih, truth?_negate, Option.isNone_map]

/-- Operands of a connective inside itself count as operands of its own. -/
lemma connect_opened {inner : Bool} (outcomes rest : List (Except Error Value)) :
    connect stop undecided (connect stop inner outcomes :: rest) =
      connect stop (undecided || inner) (outcomes ++ rest) := by
  induction outcomes generalizing inner with
  | nil => cases inner <;> simp [connect]
  | cons outcome outcomes ih =>
    rcases outcome with e | v
    · rfl
    · by_cases hv : v.truth? = some stop
      · simp [connect, hv]
      · simp only [List.cons_append, connect, if_neg hv, ih, Bool.or_assoc]

lemma connect_append_congr {rest rest' : List (Except Error Value)}
    (h : ∀ undecided, connect stop undecided rest = connect stop undecided rest')
    (outcomes : List (Except Error Value)) :
    connect stop undecided (outcomes ++ rest) = connect stop undecided (outcomes ++ rest') := by
  induction outcomes generalizing undecided with
  | nil => exact h undecided
  | cons outcome outcomes ih =>
    rcases outcome with e | v
    · rfl
    · simp only [List.cons_append, connect, ih]

/-- Flattening: a connective directly inside itself may be opened up. -/
lemma connect_flatten (before inner after : List (Except Error Value)) :
    connect stop undecided (before ++ connect stop false inner :: after) =
      connect stop undecided (before ++ (inner ++ after)) :=
  connect_append_congr (fun u => by rw [connect_opened, Bool.or_false]) before

/-! ### Values and failures -/

/-- A connective comes to a truth value or to nothing. -/
lemma truth_of_connect {outcomes : List (Except Error Value)} {v : Value}
    (h : connect stop undecided outcomes = .ok v) : v.truth = v := by
  induction outcomes generalizing undecided with
  | nil =>
    cases h
    cases undecided <;> rfl
  | cons outcome outcomes ih =>
    rcases outcome with e | w
    · cases h
    · rw [connect] at h
      split_ifs at h with hw
      · cases h
        rfl
      · exact ih h

/-- A connective fails as the first operand that fails, unless an operand before it stops it. -/
lemma connect_eq_error {outcomes : List (Except Error Value)} {e : Error} :
    connect stop undecided outcomes = .error e ↔
      ∃ before after, outcomes = before ++ .error e :: after ∧
        ∀ outcome ∈ before, ∃ v, outcome = .ok v ∧ v ≠ .bool stop := by
  induction outcomes generalizing undecided with
  | nil => simp [connect]
  | cons outcome outcomes ih =>
    rcases outcome with e' | v
    · simp only [connect, List.cons_eq_append_iff]
      constructor
      · rintro ⟨⟩
        exact ⟨[], outcomes, .inl ⟨rfl, rfl⟩, nofun⟩
      · rintro ⟨before, after, ⟨-, hcons⟩ | ⟨rest, rfl, -⟩, hbefore⟩
        · exact congrArg Except.error (Except.error.inj (List.cons.inj hcons).1).symm
        · obtain ⟨v, hv, -⟩ := hbefore _ List.mem_cons_self
          cases hv
    · rw [connect]
      split_ifs with hv
      · refine ⟨nofun, ?_⟩
        rintro ⟨_ | ⟨outcome, before⟩, after, hcons, hbefore⟩
        · cases hcons
        · obtain ⟨rfl, -⟩ := List.cons.inj hcons
          obtain ⟨w, hw, hne⟩ := hbefore _ List.mem_cons_self
          cases hw
          exact absurd (Value.truth?_eq_some.mp hv) hne
      · rw [ih]
        constructor
        · rintro ⟨before, after, rfl, hbefore⟩
          refine ⟨.ok v :: before, after, rfl, ?_⟩
          rw [List.forall_mem_cons]
          exact ⟨⟨v, rfl, fun h => hv (Value.truth?_eq_some.mpr h)⟩, hbefore⟩
        · rintro ⟨_ | ⟨outcome, before⟩, after, hcons, hbefore⟩
          · cases hcons
          · obtain ⟨rfl, rfl⟩ := List.cons.inj hcons
            exact ⟨before, after, rfl, fun o ho => hbefore o (List.mem_cons_of_mem _ ho)⟩

/-- A connective fails if an operand does and none before it stops it. -/
lemma exists_connect_error {before after : List (Except Error Value)} {e : Error}
    (h : ∀ outcome ∈ before, outcome ≠ .ok (.bool stop)) :
    ∃ err, connect stop undecided (before ++ .error e :: after) = .error err := by
  induction before generalizing undecided with
  | nil => exact ⟨e, rfl⟩
  | cons outcome before ih =>
    rw [List.forall_mem_cons] at h
    rcases outcome with e' | v
    · exact ⟨e', rfl⟩
    · have hv : v.truth? ≠ some stop := fun hv => h.1 (by rw [Value.truth?_eq_some.mp hv])
      rw [List.cons_append, connect, if_neg hv]
      exact ih h.2

/-- Without a failure a connective is what stops it if an operand is, the opposite if every operand
is, and otherwise undefined. -/
lemma connect_ok (vs : List Value) :
    connect stop undecided (vs.map .ok) =
      .ok (if some stop ∈ vs.map Value.truth? then .bool stop
        else if undecided = true ∨ none ∈ vs.map Value.truth? then .undefined
        else .bool !stop) := by
  induction vs generalizing undecided with
  | nil => cases undecided <;> simp [connect]
  | cons v vs ih =>
    simp only [List.map_cons, connect, ih, List.mem_cons]
    rcases hv : v.truth? with _ | b
    · simp
    · rcases Decidable.eq_or_ne b stop with rfl | hb
      · simp
      · simp [hb, hb.symm]

/-- Without a failure the order of the operands does not matter. -/
lemma connect_perm {vs vs' : List Value} (h : vs.Perm vs') :
    connect stop undecided (vs.map .ok) = connect stop undecided (vs'.map .ok) := by
  simp only [connect_ok, (h.map Value.truth?).mem_iff]

/-! ### Connectives of expressions -/

variable {env : Environment} {d : Value}

lemma evalAll_eq_connect (es : List Expr) :
    evalAll env d undecided es = connect false undecided (es.map (eval env d)) := by
  induction es generalizing undecided with
  | nil => rfl
  | cons e es ih =>
    rw [evalAll, List.map_cons]
    rcases eval env d e with err | v
    · rfl
    · simp only [connect, ih]
      rcases v with _ | (_ | _) <;> rfl

lemma evalAny_eq_connect (es : List Expr) :
    evalAny env d undecided es = connect true undecided (es.map (eval env d)) := by
  induction es generalizing undecided with
  | nil => rfl
  | cons e es ih =>
    rw [evalAny, List.map_cons]
    rcases eval env d e with err | v
    · rfl
    · simp only [connect, ih]
      rcases v with _ | (_ | _) <;> rfl

lemma eval_junction (stop : Bool) (es : List Expr) :
    (junction stop es).eval env d = connect stop false (es.map (eval env d)) := by
  cases stop
  · exact evalAll_eq_connect es
  · exact evalAny_eq_connect es

end Expr

end NearDoc
