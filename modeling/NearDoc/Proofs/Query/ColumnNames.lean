import NearDoc.Proofs.Query.Turns

/-!
The names of columns. A parameter has its own name for a label, and is a literal once it is bound,
so a column that is given no name may be renamed by binding. Main statement: the rows of a bound
plan have the names that its columns show once each of their parameters is a literal, and where none
of them shows a parameter these are the names of the plan as it was before.
-/

namespace NearDoc

namespace Column

/-- The name of a column once it is bound. -/
def boundName (c : Column) : Except Error Value := do
  return if ← c.givenName.truthy then c.givenName else c.expr.boundLabel

/-- A column keeps its name if it is given one, and if its label shows no parameter. -/
lemma boundName_eq {c : Column} (h : c.givenName.truthy = .ok true ∨ c.expr.showsParam = false) :
    c.boundName = c.name := by
  rcases h with h | h
  · rw [boundName, name, h]
    rfl
  · rw [boundName, name, c.expr.boundLabel_eq h]

lemma BindsTo.name {env : Environment} {params : Params} {c b : Column}
    (h : BindsTo env params c b) : b.name = c.boundName := by
  rw [Column.name, boundName, h.givenName, Expr.label_of_bind _ h.expr]

end Column

namespace Execution

variable {env : Environment} {columns : List Column} {d : Value} {fields : Fields}

/-- The columns that a row is named after. -/
def NamedAfter (columns : List Column) (name : String) : Prop :=
  ∃ c ∈ columns, ∃ v, c.name = .ok v ∧ rowName v = .ok name

/-- Every field of a row is named after a column. -/
lemma namedAfter_of_project (h : project env columns d = .ok fields) :
    ∀ name ∈ fields.map (·.1), NamedAfter columns name := by
  induction columns using List.reverseRecOn generalizing fields with
  | nil =>
    cases h
    simp
  | append_singleton columns c ih =>
    rw [project, List.foldlM_append, bind_eq_ok] at h
    obtain ⟨before, hbefore, h⟩ := h
    have hold : ∀ name ∈ before.map (·.1), NamedAfter (columns ++ [c]) name := fun name hname => by
      obtain ⟨c', hc', hnamed⟩ := ih hbefore name hname
      exact ⟨c', by simp [hc'], hnamed⟩
    rw [List.foldlM_cons, bind_eq_ok] at h
    obtain ⟨after, hafter, h⟩ := h
    cases h
    obtain ⟨v, -, hafter⟩ := bind_eq_ok.mp hafter
    split at hafter
    · cases hafter
      exact hold
    · obtain ⟨w, hw, hafter⟩ := bind_eq_ok.mp hafter
      obtain ⟨name, hname, hafter⟩ := bind_eq_ok.mp hafter
      cases hafter
      rw [List.forall_mem_map] at hold ⊢
      intro f hf
      rcases Fields.mem_set hf with rfl | hf
      · exact ⟨c, by simp, w, hw, hname⟩
      · exact hold f hf

/-- What a turn gives is the row of a document. -/
lemma exists_row_of_turn {t : Turn} {r : Value} (h : t.row? = some r) :
    ∃ d, row t.env t.run.plan d = .ok r := by
  have hturn := turnsTo t.env t.run
  unfold Turn.row? at h
  generalize (t.run.advance t.env).1 = y, (t.run.advance t.env).2 = reply at hturn h
  cases hturn with
  | shown _ _ _ _ hrow =>
    cases h
    exact ⟨_, hrow⟩
  | _ => cases h

end Execution

namespace Plan

open Execution

variable {env : Environment} {params : Params} {p bound : Plan} {source : Source}

/-- If no column is renamed, the names are those of the plan before. -/
lemma columnNames_eq {q : Plan}
    (h : Option.Rel (List.Forall₂ fun c b : Column => b.name = c.name) p.columns q.columns) :
    q.columnNames = p.columnNames := by
  have hmap : ∀ {cs bs : List Column}, List.Forall₂ (fun c b => b.name = c.name) cs bs →
      bs.mapM Column.name = cs.mapM Column.name := by
    intro cs bs h
    induction h with
    | nil => rfl
    | cons hname _ ih => rw [List.mapM_cons, List.mapM_cons, hname, ih]
  unfold columnNames
  generalize p.columns = cs, q.columns = bs at h
  cases h with
  | none => rfl
  | some h =>
    rw [Option.mapM_some, Option.mapM_some, hmap h]

/-- The rows of a plan with columns. -/
lemma namedAfter_of_mem_replies {p : Plan} {columns : List Column} (hp : p.columns = some columns)
    {moments : List Cursor.Moment} {rows : List Value}
    (h : .ok rows ∈ Cursor.replies moments (.ofPlan p source)) {r : Value} (hr : r ∈ rows) :
    ∃ fields, r = .object fields ∧ ∀ name ∈ fields.map (·.1), NamedAfter columns name := by
  induction moments using List.reverseRecOn with
  | nil => cases h
  | append_singleton moments m ih =>
    rw [Cursor.replies_append, List.mem_append, List.mem_singleton] at h
    rcases h with h | h
    · exact ih h
    · have hsettles := Cursor.settles_perform m (Cursor.after moments (.ofPlan p source))
      rw [hsettles.rows rows h.symm] at hr
      obtain ⟨t, ht, hrow⟩ := List.mem_filterMap.mp hr
      obtain ⟨d, hd⟩ := exists_row_of_turn hrow
      rw [(hsettles.plan.2 t ht).2, (Cursor.Account.after p source moments).plan, row, hp] at hd
      obtain ⟨fields, hfields, rfl⟩ := map_eq_ok.mp hd
      exact ⟨fields, rfl, namedAfter_of_project hfields⟩

/-- **Names of columns**: binding gives every column the name that it has with a literal for each
parameter, which is the one it had unless its label shows a parameter; and the fields of every row
of the bound plan, on any source and after any steps, have names of these. -/
theorem columnNames_bind (h : p.bind env params = .ok bound) :
    (∀ e b : Expr, e.bind env params = .ok b →
      b.label = e.boundLabel ∧ (e.showsParam = false → b.label = e.label)) ∧
    Option.Rel (List.Forall₂ fun c b : Column => b.givenName = c.givenName ∧
      c.expr.bind env params = .ok b.expr ∧ b.name = c.boundName) p.columns bound.columns ∧
    ((∀ columns ∈ p.columns, ∀ c ∈ columns,
        c.givenName.truthy = .ok true ∨ c.expr.showsParam = false) →
      bound.columnNames = p.columnNames) ∧
    ∀ columns ∈ p.columns, ∀ source moments rows,
      .ok rows ∈ Cursor.replies moments (.ofPlan bound source) → ∀ r ∈ rows,
        ∃ fields, r = .object fields ∧ ∀ name ∈ fields.map (·.1), ∃ c ∈ columns, ∃ v,
          c.boundName = .ok v ∧ rowName v = .ok name ∧
          (c.givenName.truthy = .ok true ∨ c.expr.showsParam = false → c.name = .ok v) := by
  have hcolumns := columns_of_bind h
  refine ⟨fun e b hb => ?_, ?_, fun hkept => ?_, ?_⟩
  · have hlabel := Expr.label_of_bind e hb
    exact ⟨hlabel, fun hshows => hlabel.trans (e.boundLabel_eq hshows)⟩
  · generalize p.columns = cs, bound.columns = bs at hcolumns
    cases hcolumns with
    | none => exact .none
    | some hcs => exact .some (hcs.imp fun c b hb => ⟨hb.givenName, hb.expr, hb.name⟩)
  · refine columnNames_eq ?_
    generalize p.columns = cs, bound.columns = bs at hcolumns hkept
    cases hcolumns with
    | none => exact .none
    | some hcs =>
      have hboth := (List.forall₂_and_left _ _).mpr ⟨hkept _ rfl, hcs⟩
      exact .some (hboth.imp fun c b hb => hb.2.name.trans (Column.boundName_eq hb.1))
  · intro columns hp source moments rows hrows r hr
    rcases hbound : bound.columns with _ | bs
    · rw [Option.mem_def.mp hp, hbound] at hcolumns
      cases hcolumns
    · rw [Option.mem_def.mp hp, hbound] at hcolumns
      cases hcolumns with
      | some hcs =>
        obtain ⟨fields, hr, hfields⟩ := namedAfter_of_mem_replies hbound hrows hr
        refine ⟨fields, hr, fun name hname => ?_⟩
        obtain ⟨b, hb, v, hv, hshown⟩ := hfields name hname
        obtain ⟨c, hc, hbinds⟩ := exists_mem_of_forall₂ hcs hb
        rw [hbinds.name] at hv
        exact ⟨c, hc, v, hv, hshown, fun hkept => by rw [← Column.boundName_eq hkept, hv]⟩

/-- A column that is a parameter and is given no name. -/
theorem columnNames_bind_unnamedParam :
    let p : Plan := { columns := some [⟨.param (.text "p"), .null⟩] }
    p.columnNames = .ok (some [.text "p"]) ∧
      ∃ bound, p.bind {} [("p", .int 1)] = .ok bound ∧
        ∀ source moments rows, .ok rows ∈ Cursor.replies moments (.ofPlan bound source) →
          ∀ r ∈ rows, ∃ fields, r = .object fields ∧ ∀ name ∈ fields.map (·.1),
            name = "literal" := by
  obtain ⟨bound, h⟩ := exists_of_isOk (x := bind
    { columns := some [⟨.param (.text "p"), .null⟩] } {} [("p", .int 1)]) (by decide +kernel)
  refine ⟨rfl, bound, h, fun source moments rows hrows r hr => ?_⟩
  obtain ⟨-, -, -, hrow⟩ := columnNames_bind h
  obtain ⟨fields, hfields, hnames⟩ := hrow _ rfl source moments rows hrows r hr
  refine ⟨fields, hfields, fun name hname => ?_⟩
  obtain ⟨c, hc, v, hv, hshown, -⟩ := hnames name hname
  obtain rfl := List.mem_singleton.mp hc
  cases hv
  cases hshown
  rfl

end Plan

end NearDoc
