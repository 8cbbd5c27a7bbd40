import NearDoc.Proofs.Query.Answer
import NearDoc.Proofs.Store.Declared

/-!
Names of fields that are used as paths. The check of an insertion wants names that are not empty and
have no dots, while a path is trimmed before it is followed. Main statement: so an admitted name
reaches its field if it has no blanks around it; otherwise it reaches the field of the name without
them, or nothing, and a name of blanks only is refused as a path.
-/

namespace NearDoc

open Text

/-! ### Ways along a path -/

/-- The cell of a column that is left out where there is no value. -/
def Fields.cell (name : String) (v : Value) : Fields := if v.isUndefined then [] else [(name, v)]

/-- What is told of a declared path, by what the value there is cast to. -/
def Session.castRecords (collection : Value) (id path : String) :
    Except Error (Option Embedding) → List Record × Except Error Unit
  | .error e => ([], .error e)
  | .ok none => ([], .ok ())
  | .ok (some e) => ([attached collection id path e], .ok ())

/-- A path reaches a value in a document: by itself, as an expression, as the only column of an
answer, and as the only declared field of an insertion. -/
structure Value.Reaches (document : Value) (path : String) (v : Value) : Prop where
  direct : document.atPath path = .ok v
  field : ∃ e, Expr.field? (.text path) = .ok e ∧ ∀ env, e.eval env document = .ok v
  column : ∃ b : Builder, Builder.select { operators := .standard } [.text path] [] = .ok b ∧
    ∀ env store, ∃ c, b.build.execute env [] (some (.documents [document])) = .ok c ∧
      (c.fetch env store none).2 = .ok [.object (Fields.cell path v)]
  declared : ∀ collection id,
    Session.castDeclared collection id document (.list [.text path]) =
      Session.castRecords collection id path (Embedding.ofDeclared v)

/-- A path is refused as blank on each of these ways, whatever the document. -/
structure Path.Refused (path : String) : Prop where
  direct : ∀ document : Value, document.atPath path = .error .emptyPath
  field : Expr.field? (.text path) = .error .emptyPath
  column : ∀ b : Builder, b.select [.text path] [] = .error .emptyPath
  declared : ∀ collection id document,
    Session.castDeclared collection id document (.list [.text path]) = ([], .error .emptyPath)

/-- Where a name leads that is used as a path into an object: to its field, if there are no blanks
around it, and otherwise to the field of the name without them. -/
structure Fields.Addresses (fields : Fields) (name : String) : Prop where
  own : trimmed name = name → ∀ v, Fields.get? fields name = some v →
    (Value.object fields).Reaches name v
  padded : isAllBlank name = false →
    (Value.object fields).Reaches name ((Fields.get? fields (trimmed name)).getD .undefined)
  blank : isAllBlank name = true → Path.Refused name

variable {fields : Fields} {document v : Value} {path name : String} {parts : List (List Char)}

/-! ### A path that leads to a value -/

lemma Expr.field?_of_divides (h : Path.Divides path parts) :
    Expr.field? (.text path) = .ok (.field path) := by
  rw [Expr.field?, Path.segments_eq_ok_iff.mpr h]
  rfl

lemma Session.castDeclared_one (collection : Value) (id : String) (document : Value)
    (path : String) : castDeclared collection id document (.list [.text path]) =
      castRecords collection id path (Embedding.declared document path) := by
  have hpath : Embedding.declared document (Value.text path).pathText =
      Embedding.declared document path := rfl
  change castFields collection id document [.text path] = _
  rw [castFields_cons, hpath]
  rcases Embedding.declared document path with e | _ | e <;> rfl

namespace Plan

/-- The plan that shows what is at one path. -/
def showing (path : String) : Plan := { columns := some [{ expr := .field path }] }

lemma declared_showing (path : String) : (showing path).Declared where
  limit := .inl rfl
  descending := nofun
  givenName := by
    rintro _ ⟨⟩ c hc
    rw [List.mem_singleton.mp hc]
    exact .inl rfl

lemma labelled_showing (path : String) : (showing path).Labelled := by
  rintro _ ⟨⟩ c hc
  rw [List.mem_singleton.mp hc]
  exact ⟨path, rfl⟩

lemma evaluates_showing (env : Environment) (h : document.atPath path = .ok v) :
    (showing path).Evaluates env [document] where
  predicate := nofun
  keys := nofun
  columns := by
    rintro _ ⟨⟩ c hc d hd
    rw [List.mem_singleton.mp hc, List.mem_singleton.mp hd]
    exact ⟨v, h⟩

/-- The answer is one row, with a cell for the value at the path. -/
lemma answer_showing (env : Environment) (h : document.atPath path = .ok v) :
    (showing path).answer env [document] = [.object (Fields.cell path v)] := by
  have hvalue : (Expr.field path).valueOn env document = v := Expr.valueOn_eq h
  have hcells : cells env [{ expr := .field path }] document = Fields.cell path v := by
    rw [cells, List.filterMap_cons, hvalue]
    cases v <;> rfl
  change [Value.object (cells env [{ expr := .field path }] document).lastOfEach] = _
  rw [hcells, ← Fields.ofList_eq_lastOfEach, Fields.cell]
  split <;> rfl

lemma execute_showing (h : document.atPath path = .ok v) (env : Environment) (store : Store) :
    ∃ c, (showing path).execute env [] (some (.documents [document])) = .ok c ∧
      (c.fetch env store none).2 = .ok [.object (Fields.cell path v)] := by
  obtain ⟨x, hx, hready⟩ := exists_start store (declared_showing path) (labelled_showing path)
    (evaluates_showing env h) nofun
  rw [← answer_showing env h]
  exact ⟨.ofPlan (showing path) (.documents [document]), rfl,
    Cursor.fetch_of_yields hx hready.yields hready.enough⟩

end Plan

lemma Value.reaches_of_divides (h : Path.Divides path parts) (document : Value) :
    document.Reaches path (document.follow parts) := by
  have hdirect := atPath_of_divides h document
  have hfield := Expr.field?_of_divides h
  refine ⟨hdirect, ⟨.field path, hfield, fun _ => hdirect⟩, ?_, fun collection id => ?_⟩
  · have hselect : Builder.select { operators := .standard } [.text path] [] =
        .ok { operators := .standard, columns := some [{ expr := .field path }] } := by
      simp [Builder.select, hfield, Bind.bind, Except.bind, pure, Except.pure]
    exact ⟨_, hselect, Plan.execute_showing hdirect⟩
  · rw [Session.castDeclared_one, Embedding.declared, hdirect]
    rfl

lemma Path.refused_of_blank (h : isAllBlank path = true) : Refused path := by
  have hsegments : segments path = .error .emptyPath := by
    rw [segments_eq_error (not_isValid_of_blank h), if_pos h]
  have hdirect : ∀ document : Value, document.atPath path = .error .emptyPath := fun document => by
    rw [Value.atPath, hsegments]
    rfl
  have hfield : Expr.field? (.text path) = .error .emptyPath := by
    rw [Expr.field?, hsegments]
    rfl
  refine ⟨hdirect, hfield, fun b => ?_, fun collection id document => ?_⟩
  · simp [Builder.select, hfield, Bind.bind, Except.bind]
  · rw [Session.castDeclared_one, Embedding.declared, hdirect]
    rfl

/-- **One name**: a name without dots addresses the field of the name without blanks around it. -/
theorem Fields.addresses (hname : name ≠ "") (hdot : '.' ∉ name.toList) (fields : Fields) :
    Fields.Addresses fields name := by
  have hpadded : isAllBlank name = false →
      (Value.object fields).Reaches name ((get? fields (trimmed name)).getD .undefined) :=
    fun hblank => Value.reaches_of_divides (Path.divides_of_undotted hdot hblank) _
  refine ⟨fun htrimmed v hv => ?_, hpadded, Path.refused_of_blank⟩
  have hblank : isAllBlank name = false := by
    rw [Bool.eq_false_iff]
    intro hblank
    apply hname
    rw [← htrimmed, trimmed, (Path.isAllBlank_iff name).mp hblank]
  have hreaches := hpadded hblank
  rwa [htrimmed, hv] at hreaches

/-! ### Inserted objects -/

namespace Session

variable {s : Session} {l : Ledger} {collection id vectorFields : Value} {key : String}

/-- What is read of an object that was inserted: its fields as they are read back, and the
identifier that was answered. -/
structure Holds (s : Session) (collection : Value) (key : String) (fields stored : Fields) :
    Prop where
  read : s.get collection (.text key) = (s, .ok (some (.object stored)))
  field : ∀ name, Fields.get? stored name =
    if name = idField then some (.text key) else (Fields.get? fields name).map Json.readBack

/-- **Inserted objects** are read back under the identifier that is answered. -/
theorem Keeps.exists_holds (h : s.Keeps l)
    (hfields : ∀ w ∈ (Value.object fields).parts, w.WellFormed)
    (hkey : (s.insert collection (.object fields) id vectorFields).2 = .ok key) :
    ∃ stored, (s.insert collection (.object fields) id vectorFields).1.Holds collection key fields
      stored := by
  have hshaped : (Value.object fields).Shaped := Value.shaped_of_wellFormed _ hfields
  have hnames : (fields.map (·.1)).Nodup := hfields _ (Value.self_mem_parts _)
  have hmatches := h.insert collection hshaped id vectorFields
  rcases hinsert : l.insert s.env collection (.object fields) id vectorFields with ⟨l', reply⟩
  rw [hinsert] at hmatches
  have hreply : reply = .ok key := hmatches.reply.symm.trans hkey
  subst hreply
  obtain ⟨x, hfiles, rfl, hholdings⟩ := Ledger.files_of_insert hinsert
  obtain ⟨_, ⟨⟩, hbody⟩ := hfiles.body
  have hmem : x ∈ l'.holdings := hholdings ▸ Holding.mem_file x l.holdings
  obtain ⟨hget, -⟩ := hmatches.keeps.shows.reads hfiles.named hmem
  refine ⟨_, hget, fun name => ?_⟩
  split
  · -- the identifier stands in the place of what the object had under its name
    rename_i hname
    rw [hname, Fields.get?_set_self]
  · rename_i hname
    exact Holding.get?_document hnames hbody hname

end Session

namespace InsertRequest

/-- The names of an admitted body are not empty and have no dots. -/
lemma wellNamed_of_check {a : InsertArguments} {r : InsertRequest} (h : check a = .ok r) :
    r.body.WellNamed := by
  rw [check] at h
  split at h
  · rename_i hbody
    cases h
    rcases hdocument : a.body with _ | document
    · rw [hdocument] at hbody
      cases hbody
    · rw [hdocument] at hbody
      obtain ⟨-, entries, -, rfl, hnamed⟩ := wellNamed_of_bodyOf hbody
      exact fun f hf => hnamed f (Fields.mem_ofList hf)
  · cases h

/-- **Admitted names**: where the name of a field that the check admits is used as a path, it leads
to the field if it has no blanks around it, to the field of the name without them otherwise, and
nowhere at all if there is nothing but blanks; so it does in what is read of the object once it is
inserted, whatever has been changed before. -/
theorem addresses_admitted {a : InsertArguments} {r : InsertRequest} (h : check a = .ok r)
    (s : Session) (hs : s.store = { state := .ready }) {cs : List Change}
    (hcs : ∀ c ∈ cs, c.Shaped) (env : Environment) :
    (∀ f ∈ r.body, Fields.Addresses r.body f.1) ∧
      ∀ (collection id vectorFields : Value) (key : String),
        (∀ w ∈ (Value.object r.body).parts, w.WellFormed) →
        let t : Session := { (s.changeAll cs).1 with env }
        let inserted := t.insert collection (.object r.body) id vectorFields
        inserted.2 = .ok key →
        ∃ stored, inserted.1.Holds collection key r.body stored ∧
          ∀ f ∈ r.body, Fields.Addresses stored f.1 := by
  have hnamed := wellNamed_of_check h
  refine ⟨fun f hf => Fields.addresses (hnamed f hf).1 (hnamed f hf).2 r.body, ?_⟩
  intro collection id vectorFields key hformed t inserted hkey
  obtain ⟨hkeeps, -⟩ := (Session.keeps_new hs).changeAll hcs
  obtain ⟨stored, hholds⟩ := (hkeeps.withEnv env).exists_holds hformed hkey
  exact ⟨stored, hholds, fun f hf => Fields.addresses (hnamed f hf).1 (hnamed f hf).2 stored⟩

/-- Two names that lead to one field, and a blank that cannot be declared. -/
theorem addresses_admitted_padded :
    let fields : Fields := [("a", .int 1), (" a", .list [.int 2]), ("\u00a0", .list [.int 3])]
    let r : InsertRequest := ⟨"c", some "x", fields⟩
    let s : Session := { store := { state := .ready } }
    let env : Environment := { settings := ⟨[("DOCVEC_SCHEMA_VALIDATION_STRICT", "true")]⟩ }
    let inserted := ({ s with env } : Session).insert (.text "c") (.object fields) (.text "x")
      (.list [])
    check ⟨some (.text "c"), some (.text "x"), some (Value.object fields)⟩ = .ok r ∧
      s.store = { state := .ready } ∧ (∀ c ∈ ([] : List Change), c.Shaped) ∧
      (∀ w ∈ (Value.object fields).parts, w.WellFormed) ∧ inserted.2 = .ok "x" ∧
      (Value.object fields).Reaches "a" (.int 1) ∧ (Value.object fields).Reaches " a" (.int 1) ∧
      Path.Refused "\u00a0" ∧
      ∃ stored, Fields.get? stored " a" = some (.list [.int 2]) ∧
        (Value.object stored).Reaches " a" (.int 1) := by
  intro fields r s env inserted
  have hcheck : check ⟨some (.text "c"), some (.text "x"), some (Value.object fields)⟩ =
      .ok r := by rfl
  have hformed : ∀ w ∈ (Value.object fields).parts, w.WellFormed := by
    simp [fields, Value.parts, Value.partsFields, Value.partsList, Value.WellFormed]
  have hinserted : inserted.2 = .ok "x" := by decide +kernel
  have hchanges : ∀ c ∈ ([] : List Change), c.Shaped := List.forall_mem_nil _
  obtain ⟨hbody, hstored⟩ := addresses_admitted hcheck s rfl hchanges env
  obtain ⟨stored, hholds, haddresses⟩ := hstored (.text "c") (.text "x") (.list []) "x" hformed
    hinserted
  have ha : ("a", Value.int 1) ∈ r.body := List.mem_cons_self
  have hpadded : (" a", Value.list [.int 2]) ∈ r.body := List.mem_cons_of_mem _ List.mem_cons_self
  have hblank : ("\u00a0", Value.list [.int 3]) ∈ r.body := by simp [r, fields]
  refine ⟨hcheck, rfl, hchanges, hformed, hinserted, (hbody _ ha).own (by decide) _ rfl,
    (hbody _ hpadded).padded (by decide), (hbody _ hblank).blank (by decide), stored, ?_, ?_⟩
  · rw [hholds.field]
    rfl
  · have hreaches := (haddresses _ hpadded).padded (by decide)
    rwa [hholds.field] at hreaches

end InsertRequest

end NearDoc
