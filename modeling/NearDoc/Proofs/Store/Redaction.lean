import Mathlib.Data.List.Forall2
import NearDoc.Proofs.Outcome
import NearDoc.Session

/-!
What the record of a refused insertion tells of the document. Main statement: no more than whether
it is a mapping and which keys it has, as two documents that agree in these are refused alike and
leave the same record, whatever the issues say of the values.
-/

namespace NearDoc

/-- Mappings, objects or others, with the same keys in the same order, or values that are none. -/
inductive Supplied.SameOutline : Supplied → Supplied → Prop where
  | mapping {isObject isObject' : Bool} {entries entries' : List (Value × Value)}
      (h : entries.map (·.1) = entries'.map (·.1)) :
      SameOutline (.mapping isObject entries) (.mapping isObject' entries')
  | other {v w : Value} (hv : ∀ fields, v ≠ .object fields) (hw : ∀ fields, w ≠ .object fields) :
      SameOutline (.other v hv) (.other w hw)

/-- An entry tells of an issue where it is and what it is, beside anything of what was supplied. -/
inductive Issue.ToldBy (i : Issue) : Value → Prop where
  | entry (input context url : Value) :
      ToldBy i (.object ([("type", .text i.fault.code), ("loc", i.place),
        ("msg", .text i.fault.message), ("input", input)] ++
        (if i.fault.hasContext then [("ctx", context)] else []) ++ [("url", url)]))

/-! ### Records -/

namespace Record

variable {i : Issue} {issues : List Issue} {entries : List Value}

/-- Without its private parts, an entry tells of its issue alone. -/
lemma sanitize_told {entry : Value} (h : i.ToldBy entry) :
    sanitize entry = sanitize (i.toValue .null) := by
  obtain ⟨input, context, url⟩ := h
  rw [Issue.toValue]
  cases i.fault.hasContext <;> simp [sanitize, privateParts]

lemma told_toValue (i : Issue) (input : Value) : i.ToldBy (i.toValue input) :=
  .entry input input (.text "")

/-- **Redaction**: the record of a refused request depends on its issues alone. -/
theorem refusal_told (h : List.Forall₂ Issue.ToldBy issues entries) (name : Value)
    (subject : Fields) :
    refusal name entries subject = refusal name (issues.map (·.toValue .null)) subject := by
  have hsanitized : entries.map sanitize = (issues.map (·.toValue .null)).map sanitize := by
    rw [List.map_map, ← List.forall₂_eq_eq_eq, List.forall₂_map_left_iff,
      List.forall₂_map_right_iff]
    exact h.flip.imp fun _ _ hentry => sanitize_told hentry
  rw [refusal, refusal, hsanitized, ← h.length_eq, List.length_map]

end Record

/-! ### Checks -/

namespace InsertRequest

variable {d d' : Supplied} {entries entries' : List (Value × Value)}

/-- The keys of a mapping decide which of them are no names, and what its names are. -/
lemma keys_alike (h : entries.map (·.1) = entries'.map (·.1)) :
    keyIssues entries = keyIssues entries' ∧
      ((named entries).findSome? fun f => nameRule f.1) =
        (named entries').findSome? fun f => nameRule f.1 := by
  have hissues (es : List (Value × Value)) :
      keyIssues es = keyIssues ((es.map (·.1)).map (·, .null)) := by
    rw [keyIssues, keyIssues, List.flatMap_map, List.flatMap_map]
  have hnames (es : List (Value × Value)) :
      ((named es).findSome? fun f => nameRule f.1) =
        ((es.map (·.1)).filterMap fun key => (Check.text key).toOption).findSome? nameRule := by
    rw [← List.head?_filterMap, ← List.head?_filterMap, named, List.filterMap_filterMap,
      List.filterMap_filterMap, List.filterMap_map]
    refine congrArg List.head? (List.filterMap_congr fun e _ => ?_)
    simp only [Function.comp_apply]
    cases (Check.text e.1).toOption <;> rfl
  exact ⟨by rw [hissues entries, h, ← hissues], by rw [hnames, hnames, h]⟩

/-- The keys of a mapping decide whether it passes, and what is wrong with it. -/
lemma bodyOf_alike (h : d.SameOutline d') :
    (bodyOf (some d)).map (fun _ => ()) = (bodyOf (some d')).map fun _ => () := by
  cases h with
  | mapping h =>
    obtain ⟨hissues, hnames⟩ := keys_alike h
    simp only [bodyOf, hissues, hnames]
    split
    · split <;> rfl
    · rfl
  | other => rfl

/-- A check finds the same in two documents of one outline. -/
lemma check_alike (h : d.SameOutline d') (collection id : Option Value) :
    (check ⟨collection, id, some d⟩).map (fun _ => ()) =
      (check ⟨collection, id, some d'⟩).map fun _ => () := by
  have hbody := bodyOf_alike h
  unfold check
  dsimp only
  generalize bodyOf (some d) = body, bodyOf (some d') = body' at hbody ⊢
  rcases body with fault | body <;> rcases body' with fault' | body' <;> cases hbody
  · rfl
  · rcases collectionOf collection with _ | _ <;> rcases idOf id with _ | _ <;> rfl

/-- A check fails with a list of issues. -/
lemma exists_issues_of_check {a : InsertArguments} {e : Error} (h : check a = .error e) :
    ∃ issues, e = .invalid issues := by
  unfold check at h
  split at h
  · cases h
  · cases h
    exact ⟨_, rfl⟩

end InsertRequest

/-! ### Insertions -/

namespace Session

variable {s s' : Session} {d d' : Supplied} {collection id : Value} {e : Error}

lemma insertFault_eq (hs : s.env.settings.strict = true) (collection : Value) (document : Supplied)
    (id : Value) :
    s.insertFault collection document id =
      match (InsertRequest.check ⟨some collection, some id, some document⟩).map fun _ => () with
      | .ok () => none
      | .error e => some e := by
  rw [insertFault, if_pos hs]
  cases InsertRequest.check ⟨some collection, some id, some document⟩ <;> rfl

lemma exists_issues_of_insertFault (h : s.insertFault collection d id = some e) :
    ∃ issues, e = .invalid issues := by
  rw [insertFault] at h
  split at h
  · split at h
    · cases h
    · rename_i hcheck
      cases h
      exact InsertRequest.exists_issues_of_check hcheck
  · cases h

/-- A record of a refusal is that of its issues, whatever was supplied. -/
lemma refusalRecords_invalid (collection : Value) (document : Supplied) (id : Value)
    (issues : List Issue) :
    refusalRecords collection document id (.invalid issues) =
      [.refusal (.text "document.insert") (issues.map (·.toValue .null))
        [("collection", collection), ("doc_id", id)]] := by
  have htold : List.Forall₂ Issue.ToldBy issues (issues.map (·.toValue document.toValue)) := by
    rw [List.forall₂_map_right_iff, List.forall₂_same]
    exact fun i _ => Record.told_toValue i document.toValue
  rw [refusalRecords, Record.refusal_told htold]

/-- What a refused insertion comes to, whatever it would have done: one record, or none if an
identifier is too long to be written. -/
lemma screened_of_fault {issues : List Issue}
    (h : s.insertFault collection d id = some (.invalid issues))
    (insertion : Session × Except Error String) :
    s.screened collection d id insertion =
      if collection.isWritable && id.isWritable then
        (s.record [.refusal (.text "document.insert") (issues.map (·.toValue .null))
          [("collection", collection), ("doc_id", id)]], .error (.invalid issues))
      else (s, .error .integerTooLong) := by
  rw [screened, h]
  dsimp only
  rw [refusalRecords_invalid]

/-- **Refused insertions**: two documents of one outline are refused alike or not at all. When they
are, both insertions leave one and the same record, or both none over an identifier that is too long
to be written. It is the record of any entries that tell of the issues, whatever values they
hold. -/
theorem refused_alike (hs : s.env.settings.strict = true) (hs' : s'.env.settings.strict = true)
    (h : d.SameOutline d') (collection id : Value) :
    s.insertFault collection d id = s'.insertFault collection d' id ∧
      ∀ e, s.insertFault collection d id = some e → ∃ issues r, e = .invalid issues ∧
        (∀ entries, List.Forall₂ Issue.ToldBy issues entries →
          Record.refusal (.text "document.insert") entries
            [("collection", collection), ("doc_id", id)] = r) ∧
        ∀ insertion insertion',
          if collection.isWritable && id.isWritable then
            s.screened collection d id insertion = (s.record [r], .error e) ∧
              s'.screened collection d' id insertion' = (s'.record [r], .error e)
          else s.screened collection d id insertion = (s, .error .integerTooLong) ∧
            s'.screened collection d' id insertion' = (s', .error .integerTooLong) := by
  have hfault : s.insertFault collection d id = s'.insertFault collection d' id := by
    rw [insertFault_eq hs, insertFault_eq hs', InsertRequest.check_alike h]
  refine ⟨hfault, fun e he => ?_⟩
  obtain ⟨issues, rfl⟩ := exists_issues_of_insertFault he
  refine ⟨issues, _, rfl, fun entries hentries => Record.refusal_told hentries _ _,
    fun insertion insertion' => ?_⟩
  rw [screened_of_fault he, screened_of_fault (hfault ▸ he)]
  split <;> exact ⟨rfl, rfl⟩

/-- Of two values that are no objects one may be taken and the other refused: the first is another
mapping. An insertion that fails at a declared vector has told of the vectors before it, and of the
document's own identifier. -/
theorem not_refused_alike :
    let s : Session := Session.assign {} [("DOCVEC_SCHEMA_VALIDATION_STRICT", "true")]
    let mapping : Supplied := .mapping false [(.text "a", .int 1)]
    let list : Supplied := Value.list [.int 1]
    let owned (id : String) : Value :=
      .object [("_id", .text id), ("v", .list [.int 1]), ("w", .text "x")]
    let insertion (id : String) :=
      s.insert (.text "c") (owned id) .null (.list [.text "v", .text "w"])
    s.env.settings.strict = true ∧
      mapping.isObject = false ∧ (s.insertFault (.text "c") mapping .null).isNone = true ∧
      list.isObject = false ∧ (s.insertFault (.text "c") list .null).isSome = true ∧
      (insertion "secret").2.isOk = false ∧ (insertion "public").2.isOk = false ∧
      (insertion "secret").1.log.map Record.text ≠ (insertion "public").1.log.map Record.text := by
  decide +kernel

/-- A name with a point in it is refused, over a number as over a text, and so is a key that is no
name; the issue tells the key and not what stands under it. -/
theorem refused_alike_dotted :
    let s : Session := Session.assign {} [("DOCVEC_SCHEMA_VALIDATION_STRICT", "true")]
    let d : Value := .object [("a.b", .int 1)]
    let d' : Value := .object [("a.b", .text "secret")]
    let numbered : Supplied := .mapping true [(.text "a", .int 1), (.int 7, .text "secret")]
    let numbered' : Supplied := .mapping false [(.text "a", .null), (.int 7, .int 2)]
    s.env.settings.strict = true ∧ Supplied.SameOutline d d' ∧ numbered.SameOutline numbered' ∧
      s.insertFault (.text "c") d .null = s.insertFault (.text "c") d' .null ∧
      (s.insertFault (.text "c") d .null).isSome = true ∧
      (∃ r e, s.insert (.text "c") d .null (.list []) = (s.record [r], .error e) ∧
        s.insert (.text "c") d' .null (.list []) = (s.record [r], .error e)) ∧
      s.insertFault (.text "c") numbered' .null = some (.invalid
        [⟨"body", [.index 7, .name "[key]"], .notText⟩]) := by
  intro s d d' numbered numbered'
  have hstrict : s.env.settings.strict = true := by decide +kernel
  have hsame : Supplied.SameOutline d d' := .mapping rfl
  have hnumbered : numbered.SameOutline numbered' := .mapping rfl
  have hrefused : (s.insertFault (.text "c") d .null).isSome = true := by decide +kernel
  have hnumber : s.insertFault (.text "c") numbered .null = some (.invalid
      [⟨"body", [.index 7, .name "[key]"], .notText⟩]) := by decide +kernel
  obtain ⟨hfault, hrecords⟩ := refused_alike hstrict hstrict hsame (.text "c") .null
  obtain ⟨hfault', -⟩ := refused_alike hstrict hstrict hnumbered (.text "c") .null
  obtain ⟨e, he⟩ := Option.isSome_iff_exists.mp hrefused
  obtain ⟨issues, r, -, -, hscreened⟩ := hrecords e he
  exact ⟨hstrict, hsame, hnumbered, hfault, hrefused, ⟨r, e, hscreened _ _⟩, hfault' ▸ hnumber⟩

end Session

end NearDoc
