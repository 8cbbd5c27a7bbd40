import NearDoc.Proofs.Store.Refinement
import NearDoc.Proofs.Validation.Near
import NearDoc.Proofs.Value.Fields

/-!
Strict validation. Under strict settings the collection's name, the identifier that is given and the
names of the fields are checked before a document is stored, so that every row is well named. The
identifier that a document has itself is not checked: it is the only one that may be blank. Main
statement: so it is with every row of a store that was empty, whatever the changes.
-/

namespace NearDoc

open Text

/-! ### Well-named rows -/

/-- Letters, digits, underscores and hyphens, and at least one of them. -/
def Text.IsTidy (s : String) : Prop :=
  s ≠ "" ∧ ∀ c ∈ s.toList, isAlphanumeric c ∨ c = '_' ∨ c = '-'

/-- The name is a tidy text; bytes are so as the text that they encode. -/
def CollectionName.IsTidy : CollectionName → Prop
  | .text s => Text.IsTidy s
  | .bytes bs => ∃ s, String.fromUTF8? ⟨bs.toArray⟩ = some s ∧ Text.IsTidy s

/-- Names that are not empty and have no dot. -/
def Fields.WellNamed (fields : Fields) : Prop := ∀ f ∈ fields, f.1 ≠ "" ∧ '.' ∉ f.1.toList

/-- A row with a tidy collection, whose text is that of an object of well-named fields. -/
structure Row.WellNamed (r : Row) : Prop where
  collection : r.collection.IsTidy
  body : ∃ fields, Json.decode r.body = .ok (.object fields) ∧ Fields.WellNamed fields

/-- The identifier that a document has itself, as a text. -/
def Value.ownId? : Value → Option String
  | .object fields => (Fields.get? fields idField).map Value.toText
  | _ => none

/-- The documents that a change inserts under no given identifier. -/
def Change.unnamed : Change → List Value
  | .insert _ document id _ => if id.isNull then [document] else []
  | .insertMany _ documents _ => (documents.elements.toOption).getD []
  | .delete .. => []

namespace Fields

lemma WellNamed.without {fields : Fields} (h : fields.WellNamed) (name : String) :
    (fields.without name).WellNamed := fun f hf => h f (List.mem_filter.mp hf).1

/-- The names of an object that is read back are its own. -/
lemma WellNamed.kept {fields : Fields} (h : fields.WellNamed) :
    WellNamed (ofList (sortByName (Json.readBackFields fields))) := by
  intro f hf
  have hmem := (perm_sortByName _).mem_iff.mp (mem_ofList hf)
  rw [Json.readBackFields_eq] at hmem
  obtain ⟨g, hg, rfl⟩ := List.mem_map.mp hmem
  exact h g hg

end Fields

/-! ### Checked arguments -/

lemma Value.eq_toText_of_asText {v : Value} {key : String} (h : v.asText = .ok key) :
    v.toText = key := by
  rw [asText] at h
  split at h
  · exact Except.ok.inj h
  · cases h

lemma isAllBlank_of_mem {s : String} {c : Char} (hc : c ∈ s.toList) (hblank : isBlank c = false) :
    isAllBlank s = false := by
  rw [isAllBlank, List.all_eq_false]
  exact ⟨c, hc, by simp [hblank]⟩

lemma isAllBlank_quotedBytes (bs : List UInt8) : isAllBlank (quotedBytes bs) = false := by
  refine isAllBlank_of_mem (c := 'b') ?_ (by decide)
  rw [quotedBytes, String.toList_ofList]
  simp

/-- A generated identifier has digits, and these are no blanks. -/
lemma isAllBlank_generatedId (n : Nat) : isAllBlank (Session.generatedId n) = false := by
  have hdigit : ∀ d < 16, isBlank (Nat.digitChar d) = false := by decide
  have hlast : Nat.digitChar (n % 16) ∈ Nat.toDigits 16 n := by
    rcases Nat.lt_or_ge n 16 with hn | hn
    · rw [Nat.toDigits_of_lt_base hn, Nat.mod_eq_of_lt hn]
      exact List.mem_singleton_self _
    · rw [Nat.toDigits_of_base_le (by decide) hn]
      exact List.mem_append_right _ (List.mem_singleton_self _)
  refine isAllBlank_of_mem ?_ (hdigit _ (Nat.mod_lt n (by decide)))
  rw [Session.generatedId, String.toList_ofList, hexPadded]
  exact List.mem_append_right _ hlast

namespace InsertRequest

variable {collection id document : Value}

/-- A collection that passes is kept under a tidy name. -/
lemma exists_tidy_of_collectionOf {s : String} (h : collectionOf (some collection) = .ok s) :
    ∃ name, CollectionName.ofValue collection = .ok (some name) ∧ name.IsTidy := by
  obtain ⟨htext, hrule⟩ := Check.text_of_textWith h
  have htidy : Text.IsTidy s := by
    rw [collectionRule] at hrule
    split at hrule
    · cases hrule
    · rename_i hblank
      split at hrule
      · rename_i hall
        refine ⟨?_, by simpa [or_assoc] using hall⟩
        rintro rfl
        exact hblank rfl
      · cases hrule
  cases collection with
  | text t =>
    cases htext
    exact ⟨.text s, rfl, htidy⟩
  | bytes bs =>
    refine ⟨.bytes bs, rfl, s, ?_, htidy⟩
    rw [Check.text] at htext
    rcases hs : String.fromUTF8? ⟨bs.toArray⟩ with _ | t
    · rw [hs] at htext
      cases htext
    · rw [hs] at htext
      cases htext
      rfl
  | _ => cases htext

lemma idOf_of_isNull (hid : id.isNull = false) :
    idOf (some id) = (Check.textWith idRule id).map some := by
  cases id with
  | null => cases hid
  | _ => rfl

/-- A given identifier that passes has a text that is not blank. -/
lemma isAllBlank_of_idOf {given : Option String} (h : idOf (some id) = .ok given)
    (hid : id.isNull = false) : isAllBlank id.toText = false := by
  rw [idOf_of_isNull hid] at h
  obtain ⟨s, hs, -⟩ := map_eq_ok.mp h
  obtain ⟨htext, hrule⟩ := Check.text_of_textWith hs
  cases id with
  | text t =>
    cases htext
    rw [idRule] at hrule
    split at hrule
    · cases hrule
    · rename_i hblank
      simpa [Value.toText] using hblank
  | bytes bs => exact isAllBlank_quotedBytes bs
  | _ => cases htext

lemma wellNamed_of_nameRule {fields : Fields}
    (h : (fields.findSome? fun f => nameRule f.1) = none) : fields.WellNamed := fun f hf => by
  have hrule := List.findSome?_eq_none_iff.mp h f hf
  rw [nameRule] at hrule
  split at hrule
  · cases hrule
  · rename_i hempty
    split at hrule
    · cases hrule
    · rename_i hdot
      exact ⟨by simpa using hempty, by simpa using hdot⟩

/-- A document that passes is a mapping of well-formed names. -/
lemma wellNamed_of_bodyOf {d : Supplied} {fields : Fields} (h : bodyOf (some d) = .ok fields) :
    ∃ isObject entries, d = .mapping isObject entries ∧ fields = Fields.ofList (named entries) ∧
      Fields.WellNamed (named entries) := by
  cases d with
  | mapping isObject entries =>
    rw [bodyOf] at h
    split at h
    · split at h
      · cases h
      · rename_i hnone
        exact ⟨isObject, entries, rfl, (Except.ok.inj h).symm, wellNamed_of_nameRule hnone⟩
    · cases h
  | other v hv => cases h

/-- An object is its own mapping. -/
lemma named_of_fields (fields : Fields) :
    named (fields.map fun f => (.text f.1, f.2)) = fields := by
  rw [named, List.filterMap_map]
  exact List.filterMap_some

lemma exists_object_of_bodyOf {fields : Fields} (h : bodyOf (some document) = .ok fields) :
    ∃ fields, document = .object fields ∧ Fields.WellNamed fields := by
  obtain ⟨_, entries, hd, -, hnamed⟩ := wellNamed_of_bodyOf h
  cases document with
  | object fields =>
    cases hd
    exact ⟨fields, rfl, named_of_fields fields ▸ hnamed⟩
  | _ => cases hd

/-- What is known of arguments that pass the check. -/
structure Passed (collection id document : Value) : Prop where
  collection : ∃ name, CollectionName.ofValue collection = .ok (some name) ∧ name.IsTidy
  id : id.isNull = false → isAllBlank id.toText = false
  document : ∃ fields, document = .object fields ∧ Fields.WellNamed fields

theorem passed_of_check {r : InsertRequest}
    (h : check ⟨some collection, some id, some document⟩ = .ok r) :
    Passed collection id document := by
  rw [check] at h
  split at h
  · rename_i c i b hc hi hb
    exact ⟨exists_tidy_of_collectionOf hc, isAllBlank_of_idOf hi, exists_object_of_bodyOf hb⟩
  · cases h

end InsertRequest

/-! ### Rows -/

/-- A row of a table into which a document was written: one that was there, but perhaps for its
text, or the new one. -/
lemma Store.mem_putRow {collection : CollectionName} {id body : String} {r : Row}
    {rows : List Row} (h : r ∈ Store.putRow collection id body rows) :
    r ∈ rows ∨ r.collection = collection ∧ r.id = id ∧ r.body = body := by
  unfold Store.putRow at h
  split at h
  · obtain ⟨x, hx, rfl⟩ := List.mem_map.mp h
    split
    · rename_i hkey
      have hkey' : x.collection = collection ∧ x.id = id := by simpa [Row.hasKey] using hkey
      exact .inr ⟨hkey'.1, hkey'.2, rfl⟩
    · exact .inl hx
  · rcases List.mem_cons.mp h with rfl | h
    · exact .inr ⟨rfl, rfl, rfl⟩
    · exact .inl h

namespace Store

variable {s t : Store} {collection : Value}

lemma of_named {rows : List Row} {name : Option CollectionName}
    (h : s.named collection = .ok (rows, name)) :
    rows = s.rows ∧ CollectionName.ofValue collection = .ok name := by
  obtain ⟨rows', htable, h⟩ := bind_eq_ok.mp h
  obtain ⟨name', hname, h⟩ := bind_eq_ok.mp h
  cases h
  refine ⟨?_, hname⟩
  rw [table] at htable
  split at htable
  · cases htable
  · exact (Except.ok.inj htable).symm

/-- A row of a store after one was put: it was there, or it is the one that was put. -/
lemma mem_of_put {id body : String} (h : s.put collection id body = .ok t) {r : Row}
    (hr : r ∈ t.rows) :
    r ∈ s.rows ∨ r.id = id ∧ r.body = body ∧
      CollectionName.ofValue collection = .ok (some r.collection) := by
  obtain ⟨⟨rows, name⟩, hnamed, h⟩ := bind_eq_ok.mp h
  obtain ⟨rfl, hname⟩ := of_named hnamed
  rcases name with _ | name
  · cases h
  · cases h
    rcases mem_putRow hr with hr | ⟨rfl, hid, hbody⟩
    · exact .inl hr
    · exact .inr ⟨hid, hbody, hname⟩

lemma mem_of_delete {id : String} {deleted : Bool}
    (h : s.delete collection id = .ok (t, deleted)) {r : Row} (hr : r ∈ t.rows) : r ∈ s.rows := by
  obtain ⟨⟨rows, name⟩, hnamed, h⟩ := bind_eq_ok.mp h
  obtain ⟨rfl, -⟩ := of_named hnamed
  rcases name with _ | name
  · cases h
    exact hr
  · cases h
    exact (List.mem_filter.mp hr).1

end Store

namespace Session

/-- Under strict settings, rows that are well named, and of which only some may be under a blank
identifier. -/
structure Checked (s : Session) (own : String → Prop) : Prop where
  strict : s.env.settings.strict = true
  rows : ∀ r ∈ s.store.rows, r.WellNamed ∧ (isAllBlank r.id → own r.id)

variable {s : Session} {own : String → Prop} {collection document id vectorFields : Value}

lemma Checked.record (h : s.Checked own) (records : List Record) :
    (s.record records).Checked own := ⟨h.strict, h.rows⟩

lemma Checked.passed (h : s.Checked own) (hfault : s.insertFault collection document id = none) :
    InsertRequest.Passed collection id document := by
  rw [insertFault, if_pos h.strict] at hfault
  split at hfault
  · rename_i r hr
    exact InsertRequest.passed_of_check hr
  · cases hfault

/-- An identifier that is found is not blank, unless it is the document's own. -/
lemma Checked.resolveId (h : s.Checked own) (hid : id.isNull = false → isAllBlank id.toText = false)
    (hown : id.isNull → ∀ key, document.ownId? = some key → own key) :
    (s.resolveId document id).1.Checked own ∧
      ∀ key, (s.resolveId document id).2 = .ok key → isAllBlank key → own key := by
  unfold Session.resolveId
  split
  · rename_i hgiven
    refine ⟨h, fun key hkey hblank => ?_⟩
    rw [← Value.eq_toText_of_asText hkey, hid (by simpa using hgiven)] at hblank
    cases hblank
  · rename_i hnull
    split
    · rename_i fields
      have hnew : ∀ key, (.ok (generatedId (s.generated + 1)) : Except Error String) = .ok key →
          isAllBlank key → own key := by
        intro key hkey hblank
        cases hkey
        rw [isAllBlank_generatedId] at hblank
        cases hblank
      split
      · exact ⟨⟨h.strict, h.rows⟩, hnew⟩
      · exact ⟨⟨h.strict, h.rows⟩, hnew⟩
      · rename_i v _ hv
        refine ⟨h, fun key hkey _ => hown (by simpa using hnull) key ?_⟩
        rw [Value.ownId?, hv, Option.map_some, Value.eq_toText_of_asText hkey]
    · exact ⟨h, fun _ hkey => by cases hkey⟩

/-- A body that is stored is read back as an object of well-named fields. -/
lemma wellNamed_of_bodyText {fields : Fields} {key body : String}
    (hnames : Fields.WellNamed fields) (hshaped : (Value.object fields).Shaped)
    (h : bodyText key (.object fields) = .ok body) :
    ∃ fields, Json.decode body = .ok (.object fields) ∧ Fields.WellNamed fields := by
  rw [bodyText] at h
  split at h
  · rename_i text htext
    cases h
    have hbody : (Value.object (Fields.without fields idField)).Shaped :=
      shapedFields_without hshaped idField
    exact ⟨_, Json.decode_encode hbody htext, (hnames.without idField).kept⟩
  · cases h

lemma Checked.write (h : s.Checked own) {key body : String}
    (hname : ∃ name, CollectionName.ofValue collection = .ok (some name) ∧ name.IsTidy)
    (hkey : isAllBlank key → own key)
    (hbody : ∃ fields, Json.decode body = .ok (.object fields) ∧ Fields.WellNamed fields) :
    (s.write collection key body).1.Checked own := by
  unfold Session.write
  split
  · exact h.record _
  · rename_i store hput
    refine ⟨h.strict, fun r hr => ?_⟩
    rcases Store.mem_of_put hput hr with hr | ⟨rfl, rfl, hr⟩
    · exact h.rows r hr
    · obtain ⟨name, hname, htidy⟩ := hname
      rw [hname] at hr
      cases hr
      exact ⟨⟨htidy, hbody⟩, hkey⟩

/-- **Insertion**: whatever the arguments, the rows stay well named, and a blank identifier is one
that the document has itself. -/
theorem Checked.insert (h : s.Checked own) (hdoc : document.Shaped)
    (hown : id.isNull → ∀ key, document.ownId? = some key → own key) :
    (s.insert collection document id vectorFields).1.Checked own := by
  unfold Session.insert Session.screened
  split
  · rename_i hfault
    obtain ⟨⟨name, hname, htidy⟩, hid, fields, rfl, hnames⟩ := h.passed hfault
    obtain ⟨hs', hkey⟩ := h.resolveId hid hown
    unfold Session.insertUnchecked
    generalize s.resolveId (.object fields) id = a at hs' hkey
    obtain ⟨s', e | key⟩ := a
    · exact hs'
    · dsimp only at hs' hkey ⊢
      split
      · exact hs'.record _
      · split
        · exact hs'.record _
        · rename_i body hbody
          exact (hs'.record _).write ⟨name, hname, htidy⟩ (hkey key rfl)
            (wellNamed_of_bodyText hnames hdoc hbody)
  · split
    · exact h.record _
    · exact h

lemma Checked.insertEach (h : s.Checked own) {ds : List Value} (hds : ∀ d ∈ ds, d.Shaped)
    (hown : ∀ d ∈ ds, ∀ key, d.ownId? = some key → own key) :
    (s.insertEach collection vectorFields ds).1.Checked own := by
  induction ds generalizing s with
  | nil => exact h
  | cons d ds ih =>
    rw [List.forall_mem_cons] at hds hown
    have hone : (s.insert collection d .null vectorFields).1.Checked own :=
      h.insert hds.1 fun _ => hown.1
    unfold Session.insertEach
    generalize s.insert collection d .null vectorFields = a at hone
    obtain ⟨s', e | key⟩ := a
    · exact hone
    · have hrest := ih hone hds.2 hown.2
      dsimp only
      generalize s'.insertEach collection vectorFields ds = b at hrest
      obtain ⟨s'', e | keys⟩ := b
      · exact hrest
      · exact hrest

lemma Checked.delete (h : s.Checked own) (collection id : Value) :
    (s.delete collection id).1.Checked own := by
  unfold Session.delete
  split
  · exact h
  · split
    · exact h.record _
    · rename_i store deleted hdelete
      have hleft : Checked { s with store } own :=
        ⟨h.strict, fun r hr => h.rows r (Store.mem_of_delete hdelete hr)⟩
      exact hleft.record _

/-- **One change**: it leaves the rows well named, and the settings strict. -/
theorem Checked.change (h : s.Checked own) {c : Change} (hc : c.Shaped)
    (hown : ∀ d ∈ c.unnamed, ∀ key, d.ownId? = some key → own key) :
    (s.change c).1.Checked own := by
  cases c with
  | insert collection document id vectorFields =>
    refine h.insert (hc document (by simp [Change.documents])) fun hnull => hown document ?_
    simp [Change.unnamed, hnull]
  | insertMany collection documents vectorFields =>
    simp only [Session.change, Session.insertMany]
    rcases hds : documents.elements with e | ds
    · exact h
    · simp only [Change.Shaped, Change.documents, Change.unnamed, hds, Except.toOption,
        Option.getD_some] at hc hown
      exact h.insertEach hc hown
  | delete collection id => exact h.delete collection id

/-- **Changes**: so do any number of them. -/
theorem Checked.changeAll (h : s.Checked own) {cs : List Change} (hcs : ∀ c ∈ cs, c.Shaped)
    (hown : ∀ c ∈ cs, ∀ d ∈ c.unnamed, ∀ key, d.ownId? = some key → own key) :
    (s.changeAll cs).1.Checked own := by
  induction cs generalizing s with
  | nil => exact h
  | cons c cs ih =>
    rw [List.forall_mem_cons] at hcs hown
    exact ih (h.change hcs.1 hown.1) hcs.2 hown.2

/-- **Strict validation**: whatever the changes of an empty store under strict settings, refused
ones among them, every row has a tidy collection and an object of well-named fields; its identifier
is not blank, unless a document was inserted under no given identifier that has this one itself. -/
theorem checked_changeAll (s : Session) (hs : s.store.rows = [])
    (hstrict : s.env.settings.strict = true) {cs : List Change} (hcs : ∀ c ∈ cs, c.Shaped) :
    ∀ r ∈ (s.changeAll cs).1.store.rows,
      r.WellNamed ∧ (isAllBlank r.id → ∃ c ∈ cs, ∃ d ∈ c.unnamed, d.ownId? = some r.id) := by
  have hstart : s.Checked fun key => ∃ c ∈ cs, ∃ d ∈ c.unnamed, d.ownId? = some key := by
    refine ⟨hstrict, ?_⟩
    rw [hs]
    exact fun r hr => absurd hr List.not_mem_nil
  exact (hstart.changeAll hcs fun c hc d hd key hkey => ⟨c, hc, d, hd, hkey⟩).rows

/-- A blank identifier is refused when it is given and passes when it is the document's own; a name
with a blank and a field with a dot are refused, and a row is deleted again. -/
theorem checked_changeAll_blankOwn :
    let s : Session :=
      { env := { settings := ⟨[("DOCVEC_SCHEMA_VALIDATION_STRICT", "true")]⟩ }
        store := { state := .ready } }
    let cs : List Change :=
      [.insert (.text "c") (.object [("a", .int 1)]) (.text " ") (.list []),
      .insert (.text "c") (.object [("_id", .text " "), ("a", .int 2)]) .null (.list []),
      .insert (.text "c d") (.object []) .null (.list []),
      .insert (.bytes [100]) (.object [("b", .int 3)]) (.text "x") (.list []),
      .insertMany (.text "c-1") (.list [.object [("_id", .int 7)], .object [("a.b", .int 4)]])
        (.list []),
      .delete (.bytes [100]) (.text "x")]
    s.store.rows = [] ∧ s.env.settings.strict = true ∧ (∀ c ∈ cs, c.Shaped) ∧
      (s.changeAll cs).2.map (·.toBool) = [false, true, false, true, false, true] ∧
      (s.changeAll cs).1.store.rows.map (fun r => (r.collection, r.id)) =
        [(.text "c-1", "7"), (.text "c", " ")] ∧
      ∀ r ∈ (s.changeAll cs).1.store.rows,
        r.WellNamed ∧ (isAllBlank r.id → ∃ c ∈ cs, ∃ d ∈ c.unnamed, d.ownId? = some r.id) := by
  intro s cs
  have hcs : ∀ c ∈ cs, c.Shaped := by
    simp [cs, Change.Shaped, Change.documents, Value.elements, Except.toOption, Value.Shaped,
      Value.ShapedFields]
  have hstrict : s.env.settings.strict = true := by decide +kernel
  exact ⟨rfl, hstrict, hcs, by decide +kernel, by decide +kernel,
    checked_changeAll s rfl hstrict hcs⟩

end Session

end NearDoc
