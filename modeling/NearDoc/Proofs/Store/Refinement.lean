import NearDoc.Proofs.Store.Changes
import NearDoc.Proofs.Store.Rowid
import NearDoc.Proofs.Value.Ordered

/-!
A store keeps its ledger. Each row is the stored text of the document held in its place; a change
does to the rows what it does to the ledger, and what is read is what the ledger holds. Main
statement: after any changes, refused ones among them, every reading of the store is that of the
ledger.
-/

namespace NearDoc

/-- A row keeps a document: its text is that of the body. -/
structure Holding.Keeps (h : Holding) (r : Row) : Prop where
  collection : r.collection = h.collection
  id : r.id = h.id
  body : Json.encode (.object h.body) = .ok r.body
  shaped : Value.ShapedFields h.body

/-- A session keeps a ledger: the rows of its store, in the order of their numbers, are the
documents held in theirs. -/
structure Session.Keeps (s : Session) (l : Ledger) : Prop where
  ready : s.store.state = .ready
  generated : s.generated = l.generated
  numbered : Store.Numbered s.store.rows
  rows : List.Forall₂ Holding.Keeps l.holdings (Store.byRowid s.store.rows)
  nodup : (l.holdings.map Holding.key).Nodup

namespace Holding

variable {h : Holding} {r : Row} {hs : List Holding} {rows : List Row}

lemma Keeps.hasKey (hr : h.Keeps r) (name : CollectionName) (id : String) :
    r.hasKey name id = decide (h.key = (name, id)) := by
  rw [Row.hasKey, hr.collection, hr.id, key]
  simp

/-- The row is read back as the document. -/
lemma Keeps.document (hr : h.Keeps r) : r.document = .ok h.document := by
  have hshaped : (Value.object h.body).Shaped := hr.shaped
  have hdecode : Json.decode r.body = .ok (.object h.kept) := Json.decode_encode hshaped hr.body
  simp only [Row.document, hdecode, bind, Except.bind, hr.id]
  rfl

/-! ### Rows -/

/-- Rows are chosen as the documents are that they keep. -/
lemma forall₂_filter {p : Holding → Bool} {q : Row → Bool} (hrows : List.Forall₂ Keeps hs rows)
    (hpq : ∀ h r, h.Keeps r → q r = p h) :
    List.Forall₂ Keeps (hs.filter p) (rows.filter q) ∧ rows.any q = hs.any p := by
  induction hrows with
  | nil => exact ⟨.nil, rfl⟩
  | @cons x y hs rows hxy hrows ih =>
    rw [List.filter_cons, List.filter_cons, List.any_cons, List.any_cons, hpq x y hxy, ih.2]
    refine ⟨?_, rfl⟩
    cases p x
    · exact ih.1
    · exact .cons hxy ih.1

lemma rel_find? {p : Holding → Bool} {q : Row → Bool} (hrows : List.Forall₂ Keeps hs rows)
    (hpq : ∀ h r, h.Keeps r → q r = p h) : Option.Rel Keeps (hs.find? p) (rows.find? q) := by
  induction hrows with
  | nil => exact .none
  | @cons x y hs rows hxy hrows ih =>
    rw [List.find?_cons, List.find?_cons, hpq x y hxy]
    cases p x
    · exact ih
    · exact .some hxy

/-- **Writing**: the rows of a table into which a document is written keep the documents among which
it is filed. -/
lemma forall₂_putRow (hnumbered : Store.Numbered rows)
    (hrows : List.Forall₂ Keeps hs (Store.byRowid rows)) {body : String}
    (hbody : Json.encode (.object h.body) = .ok body) (hshaped : Value.ShapedFields h.body) :
    List.Forall₂ Keeps (h.file hs) (Store.byRowid (Store.putRow h.collection h.id body rows)) := by
  have hkey : ∀ (x : Holding) (r : Row), x.Keeps r →
      r.hasKey h.collection h.id = decide (x.key = h.key) := fun x r hr =>
    hr.hasKey h.collection h.id
  have hany : rows.any (·.hasKey h.collection h.id) = true ↔ ∃ x ∈ hs, x.key = h.key := by
    rw [← (Store.perm_byRowid rows).any_eq, (forall₂_filter hrows hkey).2]
    simp
  by_cases hheld : ∃ x ∈ hs, x.key = h.key
  · rw [Store.byRowid_putRow_of_any hnumbered (hany.mpr hheld), file, if_pos hheld,
      List.forall₂_map_left_iff, List.forall₂_map_right_iff]
    refine hrows.imp fun x r hr => ?_
    rw [hkey x r hr]
    by_cases hx : x.key = h.key
    · obtain ⟨hcollection, hid⟩ := Prod.mk.inj hx
      simp only [hx, decide_true, if_true]
      exact ⟨hr.collection.trans hcollection, hr.id.trans hid, hbody, hshaped⟩
    · simpa [hx] using hr
  · rw [Store.byRowid_putRow_of_not_any hnumbered (mt hany.mp hheld), file, if_neg hheld]
    exact List.rel_append hrows (.cons ⟨rfl, rfl, hbody, hshaped⟩ .nil)

lemma exists_keeps (hrows : List.Forall₂ Keeps hs rows) (hh : h ∈ hs) : ∃ r, h.Keeps r := by
  obtain ⟨r, -, hkeeps⟩ := exists_mem_of_forall₂ hrows.flip hh
  exact ⟨r, hkeeps⟩

lemma map_collection (hrows : List.Forall₂ Keeps hs rows) :
    rows.map Row.collection = hs.map Holding.collection := by
  induction hrows with
  | nil => rfl
  | cons hxy _ ih => rw [List.map_cons, List.map_cons, hxy.collection, ih]

/-- Under a key there is one document at most. -/
lemma length_filter_key_le (hnodup : (hs.map key).Nodup) (k : CollectionName × String) :
    (hs.filter fun x => x.key = k).length ≤ 1 := by
  have hcount := List.nodup_iff_count_le_one.mp hnodup k
  rw [List.count, List.countP_map, List.countP_eq_length_filter] at hcount
  simpa only [Function.comp_def, beq_eq_decide] using hcount

lemma mapM_document (hrows : List.Forall₂ Keeps hs rows) :
    rows.mapM Row.document = .ok (hs.map Holding.document) := by
  induction hrows with
  | nil => rfl
  | cons hxy hrows ih =>
    rw [List.mapM_cons, hxy.document, ih]
    rfl

end Holding

namespace CollectionName

open Text Std

lemma compareCodes_swap (as bs : List Nat) : compareCodes as bs = (compareCodes bs as).swap := by
  rw [compareCodes_eq, compareCodes_eq]
  exact OrientedCmp.eq_swap

lemma compareCodes_trans {as bs cs : List Nat} (hab : (compareCodes as bs).isLE)
    (hbc : (compareCodes bs cs).isLE) : (compareCodes as cs).isLE := by
  rw [compareCodes_eq] at *
  exact TransCmp.isLE_trans hab hbc

/-- Texts come before bytes, and each kind is in the order of its codes. -/
instance : TransCmp compare where
  eq_swap := by
    rintro (s | as) (t | bs)
    · exact compareCodes_swap _ _
    · rfl
    · rfl
    · exact compareCodes_swap _ _
  isLE_trans := by
    rintro (s | as) (t | bs) (u | cs) hab hbc
    · exact compareCodes_trans hab hbc
    · rfl
    · cases hbc
    · rfl
    · cases hab
    · cases hab
    · cases hbc
    · exact compareCodes_trans hab hbc

lemma compare_eq_iff {a b : CollectionName} : a.compare b = .eq ↔ a = b := by
  have hcodes : Function.Injective (List.map UInt8.toNat) :=
    List.map_injective_iff.mpr fun a b hab => UInt8.toNat_inj.mp hab
  rcases a with s | as <;> rcases b with t | bs
  · simp [compare, compareText_eq_iff]
  · simp [compare]
  · simp [compare]
  · simp [compare, compareCodes_eq, hcodes.eq_iff]

lemma nodup_eraseDups (names : List CollectionName) : names.eraseDups.Nodup := by
  induction names using List.reverseRecOn with
  | nil => simp
  | append_singleton names name ih =>
    rw [List.eraseDups_append, List.nodup_append]
    by_cases hmem : name ∈ names
    · simp [List.removeAll, hmem, ih]
    · have hother : ∀ a ∈ names, a ≠ name := fun a ha heq => hmem (heq ▸ ha)
      simpa [List.removeAll, hmem, ih, List.eraseDups_cons] using hother

/-- Names in order, each of them once. -/
lemma pairwise_sorted (names : List CollectionName) :
    (names.eraseDups.mergeSort fun a b => (a.compare b).isLE).Pairwise
      fun a b => a.compare b = .lt := by
  have htotal : ∀ a b : CollectionName, ((a.compare b).isLE || (b.compare a).isLE) = true := by
    intro a b
    have hswap : a.compare b = (b.compare a).swap := OrientedCmp.eq_swap
    rw [hswap]
    cases b.compare a <;> rfl
  have htrans : ∀ a b c : CollectionName, (a.compare b).isLE = true → (b.compare c).isLE = true →
      (a.compare c).isLE = true := fun _ _ _ => TransCmp.isLE_trans
  have hle := List.pairwise_mergeSort htrans htotal names.eraseDups
  have hne : (names.eraseDups.mergeSort fun a b => (a.compare b).isLE).Nodup :=
    (List.mergeSort_perm _ _).nodup_iff.mpr (nodup_eraseDups names)
  refine (hle.and hne).imp fun {a b} hab => ?_
  have hother : a.compare b ≠ .eq := mt compare_eq_iff.mp hab.2
  revert hother
  cases hc : a.compare b <;> simp [hc] at hab ⊢

end CollectionName

namespace Session

variable {s : Session} {l : Ledger}

lemma table_of_ready {store : Store} (h : store.state = .ready) : store.table = .ok store.rows := by
  simp [Store.table, Store.fault?, h]

lemma named_of_ready {store : Store} (h : store.state = .ready) (c : Value) :
    store.named c = (CollectionName.ofValue c).map (store.rows, ·) := by
  simp only [Store.named, table_of_ready h]
  cases CollectionName.ofValue c <;> rfl

lemma Keeps.record (h : s.Keeps l) (records : List Record) : (s.record records).Keeps l :=
  ⟨h.ready, h.generated, h.numbered, h.rows, h.nodup⟩

/-- The settings are no part of what is kept. -/
lemma Keeps.withEnv (h : s.Keeps l) (env : Environment) : ({ s with env } : Session).Keeps l :=
  ⟨h.ready, h.generated, h.numbered, h.rows, h.nodup⟩

/-! ### Changes -/

/-- Both answer the same, and what one keeps is what the other holds. -/
structure Matches {α : Type} (s : Session) (a : Session × Except Error α)
    (b : Ledger × Except Error α) : Prop where
  keeps : a.1.Keeps b.1
  reply : a.2 = b.2
  env : a.1.env = s.env

lemma Matches.map {α β : Type} {a : Session × Except Error α} {b : Ledger × Except Error α}
    (h : Matches s a b) (f : α → β) : Matches s (a.1, a.2.map f) (b.1, b.2.map f) :=
  ⟨h.keeps, congrArg (Except.map f) h.reply, h.env⟩

lemma Keeps.resolveId (h : s.Keeps l) (document id : Value) :
    Matches s (s.resolveId document id) (l.identify document id) := by
  unfold Session.resolveId Ledger.identify
  cases hid : id.isNull
  · exact ⟨h, rfl, rfl⟩
  · rcases document with _ | _ | _ | _ | _ | _ | _ | _ | fields | _ | _ | _ | _
    case object =>
      have hnew : Matches s
          ({ s with generated := s.generated + 1 }, .ok (generatedId (s.generated + 1)))
          ({ l with generated := l.generated + 1 }, .ok (generatedId (l.generated + 1))) :=
        ⟨⟨h.ready, by rw [h.generated], h.numbered, h.rows, h.nodup⟩, by rw [h.generated], rfl⟩
      rcases hget : Fields.get? fields idField with _ | v
      · simpa [hget, Value.isNull] using hnew
      · cases v <;> simp only [hget, Bool.not_true, Bool.false_eq_true, if_false,
          Option.getD_some, Value.isNull, if_true] <;> first | exact hnew | exact ⟨h, rfl, rfl⟩
    all_goals exact ⟨h, rfl, rfl⟩

lemma Keeps.write (h : s.Keeps l) (collection : Value) (id : String) {body : String}
    {fields : Fields} (hbody : Json.encode (.object fields) = .ok body)
    (hshaped : Value.ShapedFields fields) :
    Matches s (s.write collection id body)
      (match CollectionName.ofValue collection with
      | .error e => (l, .error e)
      | .ok none => (l, .error (.storage .nameMissing))
      | .ok (some name) =>
        ({ l with holdings := (Holding.mk name id fields).file l.holdings }, .ok id)) := by
  have hput : s.store.put collection id body =
      match CollectionName.ofValue collection with
      | .error e => .error e
      | .ok none => .error (.storage .nameMissing)
      | .ok (some name) =>
        .ok { s.store with rows := Store.putRow name id body s.store.rows } := by
    simp only [Store.put, named_of_ready h.ready, bind, Except.bind]
    rcases CollectionName.ofValue collection with e | _ | name <;> rfl
  unfold Session.write
  rw [hput]
  rcases CollectionName.ofValue collection with e | _ | name
  · exact ⟨h.record _, rfl, rfl⟩
  · exact ⟨h.record _, rfl, rfl⟩
  · exact ⟨⟨h.ready, h.generated, h.numbered.putRow name id body,
      Holding.forall₂_putRow (h := ⟨name, id, fields⟩) h.numbered h.rows hbody hshaped,
      Holding.nodup_file h.nodup _⟩, rfl, rfl⟩

lemma shapedFields_without {fields : Fields} (h : Value.ShapedFields fields) (name : String) :
    Value.ShapedFields (fields.without name) := by
  induction fields with
  | nil => exact h
  | cons f fields ih =>
    rw [Fields.without, List.filter_cons]
    split
    · exact ⟨h.1, ih h.2⟩
    · exact ih h.2

/-- What is left to do once a document has its identifier. -/
lemma Keeps.finish (h : s.Keeps l) (collection : Value) {document : Value}
    (hdoc : document.Shaped) (vectorFields : Value) (id : String) :
    Matches s
      (match (castDeclared collection id document vectorFields).2 with
      | .error e => (s, .error e)
      | .ok () =>
        match bodyText id document with
        | .error e => (s, .error e)
        | .ok body => s.write collection id body)
      (match Ledger.prepare collection document vectorFields id with
      | .error e => (l, .error e)
      | .ok h => ({ l with holdings := h.file l.holdings }, .ok id)) := by
  unfold Ledger.prepare
  rcases (castDeclared collection id document vectorFields).2 with e | ⟨⟩
  · exact ⟨h, rfl, rfl⟩
  · rcases document with _ | _ | _ | _ | _ | _ | _ | _ | fields | _ | _ | _ | _
    case object =>
      simp only [bodyText, bind, Except.bind]
      rcases hbody : Json.encode (.object (Fields.without fields idField)) with e | body
      · exact ⟨h, rfl, rfl⟩
      · have hwrite := h.write collection id hbody (shapedFields_without hdoc idField)
        rcases hname : CollectionName.ofValue collection with e | _ | name <;>
          rw [hname] at hwrite <;> exact hwrite
    all_goals exact ⟨h, rfl, rfl⟩

lemma Keeps.insertUnchecked (h : s.Keeps l) (collection : Value) {document : Value}
    (hdoc : document.Shaped) (id vectorFields : Value) :
    Matches s (s.insertUnchecked collection document id vectorFields)
      (match l.identify document id with
      | (l, .error e) => (l, .error e)
      | (l, .ok id) =>
        match Ledger.prepare collection document vectorFields id with
        | .error e => (l, .error e)
        | .ok h => ({ l with holdings := h.file l.holdings }, .ok id)) := by
  unfold Session.insertUnchecked
  have hid := h.resolveId document id
  generalize s.resolveId document id = a at hid
  generalize l.identify document id = b at hid
  obtain ⟨s', reply⟩ := a
  obtain ⟨l', reply'⟩ := b
  obtain ⟨hkeeps, hreply, henv⟩ := hid
  dsimp only at hkeeps hreply henv
  subst hreply
  rcases reply with e | key
  · exact ⟨hkeeps, rfl, henv⟩
  · have hrecorded := hkeeps.record (castDeclared collection key document vectorFields).1
    obtain ⟨hfinal, hreply, henv'⟩ := hrecorded.finish collection hdoc vectorFields key
    exact ⟨hfinal, hreply, henv'.trans henv⟩

/-- **Insertion**: a session inserts as its ledger does. -/
theorem Keeps.insert (h : s.Keeps l) (collection : Value) {document : Value}
    (hdoc : document.Shaped) (id vectorFields : Value) :
    Matches s (s.insert collection document id vectorFields)
      (l.insert s.env collection document id vectorFields) := by
  have hfault : s.insertFault collection document id =
      insertFault { env := s.env } collection document id := rfl
  unfold Session.insert Session.screened Ledger.insert
  rcases hf : insertFault { env := s.env } collection document id with _ | e
  · rw [hfault, hf]
    exact h.insertUnchecked collection hdoc id vectorFields
  · rw [hfault, hf]
    dsimp only [Ledger.refusal]
    split
    · exact ⟨h.record _, rfl, rfl⟩
    · exact ⟨h, rfl, rfl⟩

/-- Insertions one after the other: each finds what those before it have left. -/
lemma Keeps.insertEach (h : s.Keeps l) (collection vectorFields : Value) {ds : List Value}
    (hds : ∀ d ∈ ds, d.Shaped) :
    Matches s (insertEach s collection vectorFields ds)
      (Ledger.insertEach s.env l collection vectorFields ds) := by
  induction ds generalizing s l with
  | nil => exact ⟨h, rfl, rfl⟩
  | cons d ds ih =>
    rw [List.forall_mem_cons] at hds
    have hone := h.insert collection hds.1 .null vectorFields
    unfold Session.insertEach Ledger.insertEach
    generalize s.insert collection d .null vectorFields = a at hone
    generalize l.insert s.env collection d .null vectorFields = b at hone
    obtain ⟨s', reply⟩ := a
    obtain ⟨l', reply'⟩ := b
    obtain ⟨hkeeps, hreply, henv⟩ := hone
    dsimp only at hkeeps hreply henv
    subst hreply
    rcases reply with e | id
    · exact ⟨hkeeps, rfl, henv⟩
    · have hrest := ih hkeeps hds.2
      rw [henv] at hrest
      dsimp only
      generalize Session.insertEach s' collection vectorFields ds = a at hrest
      generalize Ledger.insertEach s.env l' collection vectorFields ds = b at hrest
      obtain ⟨s'', reply⟩ := a
      obtain ⟨l'', reply'⟩ := b
      obtain ⟨hkeeps', hreply', henv'⟩ := hrest
      dsimp only at hkeeps' hreply' henv'
      subst hreply'
      rcases reply with e | ids
      · exact ⟨hkeeps', rfl, henv'.trans henv⟩
      · exact ⟨hkeeps', rfl, henv'.trans henv⟩

/-- **Deletion**: a session deletes as its ledger does. -/
theorem Keeps.delete (h : s.Keeps l) (collection id : Value) :
    Matches s (s.delete collection id) (l.delete collection id) := by
  unfold Session.delete Ledger.delete
  rcases id.asText with e | key
  · exact ⟨h, rfl, rfl⟩
  simp only [Store.delete, named_of_ready h.ready, bind, Except.bind]
  rcases CollectionName.ofValue collection with e | _ | name
  · exact ⟨h.record _, rfl, rfl⟩
  · simp only [Except.map, pure, Except.pure]
    refine ⟨⟨h.ready, h.generated, h.numbered, ?_, ?_⟩, ?_, rfl⟩
    · simpa [Session.record] using h.rows
    · simpa using h.nodup
    · simp
  · have hkey : ∀ (x : Holding) (r : Row), x.Keeps r → r.hasKey name key =
        decide (some x.collection = some name ∧ x.id = key) := fun x r hr => by
      rw [hr.hasKey, Holding.key]
      simp
    have hleft := Holding.forall₂_filter (q := fun r => !r.hasKey name key)
      (p := fun x => decide ¬(some x.collection = some name ∧ x.id = key)) h.rows
      fun x r hr => by rw [hkey x r hr, decide_not]
    have hany := (Holding.forall₂_filter h.rows hkey).2
    rw [(Store.perm_byRowid s.store.rows).any_eq] at hany
    rw [← Store.byRowid_filter h.numbered] at hleft
    simp only [Except.map, pure, Except.pure]
    refine ⟨⟨h.ready, h.generated, h.numbered.filter _, hleft.1, ?_⟩, congrArg Except.ok hany, rfl⟩
    exact h.nodup.sublist (List.filter_sublist.map Holding.key)

/-- **One change**: a session changes as its ledger does. -/
theorem Keeps.change (h : s.Keeps l) {c : Change} (hc : c.Shaped) :
    Matches s (s.change c) (l.change s.env c) := by
  cases c with
  | insert collection document id vectorFields =>
    exact (h.insert collection (hc document (by simp [Change.documents])) id vectorFields).map _
  | insertMany collection documents vectorFields =>
    rcases hds : documents.elements with e | ds <;>
      simp only [Session.change, Ledger.change, Session.insertMany, hds]
    · exact ⟨h, rfl, rfl⟩
    · have hshaped : ∀ d ∈ ds, d.Shaped := fun d hd =>
        hc d (by simpa [Change.documents, hds, Except.toOption] using hd)
      exact (h.insertEach collection vectorFields hshaped).map _
  | delete collection id => exact (h.delete collection id).map _

/-- **Changes**: whatever the changes, refused ones among them, a session changes as its ledger. -/
theorem Keeps.changeAll (h : s.Keeps l) {cs : List Change} (hcs : ∀ c ∈ cs, c.Shaped) :
    (s.changeAll cs).1.Keeps (l.changeAll s.env cs).1 ∧
      (s.changeAll cs).2 = (l.changeAll s.env cs).2 := by
  induction cs generalizing s l with
  | nil => exact ⟨h, rfl⟩
  | cons c cs ih =>
    rw [List.forall_mem_cons] at hcs
    obtain ⟨hkeeps, hreply, henv⟩ := h.change hcs.1
    have hrest := ih hkeeps hcs.2
    rw [henv] at hrest
    exact ⟨hrest.1, congrArg₂ List.cons hreply hrest.2⟩

/-! ### Readings -/

/-- What is read of a session is what a ledger holds. -/
structure Shows (s : Session) (l : Ledger) : Prop where
  /-- No key is held twice. -/
  once : (l.holdings.map Holding.key).Nodup
  /-- A scan yields the documents of a collection in the order of the ledger. -/
  scan : ∀ c name, CollectionName.ofValue c = .ok name →
    s.scan c = (s, .ok ((l.of name).map Holding.document))
  /-- Under a key stands the document held under it, if there is one. -/
  get : ∀ c name id key, CollectionName.ofValue c = .ok name → id.asText = .ok key →
    s.get c id = (s, .ok (((l.of name).find? fun h => h.id = key).map Holding.document))
  /-- An identifier with an integer that is too long has no text and no document. -/
  unread : ∀ c id e, id.asText = .error e → s.get c id = (s, .error e)
  count : ∀ c name, CollectionName.ofValue c = .ok name → s.store.count c = .ok (l.of name).length
  /-- The collections are those of the documents held, in order and each one once. -/
  collections : ∃ names, s.store.collections = .ok names ∧
    names.Pairwise (fun a b => a.compare b = .lt) ∧
    ∀ name, name ∈ names ↔ ∃ h ∈ l.holdings, h.collection = name
  /-- What is read of a document is the text of its body decoded, and its identifier. -/
  decoded : ∀ h ∈ l.holdings, ∃ text fields, Json.encode (.object h.body) = .ok text ∧
    Json.decode text = .ok (.object fields) ∧
    h.document = .object (Fields.set fields idField (.text h.id))

lemma Keeps.rowsOf (h : s.Keeps l) {c : Value} {name : Option CollectionName}
    (hname : CollectionName.ofValue c = .ok name) :
    ∃ rows, s.store.rowsOf c = .ok rows ∧ List.Forall₂ Holding.Keeps (l.of name) rows := by
  refine ⟨Store.byRowid (s.store.rows.filter fun r => some r.collection = name), ?_, ?_⟩
  · simp only [Store.rowsOf, named_of_ready h.ready, hname, Except.map, bind, Except.bind]
    rfl
  · rw [Store.byRowid_filter h.numbered]
    refine (Holding.forall₂_filter h.rows fun x r hr => ?_).1
    rw [hr.collection]

lemma Keeps.documents (h : s.Keeps l) {c : Value} {name : Option CollectionName}
    (hname : CollectionName.ofValue c = .ok name) :
    s.store.documents c = .ok ((l.of name).map Holding.document) := by
  obtain ⟨rows, hrows, hkept⟩ := h.rowsOf hname
  simp only [Store.documents, hrows, bind, Except.bind]
  exact Holding.mapM_document hkept

lemma Keeps.find? (h : s.Keeps l) {c : Value} {name : Option CollectionName}
    (hname : CollectionName.ofValue c = .ok name) (id : String) :
    ∃ found, s.store.find? c id = .ok found ∧
      Option.Rel Holding.Keeps ((l.of name).find? fun h => h.id = id) found := by
  have hof : (l.of name).find? (fun h => h.id = id) =
      l.holdings.find? fun h => some h.collection = name && h.id = id := by
    rw [Ledger.of, List.find?_filter]
    simp
  have hfind : s.store.find? c id =
      .ok (name.bind fun name => s.store.rows.find? (·.hasKey name id)) := by
    simp only [Store.find?, named_of_ready h.ready, hname, Except.map, bind, Except.bind]
    rfl
  refine ⟨_, hfind, ?_⟩
  rw [hof]
  rcases name with _ | name
  · have hnone : (l.holdings.find? fun h => some h.collection = none && h.id = id) = none :=
      List.find?_eq_none.mpr (by simp)
    rw [hnone]
    exact .none
  · have hkey : ∀ (x : Holding) (r : Row), x.Keeps r →
        r.hasKey name id = decide (x.key = (name, id)) := fun x r hr => hr.hasKey name id
    have honce : (s.store.rows.filter (·.hasKey name id)).length ≤ 1 := by
      rw [← ((Store.perm_byRowid s.store.rows).filter _).length_eq,
        ← (Holding.forall₂_filter h.rows hkey).1.length_eq]
      exact Holding.length_filter_key_le h.nodup (name, id)
    rw [Option.bind_some, ← Store.find?_byRowid honce]
    refine Holding.rel_find? h.rows fun x r hr => ?_
    rw [hkey x r hr, Holding.key]
    simp

theorem Keeps.shows (h : s.Keeps l) : s.Shows l where
  once := h.nodup
  scan c name hname := by simp only [Session.scan, h.documents hname]
  get c name id key hname hkey := by
    obtain ⟨found, hfound, hrel⟩ := h.find? hname key
    simp only [Session.get, hkey, hfound]
    generalize (l.of name).find? (fun h => h.id = key) = held at hrel
    cases hrel with
    | none => rfl
    | some hr =>
      dsimp only
      rw [hr.document]
      rfl
  unread c id e he := by rw [Session.get, he]
  count c name hname := by
    obtain ⟨rows, hrows, hkept⟩ := h.rowsOf hname
    rw [Store.count, hrows, hkept.length_eq]
    rfl
  collections := by
    have hle : s.store.collections = .ok ((s.store.rows.map Row.collection).eraseDups.mergeSort
        fun a b => (a.compare b).isLE) := by
      rw [Store.collections, table_of_ready h.ready]
      rfl
    have hmem : ∀ name, name ∈ s.store.rows.map Row.collection ↔
        name ∈ l.holdings.map Holding.collection := fun name => by
      rw [← Holding.map_collection h.rows]
      exact ((Store.perm_byRowid s.store.rows).map Row.collection).mem_iff.symm
    refine ⟨_, hle, CollectionName.pairwise_sorted _, fun name => ?_⟩
    rw [List.mem_mergeSort, List.mem_eraseDups, hmem, List.mem_map]
  decoded x hx := by
    obtain ⟨r, hr⟩ := Holding.exists_keeps h.rows hx
    have hshaped : (Value.object x.body).Shaped := hr.shaped
    exact ⟨r.body, x.kept, hr.body, Json.decode_encode hshaped hr.body, rfl⟩

lemma keeps_new (hs : s.store = { state := .ready }) : s.Keeps { generated := s.generated } := by
  refine ⟨by rw [hs], rfl, ?_, ?_, .nil⟩
  · rw [hs]
    exact .nil
  · rw [hs, Store.byRowid, List.mergeSort_nil]
    exact .nil

end Session

end NearDoc
