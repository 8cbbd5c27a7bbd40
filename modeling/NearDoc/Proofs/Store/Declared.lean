import NearDoc.Proofs.Json.Paths
import NearDoc.Proofs.Store.Validated
import NearDoc.Proofs.Value.Path

/-!
Declared vector fields. A document is refused unless what stands at every declared path can be cast,
and what it was cast to is found at the path of the document that is read back. Main statement: so
it is in every store that changes have led to.
-/

namespace NearDoc

/-- The name that a path begins with. -/
def Path.first? (path : String) : Option String :=
  ((segments path).toOption.bind List.head?).map String.ofList

/-- A path has a first segment. -/
lemma Path.exists_cons_of_segments {path : String} {parts : List (List Char)}
    (h : Path.segments path = .ok parts) : ∃ segment segments, parts = segment :: segments :=
  List.exists_cons_of_ne_nil (segments_eq_ok_iff.mp h).nonempty

/-! ### Casting before a document is stored -/

namespace Session

open NearDoc.Embedding

variable {collection document id vectorFields : Value}

lemma castFields_cons (collection : Value) (key : String) (document path : Value)
    (paths : List Value) :
    castFields collection key document (path :: paths) =
      match declared document path.pathText with
      | .error e => ([], .error e)
      | .ok none => castFields collection key document paths
      | .ok (some v) =>
        (attached collection key path.pathText v ::
            (castFields collection key document paths).1,
          (castFields collection key document paths).2) := by
  rw [castFields, declared]
  rcases document.atPath path.pathText with e | v
  · rfl
  · by_cases hv : v = .undefined
    · subst hv
      rfl
    · have hcast : (Except.ok v).bind ofDeclared = (ofValue v).map some := ofDeclared_of_ne hv
      rw [hcast]
      rcases v with _ | _ | _ | _ | _ | _ | _ | _ | _ | _ | _ | _ | _
      case undefined => contradiction
      all_goals
        dsimp only
        split <;> rename_i heq <;> rw [heq] <;> rfl

/-- Fields pass as soon as at each path there is a value that can be cast or no value. -/
lemma castFields_eq_ok {key : String} {paths : List Value} :
    (castFields collection key document paths).2 = .ok () ↔
      ∀ path ∈ paths, ∃ found, declared document path.pathText = .ok found := by
  induction paths with
  | nil => simp [castFields]
  | cons path paths ih =>
    rw [castFields_cons, List.forall_mem_cons, ← ih]
    rcases declared document path.pathText with e | _ | v <;> simp

lemma castDeclared_list {key : String} {paths : List String} :
    (castDeclared collection key document (.list (paths.map .text))).2 = .ok () ↔
      ∀ p ∈ paths, ∃ found, declared document p = .ok found := by
  have helements : (Value.list (paths.map .text)).elements = .ok (paths.map .text) := rfl
  rw [castDeclared, helements]
  dsimp only
  rw [castFields_eq_ok, List.forall_mem_map]
  rfl

end Session

/-! ### What is filed -/

namespace Ledger

variable {l l' : Ledger} {collection document id vectorFields : Value} {key : String} {h : Holding}

/-- What is known of a document that is filed. -/
structure Files (collection document vectorFields : Value) (h : Holding) : Prop where
  named : CollectionName.ofValue collection = .ok (some h.collection)
  body : ∃ fields, document = .object fields ∧ h.body = Fields.without fields idField
  cast : (Session.castDeclared collection h.id document vectorFields).2 = .ok ()

lemma files_of_prepare (hprepare : prepare collection document vectorFields key = .ok h) :
    Files collection document vectorFields h ∧ h.id = key := by
  obtain ⟨⟨⟩, hcast, hrest⟩ := bind_eq_ok.mp hprepare
  rcases document with _ | _ | _ | _ | _ | _ | _ | _ | fields | _ | _ | _ | _
  case object =>
    dsimp only at hrest
    split at hrest
    · cases hrest
    · obtain ⟨_ | name, hname, hrest⟩ := bind_eq_ok.mp hrest
      · cases hrest
      · cases hrest
        exact ⟨⟨hname, ⟨fields, rfl, rfl⟩, hcast⟩, rfl⟩
  all_goals cases hrest

lemma holdings_identify (l : Ledger) (document id : Value) :
    (l.identify document id).1.holdings = l.holdings := by
  unfold identify
  split
  · rfl
  · split
    · split <;> rfl
    · rfl

/-- A document that is inserted is filed under the identifier that is answered. -/
lemma files_of_insert {env : Environment}
    (hinsert : l.insert env collection document id vectorFields = (l', .ok key)) :
    ∃ h, Files collection document vectorFields h ∧ h.id = key ∧
      l'.holdings = h.file l.holdings := by
  have hsame := holdings_identify l document id
  unfold insert at hinsert
  split at hinsert
  · cases hinsert
  · split at hinsert
    · cases hinsert
    · rename_i l₁ key₁ hidentify
      rw [hidentify] at hsame
      split at hinsert
      · cases hinsert
      · rename_i h hprepare
        cases hinsert
        obtain ⟨hfiles, hkey⟩ := files_of_prepare hprepare
        exact ⟨h, hfiles, hkey, congrArg h.file hsame⟩

end Ledger

namespace Holding

variable {h : Holding} {hs : List Holding}

lemma mem_file (h : Holding) (hs : List Holding) : h ∈ h.file hs := by
  unfold file
  split
  · rename_i hmem
    obtain ⟨x, hx, hkey⟩ := hmem
    exact List.mem_map.mpr ⟨x, hx, if_pos hkey⟩
  · simp

/-- A document is the only one under its key. -/
lemma filter_key (hnodup : (hs.map key).Nodup) (hmem : h ∈ hs) :
    hs.filter (fun x => x.key = h.key) = [h] := by
  refine List.perm_singleton.mp ((List.perm_ext_iff_of_nodup ?_ (List.nodup_singleton h)).mpr ?_)
  · exact hnodup.of_map.filter _
  · intro x
    rw [List.mem_filter, decide_eq_true_eq, List.mem_singleton]
    constructor
    · rintro ⟨hx, hkey⟩
      exact List.inj_on_of_nodup_map hnodup hx hmem hkey
    · rintro rfl
      exact ⟨hmem, rfl⟩

lemma ownId?_document (h : Holding) : h.document.ownId? = some h.id := by
  rw [document, Value.ownId?, Fields.get?_set_self]
  rfl

/-- A field of a document is what is read back of the field that was filed. -/
lemma get?_document {fields : Fields} (hnames : (fields.map (·.1)).Nodup)
    (hbody : h.body = Fields.without fields idField) {name : String} (hname : name ≠ idField) :
    Fields.get? (Fields.set h.kept idField (.text h.id)) name =
      (Fields.get? fields name).map Json.readBack := by
  have hbodyNames : (h.body.map (·.1)).Nodup := by
    rw [hbody]
    exact hnames.sublist (List.filter_sublist.map _)
  calc Fields.get? (Fields.set h.kept idField (.text h.id)) name
      = Fields.get? h.kept name := Fields.get?_set_other _ _ hname
    _ = (Fields.get? h.body name).map Json.readBack := Json.get?_readBackFields hbodyNames _
    _ = (Fields.get? fields name).map Json.readBack := by
        rw [hbody, Fields.get?_without_other fields hname]

/-- A field of a document is read back under its name. -/
lemma step_document {fields : Fields} (hfields : (Value.object fields).IsUntyped)
    (hbody : h.body = Fields.without fields idField) {segment : List Char}
    (hname : String.ofList segment ≠ idField) :
    Json.Replaces ((Value.object fields).step segment) (h.document.step segment) :=
  Json.replaces_field (get?_document hfields.self hbody hname)

/-- **One document**: what is cast at a path is found there once the document is read back. -/
theorem extract_document {document : Value} {path : String} {found : Option Embedding}
    (hdoc : document.IsUntyped)
    (hbody : ∃ fields, document = .object fields ∧ h.body = Fields.without fields idField)
    (hpath : Path.first? path ≠ some idField)
    (hcast : Embedding.declared document path = .ok found) :
    Embedding.extract h.document path = .ok found := by
  obtain ⟨fields, rfl, hbody⟩ := hbody
  obtain ⟨v, hv, hcast⟩ := bind_eq_ok.mp hcast
  obtain ⟨segments, hsegments, rfl⟩ := map_eq_ok.mp hv
  obtain ⟨segment, segments, rfl⟩ := Path.exists_cons_of_segments hsegments
  have hname : String.ofList segment ≠ idField := fun heq => hpath (by
    simp [Path.first?, hsegments, Except.toOption, heq])
  have hplace : Json.Replaces ((Value.object fields).follow (segment :: segments))
      (h.document.follow (segment :: segments)) :=
    (step_document hdoc hbody hname).follow (hdoc.step segment) segments
  rw [Embedding.extract, Value.atPath, hsegments]
  exact Embedding.ofStored_of_replaces hplace (hdoc.follow (segment :: segments)) hcast

end Holding

/-! ### What is read -/

namespace Ledger

variable {l : Ledger} {h : Holding}

/-- A document is the only one of its collection under its identifier. -/
lemma filter_of (hnodup : (l.holdings.map Holding.key).Nodup) (hmem : h ∈ l.holdings) :
    (l.of (some h.collection)).filter (fun x => x.id = h.id) = [h] := by
  rw [← Holding.filter_key hnodup hmem, of, List.filter_filter]
  refine List.filter_congr fun x _ => ?_
  simp [Holding.key, and_comm]

lemma find?_of (hnodup : (l.holdings.map Holding.key).Nodup) (hmem : h ∈ l.holdings) :
    (l.of (some h.collection)).find? (fun x => x.id = h.id) = some h := by
  rw [← List.head?_filter, filter_of hnodup hmem]
  rfl

end Ledger

namespace Session

open NearDoc.Embedding

variable {s : Session} {l : Ledger} {collection document id : Value} {paths : List String}

/-- A document under a key is read by its identifier, and among those of its collection. -/
lemma Shows.reads {h : Holding} (hs : s.Shows l)
    (hname : CollectionName.ofValue collection = .ok (some h.collection)) (hmem : h ∈ l.holdings) :
    s.get collection (.text h.id) = (s, .ok (some h.document)) ∧
      ∃ ds, s.scan collection = (s, .ok ds) ∧
        ds.filter (fun d => d.ownId? = some h.id) = [h.document] := by
  refine ⟨?_, _, hs.scan collection _ hname, ?_⟩
  · have hid : (Value.text h.id).asText = .ok h.id := rfl
    rw [hs.get collection _ _ _ hname hid, Ledger.find?_of hs.once hmem]
    rfl
  · have hown : ((fun d => decide (d.ownId? = some h.id)) ∘ Holding.document) =
        fun x => decide (x.id = h.id) := by
      funext x
      simp [Holding.ownId?_document]
    rw [List.filter_map, hown, Ledger.filter_of hs.once hmem]
    rfl

/-- What an insertion comes to. Either it is refused and leaves the store as it is, or the document
is read back under the identifier that is answered; it is refused if a declared path fails, and
otherwise what is cast at a declared path is found there. -/
structure Searchable (s : Session) (collection document : Value) (paths : List String)
    (r : Session × Except Error String) : Prop where
  refused : (∃ p ∈ paths, ∃ e, declared document p = .error e) → ∃ e, r.2 = .error e
  unchanged : ∀ e, r.2 = .error e → r.1.store = s.store
  found : ∀ key, r.2 = .ok key → ∃ stored ds,
    r.1.get collection (.text key) = (r.1, .ok (some stored)) ∧
    r.1.scan collection = (r.1, .ok ds) ∧ ds.filter (fun d => d.ownId? = some key) = [stored] ∧
    ∀ p ∈ paths, ∃ v, declared document p = .ok v ∧ extract stored p = .ok v

/-- **Insertion**: declared fields are found as they were cast. -/
theorem Keeps.searchable (h : s.Keeps l) (hdoc : document.IsUntyped)
    (hpaths : ∀ p ∈ paths, Path.first? p ≠ some idField) :
    Searchable s collection document paths
      (s.insert collection document id (.list (paths.map .text))) := by
  have hshaped : document.Shaped := Value.shaped_of_wellFormed document hdoc.wellFormed
  have hmatches := h.insert collection hshaped id (.list (paths.map .text))
  rcases hinsert : l.insert s.env collection document id (.list (paths.map .text)) with ⟨l', reply⟩
  rw [hinsert] at hmatches
  have hfiled : ∀ key, (s.insert collection document id (.list (paths.map .text))).2 = .ok key →
      ∃ x, Ledger.Files collection document (.list (paths.map .text)) x ∧ x.id = key ∧
        x ∈ l'.holdings := by
    intro key hkey
    rw [hmatches.reply] at hkey
    dsimp only at hkey
    subst hkey
    obtain ⟨x, hfiles, hid, hholdings⟩ := Ledger.files_of_insert hinsert
    exact ⟨x, hfiles, hid, hholdings ▸ Holding.mem_file x l.holdings⟩
  refine ⟨?_, fun e he => store_insert_of_error he, ?_⟩
  · rintro ⟨p, hp, e, he⟩
    rcases hreply : (s.insert collection document id (.list (paths.map .text))).2 with e' | key
    · exact ⟨e', rfl⟩
    · obtain ⟨x, hfiles, -, -⟩ := hfiled key hreply
      obtain ⟨v, hv⟩ := castDeclared_list.mp hfiles.cast p hp
      rw [he] at hv
      cases hv
  · intro key hkey
    obtain ⟨x, hfiles, rfl, hmem⟩ := hfiled key hkey
    obtain ⟨hget, ds, hscan, honce⟩ := hmatches.keeps.shows.reads hfiles.named hmem
    refine ⟨x.document, ds, hget, hscan, honce, fun p hp => ?_⟩
    obtain ⟨v, hv⟩ := castDeclared_list.mp hfiles.cast p hp
    exact ⟨v, hv, Holding.extract_document hdoc hfiles.body (hpaths p hp) hv⟩

/-- **Declared fields**: in a store that any changes have led to, under any settings, a document
without declared types is refused if a declared path fails; once it is inserted, what the value at a
declared path was cast to is found there in the document that is read. -/
theorem searchable_insert (s : Session) (hs : s.store = { state := .ready }) {cs : List Change}
    (hcs : ∀ c ∈ cs, c.Shaped) (env : Environment) (collection id : Value) {document : Value}
    (hdoc : document.IsUntyped) {paths : List String}
    (hpaths : ∀ p ∈ paths, Path.first? p ≠ some idField) :
    let t : Session := { (s.changeAll cs).1 with env }
    Searchable t collection document paths
      (t.insert collection document id (.list (paths.map .text))) := by
  intro t
  obtain ⟨hkeeps, -⟩ := (keeps_new hs).changeAll hcs
  exact (hkeeps.withEnv env).searchable hdoc hpaths

/-- A tuple, a text and an item of an embedding in the place of an older document, and a document
that is refused for a truth value. -/
theorem searchable_insert_replaced :
    let s : Session := { store := { state := .ready } }
    let cs : List Change := [.insert (.text "c") (.object [("v", .null)]) (.text "a") (.list []),
      .insert (.text "c") (.object []) (.text "b") (.list [])]
    let t : Session := { (s.changeAll cs).1 with env := {} }
    let e : Embedding := ⟨[.ofInt 2, .ofInt 3], by simp, by decide +kernel⟩
    let document : Value := .object [("_id", .text "a"), ("v", .tuple [.int 1, .real (.ofInt 2)]),
      ("o", .object [("t", .text "[0.5]"), ("l", .list [.embedding e])])]
    let paths := ["v", " o.t", "o.l.0", "o.l.0.1", "v.7"]
    let refused : Value := .object [("v", .list [.bool true])]
    s.store = { state := .ready } ∧ (∀ c ∈ cs, c.Shaped) ∧ document.IsUntyped ∧
      (∀ p ∈ paths, Path.first? p ≠ some idField) ∧
      (t.insert (.text "c") document .null (.list (paths.map .text))).2.toOption = some "a" ∧
      paths.map (fun p => (declared document p).toOption.map (Option.map dimension)) =
        [some (some 2), some (some 1), some (some 2), some none, some none] ∧
      Searchable t (.text "c") document paths
        (t.insert (.text "c") document .null (.list (paths.map .text))) ∧
      (t.insert (.text "c") refused .null (.list [.text "v"])).2.toOption = none := by
  intro s cs t e document paths refused
  have hcs : ∀ c ∈ cs, c.Shaped := by
    simp [cs, Change.Shaped, Change.documents, Value.Shaped, Value.ShapedFields]
  have hdoc : document.IsUntyped := by
    simp [document, Value.IsUntyped, Value.parts, Value.partsFields, Value.partsList,
      Value.IsUntypedNode]
  have hpaths : ∀ p ∈ paths, Path.first? p ≠ some idField := by decide +kernel
  exact ⟨rfl, hcs, hdoc, hpaths, by decide +kernel, by decide +kernel,
    searchable_insert s rfl hcs {} (.text "c") .null hdoc hpaths, by decide +kernel⟩

end Session

end NearDoc
