import NearDoc.Proofs.Json.ReadBack
import NearDoc.Session

/-!
What a store is to hold: documents under keys, in the order in which the keys came. A document under
a new key goes to the end, one under a known key takes the old one's place, and a change that is
refused leaves everything where it is.
-/

namespace NearDoc

/-- A document under its key; the field of the identifier is no part of its body. -/
structure Holding where
  collection : CollectionName
  id : String
  body : Fields

namespace Holding

def key (h : Holding) : CollectionName × String := (h.collection, h.id)

/-- The body as its stored text is read. -/
def kept (h : Holding) : Fields :=
  Fields.ofList (Text.sortByName (Json.readBackFields h.body))

/-- The document as it is read back. -/
def document (h : Holding) : Value := .object (Fields.set h.kept idField (.text h.id))

/-- Files a document: in the place of the one under its key, or at the end. -/
def file (h : Holding) (hs : List Holding) : List Holding :=
  if ∃ x ∈ hs, x.key = h.key then hs.map fun x => if x.key = h.key then h else x else hs ++ [h]

end Holding

/-- The documents held, and how many identifiers were generated. -/
structure Ledger where
  holdings : List Holding := []
  generated : Nat := 0

/-- A call that may change a store. -/
inductive Change where
  | insert (collection document id vectorFields : Value)
  | insertMany (collection documents vectorFields : Value)
  | delete (collection id : Value)

/-- What a change answers: an identifier, identifiers, or whether a document was there. -/
inductive Reply where
  | id (id : String)
  | ids (ids : List String)
  | deleted (wasThere : Bool)

namespace Ledger

variable (l : Ledger)

/-- The identifier of a document: the one given, else its own, else a new one. A new one counts even
if the document is refused after all. -/
def identify (document id : Value) : Ledger × Except Error String :=
  if !id.isNull then (l, id.asText)
  else
    match document with
    | .object fields =>
      if ((Fields.get? fields idField).getD .null).isNull then
        ({ l with generated := l.generated + 1 }, .ok (Session.generatedId (l.generated + 1)))
      else (l, ((Fields.get? fields idField).getD .null).asText)
    | v => (l, .error (.notDocument v.typeName))

/-- What is filed of a document under an identifier: its declared vectors must be vectors, its body
must have a text, and the collection must have a name. -/
def prepare (collection document vectorFields : Value) (id : String) : Except Error Holding := do
  (Session.castDeclared collection id document vectorFields).2
  match document with
  | .object fields =>
    let body := Fields.without fields idField
    match Json.encode (.object body) with
    | .error _ => throw (.notSerializable id)
    | .ok _ =>
      match ← CollectionName.ofValue collection with
      | none => throw (.storage .nameMissing)
      | some name => return ⟨name, id, body⟩
  | v => throw (.notDocument v.typeName)

/-- The error of an insertion that the check refuses, which an identifier that is too long to be
written takes the place of. -/
def refusal (collection id : Value) (e : Error) : Error :=
  if collection.isWritable && id.isWritable then e else .integerTooLong

/-- Files a document, or refuses it and leaves the documents as they are. -/
def insert (env : Environment) (collection document id vectorFields : Value) :
    Ledger × Except Error String :=
  match Session.insertFault { env } collection document id with
  | some e => (l, .error (refusal collection id e))
  | none =>
    match l.identify document id with
    | (l, .error e) => (l, .error e)
    | (l, .ok id) =>
      match prepare collection document vectorFields id with
      | .error e => (l, .error e)
      | .ok h => ({ l with holdings := h.file l.holdings }, .ok id)

/-- Files documents one after the other, up to the first that is refused. -/
def insertEach (env : Environment) (l : Ledger) (collection vectorFields : Value) :
    List Value → Ledger × Except Error (List String)
  | [] => (l, .ok [])
  | d :: ds =>
    match l.insert env collection d .null vectorFields with
    | (l, .error e) => (l, .error e)
    | (l, .ok id) =>
      let (l, ids) := insertEach env l collection vectorFields ds
      (l, ids.map (id :: ·))

/-- Strikes the document under a key out, and tells whether there was one. -/
def delete (collection id : Value) : Ledger × Except Error Bool :=
  match id.asText, CollectionName.ofValue collection with
  | .error e, _ | _, .error e => (l, .error e)
  | .ok key, .ok name =>
    ({ l with holdings := l.holdings.filter fun h => ¬ (some h.collection = name ∧ h.id = key) },
      .ok (l.holdings.any fun h => some h.collection = name ∧ h.id = key))

def change (env : Environment) : Change → Ledger × Except Error Reply
  | .insert collection document id vectorFields =>
    let (l, r) := l.insert env collection document id vectorFields
    (l, r.map .id)
  | .insertMany collection documents vectorFields =>
    match documents.elements with
    | .error e => (l, .error e)
    | .ok ds =>
      let (l, r) := insertEach env l collection vectorFields ds
      (l, r.map .ids)
  | .delete collection id =>
    let (l, r) := l.delete collection id
    (l, r.map .deleted)

/-- One change after the other, with all replies. -/
def changeAll (env : Environment) (l : Ledger) : List Change → Ledger × List (Except Error Reply)
  | [] => (l, [])
  | c :: cs =>
    let (l, r) := l.change env c
    let (l, rs) := changeAll env l cs
    (l, r :: rs)

/-- The documents of a collection; what is kept as nothing has none. -/
def of (name : Option CollectionName) : List Holding :=
  l.holdings.filter fun h => some h.collection = name

end Ledger

namespace Session

/-- A call on a session. -/
def change (s : Session) : Change → Session × Except Error Reply
  | .insert collection document id vectorFields =>
    let (s, r) := s.insert collection document id vectorFields
    (s, r.map .id)
  | .insertMany collection documents vectorFields =>
    let (s, r) := s.insertMany collection documents vectorFields
    (s, r.map .ids)
  | .delete collection id =>
    let (s, r) := s.delete collection id
    (s, r.map .deleted)

/-- One call after the other, with all replies. -/
def changeAll (s : Session) : List Change → Session × List (Except Error Reply)
  | [] => (s, [])
  | c :: cs =>
    let (s, r) := s.change c
    let (s, rs) := changeAll s cs
    (s, r :: rs)

end Session

namespace Change

/-- The documents that a change may insert. -/
def documents : Change → List Value
  | .insert _ document _ _ => [document]
  | .insertMany _ documents _ => (documents.elements.toOption).getD []
  | .delete .. => []

/-- Every array in a document has as many items as its axes have room for. -/
def Shaped (c : Change) : Prop := ∀ d ∈ c.documents, d.Shaped

end Change

/-! ### Filing -/

namespace Holding

variable {h x : Holding} {hs : List Holding}

/-- The keys stay as they are, and a new one goes to the end. -/
lemma map_key_file (h : Holding) (hs : List Holding) :
    (h.file hs).map key =
      if ∃ x ∈ hs, x.key = h.key then hs.map key else hs.map key ++ [h.key] := by
  unfold file
  split
  · rw [List.map_map]
    refine List.map_congr_left fun x _ => ?_
    by_cases hx : x.key = h.key
    · simp [hx]
    · simp [hx]
  · simp

lemma nodup_file (hnodup : (hs.map key).Nodup) (h : Holding) : ((h.file hs).map key).Nodup := by
  rw [map_key_file]
  split
  · exact hnodup
  · rename_i hnew
    rw [List.nodup_append]
    refine ⟨hnodup, by simp, ?_⟩
    rintro a ha b hb rfl
    rw [List.mem_singleton] at hb
    obtain ⟨x, hx, rfl⟩ := List.mem_map.mp ha
    exact hnew ⟨x, hx, hb⟩

end Holding

end NearDoc
