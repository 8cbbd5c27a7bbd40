import NearDoc.Validation.Insert
import NearDoc.Query.Builder
import NearDoc.Query.Cursor
import NearDoc.Search

/-!
A session: the store, the settings and metrics in force, and the log. Each operation answers the
session after it and its result; a failed operation keeps what it had done and logged before.
-/

namespace NearDoc

structure Session where
  env : Environment := {}
  store : Store := {}
  /-- How many identifiers were generated. -/
  generated : Nat := 0
  log : List Record := []

namespace Session

variable (s : Session)

def record (records : List Record) : Session := { s with log := s.log ++ records }

/-- Sets variables. Another path of the database is another store. -/
def assign (assignments : List (String × String)) : Session :=
  let settings := s.env.settings.setAll assignments
  let path := settings.databasePath
  { s with
    env := { s.env with settings }
    store := if path = s.env.settings.databasePath then s.store else .atPath path }

/-! ### Inserting -/

def generatedId (n : Nat) : String := String.ofList (Text.hexPadded 32 n)

/-- The identifier of a document: the text of the one given, else of its own, else a new one. -/
def resolveId (document id : Value) : Session × Except Error String :=
  if !id.isNull then (s, id.asText)
  else
    match document with
    | .object fields =>
      match Fields.get? fields idField with
      | none | some .null =>
        ({ s with generated := s.generated + 1 }, .ok (generatedId (s.generated + 1)))
      | some v => (s, v.asText)
    | v => (s, .error (.notDocument v.typeName))

def attached (collection : Value) (id path : String) (v : Embedding) : Record :=
  .vector "attached" (.text (collection.inserted ++ ":" ++ id))
    [("field", .text path), ("dimension", .int v.dimension)] "success"

/-- Casts the value at each declared path that leads to one, up to the first failure. -/
def castFields (collection : Value) (id : String) (document : Value) :
    List Value → List Record × Except Error Unit
  | [] => ([], .ok ())
  | path :: paths =>
    match document.atPath path.pathText with
    | .error e => ([], .error e)
    | .ok .undefined => castFields collection id document paths
    | .ok v =>
      match Embedding.ofValue v with
      | .error e => ([], .error e)
      | .ok v =>
        let rest := castFields collection id document paths
        (attached collection id path.pathText v :: rest.1, rest.2)

/-- The stored text of a document, without its identifier. -/
def bodyText (id : String) (document : Value) : Except Error String :=
  match document with
  | .object fields =>
    match Json.encode (.object (Fields.without fields idField)) with
    | .ok text => .ok text
    | .error _ => .error (.notSerializable id)
  | v => .error (.notDocument v.typeName)

def insertFault (collection : Value) (document : Supplied) (id : Value) : Option Error :=
  if s.env.settings.strict then
    match InsertRequest.check ⟨some collection, some id, some document⟩ with
    | .ok _ => none
    | .error e => some e
  else none

def refusalRecords (collection : Value) (document : Supplied) (id : Value) : Error → List Record
  | .invalid issues =>
    [.refusal (.text "document.insert") (issues.map (·.toValue document.toValue))
      [("collection", collection), ("doc_id", id)]]
  | _ => []

/-- An insertion that is checked first under strict settings. A refusal leaves its record, or fails
in its turn over an identifier that is too long to be written. -/
def screened (collection : Value) (document : Supplied) (id : Value)
    (insertion : Session × Except Error String) : Session × Except Error String :=
  match s.insertFault collection document id with
  | none => insertion
  | some e =>
    if collection.isWritable && id.isWritable then
      (s.record (refusalRecords collection document id e), .error e)
    else (s, .error .integerTooLong)

/-- The records of a change that could not be made: one if the storage refused. -/
def changeRecords (change : String) (collection : Value) : Error → List Record
  | .storage fault => [⟨Record.errorLevel, "Database error during " ++ change ++
      " for collection '" ++ collection.inserted ++ "': " ++ fault.message⟩]
  | _ => []

def write (collection : Value) (id body : String) : Session × Except Error String :=
  match s.store.put collection id body with
  | .error e => (s.record (changeRecords "insert_document" collection e), .error e)
  | .ok store =>
    (({ s with store }).record [.document "inserted" collection (.text id) "success"], .ok id)

/-- Casts the value at each declared path; the paths are the elements of a value. -/
def castDeclared (collection : Value) (id : String) (document paths : Value) :
    List Record × Except Error Unit :=
  match paths.elements with
  | .error e => ([], .error e)
  | .ok paths => castFields collection id document paths

def insertUnchecked (collection document id vectorFields : Value) : Session × Except Error String :=
  match s.resolveId document id with
  | (s, .error e) => (s, .error e)
  | (s, .ok id) =>
    let (records, cast) := castDeclared collection id document vectorFields
    let s := s.record records
    match cast with
    | .error e => (s, .error e)
    | .ok () =>
      match bodyText id document with
      | .error e => (s, .error e)
      | .ok body => s.write collection id body

def insert (collection document id vectorFields : Value) : Session × Except Error String :=
  s.screened collection document id (s.insertUnchecked collection document id vectorFields)

/-- Inserts documents one after the other, up to the first failure. -/
def insertEach (s : Session) (collection vectorFields : Value) :
    List Value → Session × Except Error (List String)
  | [] => (s, .ok [])
  | d :: ds =>
    match s.insert collection d .null vectorFields with
    | (s, .error e) => (s, .error e)
    | (s, .ok id) =>
      match insertEach s collection vectorFields ds with
      | (s, .error e) => (s, .error e)
      | (s, .ok ids) => (s, .ok (id :: ids))

def insertMany (collection documents vectorFields : Value) :
    Session × Except Error (List String) :=
  match documents.elements with
  | .error e => (s, .error e)
  | .ok ds => s.insertEach collection vectorFields ds

/-! ### Reading and deleting -/

def init : Session × Except Error Unit :=
  match s.store.init with
  | .ok store => ({ s with store }, .ok ())
  | .error e => (s, .error e)

def readRecords (collection id : Value) : Error → List Record
  | .storage fault => [⟨Record.errorLevel, "Failed to get document '" ++ id.inserted ++
      "' from '" ++ collection.inserted ++ "': " ++ fault.message⟩]
  | _ => []

def get (collection id : Value) : Session × Except Error (Option Value) :=
  match id.asText with
  | .error e => (s, .error e)
  | .ok key =>
    match s.store.find? collection key with
    | .error e => (s.record (readRecords collection id e), .error e)
    | .ok none => (s, .ok none)
    | .ok (some row) => (s, row.document.map some)

def delete (collection id : Value) : Session × Except Error Bool :=
  match id.asText with
  | .error e => (s, .error e)
  | .ok key =>
    match s.store.delete collection key with
    | .error e => (s.record (changeRecords "delete_document" collection e), .error e)
    | .ok (store, deleted) =>
      let records := if deleted then [.document "deleted" collection (.text key) "success"] else []
      (({ s with store }).record records, .ok deleted)

def scan (collection : Value) : Session × Except Error (List Value) :=
  match s.store.documents collection with
  | .ok ds => (s, .ok ds)
  | .error e => (s.record (Store.scanRecords collection e), .error e)

def scanNext (scan : Scan) : Session × Scan × Except Error (Option Value) :=
  let (scan, r, records) := scan.next s.store
  (s.record records, scan, r)

/-! ### Queries -/

/-- A step on a cursor, with the records it leaves. -/
def withCursor (c : Cursor) (step : Cursor → Cursor × α) : Session × Cursor × α :=
  let (after, r) := step c
  (s.record (after.execution.records.drop c.execution.records.length), after, r)

def next (c : Cursor) : Session × Cursor × Except Error (Option Value) :=
  s.withCursor c (·.next s.env s.store)

def fetchMany (c : Cursor) (size : Value) : Session × Cursor × Except Error (List Value) :=
  s.withCursor c (·.fetchMany s.env s.store size)

def close (c : Cursor) : Session × Cursor :=
  let (s, c, ()) := s.withCursor c fun c => (c.close s.env, ())
  (s, c)

/-- Drops a cursor: a run that has started and is not over ends. -/
def drop (c : Cursor) : Session := (s.close c).1

/-- A call on a builder; when it fails the builder stays as it was. -/
def build (b : Builder) (c : BuilderCall) : Session × Builder × Option Error :=
  match b.call s.env c with
  | .ok b => (s, b, none)
  | .error e => (s.record (c.records e), b, some e)

/-! ### Search -/

/-- The nearest documents of a collection. It is not read when there is no room for a hit. -/
def search (collection field target k : Value) (metric : MetricRef) (most : Value) :
    Session × Except Error (List Search.Result) :=
  match Near.ranking s.env field.pathText target k metric most with
  | .error e => (s, .error e)
  | .ok r =>
    match (if r.room.isNone then (s, .ok []) else s.scan collection) with
    | (s, .error e) => (s, .error e)
    | (s, .ok ds) =>
      match (r.run ds).outcome.bind Search.results with
      | .error e => (s, .error e)
      | .ok found =>
        (s.record [Search.record collection field k found.length], .ok found)

def searchAmong (collection : Value) (documents : List Value) (field target k : Value)
    (metric : MetricRef) (most : Value) : Session × Pass (Except Error (List Search.Result)) :=
  let pass := Near.rank s.env documents field.pathText target k metric most
  match pass.outcome.bind Search.results with
  | .error e => (s, ⟨pass.pulled, .error e⟩)
  | .ok found =>
    (s.record [Search.record collection field k found.length], ⟨pass.pulled, .ok found⟩)

end Session

end NearDoc
