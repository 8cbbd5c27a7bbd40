import NearDoc.Store.Name
import NearDoc.Json.Reader
import NearDoc.Json.Writer
import NearDoc.Log

/-!
The rows of a document store: documents as stored text, by collection and identifier. Rows are
numbered as their keys come, and a collection is read in the order of the numbers; replacing a
document keeps the number of its row.
-/

namespace NearDoc

structure Row where
  rowid : Nat
  collection : CollectionName
  id : String
  body : String
  deriving DecidableEq

inductive FileState where
  | noTable
  | ready
  | notDatabase
  /-- There is no file, and nothing is kept. -/
  | nowhere
  deriving DecidableEq

structure Store where
  state : FileState := .noTable
  rows : List Row := []

def idField : String := "_id"

namespace Row

def hasKey (collection : CollectionName) (id : String) (r : Row) : Bool :=
  r.collection = collection && r.id = id

/-- The document as it is read back, with its identifier as the last field. -/
def document (r : Row) : Except Error Value := do
  match ← Json.decode r.body with
  | .object fields => return .object (Fields.set fields idField (.text r.id))
  | v => throw (.notDocument v.typeName)

end Row

namespace Store

def fault? (s : Store) : Option StorageFault :=
  match s.state with
  | .noTable | .nowhere => some .noTable
  | .ready => none
  | .notDatabase => some .notDatabase

/-- Makes the table unless it is there. -/
def init (s : Store) : Except Error Store :=
  match s.state with
  | .notDatabase => .error .unreadableFile
  | .nowhere => .ok s
  | _ => .ok { s with state := .ready }

/-- The store of a path that was not used before. Some paths name no file. -/
def atPath (path : String) : Store :=
  { state := if path = "" ∨ path = ":memory:" then .nowhere else .noTable }

def isHealthy (s : Store) : Bool := s.state = .ready

def table (s : Store) : Except Error (List Row) :=
  match s.fault? with
  | some fault => .error (.storage fault)
  | none => .ok s.rows

def named (s : Store) (collection : Value) : Except Error (List Row × Option CollectionName) := do
  return (← s.table, ← CollectionName.ofValue collection)

/-- A new row is numbered behind all others. -/
def nextRowid (rows : List Row) : Nat := (rows.map Row.rowid).foldr max 0 + 1

/-- Writes a document: into the row that has the key, or else into a new one. In what order the
rows of a table are held is of no account. -/
def putRow (collection : CollectionName) (id body : String) (rows : List Row) : List Row :=
  if rows.any (·.hasKey collection id) then
    rows.map fun r => if r.hasKey collection id then { r with body } else r
  else ⟨nextRowid rows, collection, id, body⟩ :: rows

def byRowid (rows : List Row) : List Row := rows.mergeSort fun r r' => r.rowid ≤ r'.rowid

def put (s : Store) (collection : Value) (id body : String) : Except Error Store := do
  match ← s.named collection with
  | (_, none) => throw (.storage .nameMissing)
  | (rows, some name) => return { s with rows := putRow name id body rows }

def find? (s : Store) (collection : Value) (id : String) : Except Error (Option Row) := do
  let (rows, name) ← s.named collection
  return name.bind fun name => rows.find? (·.hasKey name id)

/-- The store without the row of a key, and whether there was one. -/
def delete (s : Store) (collection : Value) (id : String) : Except Error (Store × Bool) := do
  match ← s.named collection with
  | (_, none) => return (s, false)
  | (rows, some name) =>
    return ({ s with rows := rows.filter fun r => !r.hasKey name id }, rows.any (·.hasKey name id))

def rowsOf (s : Store) (collection : Value) : Except Error (List Row) := do
  let (rows, name) ← s.named collection
  return byRowid (rows.filter fun r => some r.collection = name)

def count (s : Store) (collection : Value) : Except Error Nat :=
  (s.rowsOf collection).map List.length

def collections (s : Store) : Except Error (List CollectionName) :=
  s.table.map fun rows =>
    (rows.map Row.collection).eraseDups.mergeSort fun a b => (a.compare b).isLE

def documents (s : Store) (collection : Value) : Except Error (List Value) := do
  (← s.rowsOf collection).mapM Row.document

def scanRecords (collection : Value) : Error → List Record
  | .storage fault => [⟨Record.errorLevel, "Scan of collection '" ++ collection.inserted ++
      "' failed: " ++ fault.message⟩]
  | _ => []

end Store

/-- A scan of a collection. Its documents are those that the collection holds when the first one
is asked for. -/
inductive Scan where
  | unopened (collection : Value)
  | opened (rest : List Value)
  | finished

namespace Scan

def next (store : Store) : Scan → Scan × Except Error (Option Value) × List Record
  | .unopened collection =>
    match store.documents collection with
    | .error e => (.finished, .error e, Store.scanRecords collection e)
    | .ok [] => (.finished, .ok none, [])
    | .ok (d :: rest) => (.opened rest, .ok (some d), [])
  | .opened [] => (.finished, .ok none, [])
  | .opened (d :: rest) => (.opened rest, .ok (some d), [])
  | .finished => (.finished, .ok none, [])

def close (_ : Scan) : Scan := .finished

end Scan

end NearDoc
