import NearDoc.Text.CharClass
import NearDoc.Validation.Near

/-!
Checked arguments of an insertion: the collection's name, the identifier if one is given, and the
document, whose field names must be usable as paths. An object is not the only mapping that is taken
for a document, and the keys of a mapping need not be texts.
-/

namespace NearDoc

open Text

/-- What is handed over as a document: an object or another mapping, by its keys and what stands
under them, or a value that is no mapping. -/
inductive Supplied where
  | mapping (isObject : Bool) (entries : List (Value × Value))
  | other (v : Value) (h : ∀ fields, v ≠ .object fields)

namespace Supplied

def ofValue : Value → Supplied
  | .object fields => .mapping true (fields.map fun f => (.text f.1, f.2))
  | .null => .other .null nofun
  | .bool b => .other (.bool b) nofun
  | .int i => .other (.int i) nofun
  | .real x => .other (.real x) nofun
  | .text s => .other (.text s) nofun
  | .bytes bs => .other (.bytes bs) nofun
  | .list xs => .other (.list xs) nofun
  | .tuple xs => .other (.tuple xs) nofun
  | .embedding v => .other (.embedding v) nofun
  | .array a => .other (.array a) nofun
  | .scalar s => .other (.scalar s) nofun
  | .undefined => .other .undefined nofun

instance : Coe Value Supplied := ⟨ofValue⟩
instance : Coe (Option Value) (Option Supplied) := ⟨Option.map ofValue⟩

def isObject : Supplied → Bool
  | .mapping isObject _ => isObject
  | .other .. => false

/-- A value that stands for it where it is only told of; a mapping is told by its pairs. -/
def toValue : Supplied → Value
  | .mapping _ entries => .list (entries.map fun e => .tuple [e.1, e.2])
  | .other v _ => v

end Supplied

/-- Arguments of an insertion; those that are missing are none. -/
structure InsertArguments where
  collection : Option Value
  id : Option Value
  body : Option Supplied

structure InsertRequest where
  collection : String
  id : Option String
  body : Fields

namespace InsertRequest

def collectionRule (s : String) : Option String :=
  if isAllBlank s then some "collection cannot be empty"
  else if s.toList.all fun c => isAlphanumeric c || c = '_' || c = '-' then none
  else some "collection may only contain letters, digits, \"_\" and \"-\""

def idRule (s : String) : Option String :=
  if isAllBlank s then some "doc_id cannot be blank" else none

def nameRule (name : String) : Option String :=
  if name.isEmpty then some "document field names must be non-empty strings"
  else if name.toList.contains '.' then
    some ("document field names cannot contain \".\": " ++ quoted name)
  else none

def collectionOf : Option Value → Except Issue.Fault String
  | none => .error .missing
  | some v => Check.textWith collectionRule v

def idOf : Option Value → Except Issue.Fault (Option String)
  | none | some .null => .ok none
  | some v => (Check.textWith idRule v).map some

/-- A key as it is written, or its type if an integer in it has too many digits. -/
def keyText (key : Value) : String :=
  if key.isWritable then key.written else "<unprintable " ++ key.typeName ++ " object>"

/-- An issue tells of a key that is no name by its number, or else by its text. -/
def keyStep (key : Value) : Issue.Step :=
  match key with
  | .bool b => .index (if b then 1 else 0)
  | .int i | .scalar ⟨.int _, .int i⟩ | .scalar ⟨.uint _, .int i⟩ =>
    if -(2 ^ 63) ≤ i ∧ i < 2 ^ 63 then .index i else .name (keyText key)
  | key => .name (keyText key)

def keyIssues (entries : List (Value × Value)) : List Issue :=
  entries.flatMap fun e => match Check.text e.1 with
    | .ok _ => []
    | .error fault => [{ field := "body", below := [keyStep e.1, .name "[key]"], fault }]

/-- The entries of a mapping as fields; bytes are read as encoded text. -/
def named (entries : List (Value × Value)) : Fields :=
  entries.filterMap fun e => (Check.text e.1).toOption.map (·, e.2)

/-- The keys of a mapping must be names, and the names well formed. -/
def bodyOf : Option Supplied → Except (List Issue) Fields
  | none => .error [{ field := "body", fault := .missing }]
  | some (.mapping _ entries) =>
    if (keyIssues entries).isEmpty then
      match (named entries).findSome? fun f => nameRule f.1 with
      | some text => .error [{ field := "body", fault := .rule text }]
      | none => .ok (Fields.ofList (named entries))
    else .error (keyIssues entries)
  | some (.other ..) => .error [{ field := "body", fault := .notObject }]

/-- Checks all arguments and tells all faults together. -/
def check (a : InsertArguments) : Except Error InsertRequest :=
  match collectionOf a.collection, idOf a.id, bodyOf a.body with
  | .ok collection, .ok id, .ok body => .ok { collection, id, body }
  | collection, id, body => .error (.invalid (Check.issues "collection" collection ++
      Check.issues "doc_id" id ++ match body with
      | .ok _ => []
      | .error issues => issues))

end InsertRequest

end NearDoc
