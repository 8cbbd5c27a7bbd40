import NearDoc.Value.Written
import NearDoc.Issue

/-!
Log records of operations on documents, vectors and queries. What a caller supplied beyond
identifiers never enters the record of a refused request.
-/

namespace NearDoc

structure Record where
  level : Int
  text : String

namespace Record

def debugLevel : Int := 10
def infoLevel : Int := 20
def warningLevel : Int := 30
def errorLevel : Int := 40

/-- The name of the record's level; levels between the named ones are told by number. -/
def levelName (r : Record) : String :=
  if r.level = 0 then "NOTSET"
  else if r.level = 10 then "DEBUG"
  else if r.level = 20 then "INFO"
  else if r.level = 30 then "WARNING"
  else if r.level = 40 then "ERROR"
  else if r.level = 50 then "CRITICAL"
  else "Level " ++ toString r.level

/-- The text of an operation, its status and, if there are any, its details. -/
def line (name status : String) (details : Option String) : String :=
  let head := "Operation: " ++ name ++ ", Status: " ++ status
  details.elim head fun d => head ++ ", Details: " ++ d

def operation (name status : String) (details : Fields) (level : Int) : Record :=
  ⟨level, line name status (if details.isEmpty then none else some (Value.object details).written)⟩

def document (name : String) (collection id : Value) (status : String) : Record :=
  let id := if id.isNull then [] else [("doc_id", id)]
  operation ("document." ++ name) status (("collection", collection) :: id) infoLevel

def vector (name : String) (subject : Value) (details : Fields) (status : String) : Record :=
  operation ("vector." ++ name) status (Fields.ofList (("record_id", subject) :: details)) infoLevel

def failedStatus : String := "failed"

/-- An operation on queries; a failed one is an error. -/
def query (name status : String) (details : Fields) : Record :=
  operation ("query." ++ name) status details
    (if status = failedStatus then errorLevel else infoLevel)

/-- Parts of an issue that may hold what the caller supplied. -/
def privateParts : List String := ["input", "ctx", "url"]

def redacted : Value := .text "[REDACTED]"

/-- An issue without what the caller supplied; an issue that is no object is cut short. -/
def sanitize : Value → Value
  | .object fields =>
    .object (fields.map fun f => if privateParts.contains f.1 then (f.1, redacted) else f)
  | v => .text (String.ofList (v.toText.toList.take 100))

def identifierNames : List String := ["collection", "field", "doc_id"]

/-- A refused request: its issues without private parts, and the identifiers of its subject. -/
def refusal (name : Value) (issues : List Value) (subject : Fields) : Record :=
  let identifiers := identifierNames.filterMap fun n => (subject.get? n).map (n, ·)
  operation "schema_validation.error" "rejected"
    ([("operation", name), ("errors", .list (issues.map sanitize)),
      ("error_count", .int issues.length)] ++ identifiers) warningLevel

end Record

namespace Issue

def Step.toValue : Step → Value
  | .name s => .text s
  | .index i => .int i

def place (i : Issue) : Value := .tuple (.text i.field :: i.below.map Step.toValue)

/-- An issue as an object, with what was supplied in its place. -/
def toValue (i : Issue) (input : Value) : Value :=
  .object ([("type", .text i.fault.code), ("loc", i.place),
    ("msg", .text i.fault.message), ("input", input)] ++
    (if i.fault.hasContext then [("ctx", input)] else []) ++ [("url", .text "")])

end Issue

end NearDoc
