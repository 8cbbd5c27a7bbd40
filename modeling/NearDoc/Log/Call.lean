import NearDoc.Log
import NearDoc.Value.Conversion
import NearDoc.Value.Hash
import NearDoc.Signature

/-!
A log that is called by name, with arguments of any kind. It keeps the records from its level on;
a call that fails keeps none.
-/

namespace NearDoc

/-- A log: what it kept, and the level from which on it keeps records. -/
structure Logger where
  level : Int := Record.infoLevel
  records : List Record := []

namespace Logger

def keep (l : Logger) (r : Record) : Logger :=
  if l.level ≤ r.level then { l with records := l.records ++ [r] } else l

/-- Details of any kind as text, if they count as any. -/
def telling (details : Value) : Except Error (Option String) := do
  return if ← details.truthy then some details.inserted else none

/-! ### Named details -/

def pair (index : Nat) (v : Value) : Except Error (Value × Value) :=
  match v.elements with
  | .error _ => .error (.notPair index)
  | .ok [name, value] =>
    if name.hashKey?.isSome then .ok (name, value) else .error (.unhashable name.typeName)
  | .ok parts => .error (.notTwo index parts.length)

def addPairs (index : Nat) (known : List (Value × Value)) :
    List Value → Except Error (List (Value × Value))
  | [] => .ok known
  | v :: vs => do
    let (name, value) ← pair index v
    addPairs (index + 1) (← Value.setNamed name value known) vs

/-- Adds details of any kind: the fields of an object, or pairs. -/
def addNamed (known : List (Value × Value)) (details : Value) :
    Except Error (List (Value × Value)) :=
  match details with
  | .object fields =>
    fields.foldlM (fun known f => Value.setNamed (.text f.1) f.2 known) known
  | v => v.elements.bind (addPairs 0 known)

def writtenNamed (details : List (Value × Value)) : String :=
  Value.enclose "\x7b" "\x7d" (details.map fun d => d.1.written ++ ": " ++ d.2.written)

/-! ### The subject of a refused request -/

def hasPart (part : List Char) : List Char → Bool
  | [] => part.isEmpty
  | c :: cs => part.isPrefixOf (c :: cs) || hasPart part cs

def isAmong (name : String) : List Value → Except Error Bool
  | [] => .ok false
  | v :: vs => do
    if ← v.eqv (.text name) then return true
    isAmong name vs

/-- Whether a subject holds a name: as the name of a field, an element or a part. -/
def holds (subject : Value) (name : String) : Except Error Bool :=
  match subject with
  | .object fields => .ok (Fields.get? fields name).isSome
  | .list xs | .tuple xs => isAmong name xs
  | .text s => .ok (hasPart name.toList s.toList)
  | .embedding _ | .array _ => .ok false
  | v => .error (.notIterable v.typeName)

/-- What identifies a subject. Only an object can be asked for the value of a name it holds. -/
def identifiers (subject : Value) : List String → Except Error Fields
  | [] => .ok []
  | name :: names => do
    if ← holds subject name then
      match subject with
      | .object fields =>
        return (name, (Fields.get? fields name).getD .null) :: (← identifiers subject names)
      | _ => throw (.notIndex "str")
    identifiers subject names

/-! ### Calls -/

def calls : Signatures :=
  [("set_debug", 1, 1), ("debug", 1, 1), ("info", 1, 1), ("warning", 1, 1), ("error", 1, 1),
    ("log_operation", 2, 4), ("log_document_operation", 2, 4), ("log_vector_operation", 2, 4),
    ("log_query_operation", 2, 3), ("log_schema_validation_error", 2, 3)]

def levelOf : Option Value → Except Error Int
  | none => .ok Record.infoLevel
  | some (.int i) => .ok i
  | some (.bool b) => .ok (if b then 1 else 0)
  | some _ => .error .levelNotInteger

def statusOf (status : Option Value) : String := status.elim "success" Value.inserted

def operation (name status details : Value) (level : Option Value) : Except Error Record := do
  let text := Record.line name.inserted status.inserted (← telling details)
  return ⟨← levelOf level, text⟩

def vectorOperation (name subject details : Value) (status : Option Value) :
    Except Error Record := do
  let known := [(Value.text "record_id", subject)]
  let known ← if ← details.truthy then addNamed known details else pure known
  return ⟨Record.infoLevel, Record.line ("vector." ++ name.inserted) (statusOf status)
    (some (writtenNamed known))⟩

def queryOperation (name status details : Value) : Except Error Record := do
  let failed ← status.eqv (.text Record.failedStatus)
  let text := Record.line ("query." ++ name.inserted) status.inserted (← telling details)
  return ⟨if failed then Record.errorLevel else Record.infoLevel, text⟩

def refusal (name issues subject : Value) : Except Error Record := do
  let issues ← issues.elements
  let known ← if ← subject.truthy then identifiers subject Record.identifierNames else pure []
  return .refusal name issues known

def record (name : String) (arguments : List Value) : Except Error Record :=
  let first := arguments.headD .null
  let second := (arguments[1]?).getD .null
  let third := (arguments[2]?).getD .null
  match name with
  | "debug" => .ok ⟨Record.debugLevel, first.toText⟩
  | "info" => .ok ⟨Record.infoLevel, first.toText⟩
  | "warning" => .ok ⟨Record.warningLevel, first.toText⟩
  | "error" => .ok ⟨Record.errorLevel, first.toText⟩
  | "log_operation" => operation first second third arguments[3]?
  | "log_document_operation" => .ok (.document first.inserted second third (statusOf arguments[3]?))
  | "log_vector_operation" => vectorOperation first second third arguments[3]?
  | "log_query_operation" => queryOperation first second third
  | _ => refusal first second third

def call (l : Logger) (name : String) (arguments : List Value) : Except Error Logger := do
  calls.admit name arguments.length
  if name = "set_debug" then
    let debug ← (arguments.headD .null).truthy
    return { l with level := if debug then Record.debugLevel else Record.infoLevel }
  return l.keep (← record name arguments)

end Logger

end NearDoc
