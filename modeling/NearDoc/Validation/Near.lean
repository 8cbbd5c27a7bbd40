import NearDoc.Number.Numeral
import NearDoc.Vector.Metric
import NearDoc.Vector.Cast

/-!
Checked arguments of nearness queries. The target is cast first and fails on its own; of the other
arguments all faults are told together, in the order of the arguments.
-/

namespace NearDoc

open Text Number

namespace Check

/-- A text argument; bytes are read as encoded text. -/
def text (v : Value) : Except Issue.Fault String :=
  match v with
  | .text s => .ok s
  | .bytes bs => (String.fromUTF8? ⟨bs.toArray⟩).elim (.error .notUnicode) .ok
  | _ => .error .notText

def textWith (rule : String → Option String) (v : Value) : Except Issue.Fault String :=
  (text v).bind fun s => (rule s).elim (.ok s) (.error ∘ .rule)

def path (v : Value) : Except Issue.Fault String :=
  textWith (fun s => match Path.segments s with
    | .ok _ => none
    | .error e => some e.message) v

def metricRule (names : List String) (s : String) : Option String :=
  if names.contains (Metric.normalName s) then none
  else some ("unknown metric " ++ quoted s ++ "; available: " ++ quotedList names)

/-- The name of a known metric, or null for none. The known names are asked for only when there is
a text to compare with them. -/
def metric (ms : Metrics) (v : Value) : Except Error (Except Issue.Fault Value) :=
  if v.isNull then .ok (.ok .null)
  else match text v with
    | .error fault => .ok (.error fault)
    | .ok _ => ms.names.map fun names => (textWith (metricRule names) v).map .text

def isTruth : Value → Bool
  | .bool _ => true
  | .scalar s => s.element = .bool
  | _ => false

/-- Underscores taken out, where none stands at an end or beside another. -/
def withoutUnderscores? (s : List Char) : Option (List Char) :=
  let pairs := s.zip (s.drop 1)
  if !s.contains '_' || s.head? = some '_' || s.getLast? = some '_' || pairs.contains ('_', '_')
  then none else some (s.filter (· ≠ '_'))

/-- An ASCII numeral, or the name of a number that is not finite. -/
def asciiReal? (s : List Char) : Option Binary64 :=
  let (negative, body) := takeSign s
  if s.all fun c => c.toNat < 128 then
    (readSpecial? negative body).or (readDecimal? negative body)
  else none

/-- A numeral between blanks, or one with underscores and no blanks. -/
def numeral? (s : List Char) : Option Binary64 :=
  (asciiReal? (trimNumeral s)).or ((withoutUnderscores? s).bind asciiReal?)

/-- A finite number, which a text may also write. -/
def threshold (v : Value) : Except Issue.Fault Binary64 := do
  if isTruth v then throw (.rule "max_distance must be a number, not a boolean")
  let x ← match v with
    | .text s => (numeral? s.toList).elim (.error .notNumeral) .ok
    | .bytes bs =>
      match String.fromUTF8? ⟨bs.toArray⟩ with
      | some s => (numeral? s.toList).elim (.error .notNumeral) .ok
      | none => .error .notNumeral
    | v => match v.toReal with
      | .ok x => .ok x
      | .error _ => .error .notNumber
  if x.isFinite then return x else throw .notFinite

/-- A whole number, which must not be written as a fraction or a truth value. -/
def count (v : Value) : Except Issue.Fault Int :=
  if isTruth v then .error (.rule "k must be an integer, not a boolean")
  else match v with
    | .int i => .ok i
    | .scalar ⟨_, .int i⟩ => .ok i
    | _ => .error .notInteger

def issues (field : String) : Except Issue.Fault α → List Issue
  | .ok _ => []
  | .error fault => [{ field, fault }]

end Check

structure NearArguments where
  field : Value
  target : Value
  bound : Value
  metric : Value

/-- The arguments once checked; the bound is a threshold or a count. -/
structure NearSpec (β : Type) where
  field : String
  target : Embedding
  bound : β
  metric : Value

namespace NearSpec

/-- Checks all arguments, with a check of its own for the bound. Known metric names that cannot be
listed are no fault of the arguments and fail by themselves. -/
def check (ms : Metrics) (boundName : String) (bound : Value → Except Issue.Fault β)
    (a : NearArguments) : Except Error (NearSpec β) := do
  let target ← Embedding.ofValue a.target
  let metric ← Check.metric ms a.metric
  match Check.path a.field, metric, bound a.bound with
  | .ok field, .ok metric, .ok bound => return { field, target, bound, metric }
  | field, metric, bound => throw (.invalid (Check.issues "field" field ++
      Check.issues "metric" metric ++ Check.issues boundName bound))

def within (ms : Metrics) : NearArguments → Except Error (NearSpec Binary64) :=
  check ms "max_distance" Check.threshold

def nearest (ms : Metrics) : NearArguments → Except Error (NearSpec Int) :=
  check ms "k" Check.count

end NearSpec

end NearDoc
