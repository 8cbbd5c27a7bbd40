import NearDoc.Text.Quoted

/-!
What can be wrong with one argument of a checked request.
-/

namespace NearDoc

inductive Issue.Fault where
  /-- A rule of this library does not hold; the text says which. -/
  | rule (text : String)
  | notText
  | notUnicode
  | notNumber
  | notNumeral
  | notFinite
  | notInteger
  | notObject
  | missing
  deriving DecidableEq

inductive Issue.Step where
  | name (s : String)
  | index (i : Int)
  deriving DecidableEq

structure Issue where
  field : String
  below : List Issue.Step := []
  fault : Issue.Fault
  deriving DecidableEq

namespace Issue.Fault

def code : Issue.Fault → String
  | .rule _ => "value_error"
  | .notText => "string_type"
  | .notUnicode => "string_unicode"
  | .notNumber => "float_type"
  | .notNumeral => "float_parsing"
  | .notFinite => "finite_number"
  | .notInteger => "int_type"
  | .notObject => "dict_type"
  | .missing => "missing"

def message : Issue.Fault → String
  | .rule text => "Value error, " ++ text
  | .notText => "Input should be a valid string"
  | .notUnicode => "Input should be a valid string, unable to parse raw data as a unicode string"
  | .notNumber => "Input should be a valid number"
  | .notNumeral => "Input should be a valid number, unable to parse string as a number"
  | .notFinite => "Input should be a finite number"
  | .notInteger => "Input should be a valid integer"
  | .notObject => "Input should be a valid dictionary"
  | .missing => "Field required"

/-- Only a broken rule carries a context of its own. -/
def hasContext : Issue.Fault → Bool
  | .rule _ => true
  | _ => false

end Issue.Fault

end NearDoc
