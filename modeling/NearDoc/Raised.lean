import NearDoc.Value.Conversion
import NearDoc.Value.Order
import NearDoc.Error

/-!
Errors that a caller makes by hand, from a class and the arguments of the error.
-/

namespace NearDoc

structure Raised where
  errorClass : ErrorClass
  text : String
  /-- The expected and the actual dimension. -/
  dimensions : Option (Value × Value) := none
  /-- The place in the query text, minus one when it is not known. -/
  position : Option Value := none

namespace Raised

/-- No argument gives no text, one argument its own text, and several are written as a tuple. -/
def argumentText : List Value → String
  | [] => ""
  | [v] => v.toText
  | vs => (Value.tuple vs).written

/-- The text of an error at a place; places below zero are not told. -/
def textAt (message position : Value) : Except Error String := do
  if ← position.relate .ge (.int 0) then
    return withPosition message.inserted position.inserted
  return message.toText

/-- A dimension error tells a message of its own if it is given one that counts. -/
def ofDimensions (expected actual message : Value) : Except Error Raised := do
  let text ← if ← message.truthy then pure message.toText
    else pure (mismatchMessage expected.inserted actual.inserted)
  return { errorClass := .dimensionMismatch, text, dimensions := some (expected, actual) }

def ofPosition (message position : Value) : Except Error Raised := do
  let text ← textAt message position
  return { errorClass := .querySyntax, text, position := some position }

/-- The error of a class that arguments make. Two classes have arguments of their own; the error
of an unknown metric tells only the first. -/
def make (c : ErrorClass) (arguments : List Value) : Except Error Raised :=
  match c, arguments with
  | .dimensionMismatch, [expected, actual] => ofDimensions expected actual .null
  | .dimensionMismatch, [expected, actual, message] => ofDimensions expected actual message
  | .dimensionMismatch, _ => .error .wrongArguments
  | .querySyntax, [message] => ofPosition message (.int (-1))
  | .querySyntax, [message, position] => ofPosition message position
  | .querySyntax, _ => .error .wrongArguments
  | .unknownMetric, arguments =>
    .ok { errorClass := c, text := argumentText (arguments.take 1) }
  | c, arguments => .ok { errorClass := c, text := argumentText arguments }

end Raised

end NearDoc
