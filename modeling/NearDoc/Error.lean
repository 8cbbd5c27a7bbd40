import NearDoc.Issue
import NearDoc.Shape.Written

/-!
Why an operation fails: the causes, the text of each, and the classes they belong to.
-/

namespace NearDoc

open Text

inductive QueryFault where
  | unexpectedCharacter (c : Char)
  /-- Something else had to stand where `found` stands; `found` is empty at the end. -/
  | expected (what found : String)
  | trailing (found : String)
  | limitNotInteger
  | unknownFunction (name : String)
  | wrongArity (name : String) (arities : List String) (given : String)
  deriving DecidableEq

inductive StorageFault where
  | noTable
  | notDatabase
  /-- A collection's name is kept in no form. -/
  | notStorable (type : String)
  | nameMissing
  deriving DecidableEq

inductive Error where
  -- vectors
  | notBracketed (text : String)
  | malformedBracketed
  | notOneDimensional (shape : Shape)
  | notNumericArray (element : String)
  | notVectorShaped (type : String)
  | componentNotNumeric (index : Nat) (type : String)
  | notSingle
  | notFiniteVector
  | emptyVector
  | dimensionMismatch (expected actual : Nat)
  | unknownMetric (written : String) (available : List String)
  -- queries
  | unknownComparison (op : String)
  | tooFewOperands (connective : String)
  | callNotBound (name : String)
  | metricNotText (type : String)
  | notExpression (type : String)
  | nearestAfterOrdering
  | nearestAfterLimit
  | nearestOrders
  | nearestLimits
  | limitNotInteger (type : String)
  | noSource
  | keysNotComparable
  | parameterNotBound (name : String)
  | parameterMissing (name : String)
  | unknownFunction (name : String)
  | wrongArity (name : String) (arities : List String) (given : String)
  | malformedQuery (fault : QueryFault) (position : Nat)
  -- documents
  | storage (fault : StorageFault)
  | notSerializable (id : String)
  | unreadableFile
  | invalid (issues : List Issue)
  -- names
  | emptyPath
  | malformedPath (path : String)
  | emptyMetricName
  | metricNotCallable
  | operatorTaken (name arity : String)
  | distanceArity
  -- values
  | incomparable (op left right : String)
  | ambiguousTruth
  | emptyTruth
  | shapesDoNotMeet (a b : Shape)
  /-- A list that is not as long everywhere along the axis after these. -/
  | unevenList (shape : Shape)
  | tooManyAxes
  | notRealNumber (type : String)
  | unknownElement (name : String)
  | notSingleItem
  | notNumeral (written : String)
  | integerTooLarge
  | integerPastWord
  | integerPastHalfWord
  | integerPastColumn
  | tooManyDigits (digits : Nat)
  /-- An integer has too many digits to be written. -/
  | integerTooLong
  | notIndex (type : String)
  | notIterable (type : String)
  | notDocument (type : String)
  | metricNameNotText (type : String)
  | notText (type : String)
  | missingArgument
  | wrongArguments
  | unknownCall (name : String)
  | levelNotInteger
  /-- An entry that is no pair of a name and a value. -/
  | notPair (index : Nat)
  | notTwo (index length : Nat)
  | emptySelector
  | malformedJson
  | nestedTooDeep (what : String)
  | notEncodedText
  | notJsonText (type : String)
  | notJson (type : String)
  | notFiniteJson
  | countOutOfRange
  | unhashable (type : String)
  deriving DecidableEq

/-- Classes of errors. The first ones are this library's own. -/
inductive ErrorClass where
  | library
  | vector
  | vectorType
  | dimension
  | dimensionMismatch
  | unknownMetric
  | query
  | querySyntax
  | unknownOperator
  | unboundParameter
  | documentStore
  | validation
  | typeError
  | valueError
  | lookupError
  | keyError
  | indexError
  | attributeError
  | arithmeticError
  | overflowError
  | malformedJson
  | undecodable
  | runtimeError
  | recursion
  | database
  | any
  deriving DecidableEq

namespace ErrorClass

def all : List ErrorClass :=
  [.library, .vector, .vectorType, .dimension, .dimensionMismatch, .unknownMetric, .query,
    .querySyntax, .unknownOperator, .unboundParameter, .documentStore, .validation, .typeError,
    .valueError, .lookupError, .keyError, .indexError, .attributeError, .arithmeticError,
    .overflowError, .malformedJson, .undecodable, .runtimeError, .recursion, .database, .any]

theorem mem_all (c : ErrorClass) : c ∈ all := by cases c <;> decide

/-- The classes that a class belongs to beside itself, the general one last. -/
def ancestors : ErrorClass → List ErrorClass
  | .any => []
  | .library | .typeError | .valueError | .lookupError | .attributeError | .arithmeticError
  | .runtimeError | .database => [.any]
  | .vector | .documentStore => [.library, .any]
  | .vectorType => [.vector, .library, .typeError, .any]
  | .dimension | .dimensionMismatch => [.vector, .library, .valueError, .any]
  | .unknownMetric => [.library, .keyError, .lookupError, .any]
  | .query => [.library, .valueError, .any]
  | .querySyntax | .unknownOperator | .unboundParameter => [.query, .library, .valueError, .any]
  | .validation | .malformedJson | .undecodable => [.valueError, .any]
  | .keyError | .indexError => [.lookupError, .any]
  | .overflowError => [.arithmeticError, .any]
  | .recursion => [.runtimeError, .any]

def isA (c d : ErrorClass) : Bool := c = d || c.ancestors.contains d

end ErrorClass

namespace QueryFault

/-- What stands at the end is named, everything else is quoted. -/
def writeFound (found : String) : String :=
  quoted (if found.isEmpty then "end of input" else found)

end QueryFault

/-- Arities stand as they are written. -/
def arityMessage (name : String) (arities : List String) (given : String) : String :=
  name ++ " takes " ++ " or ".intercalate arities ++ " arguments, got " ++ given

def quotedList (names : List String) : String :=
  "[" ++ ", ".intercalate (names.map quoted) ++ "]"

def withPosition (message position : String) : String :=
  message ++ " (at position " ++ position ++ ")"

def mismatchMessage (expected actual : String) : String :=
  "Vector dimension " ++ actual ++ " does not match expected dimension " ++ expected

namespace QueryFault

def message : QueryFault → String
  | .unexpectedCharacter c => "Unexpected character " ++ quoted (String.singleton c)
  | .expected what found => "Expected " ++ what ++ ", found " ++ writeFound found
  | .trailing found => "Unexpected trailing input, found " ++ writeFound found
  | .limitNotInteger => "LIMIT expects an integer"
  | .unknownFunction name => "Unknown function: " ++ name
  | .wrongArity name arities given => arityMessage name arities given

end QueryFault

namespace StorageFault

def message : StorageFault → String
  | .noTable => "no such table: documents"
  | .notDatabase => "file is not a database"
  | .notStorable type => "Error binding parameter 1: type " ++ quoted type ++ " is not supported"
  | .nameMissing => "NOT NULL constraint failed: documents.collection"

end StorageFault

namespace Error

def message : Error → String
  | .notBracketed text => "String value is not a bracketed array: " ++ quoted text
  | .malformedBracketed => "Malformed bracketed array"
  | .notOneDimensional shape =>
    "Vector arrays must be one-dimensional; received shape " ++ shape.written
  | .notNumericArray element => "Vector arrays must be numeric; received dtype " ++ element
  | .notVectorShaped type => "Value of type " ++ type ++ " is not vector-shaped"
  | .componentNotNumeric index type =>
    "Vector component " ++ toString index ++ " is not numeric: " ++ type
  | .notSingle => "Vector components are not representable as float32"
  | .notFiniteVector => "Vector components must be finite float32 values"
  | .emptyVector => "Vector dimension must be at least 1"
  | .dimensionMismatch expected actual =>
    mismatchMessage (toString expected) (toString actual)
  | .unknownMetric written available =>
    "Unknown distance metric " ++ written ++ "; available: " ++ quotedList available
  | .unknownComparison op => "Unknown comparison operator: " ++ op
  | .tooFewOperands connective => connective ++ " needs at least two operands"
  | .callNotBound name => name ++ " must be bound before evaluation"
  | .metricNotText type => "VECTOR_DISTANCE metric must be a string, got " ++ type
  | .notExpression type => "Expected an expression or expression text, got " ++ type
  | .nearestAfterOrdering => "top_k_near cannot be combined with another ordering"
  | .nearestAfterLimit => "top_k_near cannot be combined with an explicit limit"
  | .nearestOrders => "top_k_near already defines the ordering"
  | .nearestLimits => "top_k_near already defines the limit"
  | .limitNotInteger type => "limit must be an integer, got " ++ type
  | .noSource => "Query has no collection and no document source"
  | .keysNotComparable => "ORDER BY values are not mutually comparable"
  | .parameterNotBound name => "Parameter @" ++ name ++ " is not bound"
  | .parameterMissing name => "No value supplied for parameter @" ++ name
  | .unknownFunction name => "Unknown function: " ++ name
  | .wrongArity name arities given => arityMessage name arities given
  | .malformedQuery fault position => withPosition fault.message (toString position)
  | .storage fault => fault.message
  | .notSerializable id => "Document " ++ quoted id ++ " is not JSON-serializable"
  | .unreadableFile => StorageFault.notDatabase.message
  | .invalid issues => toString issues.length ++ " invalid arguments"
  | .emptyPath => "field path must be a non-empty string"
  | .malformedPath path => "malformed field path: " ++ quoted path
  | .emptyMetricName => "metric name cannot be empty"
  | .metricNotCallable => "metric must be callable"
  | .operatorTaken name arity =>
    "Operator " ++ name ++ "/" ++ arity ++ " is already registered"
  | .distanceArity => "VECTOR_DISTANCE takes 2 or 3 arguments"
  | .incomparable op left right =>
    quoted op ++ " not supported between instances of " ++ quoted left ++ " and " ++ quoted right
  | .ambiguousTruth => "The truth value of an array with more than one element is ambiguous. " ++
    "Use a.any() or a.all()"
  | .emptyTruth => "The truth value of an empty array is ambiguous. Use `array.size > 0` to " ++
    "check that an array is not empty."
  | .shapesDoNotMeet a b => "operands could not be broadcast together with shapes " ++
    a.writtenTight ++ " " ++ b.writtenTight ++ " "
  | .unevenList shape => "setting an array element with a sequence. The requested array has an " ++
    "inhomogeneous shape after " ++ toString shape.length ++ " dimensions. The detected shape " ++
    "was " ++ shape.written ++ " + inhomogeneous part."
  | .tooManyAxes => "setting an array element with a sequence. The requested array would exceed " ++
    "the maximum number of dimension of " ++ toString Shape.mostAxes ++ "."
  | .notSingleItem => "only 0-dimensional arrays can be converted to Python scalars"
  | .notRealNumber type =>
    "float() argument must be a string or a real number, not " ++ quoted type
  | .unknownElement name => "data type " ++ quoted name ++ " not understood"
  | .notNumeral written => "could not convert string to float: " ++ written
  | .integerTooLarge => "int too large to convert to float"
  | .integerPastWord => "Python int too large to convert to C long"
  | .integerPastHalfWord => "Python int too large to convert to C int"
  | .integerPastColumn => "Python int too large to convert to SQLite INTEGER"
  | .tooManyDigits digits => "Exceeds the limit (4300 digits) for integer string conversion: " ++
    "value has " ++ toString digits ++
    " digits; use sys.set_int_max_str_digits() to increase the limit"
  | .integerTooLong => "Exceeds the limit (4300 digits) for integer string conversion; " ++
    "use sys.set_int_max_str_digits() to increase the limit"
  | .notIndex type => quoted type ++ " object cannot be interpreted as an integer"
  | .notIterable type => quoted type ++ " object is not iterable"
  | .notDocument type => "a document must be an object, not " ++ type
  | .notText type => "a text was expected, not " ++ type
  | .metricNameNotText type => "a metric name must be a text, not " ++ type
  | .missingArgument => "an operator lacks an argument"
  | .wrongArguments => "a call has too few or too many arguments"
  | .unknownCall name => "there is no call " ++ quoted name
  | .levelNotInteger => "level must be an integer"
  | .notPair index =>
    "cannot convert dictionary update sequence element #" ++ toString index ++ " to a sequence"
  | .notTwo index length => "dictionary update sequence element #" ++ toString index ++
    " has length " ++ toString length ++ "; 2 is required"
  | .emptySelector => "list index out of range"
  | .malformedJson => "malformed JSON text"
  | .nestedTooDeep what =>
    "maximum recursion depth exceeded while decoding a JSON " ++ what ++ " from a unicode string"
  | .notEncodedText => "the bytes encode no text"
  | .notJsonText type => "the JSON object must be str, bytes or bytearray, not " ++ type
  | .notJson type => "Object of type " ++ type ++ " is not JSON serializable"
  | .notFiniteJson => "Out of range float values are not JSON compliant"
  | .countOutOfRange =>
    "Stop argument for islice() must be None or an integer: 0 <= x <= sys.maxsize."
  | .unhashable type => "unhashable type: " ++ quoted type

def errorClass : Error → ErrorClass
  | .notBracketed _ | .malformedBracketed | .notOneDimensional _ | .notNumericArray _
  | .notVectorShaped _ | .componentNotNumeric .. | .notSingle | .notFiniteVector => .vectorType
  | .emptyVector => .dimension
  | .dimensionMismatch .. => .dimensionMismatch
  | .unknownMetric .. => .unknownMetric
  | .unknownComparison _ | .tooFewOperands _ | .callNotBound _ | .metricNotText _
  | .notExpression _ | .nearestAfterOrdering | .nearestAfterLimit | .nearestOrders
  | .nearestLimits | .limitNotInteger _ | .noSource | .keysNotComparable => .query
  | .parameterNotBound _ | .parameterMissing _ => .unboundParameter
  | .unknownFunction _ | .wrongArity .. => .unknownOperator
  | .malformedQuery .. => .querySyntax
  | .storage _ | .notSerializable _ => .documentStore
  | .unreadableFile => .database
  | .invalid _ => .validation
  | .emptyPath | .malformedPath _ | .emptyMetricName | .operatorTaken .. | .distanceArity
  | .ambiguousTruth | .emptyTruth | .shapesDoNotMeet .. | .unevenList _ | .tooManyAxes
  | .notNumeral _ | .tooManyDigits _ | .integerTooLong | .notTwo .. | .notFiniteJson
  | .countOutOfRange => .valueError
  | .notText _ | .metricNotCallable | .incomparable .. | .notRealNumber _ | .unknownElement _
  | .notSingleItem | .notIndex _ | .notIterable _ | .wrongArguments | .levelNotInteger | .notPair _
  | .notJsonText _ | .notJson _ | .unhashable _ => .typeError
  | .integerTooLarge | .integerPastWord | .integerPastHalfWord | .integerPastColumn =>
    .overflowError
  | .notDocument _ | .metricNameNotText _ | .unknownCall _ => .attributeError
  | .missingArgument | .emptySelector => .indexError
  | .malformedJson => .malformedJson
  | .nestedTooDeep _ => .recursion
  | .notEncodedText => .undecodable

end Error

end NearDoc
