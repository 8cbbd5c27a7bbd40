import NearDoc.Number.Numeral
import NearDoc.Expr.Operators
import NearDoc.Query.Token
import NearDoc.Query.Plan

/-!
The grammar of expressions and queries, by recursive descent: each function answers the part of
the sentence it read and the tokens after it.

    query  := SELECT (* | item, ...) FROM name [WHERE expr] [ORDER BY key, ...] [LIMIT int]
    item   := expr [AS name]              key    := expr [ASC | DESC]
    expr   := conj {OR conj}              conj   := neg {AND neg}
    neg    := NOT neg | cmp               cmp    := prim [op prim]
    prim   := number | text | @param | array | (expr) | TRUE | FALSE | NULL
            | name ( [expr, ...] ) | name
    array  := [ [elem, ...] ]             elem   := number | text | TRUE | FALSE | NULL | array
-/

namespace NearDoc

open Text

namespace Parser

/-- What a parse depends on beside its tokens: the known operators, and where the text ends. -/
structure Context where
  operators : Operators
  stop : Nat

variable (ctx : Context)

def found : List Token → String
  | [] => ""
  | t :: _ => t.text

/-- Where the next token stands, or the end. -/
def position : List Token → Nat
  | [] => ctx.stop
  | t :: _ => t.position

def fail (fault : QueryFault) (ts : List Token) : Except Error α :=
  .error (.malformedQuery fault (position ctx ts))

def failExpected (what : String) (ts : List Token) : Except Error α :=
  fail ctx (.expected what (found ts)) ts

/-- What follows a keyword, if it comes next. -/
def afterKeyword? (keyword : String) : List Token → Option (List Token)
  | [] => none
  | t :: ts => if t.keyword? = some keyword then some ts else none

def afterPunct? (symbol : String) : List Token → Option (List Token)
  | [] => none
  | t :: ts => if t.kind = .punct ∧ t.text = symbol then some ts else none

def keyword (word : String) (ts : List Token) : Except Error (List Token) :=
  match afterKeyword? word ts with
  | some ts => .ok ts
  | none => failExpected ctx word ts

def punct (symbol : String) (ts : List Token) : Except Error (List Token) :=
  match afterPunct? symbol ts with
  | some ts => .ok ts
  | none => failExpected ctx (quoted symbol) ts

def takeMinus : List Char → Bool × List Char
  | '-' :: rest => (true, rest)
  | rest => (false, rest)

/-- The integer that a numeral without point and exponent writes, unless it is too long. -/
def integer? (s : List Char) : Option (Except Error Int) :=
  let (negative, digits) := takeMinus s
  (Number.readNat? digits).map fun n =>
    if Number.longestInteger < digits.length then .error (.tooManyDigits digits.length)
    else .ok (if negative then -(n : Int) else n)

def numberValue (text : String) : Except Error Value :=
  match integer? text.toList with
  | some i => i.map .int
  | none => .ok (.real ((Number.readReal? text.toList).getD .notANumber))

/-- Quotes written twice become one. -/
def unescape : List Char → List Char
  | '\'' :: '\'' :: r => '\'' :: unescape r
  | c :: r => c :: unescape r
  | [] => []

def textValue (text : String) : Value :=
  .text (String.ofList (unescape ((text.toList.drop 1).dropLast)))

def constant? (t : Token) : Option (Except Error Value) :=
  match t.kind with
  | .number => some (numberValue t.text)
  | .text => some (.ok (textValue t.text))
  | .name =>
    match t.keyword? with
    | some "TRUE" => some (.ok (.bool true))
    | some "FALSE" => some (.ok (.bool false))
    | some "NULL" => some (.ok .null)
    | _ => none
  | _ => none

/-- A name that is no keyword. -/
def name (what : String) (ts : List Token) : Except Error (String × List Token) :=
  match ts with
  | t :: rest =>
    if t.kind = .name ∧ t.keyword? = none then .ok (t.text, rest) else failExpected ctx what ts
  | [] => failExpected ctx what ts

mutual

/-- The elements of an array after its opening bracket, up to the closing one. The first argument
of these functions bounds the depth of the recursion. -/
def elements : Nat → List Token → Except Error (List Value × List Token)
  | 0, ts => failExpected ctx "an array element" ts
  | fuel + 1, ts => do
    let (v, ts) ← element fuel ts
    match afterPunct? "," ts with
    | some ts =>
      let (vs, ts) ← elements fuel ts
      return (v :: vs, ts)
    | none => return ([v], ← punct ctx "]" ts)

def element : Nat → List Token → Except Error (Value × List Token)
  | 0, ts => failExpected ctx "an array element" ts
  | fuel + 1, ts =>
    match afterPunct? "[" ts with
    | some ts => array fuel ts
    | none =>
      match ts with
      | t :: rest =>
        match constant? t with
        | some v => v.map (·, rest)
        | none => failExpected ctx "an array element" ts
      | [] => failExpected ctx "an array element" ts

def array : Nat → List Token → Except Error (Value × List Token)
  | 0, ts => failExpected ctx "an array element" ts
  | fuel + 1, ts =>
    match afterPunct? "]" ts with
    | some ts => .ok (.list [], ts)
    | none => (elements fuel ts).map fun r => (.list r.1, r.2)

end

inductive Connective where
  | or
  | and
  deriving DecidableEq

namespace Connective

def word : Connective → String
  | .or => "OR"
  | .and => "AND"

/-- Operands joined; a single one stays as it is. -/
def join (c : Connective) : List Expr → Expr
  | [e] => e
  | es =>
    match c with
    | .or => .any es
    | .and => .all es

end Connective

mutual

def junction (c : Connective) : Nat → List Token → Except Error (Expr × List Token)
  | 0, ts => failExpected ctx "an expression" ts
  | fuel + 1, ts => (operands c fuel ts).map fun r => (c.join r.1, r.2)

def operands (c : Connective) : Nat → List Token → Except Error (List Expr × List Token)
  | 0, ts => failExpected ctx "an expression" ts
  | fuel + 1, ts => do
    let (e, ts) ← match c with
      | .or => junction .and fuel ts
      | .and => negation fuel ts
    match afterKeyword? c.word ts with
    | some ts =>
      let (es, ts) ← operands c fuel ts
      return (e :: es, ts)
    | none => return ([e], ts)

def negation : Nat → List Token → Except Error (Expr × List Token)
  | 0, ts => failExpected ctx "an expression" ts
  | fuel + 1, ts =>
    match afterKeyword? "NOT" ts with
    | some ts => (negation fuel ts).map fun r => (.not r.1, r.2)
    | none => comparison fuel ts

def comparison : Nat → List Token → Except Error (Expr × List Token)
  | 0, ts => failExpected ctx "an expression" ts
  | fuel + 1, ts => do
    let (left, ts) ← primary fuel ts
    match ts with
    | t :: rest =>
      match (if t.kind = .op then Comparator.ofSymbol? t.text else none) with
      | some op =>
        let (right, rest) ← primary fuel rest
        return (.compare op left right, rest)
      | none => return (left, ts)
    | [] => return (left, ts)

def primary : Nat → List Token → Except Error (Expr × List Token)
  | 0, ts => failExpected ctx "an expression" ts
  | fuel + 1, ts =>
    match ts with
    | [] => failExpected ctx "an expression" ts
    | t :: rest =>
      match constant? t with
      | some v => v.map fun v => (.literal v, rest)
      | none =>
        match t.kind with
        | .param => .ok (.param (.text (String.ofList (t.text.toList.drop 1))), rest)
        | .punct =>
          if t.text = "[" then (array ctx fuel rest).map fun r => (.literal r.1, r.2)
          else if t.text = "(" then do
            let (e, rest) ← junction .or fuel rest
            return (e, ← punct ctx ")" rest)
          else failExpected ctx "an expression" ts
        | .name =>
          if t.keyword? = none then
            match afterPunct? "(" rest with
            | some rest => do
              let (es, rest) ← arguments fuel rest
              match ctx.operators.resolve t.text (.int es.length) with
              | .ok op => return (.call op es none, rest)
              | .error (.unknownFunction name) =>
                throw (.malformedQuery (.unknownFunction name) t.position)
              | .error (.wrongArity name arities given) =>
                throw (.malformedQuery (.wrongArity name arities given) t.position)
              | .error e => throw e
            | none => .ok (.field t.text, rest)
          else failExpected ctx "an expression" ts
        | _ => failExpected ctx "an expression" ts

def arguments : Nat → List Token → Except Error (List Expr × List Token)
  | 0, ts => failExpected ctx "an expression" ts
  | fuel + 1, ts =>
    match afterPunct? ")" ts with
    | some ts => .ok ([], ts)
    | none => moreArguments fuel ts

def moreArguments : Nat → List Token → Except Error (List Expr × List Token)
  | 0, ts => failExpected ctx "an expression" ts
  | fuel + 1, ts => do
    let (e, ts) ← junction .or fuel ts
    match afterPunct? "," ts with
    | some ts =>
      let (es, ts) ← moreArguments fuel ts
      return (e :: es, ts)
    | none => return ([e], ← punct ctx ")" ts)

end

/-- Enough depth for any tokens: fewer than ten steps stand between one token and the next. -/
def depth (ts : List Token) : Nat := 10 * (ts.length + 1)

def expression (ts : List Token) : Except Error (Expr × List Token) :=
  junction ctx .or (depth ts) ts

/-- Parts separated by commas; the first argument bounds their number. -/
def separated (part : List Token → Except Error (α × List Token)) :
    Nat → List Token → Except Error (List α × List Token)
  | 0, ts => failExpected ctx "an expression" ts
  | fuel + 1, ts => do
    let (x, ts) ← part ts
    match afterPunct? "," ts with
    | some ts =>
      let (xs, ts) ← separated part fuel ts
      return (x :: xs, ts)
    | none => return ([x], ts)

def item (ts : List Token) : Except Error (Column × List Token) := do
  let (e, ts) ← expression ctx ts
  match afterKeyword? "AS" ts with
  | some ts =>
    let (a, ts) ← name ctx "alias" ts
    return (⟨e, .text a⟩, ts)
  | none => return (⟨e, .null⟩, ts)

def sortKey (ts : List Token) : Except Error (SortKey × List Token) := do
  let (e, ts) ← expression ctx ts
  match afterKeyword? "DESC" ts with
  | some ts => return (⟨e, .bool true⟩, ts)
  | none => return (⟨e, .bool false⟩, (afterKeyword? "ASC" ts).getD ts)

/-- The columns of the answer, or a star for whole documents. -/
def selection (ts : List Token) : Except Error (Option (List Column) × List Token) :=
  match afterPunct? "*" ts with
  | some ts => .ok (none, ts)
  | none => (separated ctx (item ctx) (ts.length + 1) ts).map fun r => (some r.1, r.2)

def condition (ts : List Token) : Except Error (Option Expr × List Token) :=
  match afterKeyword? "WHERE" ts with
  | some ts => (expression ctx ts).map fun r => (some r.1, r.2)
  | none => .ok (none, ts)

def ordering (ts : List Token) : Except Error (List SortKey × List Token) :=
  match afterKeyword? "ORDER" ts with
  | some ts => do
    let ts ← keyword ctx "BY" ts
    separated ctx (sortKey ctx) (ts.length + 1) ts
  | none => .ok ([], ts)

def limit (ts : List Token) : Except Error (Value × List Token) :=
  match afterKeyword? "LIMIT" ts with
  | none => .ok (.null, ts)
  | some ts =>
    match ts with
    | t :: rest =>
      match (if t.kind = .number then integer? t.text.toList else none) with
      | some n => n.map fun n => (.int n, rest)
      | none => fail ctx .limitNotInteger ts
    | [] => fail ctx .limitNotInteger ts

/-- Nothing may be left. -/
def finish (r : α × List Token) : Except Error α :=
  if r.2.isEmpty then .ok r.1 else fail ctx (.trailing (found r.2)) r.2

def query (ts : List Token) : Except Error Plan := do
  let ts ← keyword ctx "SELECT" ts
  let (columns, ts) ← selection ctx ts
  let ts ← keyword ctx "FROM" ts
  let (collection, ts) ← name ctx "collection name" ts
  let (predicate, ts) ← condition ctx ts
  let (order, ts) ← ordering ctx ts
  let (limit, ts) ← limit ctx ts
  finish ctx ({ collection := .text collection, predicate, order, limit, columns }, ts)

def parseWith (operators : Operators) (s : String)
    (parse : Context → List Token → Except Error α) : Except Error α :=
  (Token.tokens s).bind (parse ⟨operators, s.length⟩)

end Parser

def Expr.parse (operators : Operators) (s : String) : Except Error Expr :=
  Parser.parseWith operators s fun ctx ts => (Parser.expression ctx ts).bind (Parser.finish ctx)

def Plan.parse (operators : Operators) (s : String) : Except Error Plan :=
  Parser.parseWith operators s Parser.query

end NearDoc
