import NearDoc.Near.Retrieval
import NearDoc.Store.Basic
import NearDoc.Query.Plan

/-!
Carrying out a plan row by row. An execution waits until a row is asked for; then it pulls what it
needs, and when it ends it closes what it pulls from and leaves one record. A cursor hands out the
rows of an execution until it is closed.
-/

namespace NearDoc

/-- What a plan scans: given documents, or a collection as it is when the scan begins. -/
inductive Source where
  | documents (ds : List Value)
  | collection (name : Value)

/-- A source as it is given. Documents are pulled from its iterator, which is the source itself or
another object that it makes. -/
structure Given where
  iterator : Source
  isIterator : Bool

inductive Status where
  | completed
  | abandoned
  | failed
  deriving DecidableEq

def Status.name : Status → String
  | .completed => "completed"
  | .abandoned => "abandoned"
  | .failed => "failed"

inductive Phase where
  | waiting (source : Source)
  /-- Documents not yet pulled, and how many rows may still be delivered. -/
  | streaming (rest : List Value) (left : Option Nat)
  /-- Documents in their final order, not yet delivered. -/
  | delivering (rest : List Value)
  | ended (status : Status)

structure Execution where
  plan : Plan
  phase : Phase
  scanned : Nat := 0
  emitted : Nat := 0
  /-- How often the iterator of the source was closed. -/
  closes : Nat := 0
  records : List Record := []

namespace Execution

/-! ### Pulling documents -/

def admitted (env : Environment) (p : Plan) (document : Value) : Except Error Bool :=
  match p.predicate with
  | none => .ok true
  | some e => e.admits env document

/-- Pulls documents until one is admitted; answers it and the documents left. -/
def pullAdmitted (env : Environment) (p : Plan) :
    List Value → Pass (Except Error (Option (Value × List Value)))
  | [] => ⟨0, .ok none⟩
  | d :: ds =>
    match admitted env p d with
    | .error e => ⟨1, .error e⟩
    | .ok true => ⟨1, .ok (some (d, ds))⟩
    | .ok false =>
      let rest := pullAdmitted env p ds
      ⟨rest.pulled + 1, rest.outcome⟩

abbrev Keyed := List Value × Value

/-- The sort keys of a document; none if it is not admitted or a key is undefined or null. -/
def keyed? (env : Environment) (p : Plan) (d : Value) : Except Error (Option Keyed) := do
  if !(← admitted env p d) then return none
  let keys ← Expr.evalEach env d (p.order.map SortKey.expr)
  return if keys.any fun v => v.isUndefined || v.isNull then none else some (keys, d)

/-- Pulls all documents and keeps those that have sort keys. -/
def pullKeyed (env : Environment) (p : Plan) : List Value → Pass (Except Error (List Keyed))
  | [] => ⟨0, .ok []⟩
  | d :: ds =>
    match keyed? env p d with
    | .error e => ⟨1, .error e⟩
    | .ok k =>
      let rest := pullKeyed env p ds
      ⟨rest.pulled + 1, rest.outcome.map (k.toList ++ ·)⟩

/-- The only sort key of a document, undefined if it is not admitted or the key is null. -/
def soleKey (env : Environment) (p : Plan) (key : Expr) (d : Value) : Except Error Value := do
  if !(← admitted env p d) then return .undefined
  let v ← key.eval env d
  return if v.isNull then .undefined else v

/-! ### Order -/

def keyAt (position : Nat) (entry : Keyed) : Value := entry.1.getD position .undefined

def precedes (position : Nat) (a b : Keyed) : Except Error Bool :=
  (keyAt position a).lt (keyAt position b)

/-- Sorts by one key; entries with equal keys keep their order. -/
def sortByKey (position : Nat) (key : SortKey) (entries : List Keyed) :
    Except Error (List Keyed) := do
  if ← key.isDescending then Sort.sortDescending (precedes position) entries
  else Sort.sort (precedes position) entries

/-- Sorts by every key from `position` on, the last key first. -/
def sortFrom (position : Nat) : List SortKey → List Keyed → Except Error (List Keyed)
  | [], entries => .ok entries
  | key :: keys, entries => do
    sortByKey position key (← sortFrom (position + 1) keys entries)

/-- A key that cannot be compared is told as such; vector errors stay what they are. -/
def asOrderError (e : Error) : Error :=
  if e.errorClass.isA .typeError && !e.errorClass.isA .vector then .keysNotComparable else e

def sorted (env : Environment) (p : Plan) (ds : List Value) : Pass (Except Error (List Value)) :=
  let pass := pullKeyed env p ds
  ⟨pass.pulled, pass.outcome.bind fun entries =>
    match sortFrom 0 p.order entries with
    | .ok entries => .ok (entries.map (·.2))
    | .error e => .error (asOrderError e)⟩

def smallest (env : Environment) (p : Plan) (key : Expr) (ds : List Value) :
    Pass (Except Error (List Value)) :=
  let pass := Selector.selectCount (soleKey env p key) p.limit ds
  ⟨pass.pulled, match pass.outcome with
    | .ok ranked => .ok (ranked.map (·.2))
    | .error e => .error (asOrderError e)⟩

/-! ### Rows -/

/-- The text that a name stands as in a row: it must have a hash, and truth values are written
small. -/
def rowName : Value → Except Error String
  | .text s => .ok s
  | .bool b => .ok (if b then "true" else "false")
  | v => if v.hashKey?.isSome then .ok v.toText else .error (.unhashable v.typeName)

/-- A document shown in columns; a column without a value is left out. -/
def project (env : Environment) (columns : List Column) (d : Value) : Except Error Fields :=
  columns.foldlM (fun row c => do
    match ← c.expr.eval env d with
    | .undefined => return row
    | v => return Fields.set row (← rowName (← c.name)) v) []

def row (env : Environment) (p : Plan) (d : Value) : Except Error Value :=
  match p.columns with
  | none => .ok d
  | some columns => (project env columns d).map .object

/-! ### Running -/

def failureDetails (e : Error) : Fields :=
  match e with
  | .dimensionMismatch expected actual =>
    [("error", .text e.message), ("expected", .int expected), ("actual", .int actual)]
  | e => [("error", .text (String.ofList (e.message.toList.take 200)))]

def completion (x : Execution) (status : Status) (strategy : Strategy) (details : Fields) :
    Record :=
  .query "execute" status.name (details ++
    [("collection", x.plan.collection), ("strategy", .text strategy.name),
      ("scanned", .int x.scanned), ("emitted", .int x.emitted)])

/-- Ends a run: the iterator is closed and, if queries are logged, a record is left of a plan that
has a strategy. -/
def finish (env : Environment) (status : Status) (details : Fields) (x : Execution) : Execution :=
  { x with
    phase := .ended status
    closes := x.closes + 1
    records := x.records ++
      if env.settings.queryLogging then
        (x.plan.strategy.toOption.map fun s => x.completion status s details).toList
      else [] }

def fail (env : Environment) (e : Error) (x : Execution) : Execution :=
  x.finish env .failed (failureDetails e)

def openSource (store : Store) : Source → Except Error (List Value) × List Record
  | .documents ds => (.ok ds, [])
  | .collection name =>
    match store.documents name with
    | .ok ds => (.ok ds, [])
    | .error e => (.error e, Store.scanRecords name e)

/-- The rows in order are all known before the first is delivered. -/
def deliver (env : Environment) (pass : Pass (Except Error (List Value))) (x : Execution) :
    Execution × Option Error :=
  let x := { x with scanned := x.scanned + pass.pulled }
  match pass.outcome with
  | .error e => (x.fail env e, some e)
  | .ok ds => ({ x with phase := .delivering ds }, none)

def cut (limit : Value) (pass : Pass (Except Error (List Value))) :
    Pass (Except Error (List Value)) :=
  ⟨pass.pulled, do
    let ds ← pass.outcome
    return (← Plan.rowCount limit).elim ds ds.take⟩

def startOn (env : Environment) (store : Store) (source : Source)
    (go : List Value → Execution → Execution × Option Error) (x : Execution) :
    Execution × Option Error :=
  match openSource store source with
  | (.ok ds, _) => go ds x
  | (.error e, records) => (fail env e { x with records := x.records ++ records }, some e)

/-- Starts a run as its strategy says. The limit of a scan is settled before the source is
opened. -/
def startAs (env : Environment) (store : Store) (source : Source) (x : Execution) :
    Strategy → Execution × Option Error
  | .empty => ({ x with phase := .delivering [] }, none)
  | .stream =>
    match Plan.rowCount x.plan.limit with
    | .error e => (x.fail env e, some e)
    | .ok n => x.startOn env store source fun ds x => ({ x with phase := .streaming ds n }, none)
  | .topK =>
    let key := (x.plan.order.map SortKey.expr).headD (.literal .null)
    x.startOn env store source fun ds x => x.deliver env (smallest env x.plan key ds)
  | .sort =>
    x.startOn env store source fun ds x =>
      x.deliver env (cut x.plan.limit (sorted env x.plan ds))

/-- Starts a run that waits; any other is left as it is. -/
def start (env : Environment) (store : Store) (x : Execution) : Execution × Option Error :=
  match x.phase with
  | .waiting source =>
    match x.plan.strategy with
    | .ok s => x.startAs env store source s
    | .error e => (x.fail env e, some e)
  | _ => (x, none)

def emit (env : Environment) (d : Value) (x : Execution) :
    Execution × Except Error (Option Value) :=
  let x := { x with emitted := x.emitted + 1 }
  match row env x.plan d with
  | .ok r => (x, .ok (some r))
  | .error e => (x.fail env e, .error e)

def advance (env : Environment) (x : Execution) : Execution × Except Error (Option Value) :=
  match x.phase with
  | .waiting _ | .ended _ => (x, .ok none)
  | .delivering [] | .streaming _ (some 0) => (x.finish env .completed [], .ok none)
  | .delivering (d :: rest) => emit env d { x with phase := .delivering rest }
  | .streaming rest left =>
    let pass := pullAdmitted env x.plan rest
    let x := { x with scanned := x.scanned + pass.pulled }
    match pass.outcome with
    | .error e => (x.fail env e, .error e)
    | .ok none => (x.finish env .completed [], .ok none)
    | .ok (some (d, rest)) => emit env d { x with phase := .streaming rest (left.map (· - 1)) }

def next (env : Environment) (store : Store) (x : Execution) :
    Execution × Except Error (Option Value) :=
  match x.start env store with
  | (x, some e) => (x, .error e)
  | (x, none) => x.advance env

/-- Ends a run that has started and is not over. -/
def abandon (env : Environment) (x : Execution) : Execution :=
  match x.phase with
  | .waiting _ | .ended _ => x
  | _ => x.finish env .abandoned []

/-- No more rows than this can come of a run that has started. -/
def remaining (x : Execution) : Nat :=
  match x.phase with
  | .waiting _ | .ended _ => 0
  | .streaming rest _ => rest.length
  | .delivering rest => rest.length

/-- Rows of a run that has started until as many are there as wanted, or no more come. The first
argument is greater than the number of rows. -/
def collect (env : Environment) : Nat → Option Nat → Execution →
    Execution × Except Error (List Value)
  | 0, _, x => (x, .ok [])
  | _, some 0, x => (x, .ok [])
  | fuel + 1, wanted, x =>
    match x.advance env with
    | (x, .error e) => (x, .error e)
    | (x, .ok none) => (x, .ok [])
    | (x, .ok (some r)) =>
      match collect env fuel (wanted.map (· - 1)) x with
      | (x, .ok rs) => (x, .ok (r :: rs))
      | (x, .error e) => (x, .error e)

end Execution

/-- How often a source was closed that a run pulls from. An iterator of its own is closed in its
place. -/
def Given.closes (g : Given) (x : Execution) : Nat := if g.isIterator then x.closes else 0

structure Cursor where
  execution : Execution
  closed : Bool := false

namespace Cursor

/-- A cursor on a plan that is bound already. -/
def ofPlan (plan : Plan) (source : Source) : Cursor :=
  { execution := { plan, phase := .waiting source } }

/-- The next row; none when there is none, or the cursor is closed. -/
def next (env : Environment) (store : Store) (c : Cursor) : Cursor × Except Error (Option Value) :=
  if c.closed then (c, .ok none)
  else
    let (x, r) := c.execution.next env store
    ({ c with execution := x }, r)

/-- Rows until as many are there as wanted; without a number, all of them. -/
def fetch (env : Environment) (store : Store) (wanted : Option Nat) (c : Cursor) :
    Cursor × Except Error (List Value) :=
  if c.closed || wanted = some 0 then (c, .ok [])
  else
    match c.execution.start env store with
    | (x, some e) => ({ c with execution := x }, .error e)
    | (x, none) =>
      let (x, rs) := x.collect env (x.remaining + 1) wanted
      ({ c with execution := x }, rs)

def fetchMany (env : Environment) (store : Store) (size : Value) (c : Cursor) :
    Cursor × Except Error (List Value) :=
  match Plan.rowCount size with
  | .error e => (c, .error e)
  | .ok n => c.fetch env store n

def close (env : Environment) (c : Cursor) : Cursor :=
  if c.closed then c else { execution := c.execution.abandon env, closed := true }

def scanned (c : Cursor) : Nat := c.execution.scanned

end Cursor

namespace Plan

/-- A cursor on the plan, bound to parameters. Without a source it scans its collection. -/
def execute (p : Plan) (env : Environment) (params : Params) (source : Option Source) :
    Except Error Cursor := do
  let bound ← p.bind env params
  match source with
  | some source => return .ofPlan bound source
  | none => return .ofPlan bound (.collection (← p.defaultSource))

end Plan

end NearDoc
