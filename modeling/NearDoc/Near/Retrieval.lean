import NearDoc.Near.Distance
import NearDoc.Near.Selector

/-!
Exact retrieval by nearness over documents that are pulled one at a time: those within a threshold
in the order of the scan, and the `k` nearest in the order of their distance.
-/

namespace NearDoc

/-- How far a pass over documents came: the documents it pulled, and what it has to show. -/
structure Pass (α : Type) where
  pulled : Nat
  outcome : α

/-- Items found so far, and the failure that ended the search if one did. -/
structure Found (α : Type) where
  items : List α
  failure : Option Error

namespace DistanceKey

/-- The documents within a distance, in scan order, at most `wanted` of them. No document is
pulled that is not needed. -/
def within (key : DistanceKey) (most : Value) : Option Nat → List Value → Pass (Found Value)
  | some 0, _ => ⟨0, [], none⟩
  | _, [] => ⟨0, [], none⟩
  | wanted, document :: documents =>
    match key.ofDocument document with
    | .error e => ⟨1, [], some e⟩
    | .ok .undefined =>
      let rest := within key most wanted documents
      ⟨rest.pulled + 1, rest.outcome⟩
    | .ok distance =>
      match distance.relate .le most with
      | .error e => ⟨1, [], some e⟩
      | .ok false =>
        let rest := within key most wanted documents
        ⟨rest.pulled + 1, rest.outcome⟩
      | .ok true =>
        let rest := within key most (wanted.map (· - 1)) documents
        ⟨rest.pulled + 1, document :: rest.outcome.items, rest.outcome.failure⟩

/-- The distance of a document, undefined when it is beyond the threshold. -/
def upTo (key : DistanceKey) (most : Value) (document : Value) : Except Error Value := do
  match ← key.ofDocument document with
  | .undefined => return .undefined
  | distance => return if ← distance.relate .gt most then .undefined else distance

end DistanceKey

namespace Selector

variable {α : Type}

def offerAll (key : α → Except Error Value) (s : Selector α) :
    List α → Pass (Except Error (Selector α))
  | [] => ⟨0, .ok s⟩
  | item :: items =>
    match key item with
    | .error e => ⟨1, .error e⟩
    | .ok .undefined =>
      let rest := offerAll key s items
      ⟨rest.pulled + 1, rest.outcome⟩
    | .ok k =>
      match s.offer k item with
      | (_, .error e) => ⟨1, .error e⟩
      | (s, .ok _) =>
        let rest := offerAll key s items
        ⟨rest.pulled + 1, rest.outcome⟩

/-- The items with the smallest keys, in ascending order. Items whose key is undefined are passed
over; with no room nothing is pulled. -/
def select (key : α → Except Error Value) (room : Room) (items : List α) :
    Pass (Except Error (List (Value × α))) :=
  if room.isNone then ⟨0, .ok []⟩
  else
    let pass := offerAll key (.empty room) items
    ⟨pass.pulled, pass.outcome.bind fun s => s.drain.2⟩

def selectCount (key : α → Except Error Value) (k : Value) (items : List α) :
    Pass (Except Error (List (Value × α))) :=
  match Room.ofValue k with
  | .error e => ⟨0, .error e⟩
  | .ok room => select key room items

end Selector

structure Hit where
  document : Value
  distance : Value

/-- The identifier of the document found; null if it has none. -/
def Hit.id (hit : Hit) : Except Error Value :=
  match hit.document with
  | .object fields => .ok ((Fields.get? fields "_id").getD .null)
  | v => .error (.notDocument v.typeName)

namespace Near

/-- The documents whose vector lies within a distance of the target. -/
def filter (env : Environment) (documents : List Value) (field : String) (target most : Value)
    (metric : MetricRef) (wanted : Option Nat) : Except Error (Pass (Found Value)) := do
  let key ← DistanceKey.make env field target metric
  return key.within most wanted documents

/-- The `k` nearest documents, of which the first `wanted` are asked for. -/
def topK (env : Environment) (documents : List Value) (field : String) (target k : Value)
    (metric : MetricRef) (wanted : Option Nat) : Except Error (Pass (Found Value)) := do
  let key ← DistanceKey.make env field target metric
  if wanted = some 0 then return ⟨0, [], none⟩
  let pass := Selector.selectCount key.ofDocument k documents
  match pass.outcome with
  | .error e => return ⟨pass.pulled, [], some e⟩
  | .ok ranked =>
    let found := ranked.map (·.2)
    return ⟨pass.pulled, wanted.elim found found.take, none⟩

/-- What a ranking goes by: the distances it admits, and how many hits it keeps. -/
structure Ranking where
  distance : Value → Except Error Value
  room : Room

/-- A ranking of the `k` nearest documents; null is no threshold. -/
def ranking (env : Environment) (field : String) (target k : Value) (metric : MetricRef)
    (most : Value) : Except Error Ranking := do
  let key ← DistanceKey.make env field target metric
  return ⟨if most.isNull then key.ofDocument else key.upTo most, ← Room.ofValue k⟩

def Ranking.run (r : Ranking) (documents : List Value) : Pass (Except Error (List Hit)) :=
  let pass := Selector.select r.distance r.room documents
  ⟨pass.pulled, pass.outcome.map fun ranked => ranked.map fun hit => ⟨hit.2, hit.1⟩⟩

/-- The `k` nearest documents with their distances, those beyond a threshold left out. -/
def rank (env : Environment) (documents : List Value) (field : String) (target k : Value)
    (metric : MetricRef) (most : Value) : Pass (Except Error (List Hit)) :=
  match ranking env field target k metric most with
  | .error e => ⟨0, .error e⟩
  | .ok r => r.run documents

end Near

end NearDoc
