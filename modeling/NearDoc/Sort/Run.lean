import NearDoc.Sort.Search

/-!
Runs: stretches of entries that are in order. The run in front of the entries is found as it
stands and made long enough by inserting the entries after it, each after its equals. Main
statement: a run takes at least one entry, so what is left is shorter.
-/

namespace NearDoc.Sort

variable {α : Type} (before : α → α → Except Error Bool)

/-- How the entries go on after one while none comes before its neighbour, and the rest. -/
def ascending (last : α) : List α → Except Error (List α × List α)
  | [] => .ok ([], [])
  | a :: rest =>
    match before a last with
    | .error e => .error e
    | .ok true => .ok ([], a :: rest)
    | .ok false => (ascending a rest).map fun r => (a :: r.1, r.2)

/-- How the entries go on after one while each comes before its neighbour, and the rest. -/
def descending (last : α) : List α → Except Error (List α × List α)
  | [] => .ok ([], [])
  | a :: rest =>
    match before a last with
    | .error e => .error e
    | .ok true => (descending a rest).map fun r => (a :: r.1, r.2)
    | .ok false => .ok ([], a :: rest)

/-- The run in front, in ascending order, and the rest. A strictly descending run is turned
round. -/
def firstRun : List α → Except Error (List α × List α)
  | a :: b :: rest =>
    match before b a with
    | .error e => .error e
    | .ok true => (descending before b rest).map fun r => ((a :: b :: r.1).reverse, r.2)
    | .ok false => (ascending before b rest).map fun r => (a :: b :: r.1, r.2)
  | short => .ok (short, [])

/-- Inserts an entry into sorted ones, after its equals. -/
def insert (a : α) (sorted : List α) : Except Error (List α) :=
  (countBetween (fun b => (before a b).map (!·)) .forward sorted 0 sorted.length).map fun place =>
    sorted.take place ++ a :: sorted.drop place

/-- The run in front, made up to `least` entries if there are so many, and the rest. -/
def nextRun (least : Nat) (entries : List α) : Except Error (List α × List α) := do
  let (run, rest) ← firstRun before entries
  let run' ← (rest.take (least - run.length)).foldlM (fun sorted a => insert before a sorted) run
  return (run', rest.drop (least - run.length))

def contrary (a b : α) : Except Error Bool := (before a b).map (!·)

/-- What descends by a test ascends by the contrary one. -/
theorem descending_eq (last : α) (entries : List α) :
    descending before last entries = ascending (contrary before) last entries := by
  induction entries generalizing last with
  | nil => rfl
  | cons a rest ih =>
    rw [descending, ascending, contrary, ih]
    rcases before a last with e | _ | _ <;> rfl

variable {before}

theorem ascending_append {last : α} {entries run rest : List α}
    (h : ascending before last entries = .ok (run, rest)) : run ++ rest = entries := by
  induction entries generalizing last run rest with
  | nil => simp_all [ascending]
  | cons a t ih =>
    unfold ascending at h
    split at h
    · cases h
    · cases h
      rfl
    · cases h' : ascending before a t with
      | error e => simp [h', Except.map] at h
      | ok r =>
        simp only [h', Except.map, Except.ok.injEq, Prod.mk.injEq] at h
        rw [← h.1, ← h.2, List.cons_append, ih h']

theorem descending_append {last : α} {entries run rest : List α}
    (h : descending before last entries = .ok (run, rest)) : run ++ rest = entries := by
  rw [descending_eq] at h
  exact ascending_append h

theorem length_firstRun {a : α} {entries run rest : List α}
    (h : firstRun before (a :: entries) = .ok (run, rest)) :
    rest.length < (a :: entries).length := by
  cases entries with
  | nil =>
    cases h
    simp
  | cons b t =>
    simp only [firstRun] at h
    split at h
    · cases h
    · cases h' : descending before b t with
      | error e => simp [h', Except.map] at h
      | ok r =>
        have := congrArg List.length (descending_append h')
        simp only [h', Except.map, Except.ok.injEq, Prod.mk.injEq] at h
        simp only [List.length_append, List.length_cons, ← h.2] at this ⊢
        omega
    · cases h' : ascending before b t with
      | error e => simp [h', Except.map] at h
      | ok r =>
        have := congrArg List.length (ascending_append h')
        simp only [h', Except.map, Except.ok.injEq, Prod.mk.injEq] at h
        simp only [List.length_append, List.length_cons, ← h.2] at this ⊢
        omega

/-- A run takes at least one entry. -/
theorem length_nextRun {least : Nat} {a : α} {entries run rest : List α}
    (h : nextRun before least (a :: entries) = .ok (run, rest)) :
    rest.length < (a :: entries).length := by
  unfold nextRun at h
  cases hf : firstRun before (a :: entries) with
  | error e => simp [hf, bind, Except.bind] at h
  | ok r =>
    have := length_firstRun hf
    simp only [hf, bind, Except.bind] at h
    split at h
    · cases h
    · simp only [pure, Except.pure, Except.ok.injEq, Prod.mk.injEq] at h
      simp only [← h.2, List.length_drop]
      omega

end NearDoc.Sort
