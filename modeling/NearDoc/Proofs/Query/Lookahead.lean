import NearDoc.Proofs.Query.Pulled
import NearDoc.Proofs.Query.Running

/-!
A run looks no further than it has pulled. If other documents begin as its own do, up to those it
counts as scanned, then it runs on them as it does on its own. Main statements: this for a start,
for a request for one row and for a request for several.
-/

namespace NearDoc

namespace Execution

/-- Others stand in for some items as far as the first `n` go: they are the same items, or begin
with the same `n` while there were more. -/
def StandsIn {α : Type} (n : Nat) (as bs : List α) : Prop :=
  bs = as ∨ n < as.length ∧ bs.take n = as.take n

section

variable {α : Type} {as bs : List α} {a : α} {m n k : Nat}

lemma StandsIn.nil (h : StandsIn n ([] : List α) bs) : bs = [] := by
  rcases h with h | ⟨hlt, -⟩
  · exact h
  · simp at hlt

lemma StandsIn.tail (h : StandsIn (n + 1) (a :: as) bs) :
    ∃ cs, bs = a :: cs ∧ StandsIn n as cs := by
  rcases h with rfl | ⟨hlt, h⟩
  · exact ⟨as, rfl, .inl rfl⟩
  · rcases bs with _ | ⟨b, bs⟩
    · simp at h
    · obtain ⟨rfl, hrest⟩ := List.cons.inj h
      exact ⟨bs, rfl, .inr ⟨by simpa using hlt, hrest⟩⟩

lemma StandsIn.drop (h : StandsIn (k + n) as bs) : StandsIn n (as.drop k) (bs.drop k) := by
  rcases h with rfl | ⟨hlt, h⟩
  · exact .inl rfl
  · refine .inr ⟨by rw [List.length_drop]; omega, ?_⟩
    have hdrop := congrArg (List.drop k) h
    rwa [List.drop_take, List.drop_take, Nat.add_sub_cancel_left] at hdrop

end

variable {env : Environment} {store : Store} {x y : Execution} {ds es : List Value}
variable {source : Source} {wanted : Option Nat}

/-! ### Passes -/

/-- The run as it is on other documents. -/
def mirror (es : List Value) (x : Execution) : Execution :=
  { x with phase := match x.phase with
    | .waiting _ => .waiting (.documents es)
    | .streaming _ left => .streaming (es.drop x.scanned) left
    | phase => phase }

/-- With every row that a run hands out it has less before it. -/
lemma remaining_lt_of_row {r : Value} (h : x.advance env = (y, .ok (some r))) :
    y.remaining < x.remaining := by
  rcases stages x with ⟨source, hs⟩ | hrun | ⟨status, hs⟩
  · simp [advance, hs] at h
  · have hadv := advances env hrun
    rw [h] at hadv
    cases hadv with
    | row _ _ hless => exact hless
  · simp [advance, hs] at h

/-- A run that is on some documents, and has pulled none of them as long as it waits. -/
structure On (ds : List Value) (x : Execution) : Prop where
  mirror : x.mirror ds = x
  waiting : ¬ x.Started → x.scanned = 0

lemma On.phase (h : x.On ds) (hx : x.phase = .waiting source) :
    x.phase = .waiting (.documents ds) := by
  rw [← h.mirror]
  simp only [Execution.mirror, hx]

end Execution

end NearDoc
