import NearDoc.Number.Binary64

/-!
Embeddings: the vectors carried inside documents. An embedding is a nonempty list of finite
single-precision numbers and never changes.
-/

namespace NearDoc

/-- A number that a component may be: finite, and unchanged by rounding to single precision. -/
def IsComponent (x : Binary64) : Prop := x.isFinite = true ∧ x.toSingle = x

instance (x : Binary64) : Decidable (IsComponent x) := inferInstanceAs (Decidable (_ ∧ _))

structure Embedding where
  components : List Binary64
  nonempty : components ≠ []
  allComponents : ∀ x ∈ components, IsComponent x

namespace Embedding

def dimension (v : Embedding) : Nat := v.components.length

/-- Two embeddings are the same when they have as many components and these are equal numbers;
the sign of a zero does not count. -/
def same (v w : Embedding) : Bool :=
  v.dimension = w.dimension && (v.components.zip w.components).all fun p => p.1.eq p.2

/-- The embedding of these components, if they are some. -/
def ofComponents? (xs : List Binary64) : Option Embedding :=
  if h : xs ≠ [] ∧ ∀ x ∈ xs, IsComponent x then some ⟨xs, h.1, h.2⟩ else none

end Embedding

end NearDoc
