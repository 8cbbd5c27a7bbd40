import NearDoc.Number.Rounding

/-!
Numbers as bytes of a fixed count, the least significant first.
-/

namespace NearDoc.Number

/-- So many bytes of a number, the least significant first. -/
def littleEndian : Nat → Nat → List UInt8
  | 0, _ => []
  | size + 1, n => UInt8.ofNat n :: littleEndian size (n / 256)

theorem length_littleEndian (size n : Nat) : (littleEndian size n).length = size := by
  induction size generalizing n with
  | zero => rfl
  | succ size ih => simp [littleEndian, ih]

def ofLittleEndian : List UInt8 → Nat
  | [] => 0
  | b :: bs => b.toNat + 256 * ofLittleEndian bs

/-- Bytes that have room for a number read back to it. -/
theorem ofLittleEndian_littleEndian {size n : Nat} (h : n < 256 ^ size) :
    ofLittleEndian (littleEndian size n) = n := by
  induction size generalizing n with
  | zero => simp at h; simp [littleEndian, ofLittleEndian, h]
  | succ size ih =>
    have hr : n / 256 < 256 ^ size := by
      rw [Nat.div_lt_iff_lt_mul (by decide)]
      rwa [Nat.pow_succ] at h
    simp only [littleEndian, ofLittleEndian, ih hr, UInt8.toNat_ofNat']
    omega

end NearDoc.Number
