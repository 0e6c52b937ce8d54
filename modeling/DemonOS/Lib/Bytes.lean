import Mathlib.Algebra.Order.Group.Nat

/-!
# Byte memory

Memory is a map from addresses to bytes, with little-endian 64-bit words read and written in it.
-/

namespace Bytes

/-- The word at `a`. -/
def load64 (m : ℕ → UInt8) (a : ℕ) : ℕ :=
  (m a).toNat + 2 ^ 8 * (m (a + 1)).toNat + 2 ^ 16 * (m (a + 2)).toNat
    + 2 ^ 24 * (m (a + 3)).toNat + 2 ^ 32 * (m (a + 4)).toNat + 2 ^ 40 * (m (a + 5)).toNat
    + 2 ^ 48 * (m (a + 6)).toNat + 2 ^ 56 * (m (a + 7)).toNat

/-- The memory with the word at `a` set to `v`. -/
def store64 (m : ℕ → UInt8) (a v : ℕ) : ℕ → UInt8 := fun b =>
  if a ≤ b ∧ b < a + 8 then UInt8.ofNat (v / 2 ^ (8 * (b - a))) else m b

/-- The memory with the `n` bytes from `a` on cleared. -/
def clear (m : ℕ → UInt8) (a n : ℕ) : ℕ → UInt8 := fun b =>
  if a ≤ b ∧ b < a + n then 0 else m b

end Bytes
