import Mathlib.Data.Nat.ModEq
import Mathlib.Tactic.Ring

/-!
# Ones' complement sums

The words of 16 bits of a block of bytes are added, and what is carried out at the high end is added
back in at the low one. A folded sum is its number modulo `0xFFFF`, with `0xFFFF` for the positive
multiples (`fold_eq_of_modEq`), so that a block checks where the complement of its sum is one of its
words (`fold_complement`).
-/

namespace OnesComplement

/-- The sum within 16 bits: what is carried out of them is added back in. -/
def fold (n : ℕ) : ℕ := if 0xFFFF < n then fold (n % 2 ^ 16 + n / 2 ^ 16) else n
termination_by n
decreasing_by omega

theorem fold_of_le {n : ℕ} (h : n ≤ 0xFFFF) : fold n = n := by
  rw [fold, if_neg (by omega)]

theorem fold_le (n : ℕ) : fold n ≤ 0xFFFF := by
  fun_induction fold n with
  | case1 n h ih => exact ih
  | case2 n h => omega

theorem fold_modEq (n : ℕ) : fold n ≡ n [MOD 0xFFFF] := by
  fun_induction fold n with
  | case1 n h ih =>
    refine ih.trans ?_
    unfold Nat.ModEq
    omega
  | case2 n h => rfl

theorem fold_pos {n : ℕ} (h : 0 < n) : 0 < fold n := by
  fun_induction fold n with
  | case1 n h ih => exact ih (by omega)
  | case2 n h => omega

theorem fold_eq_of_modEq {a b : ℕ} (ha : 0 < a) (hb : 0 < b) (h : a ≡ b [MOD 0xFFFF]) :
    fold a = fold b := by
  have hab : fold a ≡ fold b [MOD 0xFFFF] := ((fold_modEq a).trans h).trans (fold_modEq b).symm
  have hapos := fold_pos ha
  have hbpos := fold_pos hb
  have hale := fold_le a
  have hble := fold_le b
  unfold Nat.ModEq at hab
  omega

theorem fold_add_fold (a b : ℕ) : fold (fold a + b) = fold (a + b) := by
  rcases Nat.eq_zero_or_pos a with rfl | ha
  · rw [fold_of_le (Nat.zero_le _)]
  · have hpos := fold_pos ha
    exact fold_eq_of_modEq (by omega) (by omega) ((fold_modEq a).add_right b)

theorem fold_complement (n : ℕ) : fold (n + (0xFFFF - fold n)) = 0xFFFF := by
  rw [← fold_add_fold, Nat.add_sub_cancel' (fold_le n), fold_of_le le_rfl]

/-- The sum of the words, high byte first, of the `n` bytes from `a` on. A last byte alone is the
high byte of a word. -/
def wordSum (m : ℕ → UInt8) : ℕ → ℕ → ℕ
  | _, 0 => 0
  | a, 1 => 256 * (m a).toNat
  | a, n + 2 => 256 * (m a).toNat + (m (a + 1)).toNat + wordSum m (a + 2) n

theorem wordSum_congr {m m' : ℕ → UInt8} :
    ∀ {n a : ℕ}, (∀ b, a ≤ b → b < a + n → m b = m' b) → wordSum m a n = wordSum m' a n
  | 0, _, _ => rfl
  | 1, a, h => by rw [wordSum, wordSum, h a le_rfl (by omega)]
  | n + 2, a, h => by
    rw [wordSum, wordSum, h a le_rfl (by omega), h (a + 1) (by omega) (by omega),
      wordSum_congr fun b hb hlt => h b (by omega) (by omega)]

theorem wordSum_add (m : ℕ → UInt8) (n : ℕ) :
    ∀ k a : ℕ, wordSum m a (2 * k + n) = wordSum m a (2 * k) + wordSum m (a + 2 * k) n
  | 0, a => by simp [wordSum]
  | k + 1, a => by
    rw [show 2 * (k + 1) + n = 2 * k + n + 2 by ring, show 2 * (k + 1) = 2 * k + 2 by ring, wordSum,
      wordSum, wordSum_add m n k (a + 2), show a + 2 + 2 * k = a + (2 * k + 2) by ring]
    omega

theorem wordSum_le (m : ℕ → UInt8) : ∀ n a : ℕ, wordSum m a n ≤ 0xFFFF * ((n + 1) / 2)
  | 0, _ => Nat.zero_le _
  | 1, a => by
    have := (m a).toNat_lt
    simp only [wordSum]
    omega
  | n + 2, a => by
    have := (m a).toNat_lt
    have := (m (a + 1)).toNat_lt
    have := wordSum_le m n (a + 2)
    rw [wordSum]
    omega

theorem wordSum_set {m m' : ℕ → UInt8} {a k n : ℕ} (hk : 2 * k + 2 ≤ n)
    (hsame : ∀ b, b ≠ a + 2 * k → b ≠ a + 2 * k + 1 → m' b = m b) :
    wordSum m' a n + (256 * (m (a + 2 * k)).toNat + (m (a + 2 * k + 1)).toNat)
      = wordSum m a n + (256 * (m' (a + 2 * k)).toNat + (m' (a + 2 * k + 1)).toNat) := by
  obtain ⟨r, rfl⟩ : ∃ r, n = 2 * k + (r + 2) := ⟨n - 2 * k - 2, by omega⟩
  have hbefore : wordSum m' a (2 * k) = wordSum m a (2 * k) :=
    wordSum_congr fun b hb hlt => hsame b (by omega) (by omega)
  have hafter : wordSum m' (a + 2 * k + 2) r = wordSum m (a + 2 * k + 2) r :=
    wordSum_congr fun b hb hlt => hsame b (by omega) (by omega)
  rw [wordSum_add, wordSum_add, wordSum, wordSum, hbefore, hafter]
  omega

/-- A block checks where the complement of its sum has been put in a word of it that was zero. -/
theorem fold_checks {m m' : ℕ → UInt8} {a k n sum : ℕ} (hk : 2 * k + 2 ≤ n)
    (hsame : ∀ b, b ≠ a + 2 * k → b ≠ a + 2 * k + 1 → m' b = m b)
    (hzero : m (a + 2 * k) = 0 ∧ m (a + 2 * k + 1) = 0)
    (hset : 256 * (m' (a + 2 * k)).toNat + (m' (a + 2 * k + 1)).toNat
      = 0xFFFF - fold (sum + wordSum m a n)) :
    fold (sum + wordSum m' a n) = 0xFFFF := by
  have h := wordSum_set hk hsame
  rw [hzero.1, hzero.2, hset] at h
  rw [← fold_complement (sum + wordSum m a n)]
  congr 1
  simpa [Nat.add_assoc] using h

end OnesComplement
