import Mathlib.Data.Nat.ModEq
import Mathlib.Tactic.Ring

/-!
# Little-endian fields

Unsigned fields of any width in a byte memory. A field reads back what was last written to it
(`load_store`), modulo its width, and a write leaves the fields apart from it alone
(`load_store_of_disjoint`).
-/

namespace LittleEndian

/-- The `n`-byte field at `a`. -/
def load (m : ℕ → UInt8) : ℕ → ℕ → ℕ
  | _, 0 => 0
  | a, n + 1 => (m a).toNat + 256 * load m (a + 1) n

/-- The memory with the `n`-byte field at `a` set to `v`. -/
def store (m : ℕ → UInt8) (a n v : ℕ) : ℕ → UInt8 := fun b =>
  if a ≤ b ∧ b < a + n then UInt8.ofNat (v / 256 ^ (b - a)) else m b

theorem load_congr {m m' : ℕ → UInt8} :
    ∀ {n a : ℕ}, (∀ b, a ≤ b → b < a + n → m b = m' b) → load m a n = load m' a n
  | 0, _, _ => rfl
  | n + 1, a, h => by
    have htail : load m (a + 1) n = load m' (a + 1) n :=
      load_congr fun b hb hlt => h b (by omega) (by omega)
    rw [load, load, htail, h a le_rfl (by omega)]

theorem store_apply_of_disjoint (m : ℕ → UInt8) {a n b : ℕ} (v : ℕ) (h : b < a ∨ a + n ≤ b) :
    store m a n v b = m b := if_neg (by omega)

theorem load_store_of_disjoint (m : ℕ → UInt8) {a n b k : ℕ} (v : ℕ) (h : b + k ≤ a ∨ a + n ≤ b) :
    load (store m a n v) b k = load m b k :=
  load_congr fun _ _ _ => store_apply_of_disjoint m v (by omega)

/-- The field past the lowest byte of a written one is the rest of the value. -/
theorem load_store_succ (m : ℕ → UInt8) (a n v : ℕ) :
    load (store m a (n + 1) v) (a + 1) n = load (store m (a + 1) n (v / 256)) (a + 1) n := by
  refine load_congr fun b hb hlt => ?_
  unfold store
  rw [if_pos (by omega), if_pos (by omega), Nat.div_div_eq_div_mul, ← Nat.pow_succ']
  congr 3
  omega

theorem load_store (m : ℕ → UInt8) : ∀ (n a v : ℕ), load (store m a n v) a n = v % 256 ^ n
  | 0, _, v => by rw [load, pow_zero, Nat.mod_one]
  | n + 1, a, v => by
    have hfirst : (store m a (n + 1) v a).toNat = v % 256 := by
      unfold store
      rw [if_pos (by omega), Nat.sub_self, pow_zero, Nat.div_one]
      simp
    rw [load, hfirst, load_store_succ, load_store m n (a + 1) (v / 256), pow_succ', Nat.mod_mul]

theorem load_store_of_lt (m : ℕ → UInt8) {n a v : ℕ} (h : v < 256 ^ n) :
    load (store m a n v) a n = v := by
  rw [load_store, Nat.mod_eq_of_lt h]

theorem load_lt (m : ℕ → UInt8) : ∀ n a : ℕ, load m a n < 256 ^ n
  | 0, _ => by simp [load]
  | n + 1, a => by
    have := load_lt m n (a + 1)
    have := (m a).toNat_lt
    rw [load, pow_succ']
    omega

theorem load_flag (m : ℕ → UInt8) (a : ℕ) (f : Bool) :
    (load (store m a 1 f.toNat) a 1 != 0) = f := by
  cases f
  · rw [load_store_of_lt m (by decide)]
    rfl
  · rw [load_store_of_lt m (by decide)]
    rfl

theorem load_shift (m : ℕ → UInt8) (c : ℕ) :
    ∀ n a : ℕ, load (fun b => m (c + b)) a n = load m (c + a) n
  | 0, _ => rfl
  | n + 1, a => by rw [load, load, load_shift m c n (a + 1), Nat.add_assoc]

/-- A row of fields is written one after the other, and leaves what lies apart from it alone. -/
theorem load_foldl_store_of_disjoint {w : ℕ} (pos v : ℕ → ℕ) (m : ℕ → UInt8) {b k : ℕ} :
    ∀ n, (∀ j < n, b + k ≤ pos j ∨ pos j + w ≤ b) →
      load ((List.range n).foldl (fun m j => store m (pos j) w (v j)) m) b k = load m b k
  | 0, _ => rfl
  | n + 1, h => by
    rw [List.range_succ, List.foldl_append, List.foldl_cons, List.foldl_nil,
      load_store_of_disjoint _ _ (h n (by omega))]
    exact load_foldl_store_of_disjoint pos v m n fun j hj => h j (by omega)

theorem load_foldl_store {w : ℕ} (pos : ℕ → ℕ) (hpos : ∀ j k, j < k → pos j + w ≤ pos k)
    {v : ℕ → ℕ} (hv : ∀ k, v k < 256 ^ w) (m : ℕ → UInt8) {i : ℕ} : ∀ n, i < n →
      load ((List.range n).foldl (fun m j => store m (pos j) w (v j)) m) (pos i) w = v i
  | n + 1, hi => by
    rw [List.range_succ, List.foldl_append, List.foldl_cons, List.foldl_nil]
    rcases Nat.lt_succ_iff_lt_or_eq.1 hi with hlt | rfl
    · rw [load_store_of_disjoint _ _ (.inl (hpos i n hlt))]
      exact load_foldl_store pos hpos hv m n hlt
    · exact load_store_of_lt _ (hv i)

end LittleEndian
