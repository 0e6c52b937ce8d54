import Mathlib.Algebra.Order.BigOperators.Group.Finset

/-!
# Tables of slots

A fixed array is a total map read below its length. `firstIndex` is the linear search for the
first slot a predicate accepts, and `total` adds up a weight over the slots below a length; an
assignment to one slot moves the total by that slot's weight alone (`total_update`).
-/

namespace Table

/-- The first index below `n` that `p` accepts. -/
def firstIndex (n : ℕ) (p : ℕ → Bool) : Option ℕ := (List.range n).find? p

theorem firstIndex_eq_some {n i : ℕ} {p : ℕ → Bool} :
    firstIndex n p = some i ↔ i < n ∧ p i = true ∧ ∀ j < i, p j = false := by
  unfold firstIndex
  rw [List.find?_range_eq_some]
  simp only [List.mem_range, Bool.not_eq_true']
  tauto

theorem firstIndex_eq_none {n : ℕ} {p : ℕ → Bool} :
    firstIndex n p = none ↔ ∀ i < n, p i = false := by
  simp [firstIndex, List.find?_eq_none]

variable {α : Type*}

/-- The weights of the first `n` slots added up. -/
def total (n : ℕ) (w : α → ℕ) (f : ℕ → α) : ℕ := ∑ i ∈ Finset.range n, w (f i)

theorem total_update {n i : ℕ} (hi : i < n) (w : α → ℕ) (f : ℕ → α) (v : α) :
    total n w (Function.update f i v) + w (f i) = total n w f + w v := by
  unfold total
  have hi' : i ∈ Finset.range n := Finset.mem_range.2 hi
  rw [← Finset.sum_erase_add _ _ hi', ← Finset.sum_erase_add (Finset.range n) _ hi']
  have : ∑ j ∈ (Finset.range n).erase i, w (Function.update f i v j)
      = ∑ j ∈ (Finset.range n).erase i, w (f j) :=
    Finset.sum_congr rfl fun j hj => by rw [Function.update_of_ne (Finset.ne_of_mem_erase hj)]
  rw [this, Function.update_self]
  omega

theorem total_total_update {n m i j : ℕ} (hi : i < n) (hj : j < m) (w : α → ℕ) (f : ℕ → ℕ → α)
    (v : α) :
    total n (total m w) (Function.update f i (Function.update (f i) j v)) + w (f i j)
      = total n (total m w) f + w v := by
  have hrow := total_update hi (total m w) f (Function.update (f i) j v)
  have hcell := total_update hj w (f i) v
  omega

theorem le_total {n i : ℕ} (hi : i < n) (w : α → ℕ) (f : ℕ → α) : w (f i) ≤ total n w f :=
  Finset.single_le_sum (f := fun i => w (f i)) (fun _ _ => Nat.zero_le _) (Finset.mem_range.2 hi)

theorem total_eq_zero {n : ℕ} {w : α → ℕ} {f : ℕ → α} (h : ∀ i < n, w (f i) = 0) :
    total n w f = 0 :=
  Finset.sum_eq_zero fun i hi => h i (Finset.mem_range.1 hi)

end Table
