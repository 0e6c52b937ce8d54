import Mathlib.Data.List.Range

/-!
# Sweeps over a table

A loop over the slots of a table that gives some of them up. It keeps what each of its turns keeps
(`foldl_keeps`), and leaves no slot in use that it was to give up (`sweep_gone`).
-/

namespace Sweep

variable {σ α β : Type*}

theorem foldl_keeps {g : σ → β} {f : σ → α → σ} (h : ∀ s a, g (f s a) = g s) :
    ∀ (l : List α) (s : σ), g (l.foldl f s) = g s
  | [], _ => rfl
  | a :: l, s => (foldl_keeps h l (f s a)).trans (h s a)

variable (table : σ → ℕ → α) (used : α → Bool) (mine : α → Prop) [DecidablePred mine]
  (drop : σ → ℕ → σ)

/-- The first `n` slots: those in use that are `mine` are dropped. -/
def sweep (n : ℕ) (s : σ) : σ :=
  (List.range n).foldl (fun s i =>
    if used (table s i) = true ∧ mine (table s i) then drop s i else s) s

theorem sweep_succ (n : ℕ) (s : σ) :
    sweep table used mine drop (n + 1) s =
      if used (table (sweep table used mine drop n s) n) = true
        ∧ mine (table (sweep table used mine drop n s) n) then
        drop (sweep table used mine drop n s) n
      else sweep table used mine drop n s := by
  rw [sweep, List.range_succ, List.foldl_append]
  rfl

theorem sweep_gone (hfree : ∀ s i, used (table (drop s i) i) = false)
    (hrest : ∀ s i j, j ≠ i → table (drop s i) j = table s j) (n : ℕ) (s : σ) {i : ℕ} (hi : i < n)
    (hused : used (table (sweep table used mine drop n s) i) = true) :
    ¬mine (table (sweep table used mine drop n s) i) := by
  induction n with
  | zero => exact absurd hi (Nat.not_lt_zero i)
  | succ n ih =>
    rw [sweep_succ] at hused ⊢
    by_cases hin : i = n
    · subst hin
      split_ifs at hused ⊢ with hmine
      · rw [hfree] at hused
        cases hused
      · exact fun h => hmine ⟨hused, h⟩
    · split_ifs at hused ⊢ with hmine
      · rw [hrest _ _ _ hin] at hused ⊢
        exact ih (by omega) hused
      · exact ih (by omega) hused

end Sweep
