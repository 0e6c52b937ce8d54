import Mathlib.Data.List.Range

/-!
# The index of the greatest key

A scan over the indices below `n` that keeps, among those a predicate accepts, the one whose key is
greatest, a later one before an earlier of the same key (`greatest_spec`).
-/

namespace Greatest

def turn (p : ℕ → Bool) (key : ℕ → ℕ) (best : Option ℕ) (i : ℕ) : Option ℕ :=
  if p i then
    match best with
    | none => some i
    | some b => if key b ≤ key i then some i else some b
  else best

def greatest (n : ℕ) (p : ℕ → Bool) (key : ℕ → ℕ) : Option ℕ :=
  (List.range n).foldl (turn p key) none

variable {n i : ℕ} {p : ℕ → Bool} {key : ℕ → ℕ}

theorem greatest_succ (n : ℕ) (p : ℕ → Bool) (key : ℕ → ℕ) :
    greatest (n + 1) p key = turn p key (greatest n p key) n := by
  rw [greatest, List.range_succ, List.foldl_append]
  rfl

theorem greatest_eq_none : greatest n p key = none ↔ ∀ j < n, p j = false := by
  induction n with
  | zero => simp [greatest]
  | succ n ih =>
    rw [greatest_succ]
    unfold turn
    rcases hg : greatest n p key with _ | b
    · have hbelow := ih.1 hg
      by_cases hp : p n = true
      · simp only [hp, if_true, reduceCtorEq, false_iff]
        intro h
        rw [h n (Nat.lt_succ_self n)] at hp
        cases hp
      · rw [if_neg hp]
        simp only [true_iff]
        intro j hj
        rcases Nat.lt_succ_iff_lt_or_eq.1 hj with hlt | rfl
        · exact hbelow j hlt
        · simpa using hp
    · have hsome : ¬∀ j < n + 1, p j = false := fun h => by
        have := ih.2 fun j hj => h j (Nat.lt_succ_of_lt hj)
        rw [hg] at this
        cases this
      simp only [hsome, iff_false]
      split_ifs <;> simp

/-- What is found is accepted, and no accepted index has a greater key, nor a later one the same. -/
theorem greatest_spec (h : greatest n p key = some i) :
    i < n ∧ p i = true ∧ ∀ j < n, p j = true → key j ≤ key i ∧ (i < j → key j < key i) := by
  induction n generalizing i with
  | zero => cases h
  | succ n ih =>
    rw [greatest_succ] at h
    unfold turn at h
    rcases hg : greatest n p key with _ | b
    · have hnone := greatest_eq_none.1 hg
      rw [hg] at h
      split_ifs at h with hp
      cases h
      refine ⟨Nat.lt_succ_self n, hp, fun j hj hpj => ?_⟩
      rcases Nat.lt_succ_iff_lt_or_eq.1 hj with hlt | rfl
      · rw [hnone j hlt] at hpj
        cases hpj
      · exact ⟨le_rfl, fun hlt => absurd hlt (lt_irrefl _)⟩
    · obtain ⟨hb, hpb, hmax⟩ := ih hg
      rw [hg] at h
      simp only at h
      split_ifs at h with hp hkey
      · cases h
        refine ⟨Nat.lt_succ_self n, hp, fun j hj hpj => ?_⟩
        rcases Nat.lt_succ_iff_lt_or_eq.1 hj with hlt | rfl
        · exact ⟨(hmax j hlt hpj).1.trans hkey, fun h => absurd h (by omega)⟩
        · exact ⟨le_rfl, fun hlt => absurd hlt (lt_irrefl _)⟩
      · cases h
        refine ⟨Nat.lt_succ_of_lt hb, hpb, fun j hj hpj => ?_⟩
        rcases Nat.lt_succ_iff_lt_or_eq.1 hj with hlt | rfl
        · exact hmax j hlt hpj
        · exact ⟨by omega, fun _ => by omega⟩
      · cases h
        refine ⟨Nat.lt_succ_of_lt hb, hpb, fun j hj hpj => ?_⟩
        rcases Nat.lt_succ_iff_lt_or_eq.1 hj with hlt | rfl
        · exact hmax j hlt hpj
        · exact absurd hpj hp

end Greatest
