import Mathlib.Data.List.GetD
import Mathlib.Tactic.Positivity
import Mathlib.Tactic.Ring
import Mathlib.Tactic.FieldSimp
import Mathlib.Tactic.Linarith

/-!
# Canonical codes

Codes of given lengths, assigned in order of length and then of symbol. Where the lengths meet
Kraft's inequality every code fits its length (`code_lt`), and what is in front of a code is past
all shorter codes (`firstCode_le_div`).
-/

namespace CanonicalCode

def firstCode (lengths : List ℕ) : ℕ → ℕ
  | 0 => 0
  | len + 1 => 2 * (firstCode lengths len + lengths.count len)

/-- How many symbols of the same length stand in front of this one. -/
def rank (lengths : List ℕ) (s : ℕ) : ℕ := (lengths.take s).count (lengths.getD s 0)

def code (lengths : List ℕ) (s : ℕ) : ℕ :=
  firstCode lengths (lengths.getD s 0) + rank lengths s

def kraftSum (lengths : List ℕ) : ℚ := (lengths.map fun l => ((2 : ℚ) ^ l)⁻¹).sum

variable {lengths : List ℕ} {s len k : ℕ}

theorem kraftSum_cons (l : ℕ) (lengths : List ℕ) :
    kraftSum (l :: lengths) = ((2 : ℚ) ^ l)⁻¹ + kraftSum lengths := by
  simp [kraftSum]

theorem kraftSum_filter_succ (len : ℕ) : ∀ lengths : List ℕ,
    kraftSum (lengths.filter (· < len + 1))
      = kraftSum (lengths.filter (· < len)) + lengths.count len * ((2 : ℚ) ^ len)⁻¹
  | [] => by simp [kraftSum]
  | l :: lengths => by
    have ih := kraftSum_filter_succ len lengths
    rcases Nat.lt_trichotomy l len with hl | rfl | hl
    · rw [List.filter_cons_of_pos (by simp; omega), List.filter_cons_of_pos (by simpa using hl),
        List.count_cons_of_ne (by omega), kraftSum_cons, kraftSum_cons, ih]
      ring
    · rw [List.filter_cons_of_pos (by simp), List.filter_cons_of_neg (by simp),
        List.count_cons_self, kraftSum_cons, ih]
      push_cast
      ring
    · rw [List.filter_cons_of_neg (by simp; omega), List.filter_cons_of_neg (by simp; omega),
        List.count_cons_of_ne (by omega), ih]

theorem firstCode_div (lengths : List ℕ) : ∀ len : ℕ,
    (firstCode lengths len : ℚ) * ((2 : ℚ) ^ len)⁻¹ = kraftSum (lengths.filter (· < len))
  | 0 => by simp [firstCode, kraftSum]
  | len + 1 => by
    rw [kraftSum_filter_succ, ← firstCode_div lengths len, firstCode]
    push_cast
    rw [pow_succ]
    field_simp

theorem kraftSum_filter_le (p : ℕ → Bool) : ∀ lengths : List ℕ,
    kraftSum (lengths.filter p) ≤ kraftSum lengths
  | [] => le_rfl
  | l :: lengths => by
    have ih := kraftSum_filter_le p lengths
    have hpos : 0 ≤ ((2 : ℚ) ^ l)⁻¹ := by positivity
    rw [List.filter_cons]
    split_ifs
    · rw [kraftSum_cons, kraftSum_cons]
      linarith
    · rw [kraftSum_cons]
      linarith

theorem firstCode_add_count_le (h : kraftSum lengths ≤ 1) (len : ℕ) :
    firstCode lengths len + lengths.count len ≤ 2 ^ len := by
  have hsum := (kraftSum_filter_le (· < len + 1) lengths).trans h
  rw [kraftSum_filter_succ, ← firstCode_div, ← add_mul] at hsum
  have hpos : (0 : ℚ) < 2 ^ len := by positivity
  have hle := (mul_inv_le_iff₀ hpos).1 hsum
  rw [one_mul] at hle
  exact_mod_cast hle

theorem rank_lt_count (hs : s < lengths.length) :
    rank lengths s < lengths.count (lengths.getD s 0) := by
  unfold rank
  generalize hl : lengths.getD s 0 = l
  have hsplit : lengths = lengths.take s ++ l :: lengths.drop (s + 1) := by
    rw [← hl, List.getD_eq_getElem lengths 0 hs, List.getElem_cons_drop, List.take_append_drop]
  have hcount := congrArg (List.count l) hsplit
  rw [List.count_append, List.count_cons_self] at hcount
  omega

theorem code_lt (h : kraftSum lengths ≤ 1) (hs : s < lengths.length) :
    code lengths s < 2 ^ lengths.getD s 0 := by
  have hroom := firstCode_add_count_le h (lengths.getD s 0)
  have hrank := rank_lt_count hs
  unfold code
  omega

theorem firstCode_add_le (lengths : List ℕ) (len : ℕ) : ∀ k : ℕ,
    2 ^ (k + 1) * (firstCode lengths len + lengths.count len)
      ≤ firstCode lengths (len + (k + 1))
  | 0 => by
    rw [Nat.zero_add, pow_one]
    exact le_rfl
  | k + 1 => by
    have ih := firstCode_add_le lengths len k
    rw [← Nat.add_assoc len, firstCode, pow_succ', Nat.mul_assoc]
    omega

theorem firstCode_le_div (hlen : len < lengths.getD s 0) :
    firstCode lengths len + lengths.count len
      ≤ code lengths s / 2 ^ (lengths.getD s 0 - len) := by
  obtain ⟨k, hk⟩ := Nat.exists_eq_add_of_lt hlen
  have hle := firstCode_add_le lengths len k
  rw [Nat.le_div_iff_mul_le (Nat.pow_pos (by decide)), Nat.mul_comm]
  have hsub : lengths.getD s 0 - len = k + 1 := by omega
  have hadd : len + (k + 1) = lengths.getD s 0 := by omega
  rw [hadd] at hle
  rw [hsub]
  exact hle.trans (Nat.le_add_right _ _)

end CanonicalCode
