import Mathlib.Algebra.Order.Ring.Abs
import Mathlib.Data.List.Nodup
import Mathlib.Data.List.Range
import Mathlib.Tactic.Ring

/-!
# The line of Bresenham

A line goes `a` places one way and `b` the other; an error term says for each turn whether it steps
one way, the other, or both. The longer way is stepped in every turn and the other never falls half
a place behind (`place_long`), so that both ends are reached in the same turn (`place_last`). A loop
that makes these turns and stops at the end plots the points of the line (`Line.loop_eq`).
-/

namespace Bresenham

/-- The error term after some steps both ways. -/
def error (a b : ℕ) (at_ : ℕ × ℕ) : ℤ := a * (at_.2 + 1) - b * (at_.1 + 1)

def next (a b : ℕ) (at_ : ℕ × ℕ) : ℕ × ℕ :=
  (if -(b : ℤ) ≤ error a b at_ * 2 then at_.1 + 1 else at_.1,
    if error a b at_ * 2 ≤ a then at_.2 + 1 else at_.2)

/-- The steps that the first `n` turns make. -/
def place (a b : ℕ) : ℕ → ℕ × ℕ
  | 0 => (0, 0)
  | n + 1 => next a b (place a b n)

variable {a b n : ℕ}

theorem next_swap (a b : ℕ) (at_ : ℕ × ℕ) : next b a at_.swap = (next a b at_).swap := by
  have herror : error b a at_.swap = -error a b at_ := by
    simp only [error, Prod.fst_swap, Prod.snd_swap]
    omega
  unfold next
  rw [herror]
  refine Prod.ext (if_congr ?_ rfl rfl) (if_congr ?_ rfl rfl) <;> omega

theorem place_swap (a b : ℕ) : ∀ n, place b a n = (place a b n).swap
  | 0 => rfl
  | n + 1 => by rw [place, place, place_swap a b n, next_swap]

/-- The longer way is stepped in each turn, and the other is within half a place of the line. -/
theorem place_long (h : b ≤ a) : ∀ n, (place a b n).1 = n
    ∧ -(a : ℤ) ≤ 2 * (a * (place a b n).2 - b * n)
    ∧ 2 * (a * (place a b n).2 - b * n : ℤ) ≤ a
  | 0 => by simp [place]
  | n + 1 => by
    obtain ⟨hn, hlow, hhigh⟩ := place_long h n
    rw [place, next]
    generalize place a b n = at_ at hn hlow hhigh ⊢
    obtain ⟨i, j⟩ := at_
    obtain rfl : i = n := hn
    dsimp only at hlow hhigh
    have herror : error a b (i, j) = a * j - b * i + a - b := by
      simp only [error, mul_add]
      omega
    rw [herror, if_pos (by omega)]
    refine ⟨rfl, ?_⟩
    split_ifs with hstep <;> push_cast <;> simp only [mul_add] at * <;> omega

/-- While the longer way is not at its end, the shorter one is not beyond its own. -/
theorem place_le_of_long (h : b ≤ a) (hn : n ≤ a) : (place a b n).2 ≤ b := by
  obtain ⟨-, -, hhigh⟩ := place_long h n
  by_contra hbeyond
  have hj : (a : ℤ) * (b + 1) ≤ a * (place a b n).2 :=
    mul_le_mul_of_nonneg_left (by omega) (by omega)
  have hb : (b : ℤ) * n ≤ b * a := mul_le_mul_of_nonneg_left (by omega) (by omega)
  rw [mul_comm (b : ℤ) a] at hb
  rw [mul_add] at hj
  obtain rfl : a = 0 := by omega
  obtain rfl : n = 0 := by omega
  simp [place] at hbeyond

theorem place_last_of_long (h : b ≤ a) : place a b a = (a, b) := by
  obtain ⟨hn, hlow, -⟩ := place_long h a
  refine Prod.ext hn (Nat.le_antisymm (place_le_of_long h le_rfl) ?_)
  by_contra hshort
  have hj : (a : ℤ) * ((place a b a).2 + 1) ≤ a * b :=
    mul_le_mul_of_nonneg_left (by omega) (by omega)
  rw [mul_add] at hj
  rw [mul_comm (b : ℤ) a] at hlow
  omega

theorem place_last (a b : ℕ) : place a b (max a b) = (a, b) := by
  rcases le_total b a with h | h
  · rw [max_eq_left h, place_last_of_long h]
  · rw [max_eq_right h, place_swap b a, place_last_of_long h]
    rfl

theorem place_le (hn : n ≤ max a b) : (place a b n).1 ≤ a ∧ (place a b n).2 ≤ b := by
  rcases le_total b a with h | h
  · rw [max_eq_left h] at hn
    exact ⟨(place_long h n).1.trans_le hn, place_le_of_long h hn⟩
  · rw [max_eq_right h] at hn
    rw [place_swap b a]
    exact ⟨place_le_of_long h hn, (place_long h n).1.trans_le hn⟩

theorem place_inj {m : ℕ} (h : place a b n = place a b m) : n = m := by
  rcases le_total b a with hab | hab
  · rw [← (place_long hab n).1, h, (place_long hab m).1]
  · rw [place_swap b a, place_swap b a] at h
    rw [← (place_long hab n).1, Prod.swap_injective h, (place_long hab m).1]

theorem error_within (a b n : ℕ) : -(max a b : ℕ) ≤ error a b (place a b n) * 2 + 2 * b
    ∧ error a b (place a b n) * 2 ≤ 2 * a + (max a b : ℕ) := by
  have hlong : ∀ {a b : ℕ}, b ≤ a → error a b (place a b n) * 2 - 2 * a + 2 * b ≤ a
      ∧ -a ≤ error a b (place a b n) * 2 - 2 * a + 2 * b := fun {a b} h => by
    obtain ⟨hn, hlow, hhigh⟩ := place_long h n
    rw [error, hn, mul_add, mul_add]
    omega
  rcases le_total b a with h | h
  · rw [max_eq_left h]
    have := hlong h
    omega
  · rw [max_eq_right h]
    have hswap : error a b (place a b n) = -error b a (place b a n) := by
      rw [place_swap a b, error, error, Prod.fst_swap, Prod.snd_swap]
      omega
    have := hlong h
    omega

structure Line where
  x0 : ℤ
  y0 : ℤ
  x1 : ℤ
  y1 : ℤ

namespace Line

variable (l : Line)

def width : ℕ := (l.x1 - l.x0).natAbs
def height : ℕ := (l.y1 - l.y0).natAbs
def sx : ℤ := if l.x0 < l.x1 then 1 else -1
def sy : ℤ := if l.y0 < l.y1 then 1 else -1

/-- The number of turns to the end. -/
def turns : ℕ := max l.width l.height

def point (n : ℕ) : ℤ × ℤ :=
  (l.x0 + l.sx * (place l.width l.height n).1, l.y0 + l.sy * (place l.width l.height n).2)

def error (n : ℕ) : ℤ := Bresenham.error l.width l.height (place l.width l.height n)

def points : List (ℤ × ℤ) := (List.range (l.turns + 1)).map l.point

/-- Neighbours, also across a corner. -/
def Adjacent (p q : ℤ × ℤ) : Prop := p ≠ q ∧ |p.1 - q.1| ≤ 1 ∧ |p.2 - q.2| ≤ 1

variable {l}

theorem sx_mul (i : ℕ) : l.sx * i = if l.x0 < l.x1 then (i : ℤ) else -i := by
  unfold sx
  split_ifs <;> omega

theorem sy_mul (j : ℕ) : l.sy * j = if l.y0 < l.y1 then (j : ℤ) else -j := by
  unfold sy
  split_ifs <;> omega

theorem point_zero : l.point 0 = (l.x0, l.y0) := by simp [point, place]

theorem error_zero : l.error 0 = l.width - l.height := by simp [error, Bresenham.error, place]

theorem point_turns : l.point l.turns = (l.x1, l.y1) := by
  unfold point turns
  rw [place_last, sx_mul, sy_mul]
  simp only [width, height]
  refine Prod.ext ?_ ?_ <;> dsimp only <;> split_ifs <;> omega

theorem point_inj {n m : ℕ} (h : l.point n = l.point m) : n = m := by
  obtain ⟨hx, hy⟩ := Prod.mk.inj h
  rw [sx_mul, sx_mul] at hx
  rw [sy_mul, sy_mul] at hy
  refine place_inj (a := l.width) (b := l.height) (Prod.ext ?_ ?_)
  · split_ifs at hx <;> omega
  · split_ifs at hy <;> omega

theorem point_within {n : ℕ} (hn : n ≤ l.turns) :
    (min l.x0 l.x1 ≤ (l.point n).1 ∧ (l.point n).1 ≤ max l.x0 l.x1)
      ∧ min l.y0 l.y1 ≤ (l.point n).2 ∧ (l.point n).2 ≤ max l.y0 l.y1 := by
  obtain ⟨hi, hj⟩ := place_le hn
  unfold point
  rw [sx_mul, sy_mul]
  simp only [width, height] at *
  split_ifs <;> omega

theorem point_succ (n : ℕ) : l.point (n + 1)
    = (if -(l.height : ℤ) ≤ l.error n * 2 then (l.point n).1 + l.sx else (l.point n).1,
      if l.error n * 2 ≤ l.width then (l.point n).2 + l.sy else (l.point n).2) := by
  unfold point error
  rw [place, next]
  refine Prod.ext ?_ ?_ <;> dsimp only <;> split_ifs <;> push_cast <;> ring

theorem error_succ (n : ℕ) : l.error (n + 1)
    = l.error n + (if -(l.height : ℤ) ≤ l.error n * 2 then -(l.height : ℤ) else 0)
      + if l.error n * 2 ≤ l.width then (l.width : ℤ) else 0 := by
  unfold error
  rw [place, next]
  generalize place l.width l.height n = at_
  unfold Bresenham.error
  dsimp only
  split_ifs <;> push_cast <;> ring

theorem point_adjacent (n : ℕ) : Adjacent (l.point n) (l.point (n + 1)) := by
  refine ⟨fun h => by simpa using point_inj h, ?_⟩
  rw [point_succ]
  unfold sx sy
  constructor <;> dsimp only <;> split_ifs <;> simp

/-- A path of neighbours between the endpoints, within their bounding box, of as many pixels as the
longer way has. -/
structure Connects (l : Line) (points : List (ℤ × ℤ)) : Prop where
  head : points.head? = some (l.x0, l.y0)
  last : points.getLast? = some (l.x1, l.y1)
  count : points.length = max l.width l.height + 1
  once : points.Nodup
  adjacent : points.IsChain Adjacent
  within : ∀ p ∈ points, (min l.x0 l.x1 ≤ p.1 ∧ p.1 ≤ max l.x0 l.x1)
    ∧ min l.y0 l.y1 ≤ p.2 ∧ p.2 ≤ max l.y0 l.y1

theorem points_connects (l : Line) : l.Connects l.points where
  head := by simp [points, List.head?_range, point_zero]
  last := by simp [points, List.getLast?_range, point_turns]
  count := by simp [points, turns]
  once := List.Nodup.map (fun _ _ => point_inj) List.nodup_range
  adjacent := (List.isChain_map _).2 ((List.isChain_range _ _).2 fun n _ => point_adjacent n)
  within p hp := by
    obtain ⟨n, hn, rfl⟩ := List.mem_map.1 hp
    rw [List.mem_range] at hn
    exact point_within (by omega)

theorem loop_eq {α : Type*} (plot : α → ℤ × ℤ → α) {f : ℕ → ℤ → ℤ → ℤ → α → α}
    (hf : ∀ more n s, n ≤ l.turns → f (more + 1) (l.point n).1 (l.point n).2 (l.error n) s
      = if (l.point n).1 = l.x1 ∧ (l.point n).2 = l.y1 then plot s (l.point n)
        else f more (l.point (n + 1)).1 (l.point (n + 1)).2 (l.error (n + 1)) (plot s (l.point n)))
    (rounds : ℕ) (hrounds : l.turns < rounds) (s : α) :
    f rounds l.x0 l.y0 (l.width - l.height) s = l.points.foldl plot s := by
  have hrest : ∀ left n rounds s, n + left = l.turns → left < rounds →
      f rounds (l.point n).1 (l.point n).2 (l.error n) s
        = ((List.range' n (left + 1)).map l.point).foldl plot s := by
    intro left
    induction left with
    | zero =>
      intro n rounds s hn hlt
      obtain ⟨more, rfl⟩ := Nat.exists_eq_add_one_of_ne_zero hlt.ne'
      obtain rfl : n = l.turns := hn
      rw [hf _ _ _ le_rfl, point_turns, if_pos ⟨rfl, rfl⟩]
      simp [point_turns]
    | succ left ih =>
      intro n rounds s hn hlt
      obtain ⟨more, rfl⟩ := Nat.exists_eq_add_one_of_ne_zero (Nat.ne_zero_of_lt hlt)
      have hnot : ¬((l.point n).1 = l.x1 ∧ (l.point n).2 = l.y1) := fun h => by
        have := point_inj ((Prod.ext h.1 h.2 : l.point n = (l.x1, l.y1)).trans point_turns.symm)
        omega
      rw [hf _ _ _ (by omega), if_neg hnot, ih _ _ _ (by omega) (by omega)]
      rfl
  have hstart := hrest l.turns 0 rounds s (Nat.zero_add _) hrounds
  rw [← List.range_eq_range', point_zero, error_zero] at hstart
  exact hstart

end Line

end Bresenham
