import Mathlib.Data.List.Range
import Mathlib.Tactic.Linarith

/-!
# Writing into a raster

A raster is a function of the pixel's index, row after row, of which the indices below a size count;
a write beyond them has no result. `block` is a rectangle of new pixels, and a loop that writes one
row of it after the other writes the block (`loop_rows`), whether a row is written at once or pixel
by pixel (`loop_put`).
-/

namespace Raster

variable {α : Type*}

/-- One pixel written. -/
def put (size : ℕ) (frame : ℕ → α) (i : ℕ) (v : α) : Option (ℕ → α) :=
  if i < size then some (Function.update frame i v) else none

/-- The frame with `n` new pixels from `start` on. -/
def patch (frame : ℕ → α) (start n : ℕ) (f : ℕ → α) : ℕ → α := fun k =>
  if start ≤ k ∧ k < start + n then f (k - start) else frame k

/-- `n` pixels written at once. -/
def span (size : ℕ) (frame : ℕ → α) (start n : ℕ) (f : ℕ → α) : Option (ℕ → α) :=
  if start + n ≤ size then some (patch frame start n f) else none

/-- A loop of `n` turns, which ends where a turn has no result. -/
def loop (n : ℕ) (turn : (ℕ → α) → ℕ → Option (ℕ → α)) (frame : ℕ → α) : Option (ℕ → α) :=
  (List.range n).foldlM turn frame

/-- A rectangle of new pixels in rows of `stride`. -/
def block (stride x y width height : ℕ) (f : ℕ → ℕ → α) (frame : ℕ → α) : ℕ → α := fun k =>
  if x ≤ k % stride ∧ k % stride < x + width ∧ y ≤ k / stride ∧ k / stride < y + height then
    f (k % stride - x) (k / stride - y)
  else frame k

variable {size start n : ℕ} {frame : ℕ → α} {turn : (ℕ → α) → ℕ → Option (ℕ → α)}

@[simp] theorem loop_zero : loop 0 turn frame = some frame := rfl

theorem loop_succ : loop (n + 1) turn frame = (loop n turn frame).bind fun f => turn f n := by
  unfold loop
  rw [List.range_succ, List.foldlM_append]
  simp

theorem loop_isSome (h : ∀ i < n, ∀ f, (turn f i).isSome = true) :
    (loop n turn frame).isSome = true := by
  induction n with
  | zero => rfl
  | succ n ih =>
    obtain ⟨f, hf⟩ := Option.isSome_iff_exists.1 (ih fun i hi => h i (Nat.lt_succ_of_lt hi))
    rw [loop_succ, hf]
    exact h n (Nat.lt_succ_self n) f

theorem loop_eq_none (hn : 0 < n) (h : turn frame 0 = none) : loop n turn frame = none := by
  obtain ⟨m, rfl⟩ := Nat.exists_eq_succ_of_ne_zero hn.ne'
  induction m with
  | zero =>
    rw [loop_succ, loop_zero]
    exact h
  | succ m ih =>
    rw [loop_succ, ih (Nat.succ_pos m)]
    rfl

theorem loop_congr {turn' : (ℕ → α) → ℕ → Option (ℕ → α)}
    (h : ∀ i < n, ∀ f, turn f i = turn' f i) : loop n turn frame = loop n turn' frame := by
  induction n with
  | zero => rfl
  | succ n ih =>
    rw [loop_succ, loop_succ, ih fun i hi => h i (Nat.lt_succ_of_lt hi)]
    exact Option.bind_congr fun f _ => h n (Nat.lt_succ_self n) f

theorem span_of_le {f : ℕ → α} (h : start + n ≤ size) :
    span size frame start n f = some (patch frame start n f) := if_pos h

theorem patch_succ (frame : ℕ → α) (start n : ℕ) (f : ℕ → α) :
    patch frame start (n + 1) f = Function.update (patch frame start n f) (start + n) (f n) := by
  funext k
  by_cases hk : k = start + n
  · subst hk
    rw [Function.update_self, patch, if_pos (by omega), Nat.add_sub_cancel_left]
  · rw [Function.update_of_ne hk]
    unfold patch
    split_ifs <;> first | rfl | omega

theorem loop_put {g : ℕ → α} (h : start + n ≤ size) :
    loop n (fun f j => put size f (start + j) (g j)) frame = some (patch frame start n g) := by
  induction n with
  | zero =>
    rw [loop_zero]
    congr 1
    funext k
    rw [patch, if_neg (by omega)]
  | succ n ih =>
    rw [loop_succ, ih (by omega), Option.bind_some, put, if_pos (by omega), patch_succ]

theorem index_div {stride px py : ℕ} (hx : px < stride) : (py * stride + px) / stride = py := by
  rw [Nat.mul_comm, Nat.mul_add_div (by omega), Nat.div_eq_of_lt hx, Nat.add_zero]

theorem index_mod {stride px py : ℕ} (hx : px < stride) : (py * stride + px) % stride = px := by
  rw [Nat.mul_comm, Nat.mul_add_mod, Nat.mod_eq_of_lt hx]

theorem in_row_iff {stride k r x width : ℕ} (hwidth : x + width ≤ stride) :
    r * stride + x ≤ k ∧ k < r * stride + x + width
      ↔ k / stride = r ∧ x ≤ k % stride ∧ k % stride < x + width := by
  rcases Nat.eq_zero_or_pos stride with rfl | hpos
  · omega
  · have hsplit := Nat.div_add_mod' k stride
    have hmod := Nat.mod_lt k hpos
    constructor
    · rintro ⟨hlo, hhi⟩
      have hdiv : k / stride = r := by
        refine le_antisymm (Nat.lt_succ_iff.1 ((Nat.div_lt_iff_lt_mul hpos).2 ?_))
          ((Nat.le_div_iff_mul_le hpos).2 (by omega))
        rw [Nat.succ_mul]
        omega
      rw [hdiv] at hsplit
      omega
    · rintro ⟨rfl, hlo, hhi⟩
      omega

theorem loop_rows {stride x y width height : ℕ} {g : ℕ → ℕ → α} (hwidth : x + width ≤ stride)
    (h : ∀ r < height, ∀ f : ℕ → α,
      turn f r = some (patch f ((y + r) * stride + x) width fun j => g j r)) :
    loop height turn frame = some (block stride x y width height g frame) := by
  induction height with
  | zero =>
    rw [loop_zero]
    congr 1
    funext k
    rw [block, if_neg (by omega)]
  | succ n ih =>
    rw [loop_succ, ih fun r hr => h r (Nat.lt_succ_of_lt hr), Option.bind_some,
      h n (Nat.lt_succ_self n)]
    congr 1
    funext k
    unfold patch block
    have hrow := in_row_iff (k := k) (r := y + n) hwidth
    by_cases hin : k / stride = y + n ∧ x ≤ k % stride ∧ k % stride < x + width
    · have hsplit := Nat.div_add_mod' k stride
      rw [hin.1] at hsplit
      have hcolumn : k - ((y + n) * stride + x) = k % stride - x := by omega
      have hline : k / stride - y = n := by omega
      rw [if_pos (hrow.2 hin), if_pos (by omega), hcolumn, hline]
    · rw [if_neg (fun hc => hin (hrow.1 hc))]
      split_ifs <;> first | rfl | omega

/-- A row that begins inside the raster and stays in its row ends inside it. -/
theorem row_le {stride rows x y width : ℕ} (hwidth : x + width ≤ stride) (hy : y < rows) :
    y * stride + x + width ≤ stride * rows := by
  have := Nat.mul_le_mul_right stride (Nat.succ_le_of_lt hy)
  rw [Nat.succ_mul, Nat.mul_comm rows] at this
  omega

end Raster

/-!
## Moves within a memory

A move reads a stretch of a memory and then writes it to another, and a list of moves is made one
after the other. Where no move reads what an earlier one has written, and no two write the same
place (`Ordered`), each place written holds what its source held at first (`moved_to`), and the
others are as they were (`moved_apart`): the moves might have been made at once.
-/

namespace Moves

variable {α : Type*}

/-- `length` places from `source` on, moved to `target`. -/
structure Move where
  source : ℕ
  target : ℕ
  length : ℕ

/-- The place is written by the move. -/
def Move.Writes (v : Move) (a : ℕ) : Prop := v.target ≤ a ∧ a < v.target + v.length

/-- The place is read by the move. -/
def Move.Reads (v : Move) (a : ℕ) : Prop := v.source ≤ a ∧ a < v.source + v.length

def Move.apply (m : ℕ → α) (v : Move) : ℕ → α :=
  Raster.patch m v.target v.length fun j => m (v.source + j)

def moved (m : ℕ → α) (vs : List Move) : ℕ → α := vs.foldl Move.apply m

/-- What the first of two moves writes the second neither reads nor writes. -/
def Move.Before (v w : Move) : Prop := ∀ a, v.Writes a → ¬w.Reads a ∧ ¬w.Writes a

def Ordered (vs : List Move) : Prop := vs.Pairwise Move.Before

theorem Move.apply_target (m : ℕ → α) (v : Move) {j : ℕ} (hj : j < v.length) :
    v.apply m (v.target + j) = m (v.source + j) := by
  unfold Move.apply Raster.patch
  rw [if_pos (by omega), Nat.add_sub_cancel_left]

theorem Move.apply_apart (m : ℕ → α) {v : Move} {a : ℕ} (ha : ¬v.Writes a) : v.apply m a = m a :=
  if_neg ha

theorem moved_apart : ∀ (vs : List Move) (m : ℕ → α) {a : ℕ}, (∀ v ∈ vs, ¬v.Writes a) →
    moved m vs a = m a
  | [], _, _, _ => rfl
  | v :: vs, m, a, h => by
    have hrest := moved_apart vs (v.apply m) fun w hw => h w (List.mem_cons_of_mem v hw)
    exact hrest.trans (v.apply_apart m (h v List.mem_cons_self))

theorem moved_to : ∀ {vs : List Move} (m : ℕ → α), Ordered vs → ∀ v ∈ vs, ∀ j < v.length,
    moved m vs (v.target + j) = m (v.source + j)
  | w :: vs, m, hordered, v, hv, j, hj => by
    obtain ⟨hfirst, hrest⟩ := List.pairwise_cons.1 hordered
    have hwrites : v.Writes (v.target + j) := ⟨by omega, by omega⟩
    have hreads : v.Reads (v.source + j) := ⟨by omega, by omega⟩
    rcases List.mem_cons.1 hv with rfl | hv
    · have hapart := moved_apart vs (v.apply m) fun u hu hboth => (hfirst u hu _ hwrites).2 hboth
      exact hapart.trans (v.apply_target m hj)
    · have hkept : ¬w.Writes (v.source + j) := fun hboth => (hfirst v hv _ hboth).1 hreads
      rw [← w.apply_apart m hkept]
      exact moved_to (w.apply m) hrest v hv j hj

end Moves
