import Mathlib.Data.List.GetD
import Mathlib.Data.List.Lex
import Mathlib.Data.List.Rotate
import Mathlib.Order.Lattice

/-!
# The Burrows–Wheeler transform

The rotations of a word as sorted rows, of which only the last column is kept. The rows that end in
a letter are in the same order as those that begin with it, so sorting the last column stably gives
each row rotated back by a letter (`order_map_back`); going from row to row this way spells the
word (`visit_eq_take`). Equal rows are no exception, so a word may be a power of another.
-/

namespace BurrowsWheeler

variable {α κ : Type*} [LinearOrder κ] {key : α → κ}

def rotations (word : List α) : List (List α) := (List.range word.length).map word.rotate

structure Sorted (key : α → κ) (word : List α) (rows : List (List α)) : Prop where
  perm : rows.Perm (rotations word)
  sorted : rows.Pairwise fun r r' => r.map key ≤ r'.map key

def lastColumn (d : α) (rows : List (List α)) : List α := rows.map fun r => r.getLastD d

/-- A row rotated back by one letter. -/
def back (r : List α) : List α := r.rotate (r.length - 1)

/-- The letters of a column at the places that `next` leads to. -/
def visit (d : α) (column : List α) (next : ℕ → ℕ) : ℕ → ℕ → List α
  | 0, _ => []
  | count + 1, p => column.getD p d :: visit d column next count (next p)

structure StableOrder (key : α → κ) (d : α) (column : List α) (order : List ℕ) : Prop where
  perm : order.Perm (List.range column.length)
  stable : order.Pairwise fun i j => key (column.getD i d) < key (column.getD j d)
    ∨ key (column.getD i d) = key (column.getD j d) ∧ i < j

section Rotate

theorem back_concat (q : List α) (c : α) : back (q ++ [c]) = c :: q := by
  unfold back
  rw [List.length_append, List.length_singleton, Nat.add_sub_cancel,
    List.rotate_append_length_eq, List.singleton_append]

theorem rotate_back (r : List α) : (back r).rotate 1 = r := by
  rcases List.eq_nil_or_concat r with rfl | ⟨q, c, rfl⟩
  · rfl
  · rw [List.concat_eq_append, back_concat, List.rotate_cons_succ, List.rotate_zero]

theorem back_rotate (r : List α) : back (r.rotate 1) = r := by
  rcases r with _ | ⟨c, q⟩
  · rfl
  · rw [List.rotate_cons_succ, List.rotate_zero, back_concat]

theorem rotations_map_rotate (word : List α) :
    ((rotations word).map fun r => r.rotate 1).Perm (rotations word) := by
  have hmap : ((rotations word).map fun r => r.rotate 1)
      = (List.range word.length).map fun i => word.rotate (i + 1) := by
    unfold rotations
    rw [List.map_map]
    refine List.map_congr_left fun i _ => ?_
    exact List.rotate_rotate word i 1
  -- from the first rotation to the whole turn, which is where it started
  have hturn : word.rotate 0 :: ((List.range word.length).map fun i => word.rotate (i + 1))
      = rotations word ++ [word.rotate word.length] := by
    have hrange := congrArg (List.map word.rotate)
      (List.range_succ_eq_map.symm.trans (List.range_succ (n := word.length)))
    rw [List.map_cons, List.map_map, List.map_append] at hrange
    exact hrange
  rw [List.rotate_length, List.rotate_zero] at hturn
  rw [hmap, ← List.perm_cons word, hturn]
  exact List.perm_append_comm

theorem rotations_map_back (word : List α) :
    ((rotations word).map back).Perm (rotations word) := by
  have hmap := (rotations_map_rotate word).symm.map back
  rw [List.map_map] at hmap
  refine hmap.trans (List.Perm.of_eq ?_)
  exact (List.map_congr_left fun r _ => back_rotate r).trans (List.map_id _)

end Rotate

section Rows

variable {word : List α} {rows : List (List α)} {order : List ℕ} {d : α} {i j k : ℕ}

theorem cons_le_cons_iff {x y : κ} {q q' : List κ} :
    x :: q ≤ y :: q' ↔ x < y ∨ x = y ∧ q ≤ q' := by
  rw [le_iff_lt_or_eq, le_iff_lt_or_eq, List.cons_lt_cons_iff, List.cons.injEq, and_or_left,
    or_assoc]

theorem lex_of_concat : ∀ {q q' : List κ} {c : κ}, q.length = q'.length →
    q ++ [c] ≤ q' ++ [c] → q ≤ q'
  | [], [], _, _, _ => le_refl _
  | x :: q, x' :: q', c, hlength, h => by
    rw [List.cons_append, List.cons_append, cons_le_cons_iff] at h
    rw [cons_le_cons_iff]
    refine h.imp_right fun h => ⟨h.1, lex_of_concat ?_ h.2⟩
    exact Nat.succ.inj hlength

theorem map_range_getD (rows : List (List α)) :
    ((List.range rows.length).map fun i => rows.getD i []) = rows :=
  List.ext_getElem (by simp) fun i hi hi' => by
    rw [List.getElem_map, List.getElem_range, List.getD_eq_getElem]

theorem Sorted.length (h : Sorted key word rows) : rows.length = word.length := by
  rw [h.perm.length_eq, rotations, List.length_map, List.length_range]

theorem Sorted.row (h : Sorted key word rows) (hi : i < rows.length) :
    ∃ q c, rows.getD i [] = q ++ [c] ∧ q.length + 1 = word.length
      ∧ (lastColumn d rows).getD i d = c := by
  have hmem : rows.getD i [] ∈ rows := by
    rw [List.getD_eq_getElem _ _ hi]
    exact List.getElem_mem hi
  have hlength : (rows.getD i []).length = word.length := by
    obtain ⟨n, -, hn⟩ := List.mem_map.1 (h.perm.mem_iff.1 hmem)
    rw [← hn, List.length_rotate]
  have hcolumn : (lastColumn d rows).getD i d = (rows.getD i []).getLastD d := by
    rw [List.getD_eq_getElem _ _ hi, lastColumn, List.getD_eq_getElem _ _ (by simpa using hi),
      List.getElem_map]
  rcases List.eq_nil_or_concat (rows.getD i []) with hnil | ⟨q, c, hrow⟩
  · rw [hnil] at hlength
    have hword := h.length
    simp only [List.length_nil] at hlength
    omega
  · rw [List.concat_eq_append] at hrow
    rw [hrow] at hlength hcolumn
    exact ⟨q, c, hrow, by simpa using hlength, by simpa using hcolumn⟩

theorem order_map_back (hkey : Function.Injective key) (h : Sorted key word rows)
    (horder : StableOrder key d (lastColumn d rows) order) :
    (order.map fun i => back (rows.getD i [])) = rows := by
  have hcolumn : (lastColumn d rows).length = rows.length := List.length_map _
  have hsame (r r' : List α) (_ : r ∈ order.map fun i => back (rows.getD i [])) (_ : r' ∈ rows)
      (hle : r.map key ≤ r'.map key) (hge : r'.map key ≤ r.map key) : r = r' :=
    hkey.list_map (le_antisymm hle hge)
  refine List.Perm.eq_of_pairwise hsame ?_ h.sorted ?_
  · refine List.pairwise_map.2 (horder.stable.imp_of_mem fun {i j} hi hj hstable => ?_)
    have hin : i < rows.length := by
      rw [← hcolumn]
      exact List.mem_range.1 (horder.perm.mem_iff.1 hi)
    have hjn : j < rows.length := by
      rw [← hcolumn]
      exact List.mem_range.1 (horder.perm.mem_iff.1 hj)
    obtain ⟨q, c, hrow, hlength, hlast⟩ := h.row (d := d) hin
    obtain ⟨q', c', hrow', hlength', hlast'⟩ := h.row (d := d) hjn
    rw [hlast, hlast'] at hstable
    rw [hrow, hrow', back_concat, back_concat, List.map_cons, List.map_cons,
      cons_le_cons_iff]
    refine hstable.imp_right fun hsame => ⟨hsame.1, ?_⟩
    have hle := List.pairwise_iff_getElem.1 h.sorted i j hin hjn hsame.2
    rw [← List.getD_eq_getElem _ [] hin, ← List.getD_eq_getElem _ [] hjn, hrow, hrow',
      List.map_append, List.map_append, List.map_singleton, List.map_singleton, hsame.1] at hle
    refine lex_of_concat ?_ hle
    rw [List.length_map, List.length_map]
    omega
  · have hrange := horder.perm.map fun i => back (rows.getD i [])
    have hrows : ((List.range rows.length).map fun i => back (rows.getD i [])) = rows.map back := by
      conv_rhs => rw [← map_range_getD rows, List.map_map]
      rfl
    rw [hcolumn, hrows] at hrange
    exact hrange.trans (((h.perm.map back).trans (rotations_map_back word)).trans h.perm.symm)

/-- The step from a row: the row rotated by one letter, which ends in the letter it began with. -/
theorem row_next (hkey : Function.Injective key) (h : Sorted key word rows)
    (horder : StableOrder key d (lastColumn d rows) order) (hk : k < rows.length) :
    order.getD k 0 < rows.length ∧ rows.getD (order.getD k 0) [] = (rows.getD k []).rotate 1
      ∧ (lastColumn d rows).getD (order.getD k 0) d = (rows.getD k []).headD d := by
  have hcolumn : (lastColumn d rows).length = rows.length := List.length_map _
  have hlength : order.length = rows.length := by
    rw [horder.perm.length_eq, List.length_range, hcolumn]
  have hmem : order.getD k 0 ∈ order := by
    rw [List.getD_eq_getElem _ _ (hlength ▸ hk)]
    exact List.getElem_mem _
  have hin : order.getD k 0 < rows.length := by
    rw [← hcolumn]
    exact List.mem_range.1 (horder.perm.mem_iff.1 hmem)
  have hback : back (rows.getD (order.getD k 0) []) = rows.getD k [] := by
    have hrow := congrArg (fun l => l.getD k []) (order_map_back hkey h horder)
    rw [List.getD_eq_getElem _ _ (by simpa [hlength] using hk), List.getElem_map] at hrow
    rw [List.getD_eq_getElem order 0 (hlength ▸ hk)]
    exact hrow
  obtain ⟨q, c, hrow, -, hlast⟩ := h.row (d := d) hin
  refine ⟨hin, ?_, ?_⟩
  · rw [← hback, rotate_back]
  · rw [hlast, ← hback, hrow, back_concat]
    rfl

theorem visit_eq_take (hkey : Function.Injective key) (h : Sorted key word rows)
    (horder : StableOrder key d (lastColumn d rows) order) {next : ℕ → ℕ}
    (hnext : ∀ k < rows.length, next k = order.getD k 0) :
    ∀ {count k : ℕ}, k < rows.length → count ≤ word.length →
      visit d (lastColumn d rows) next count (next k) = (rows.getD k []).take count
  | 0, _, _, _ => rfl
  | count + 1, k, hk, hcount => by
    obtain ⟨hin, hrotated, hletter⟩ := row_next hkey h horder hk
    obtain ⟨q, c, hrow, hlength, -⟩ := h.row (d := d) hk
    have ih := visit_eq_take hkey h horder hnext hin (Nat.le_of_succ_le hcount)
    rw [visit, hnext k hk, hletter, ih, hrotated]
    have hlong : (rows.getD k []).length = word.length := by rw [hrow]; simpa using hlength
    generalize rows.getD k [] = r at hlong
    rcases r with _ | ⟨x, r⟩
    · simp only [List.length_nil] at hlong
      omega
    · rw [List.rotate_cons_succ, List.rotate_zero, List.headD_cons, List.take_succ_cons,
        List.take_append_of_le_length]
      simp only [List.length_cons] at hlong
      omega

end Rows

end BurrowsWheeler
