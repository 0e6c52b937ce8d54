import Mathlib.Data.List.GetD
import Mathlib.Data.List.Perm.Basic
import Mathlib.Data.List.Range

/-!
# Sorting into buckets

The places of a list in order of what stands there, and among equals in order of place: the buckets
of the values one after the other. Where a place comes is how many values are smaller and how many
equal ones stand in front (`byKey_split`).
-/

namespace Buckets

def byKey (keys values : List ℕ) : List ℕ :=
  values.flatMap fun v => (List.range keys.length).filter fun i => keys.getD i 0 = v

/-- Where a place comes: after the smaller values and the equal ones in front of it. -/
def slot (keys : List ℕ) (i : ℕ) : ℕ :=
  keys.countP (· < keys.getD i 0) + (keys.take i).count (keys.getD i 0)

variable {keys : List ℕ} {i first count : ℕ}

theorem getD_mem (hi : i < keys.length) : keys.getD i 0 ∈ keys := by
  rw [List.getD_eq_getElem keys 0 hi]
  exact List.getElem_mem hi

theorem countP_lt_succ (v : ℕ) : ∀ keys : List ℕ,
    keys.countP (· < v + 1) = keys.countP (· < v) + keys.count v
  | [] => rfl
  | k :: keys => by
    simp only [List.countP_cons, List.count_cons, countP_lt_succ v keys, decide_eq_true_eq,
      beq_iff_eq]
    split_ifs <;> omega

theorem take_eq_map (keys : List ℕ) (h : i ≤ keys.length) :
    keys.take i = (List.range i).map fun j => keys.getD j 0 := by
  refine List.ext_getElem (by simp [h]) fun j hj _ => ?_
  rw [List.getElem_take, List.getElem_map, List.getElem_range, List.getD_eq_getElem]

theorem length_filter_range (keys : List ℕ) (v : ℕ) (h : i ≤ keys.length) :
    ((List.range i).filter fun j => keys.getD j 0 = v).length = (keys.take i).count v := by
  rw [take_eq_map keys h, List.count, List.countP_map, List.countP_eq_length_filter]
  congr 2

theorem length_byKey (hleast : ∀ k ∈ keys, first ≤ k) : ∀ count : ℕ,
    (byKey keys (List.range' first count)).length = keys.countP (· < first + count)
  | 0 => by
    have hnone : keys.countP (· < first) = 0 :=
      List.countP_eq_zero.2 fun k hk => by simpa using hleast k hk
    rw [Nat.add_zero, hnone]
    rfl
  | count + 1 => by
    have hall := length_filter_range keys (first + count) le_rfl
    rw [List.take_length] at hall
    rw [List.range'_concat, byKey, List.flatMap_append, List.length_append, ← byKey,
      ← Nat.add_assoc, countP_lt_succ, ← length_byKey hleast count, Nat.one_mul, List.flatMap_cons,
      List.flatMap_nil, List.append_nil, hall]

variable (first count) in
theorem byKey_split (hi : i < keys.length) (hlow : first ≤ keys.getD i 0)
    (hhigh : keys.getD i 0 < first + count) (hleast : ∀ k ∈ keys, first ≤ k) :
    ∃ before after, byKey keys (List.range' first count) = before ++ i :: after
      ∧ before.length = slot keys i := by
  have hrank := length_filter_range keys (keys.getD i 0) hi.le
  obtain ⟨k, hk⟩ := Nat.exists_eq_add_of_le hlow
  obtain ⟨j, rfl⟩ := Nat.exists_eq_add_of_lt (by omega : k < count)
  obtain ⟨l, hl⟩ := Nat.exists_eq_add_of_lt hi
  have hvalues : List.range' first (k + j + 1)
      = List.range' first k ++ (first + k) :: List.range' (first + k + 1) j := by
    rw [Nat.add_assoc k, ← List.range'_append_1, List.range'_succ]
  have hplaces : List.range keys.length
      = List.range i ++ i :: (List.range l).map fun x => i + 1 + x := by
    rw [hl, Nat.add_right_comm, List.range_add, List.range_succ, List.append_assoc]
    rfl
  have hbucket : ((List.range keys.length).filter fun j => keys.getD j 0 = keys.getD i 0)
      = ((List.range i).filter fun j => keys.getD j 0 = keys.getD i 0)
        ++ i :: ((List.range l).map fun x => i + 1 + x).filter fun j =>
          keys.getD j 0 = keys.getD i 0 := by
    rw [hplaces, List.filter_append, List.filter_cons_of_pos (by simp)]
  refine ⟨byKey keys (List.range' first k)
    ++ (List.range i).filter fun j => keys.getD j 0 = keys.getD i 0,
    ((List.range l).map fun x => i + 1 + x).filter (fun j => keys.getD j 0 = keys.getD i 0)
      ++ byKey keys (List.range' (first + k + 1) j), ?_, ?_⟩
  · rw [hvalues, byKey, List.flatMap_append, List.flatMap_cons, ← byKey, ← byKey, ← hk, hbucket]
    simp only [List.append_assoc, List.cons_append]
  · rw [List.length_append, hrank, length_byKey hleast, ← hk]
    rfl

/-- The places are in order of their values, and among equals in order. -/
theorem byKey_pairwise (keys : List ℕ) (first count : ℕ) :
    (byKey keys (List.range' first count)).Pairwise fun i j =>
      keys.getD i 0 < keys.getD j 0 ∨ keys.getD i 0 = keys.getD j 0 ∧ i < j := by
  refine List.pairwise_flatMap.2 ⟨fun v _ => ?_, ?_⟩
  · refine (List.pairwise_lt_range.filter _).imp_of_mem fun hi hj hlt => ?_
    rw [List.mem_filter, decide_eq_true_eq] at hi hj
    exact .inr ⟨hi.2.trans hj.2.symm, hlt⟩
  · refine (List.pairwise_lt_range' (s := first) (n := count) 1).imp fun hlt i hi j hj => ?_
    rw [List.mem_filter, decide_eq_true_eq] at hi hj
    exact .inl (by omega)

theorem mem_byKey {values : List ℕ} :
    i ∈ byKey keys values ↔ i < keys.length ∧ keys.getD i 0 ∈ values := by
  unfold byKey
  rw [List.mem_flatMap]
  constructor
  · rintro ⟨v, hv, hi⟩
    rw [List.mem_filter, List.mem_range, decide_eq_true_eq] at hi
    exact ⟨hi.1, hi.2 ▸ hv⟩
  · rintro ⟨hi, hv⟩
    exact ⟨_, hv, List.mem_filter.2 ⟨List.mem_range.2 hi, by simp⟩⟩

variable (keys first count) in
theorem byKey_perm (hkeys : ∀ k ∈ keys, first ≤ k ∧ k < first + count) :
    (byKey keys (List.range' first count)).Perm (List.range keys.length) := by
  have hnodup : (byKey keys (List.range' first count)).Nodup :=
    (byKey_pairwise keys first count).imp fun h => by
      rintro rfl
      omega
  refine (List.perm_ext_iff_of_nodup hnodup List.nodup_range).2 fun i => ?_
  rw [mem_byKey, List.mem_range, and_iff_left_iff_imp]
  intro hi
  have hkey := hkeys _ (getD_mem hi)
  exact List.mem_range'_1.2 hkey

end Buckets
