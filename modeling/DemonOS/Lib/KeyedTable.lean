import DemonOS.Lib.Table

/-!
# Tables looked up by key

A slot of a table holds a key or is free, and a key is looked up by a search for the first slot that
holds it. Where no two slots hold the same key (`Unique`), an assignment to the slot of a key, or to
a free slot for a key that is not there, changes what is found under that key alone (`get_update`),
and to free the slot of a key takes that key alone out of the table (`get_clear`).
-/

namespace KeyedTable

variable {α κ : Type*} [DecidableEq κ] (n : ℕ) (key : α → Option κ) (f : ℕ → α)

/-- The first of the `n` slots that holds a key. -/
def find (k : κ) : Option ℕ := Table.firstIndex n fun i => key (f i) = some k

/-- What the table holds under a key. -/
def get (k : κ) : Option α := (find n key f k).map f

/-- No two slots hold the same key. -/
def Unique : Prop := ∀ i < n, ∀ j < n, ∀ k, key (f i) = some k → key (f j) = some k → i = j

variable {n key f} {i : ℕ} {k : κ}

theorem find_eq_some (hunique : Unique n key f) :
    find n key f k = some i ↔ i < n ∧ key (f i) = some k := by
  unfold find
  rw [Table.firstIndex_eq_some]
  constructor
  · rintro ⟨hi, hk, -⟩
    exact ⟨hi, of_decide_eq_true hk⟩
  · rintro ⟨hi, hk⟩
    refine ⟨hi, decide_eq_true hk, fun j hj => decide_eq_false fun hkey => ?_⟩
    have := hunique j (hj.trans hi) i hi k hkey hk
    omega

theorem find_eq_none : find n key f k = none ↔ ∀ i < n, key (f i) ≠ some k := by
  unfold find
  rw [Table.firstIndex_eq_none]
  simp only [decide_eq_false_iff_not, ne_eq]

theorem get_of_find (h : find n key f k = some i) : get n key f k = some (f i) := by
  rw [get, h, Option.map_some]

theorem get_of_slot (hunique : Unique n key f) (hi : i < n) (hk : key (f i) = some k) :
    get n key f k = some (f i) :=
  get_of_find ((find_eq_some hunique).2 ⟨hi, hk⟩)

theorem get_eq_none : get n key f k = none ↔ ∀ i < n, key (f i) ≠ some k := by
  rw [get, Option.map_eq_none_iff, find_eq_none]

theorem get_eq_some (hunique : Unique n key f) {v : α} :
    get n key f k = some v ↔ ∃ i < n, key (f i) = some k ∧ f i = v := by
  rw [get, Option.map_eq_some_iff]
  constructor
  · rintro ⟨i, hi, rfl⟩
    obtain ⟨hlt, hk⟩ := (find_eq_some hunique).1 hi
    exact ⟨i, hlt, hk, rfl⟩
  · rintro ⟨i, hlt, hk, rfl⟩
    exact ⟨i, (find_eq_some hunique).2 ⟨hlt, hk⟩, rfl⟩

/-- The slot is the key's, or it is free and the key is not in the table. -/
def Open (n : ℕ) (key : α → Option κ) (f : ℕ → α) (i : ℕ) (k : κ) : Prop :=
  i < n ∧ (key (f i) = some k ∨ (key (f i) = none ∧ find n key f k = none))

theorem Open.other {j : ℕ} (hunique : Unique n key f) (h : Open n key f i k) (hj : j < n)
    (hk : key (f j) = some k) : j = i := by
  obtain ⟨hi, hown | ⟨-, hnone⟩⟩ := h
  · exact hunique j hj i hi k hk hown
  · exact absurd hk (find_eq_none.1 hnone j hj)

theorem unique_update (hunique : Unique n key f) (h : Open n key f i k) {v : α}
    (hv : key v = some k) : Unique n key (Function.update f i v) := by
  intro a ha b hb l hal hbl
  rcases eq_or_ne a i with hai | hai <;> rcases eq_or_ne b i with hbi | hbi
  · rw [hai, hbi]
  · rw [hai, Function.update_self, hv] at hal
    rw [Function.update_of_ne hbi, ← hal] at hbl
    rw [hai, h.other hunique hb hbl]
  · rw [hbi, Function.update_self, hv] at hbl
    rw [Function.update_of_ne hai, ← hbl] at hal
    rw [hbi, h.other hunique ha hal]
  · rw [Function.update_of_ne hai] at hal
    rw [Function.update_of_ne hbi] at hbl
    exact hunique a ha b hb l hal hbl

theorem get_update (hunique : Unique n key f) (h : Open n key f i k) {v : α} (hv : key v = some k)
    (l : κ) : get n key (Function.update f i v) l = if l = k then some v else get n key f l := by
  have hunique' := unique_update hunique h hv
  split_ifs with hl
  · rw [get_of_slot hunique' h.1 (by rw [Function.update_self, hv, hl]), Function.update_self]
  · have hother : ∀ j < n, key (f j) = some l → j ≠ i := by
      rintro j - hj rfl
      obtain ⟨-, hown | ⟨hfree, -⟩⟩ := h
      · exact hl (Option.some.inj (hj.symm.trans hown))
      · exact nomatch hj.symm.trans hfree
    refine Option.ext fun w => ?_
    rw [get_eq_some hunique', get_eq_some hunique]
    constructor
    · rintro ⟨j, hj, hkey, hval⟩
      rcases eq_or_ne j i with rfl | hji
      · rw [Function.update_self, hv] at hkey
        exact absurd (Option.some.inj hkey).symm hl
      · rw [Function.update_of_ne hji] at hkey hval
        exact ⟨j, hj, hkey, hval⟩
    · rintro ⟨j, hj, hkey, hval⟩
      have hji := hother j hj hkey
      exact ⟨j, hj, by rwa [Function.update_of_ne hji], by rwa [Function.update_of_ne hji]⟩

omit [DecidableEq κ] in
theorem unique_clear (hunique : Unique n key f) {v : α} (hv : key v = none) (i : ℕ) :
    Unique n key (Function.update f i v) := by
  have hother : ∀ {j l}, key (Function.update f i v j) = some l → j ≠ i := by
    rintro j l hj rfl
    rw [Function.update_self, hv] at hj
    exact nomatch hj
  intro a ha b hb l hal hbl
  have hai := hother hal
  have hbi := hother hbl
  rw [Function.update_of_ne hai] at hal
  rw [Function.update_of_ne hbi] at hbl
  exact hunique a ha b hb l hal hbl

theorem get_clear (hunique : Unique n key f) (hk : key (f i) = some k) (hi : i < n) {v : α}
    (hv : key v = none) (l : κ) :
    get n key (Function.update f i v) l = if l = k then none else get n key f l := by
  have hunique' := unique_clear hunique hv i
  split_ifs with hl
  · rw [get_eq_none, hl]
    intro j hj hkey
    rcases eq_or_ne j i with rfl | hji
    · rw [Function.update_self, hv] at hkey
      exact nomatch hkey
    · rw [Function.update_of_ne hji] at hkey
      exact hji (hunique j hj i hi k hkey hk)
  · refine Option.ext fun w => ?_
    rw [get_eq_some hunique', get_eq_some hunique]
    constructor
    · rintro ⟨j, hj, hkey, hval⟩
      rcases eq_or_ne j i with rfl | hji
      · rw [Function.update_self, hv] at hkey
        exact nomatch hkey
      · rw [Function.update_of_ne hji] at hkey hval
        exact ⟨j, hj, hkey, hval⟩
    · rintro ⟨j, hj, hkey, hval⟩
      have hji : j ≠ i := by
        rintro rfl
        exact hl (Option.some.inj (hkey.symm.trans hk))
      exact ⟨j, hj, by rwa [Function.update_of_ne hji], by rwa [Function.update_of_ne hji]⟩

end KeyedTable
