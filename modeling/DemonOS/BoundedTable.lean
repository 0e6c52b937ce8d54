import DemonOS.Lib.Table

/-!
# The name-keyed table

`include/kernel/bounded_table.h`: a fixed number of slots found by name. An id is the slot's index
plus one; freeing a slot leaves it to the next creation, under the same id.
-/

namespace DemonOS

def nameMax : ℕ := 63

structure TableEntry (α : Type) where
  used : Bool := false
  name : List UInt8 := []
  payload : α

structure BoundedTable (α : Type) (capacity : ℕ) where
  slots : ℕ → TableEntry α

namespace BoundedTable

variable {α : Type} [Inhabited α] {capacity : ℕ}

def empty : BoundedTable α capacity := ⟨fun _ => { payload := default }⟩

def slot (_ : BoundedTable α capacity) (id : ℕ) : Option ℕ :=
  if id = 0 ∨ capacity < id then none else some (id - 1)

def payloadFor (t : BoundedTable α capacity) (id : ℕ) : Option α :=
  match t.slot id with
  | none => none
  | some i => if (t.slots i).used then some (t.slots i).payload else none

/-- What a caller stores through the payload pointer of `id`. -/
def setPayload (t : BoundedTable α capacity) (id : ℕ) (v : α) : BoundedTable α capacity :=
  ⟨Function.update t.slots (id - 1) { t.slots (id - 1) with payload := v }⟩

def find (t : BoundedTable α capacity) (name : List UInt8) : Option ℕ :=
  if name.length = 0 ∨ nameMax < name.length then none
  else (Table.firstIndex capacity fun i => (t.slots i).used && (t.slots i).name == name).map (· + 1)

/-- The first free slot, which the next creation takes. -/
def firstFree (t : BoundedTable α capacity) : Option ℕ :=
  Table.firstIndex capacity fun i => !(t.slots i).used

/-- The id of the name; a name that is not there takes the first free slot where `create` asks
for it. -/
def openName (t : BoundedTable α capacity) (name : List UInt8) (create : Bool) :
    Option (ℕ × BoundedTable α capacity) :=
  match t.find name with
  | some id => some (id, t)
  | none =>
    if !create || name.length = 0 || nameMax < name.length then none
    else match t.firstFree with
      | none => none
      | some i => some (i + 1,
          ⟨Function.update t.slots i { used := true, name := name, payload := default }⟩)

/-- Frees the slot. -/
def release (t : BoundedTable α capacity) (id : ℕ) : Option (BoundedTable α capacity) :=
  match t.payloadFor id with
  | none => none
  | some _ => some ⟨Function.update t.slots (id - 1)
      { used := false, name := [], payload := default }⟩

/-- Gives the slot another name. -/
def rename (t : BoundedTable α capacity) (id : ℕ) (newName : List UInt8) :
    Option (BoundedTable α capacity) :=
  match t.slot id with
  | none => none
  | some i =>
    if !(t.slots i).used || newName.length = 0 || nameMax < newName.length then none
    else some ⟨Function.update t.slots i { t.slots i with name := newName }⟩

omit [Inhabited α] in
theorem slot_eq_some {t : BoundedTable α capacity} {id i : ℕ} :
    t.slot id = some i ↔ i < capacity ∧ id = i + 1 := by
  unfold slot
  split_ifs with h
  · simp only [false_iff]
    omega
  · simp only [Option.some.injEq]
    omega

omit [Inhabited α] in
theorem payloadFor_eq_some {t : BoundedTable α capacity} {id : ℕ} {v : α} :
    t.payloadFor id = some v
      ↔ ∃ i < capacity, id = i + 1 ∧ (t.slots i).used = true ∧ (t.slots i).payload = v := by
  unfold payloadFor
  cases h : t.slot id with
  | none =>
    simp only [reduceCtorEq, false_iff]
    rintro ⟨i, hi, rfl, -⟩
    rw [slot_eq_some.2 ⟨hi, rfl⟩] at h
    cases h
  | some i =>
    obtain ⟨hi, rfl⟩ := slot_eq_some.1 h
    simp only [Option.ite_none_right_eq_some, Option.some.injEq]
    constructor
    · rintro ⟨hu, hv⟩
      exact ⟨i, hi, rfl, hu, hv⟩
    · rintro ⟨j, -, hj, hu, hv⟩
      obtain rfl : i = j := by omega
      exact ⟨hu, hv⟩

omit [Inhabited α] in
theorem find_eq_some {t : BoundedTable α capacity} {name : List UInt8} {id : ℕ}
    (h : t.find name = some id) :
    ∃ i < capacity, id = i + 1 ∧ (t.slots i).used = true ∧ (t.slots i).name = name := by
  unfold find at h
  split_ifs at h
  rw [Option.map_eq_some_iff] at h
  obtain ⟨i, hi, rfl⟩ := h
  obtain ⟨hlt, hused, -⟩ := Table.firstIndex_eq_some.1 hi
  rw [Bool.and_eq_true, beq_iff_eq] at hused
  exact ⟨i, hlt, rfl, hused.1, hused.2⟩

omit [Inhabited α] in
theorem find_eq_none {t : BoundedTable α capacity} {name : List UInt8} (hpos : 0 < name.length)
    (hmax : name.length ≤ nameMax) :
    t.find name = none ↔ ∀ i < capacity, (t.slots i).used = true → (t.slots i).name ≠ name := by
  unfold find
  rw [if_neg (by omega), Option.map_eq_none_iff, Table.firstIndex_eq_none]
  simp

omit [Inhabited α] in
theorem firstFree_eq_some {t : BoundedTable α capacity} {i : ℕ} (h : t.firstFree = some i) :
    i < capacity ∧ (t.slots i).used = false := by
  obtain ⟨hlt, hfree, -⟩ := Table.firstIndex_eq_some.1 h
  exact ⟨hlt, by simpa using hfree⟩

theorem openName_eq_some {t t' : BoundedTable α capacity} {name : List UInt8} {create : Bool}
    {id : ℕ} (h : t.openName name create = some (id, t')) :
    (t.find name = some id ∧ t' = t)
      ∨ (t.find name = none ∧ create = true ∧ 0 < name.length ∧ name.length ≤ nameMax
        ∧ ∃ i, t.firstFree = some i ∧ id = i + 1
          ∧ t' = ⟨Function.update t.slots i { used := true, name := name, payload := default }⟩) := by
  unfold openName at h
  split at h
  · rename_i found hfound
    simp only [Option.some.injEq, Prod.mk.injEq] at h
    obtain ⟨rfl, rfl⟩ := h
    exact .inl ⟨hfound, rfl⟩
  · rename_i hnone
    split_ifs at h with hc
    simp only [Bool.or_eq_true, Bool.not_eq_eq_eq_not, Bool.not_true, decide_eq_true_eq, not_or,
      Bool.not_eq_false, not_lt] at hc
    split at h
    · cases h
    · rename_i i hi
      simp only [Option.some.injEq, Prod.mk.injEq] at h
      obtain ⟨rfl, rfl⟩ := h
      exact .inr ⟨hnone, hc.1.1, by omega, hc.2, i, hi, rfl, rfl⟩

end BoundedTable

end DemonOS
