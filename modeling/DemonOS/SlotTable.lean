import DemonOS.Lib.Table

/-!
# The generation-checked slot table

`include/kernel/slot_table.h`: a fixed number of slots, each with a flag, a 16-bit generation that
is never 0, and a payload. Freeing a slot moves its generation on, so a reference that still names
the old one no longer resolves.
-/

namespace DemonOS

/-- The generation after `g`: `++candidate.generation`, skipping 0. -/
def nextGeneration (g : ℕ) : ℕ := if (g + 1) % 65536 = 0 then 1 else (g + 1) % 65536

theorem nextGeneration_pos (g : ℕ) : 0 < nextGeneration g := by
  unfold nextGeneration
  split <;> omega

theorem nextGeneration_lt (g : ℕ) : nextGeneration g < 65536 := by
  unfold nextGeneration
  split <;> omega

/-- One slot. Its generation is a nonzero 16-bit value. -/
structure SlotEntry (α : Type) where
  isOpen : Bool := false
  generation : ℕ := 1
  payload : α
  generation_pos : 0 < generation := by decide
  generation_lt : generation < 65536 := by decide

structure SlotTable (α : Type) (capacity : ℕ) where
  entries : ℕ → SlotEntry α

namespace SlotTable

variable {α : Type} [Inhabited α] {capacity : ℕ}

def empty : SlotTable α capacity := ⟨fun _ => { payload := default }⟩

/-- Claims the first free slot with a fresh payload: the slot, its generation, the table. -/
def allocate (t : SlotTable α capacity) : Option (ℕ × ℕ × SlotTable α capacity) :=
  match Table.firstIndex capacity (fun i => !(t.entries i).isOpen) with
  | none => none
  | some i => some (i, (t.entries i).generation,
      ⟨Function.update t.entries i { t.entries i with isOpen := true, payload := default }⟩)

/-- What the caller of `allocate` stores through the payload pointer it gets back. -/
def store (t : SlotTable α capacity) (slot : ℕ) (v : α) : SlotTable α capacity :=
  ⟨Function.update t.entries slot { t.entries slot with payload := v }⟩

def resolve (t : SlotTable α capacity) (slot generation : ℕ) : Option α :=
  if capacity ≤ slot then none
  else if !(t.entries slot).isOpen || (t.entries slot).generation != generation then none
  else some (t.entries slot).payload

def isOpen (t : SlotTable α capacity) (slot : ℕ) : Bool :=
  decide (slot < capacity) && (t.entries slot).isOpen

/-- Frees the slot and moves its generation on, handing back what it held. -/
def release (t : SlotTable α capacity) (slot : ℕ) : Option (α × SlotTable α capacity) :=
  if capacity ≤ slot then none
  else if !(t.entries slot).isOpen then none
  else some ((t.entries slot).payload,
    ⟨Function.update t.entries slot
      { isOpen := false, payload := default
        generation := nextGeneration (t.entries slot).generation
        generation_pos := nextGeneration_pos _
        generation_lt := nextGeneration_lt _ }⟩)

theorem allocate_spec {t t' : SlotTable α capacity} {slot generation : ℕ}
    (h : t.allocate = some (slot, generation, t')) (v : α) :
    slot < capacity ∧ (t.entries slot).isOpen = false
      ∧ generation = (t.entries slot).generation
      ∧ (t'.store slot v).entries = Function.update t.entries slot
          { t.entries slot with isOpen := true, payload := v } := by
  unfold allocate at h
  split at h
  · cases h
  · rename_i i hi
    obtain ⟨hlt, hfree, -⟩ := Table.firstIndex_eq_some.1 hi
    simp only [Option.some.injEq, Prod.mk.injEq] at h
    obtain ⟨rfl, rfl, rfl⟩ := h
    refine ⟨hlt, by simpa using hfree, rfl, ?_⟩
    simp [store]

theorem release_spec {t t' : SlotTable α capacity} {slot : ℕ} {v : α}
    (h : t.release slot = some (v, t')) :
    slot < capacity ∧ (t.entries slot).isOpen = true ∧ v = (t.entries slot).payload
      ∧ ∃ e : SlotEntry α, e.isOpen = false ∧ e.payload = default
        ∧ e.generation = nextGeneration (t.entries slot).generation
        ∧ t'.entries = Function.update t.entries slot e := by
  unfold release at h
  split at h
  · cases h
  · split at h
    · cases h
    · rename_i hlt hopen
      simp only [Option.some.injEq, Prod.mk.injEq] at h
      obtain ⟨rfl, rfl⟩ := h
      exact ⟨by omega, by simpa using hopen, rfl, _, rfl, rfl, rfl, rfl⟩

omit [Inhabited α] in
theorem resolve_eq_some {t : SlotTable α capacity} {slot generation : ℕ} {v : α} :
    t.resolve slot generation = some v ↔ slot < capacity ∧ (t.entries slot).isOpen = true
      ∧ (t.entries slot).generation = generation ∧ (t.entries slot).payload = v := by
  unfold resolve
  split_ifs with h1 h2
  · simp only [false_iff, not_and]
    omega
  · simp only [false_iff, not_and]
    intro _ ho hg
    simp [ho, hg] at h2
  · simp only [Bool.or_eq_true, Bool.not_eq_true', bne_iff_ne, ne_eq, not_or,
      Bool.not_eq_false, not_not] at h2
    simp only [Option.some.injEq]
    exact ⟨fun h => ⟨by omega, h2.1, h2.2, h⟩, fun h => h.2.2.2⟩

end SlotTable

end DemonOS
