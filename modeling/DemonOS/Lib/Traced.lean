import Mathlib.Data.List.Range

/-!
# Computations that read a memory

A computation has a value and the places it has read for it, in order. What holds of all places that
the parts read holds of those the whole reads (`within_bind`); comparing a text with the memory reads
no further than the first place that differs (`within_spells`).
-/

/-- A value and the places that have been read for it. -/
structure Traced (α : Type) where
  value : α
  reads : List ℕ

namespace Traced

instance : Monad Traced where
  pure a := ⟨a, []⟩
  bind x f := ⟨(f x.value).value, x.reads ++ (f x.value).reads⟩

def read (m : ℕ → UInt8) (a : ℕ) : Traced UInt8 := ⟨m a, [a]⟩

/-- All places that are read have the property. -/
def Within (P : ℕ → Prop) {α : Type} (x : Traced α) : Prop := ∀ a ∈ x.reads, P a

variable {α β : Type} {P : ℕ → Prop} {m : ℕ → UInt8} {a : ℕ}

@[simp] theorem value_pure (v : α) : (pure v : Traced α).value = v := rfl

@[simp] theorem value_bind (x : Traced α) (f : α → Traced β) :
    (x >>= f).value = (f x.value).value := rfl

@[simp] theorem within_pure (v : α) : (pure v : Traced α).Within P := by
  intro a ha
  cases ha

@[simp] theorem within_bind (x : Traced α) (f : α → Traced β) :
    (x >>= f).Within P ↔ x.Within P ∧ (f x.value).Within P := by
  constructor
  · exact fun h => ⟨fun a ha => h a (List.mem_append_left _ ha),
      fun a ha => h a (List.mem_append_right _ ha)⟩
  · rintro ⟨hx, hf⟩ a ha
    exact (List.mem_append.1 ha).elim (hx a) (hf a)

@[simp] theorem within_read : (read m a).Within P ↔ P a := by
  simp [Within, read]

/-- The first member of the list that passes, if one does, after that the test reads no more. -/
theorem within_anyM {f : α → Traced Bool} : ∀ {l : List α}, (∀ b ∈ l, (f b).Within P) →
    (l.anyM f).Within P
  | [], _ => within_pure _
  | b :: l, h => by
    rw [List.anyM, within_bind]
    refine ⟨h b List.mem_cons_self, ?_⟩
    cases (f b).value
    · exact within_anyM fun c hc => h c (List.mem_cons_of_mem b hc)
    · exact within_pure _

theorem value_anyM {f : α → Traced Bool} : ∀ {l : List α},
    (l.anyM f).value = l.any fun b => (f b).value
  | [] => rfl
  | b :: l => by
    rw [List.anyM, value_bind, List.any_cons]
    cases (f b).value
    · exact value_anyM
    · rfl

/-- One step after the other, where what a step reads does not depend on the state. -/
theorem within_foldlM {f : β → α → Traced β} {Q : α → Prop} : ∀ {l : List α} (s : β),
    (∀ s, ∀ b ∈ l, (f s b).Within P ↔ Q b) → ((l.foldlM f s).Within P ↔ ∀ b ∈ l, Q b)
  | [], _, _ => iff_of_true (within_pure _) fun _ h => by cases h
  | b :: l, s, h => by
    rw [List.foldlM_cons, within_bind, List.forall_mem_cons, h s b List.mem_cons_self,
      within_foldlM _ fun s c hc => h s c (List.mem_cons_of_mem b hc)]

theorem within_findM {f : α → Traced Bool} : ∀ {l : List α}, (∀ b ∈ l, (f b).Within P) →
    (l.findM? f).Within P
  | [], _ => within_pure _
  | b :: l, h => by
    rw [List.findM?, within_bind]
    refine ⟨h b List.mem_cons_self, ?_⟩
    cases (f b).value
    · exact within_findM fun c hc => h c (List.mem_cons_of_mem b hc)
    · exact within_pure _

theorem mem_of_findM {f : α → Traced Bool} {v : α} : ∀ {l : List α},
    (l.findM? f).value = some v → v ∈ l
  | [], h => by cases h
  | b :: l, h => by
    rw [List.findM?, value_bind] at h
    cases hb : (f b).value <;> rw [hb] at h
    · exact List.mem_cons_of_mem b (mem_of_findM h)
    · cases h
      exact List.mem_cons_self

/-! ## Texts and numbers -/

/-- Whether the bytes from `a` on are those of the text, read up to the first that differs. -/
def spells (m : ℕ → UInt8) : ℕ → List UInt8 → Traced Bool
  | _, [] => pure true
  | a, c :: cs => do if (← read m a) = c then spells m (a + 1) cs else pure false

/-- The little-endian number of so many bytes. -/
def number (m : ℕ → UInt8) : ℕ → ℕ → Traced ℕ
  | _, 0 => pure 0
  | a, n + 1 => do
    let low ← read m a
    let high ← number m (a + 1) n
    pure (low.toNat + 256 * high)

def Spells (m : ℕ → UInt8) (a : ℕ) (text : List UInt8) : Prop :=
  ∀ (i : ℕ) (h : i < text.length), m (a + i) = text[i]

theorem spells_cons {c : UInt8} {cs : List UInt8} :
    Spells m a (c :: cs) ↔ m a = c ∧ Spells m (a + 1) cs := by
  constructor
  · refine fun h => ⟨h 0 (Nat.zero_lt_succ _), fun i hi => ?_⟩
    rw [Nat.add_right_comm]
    exact h (i + 1) (Nat.succ_lt_succ hi)
  · rintro ⟨h0, h⟩ i hi
    cases i with
    | zero => exact h0
    | succ i =>
      rw [← Nat.add_assoc, Nat.add_right_comm]
      exact h i (Nat.lt_of_succ_lt_succ hi)

theorem Spells.take {text : List UInt8} (h : Spells m a text) (i : ℕ) :
    Spells m a (text.take i) := fun k hk => by
  rw [List.length_take] at hk
  simpa using h k (by omega)

theorem Spells.of_take {text : List UInt8} {i j : ℕ} (h : Spells m a (text.take j)) (hij : i ≤ j) :
    Spells m a (text.take i) := by
  have htake := h.take i
  rwa [List.take_take, Nat.min_eq_left hij] at htake

theorem exists_differs {text : List UInt8} (h : ¬Spells m a text) :
    ∃ i < text.length, Spells m a (text.take i) ∧ ¬Spells m a (text.take (i + 1)) := by
  by_contra hno
  have hall : ∀ i ≤ text.length, Spells m a (text.take i) := fun i => by
    induction i with
    | zero => exact fun _ _ hk => absurd hk (Nat.not_lt_zero _)
    | succ i ih => exact fun hi => by_contra fun hnot => hno ⟨i, hi, ih (by omega), hnot⟩
  exact h (List.take_length (l := text) ▸ hall _ le_rfl)

theorem value_spells : ∀ {text : List UInt8} {a : ℕ},
    (spells m a text).value = true ↔ Spells m a text
  | [], _ => ⟨fun _ _ h => absurd h (Nat.not_lt_zero _), fun _ => rfl⟩
  | c :: cs, a => by
    rw [spells, value_bind, spells_cons]
    show (if m a = c then _ else _ : Traced Bool).value = true ↔ _
    split_ifs with hc
    · rw [value_spells, and_iff_right hc]
    · simp [hc]

theorem within_spells : ∀ {text : List UInt8} {a : ℕ}, (spells m a text).Within P
    ↔ ∀ i < text.length, Spells m a (text.take i) → P (a + i)
  | [], _ => ⟨fun _ _ h => absurd h (Nat.not_lt_zero _), fun _ => within_pure _⟩
  | c :: cs, a => by
    rw [spells, within_bind, within_read]
    show P a ∧ (if m a = c then _ else _ : Traced Bool).Within P ↔ _
    constructor
    · rintro ⟨h0, hrest⟩ i hi hspells
      cases i with
      | zero => exact h0
      | succ i =>
        obtain ⟨hc, hspells⟩ := spells_cons.1 hspells
        rw [if_pos hc] at hrest
        rw [← Nat.add_assoc, Nat.add_right_comm]
        exact within_spells.1 hrest i (Nat.lt_of_succ_lt_succ hi) hspells
    · intro h
      refine ⟨h 0 (Nat.zero_lt_succ _) fun _ hno => absurd hno (Nat.not_lt_zero _), ?_⟩
      split_ifs with hc
      · refine within_spells.2 fun i hi hspells => ?_
        rw [Nat.add_right_comm]
        exact h (i + 1) (Nat.succ_lt_succ hi) (spells_cons.2 ⟨hc, hspells⟩)
      · exact within_pure _

theorem within_number : ∀ {n a : ℕ}, (number m a n).Within P ↔ ∀ i < n, P (a + i)
  | 0, _ => ⟨fun _ _ h => absurd h (Nat.not_lt_zero _), fun _ => within_pure _⟩
  | n + 1, a => by
    rw [number, within_bind, within_bind, within_read, within_number]
    refine ⟨fun ⟨h0, h, _⟩ i hi => ?_, fun h => ⟨h 0 (Nat.zero_lt_succ n), fun i hi => ?_,
      within_pure _⟩⟩
    · cases i with
      | zero => exact h0
      | succ i =>
        rw [← Nat.add_assoc, Nat.add_right_comm]
        exact h i (Nat.lt_of_succ_lt_succ hi)
    · rw [Nat.add_right_comm]
      exact h (i + 1) (Nat.succ_lt_succ hi)

end Traced
