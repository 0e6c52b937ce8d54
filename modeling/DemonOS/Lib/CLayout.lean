import Mathlib.Algebra.BigOperators.Group.List.Basic
import Mathlib.Tactic.Linarith

/-!
# The layout of C records and tables

Sizes and alignments of C types under the usual rules: a field starts at the next multiple of its
alignment, and a record ends at a multiple of the alignment of its widest field. A table is a row
of records from a fixed address on; the records of two tables are apart when the tables are
(`Table.apart_of_le`), and an update of one leaves what is apart from it alone (`load_store`).
-/

namespace CLayout

structure CType where
  size : ℕ
  align : ℕ

def scalar (n : ℕ) : CType := ⟨n, n⟩

def array (t : CType) (n : ℕ) : CType := ⟨t.size * n, t.align⟩

/-- The next multiple of `a`. -/
def alignUp (n a : ℕ) : ℕ := (n + a - 1) / a * a

/-- The offsets of the fields of a record, the first at the earliest from `o` on. -/
def offsets : List CType → ℕ → List ℕ
  | [], _ => []
  | t :: ts, o => alignUp o t.align :: offsets ts (alignUp o t.align + t.size)

/-- Where the last field ends. -/
def fieldsEnd : List CType → ℕ → ℕ
  | [], o => o
  | t :: ts, o => fieldsEnd ts (alignUp o t.align + t.size)

def struct (fields : List CType) : CType where
  align := (fields.map CType.align).foldl max 1
  size := alignUp (fieldsEnd fields 0) ((fields.map CType.align).foldl max 1)

/-- A record with the `packed` attribute. -/
def packed (fields : List CType) : CType := ⟨(fields.map CType.size).sum, 1⟩

/-- A row of records. -/
structure Table where
  base : ℕ
  entry : CType
  length : ℕ

namespace Table

def address (t : Table) (i : ℕ) : ℕ := t.base + t.entry.size * i

def tableEnd (t : Table) : ℕ := t.address t.length

/-- The byte at `a` belongs to record `i`. -/
def Holds (t : Table) (i a : ℕ) : Prop := t.address i ≤ a ∧ a < t.address i + t.entry.size

/-- The bytes of record `i`. -/
def load (t : Table) (m : ℕ → UInt8) (i : ℕ) : List UInt8 :=
  (List.range t.entry.size).map fun o => m (t.address i + o)

instance (t : Table) (i a : ℕ) : Decidable (t.Holds i a) := inferInstanceAs (Decidable (_ ∧ _))

/-- The memory with the bytes of record `i` set. -/
def store (t : Table) (m : ℕ → UInt8) (i : ℕ) (v : ℕ → UInt8) : ℕ → UInt8 := fun a =>
  if t.Holds i a then v (a - t.address i) else m a

/-- Two records have no byte in common. -/
def Apart (t : Table) (i : ℕ) (u : Table) (j : ℕ) : Prop := ∀ a, ¬(t.Holds i a ∧ u.Holds j a)

theorem Apart.symm {t u : Table} {i j : ℕ} (h : t.Apart i u j) : u.Apart j t i :=
  fun a ha => h a ha.symm

theorem address_add_le (t : Table) {i : ℕ} (hi : i < t.length) :
    t.address i + t.entry.size ≤ t.tableEnd := by
  have : t.entry.size * (i + 1) ≤ t.entry.size * t.length := Nat.mul_le_mul_left _ hi
  unfold tableEnd address
  rw [Nat.mul_succ] at this
  omega

theorem base_le (t : Table) (i : ℕ) : t.base ≤ t.address i := Nat.le_add_right _ _

theorem apart_of_le {t u : Table} (h : t.tableEnd ≤ u.base) {i : ℕ} (hi : i < t.length) (j : ℕ) :
    t.Apart i u j := by
  rintro a ⟨ht, hu⟩
  have h1 := t.address_add_le hi
  have h2 := u.base_le j
  unfold Holds at ht hu
  omega

/-- An update of a record leaves the records apart from it alone. -/
theorem load_store {t u : Table} {i j : ℕ} (h : t.Apart i u j) (m v : ℕ → UInt8) :
    u.load (t.store m i v) j = u.load m j := by
  refine List.map_congr_left fun o ho => if_neg fun ht => h _ ⟨ht, ?_⟩
  have := List.mem_range.1 ho
  unfold Holds
  omega

end Table

end CLayout
