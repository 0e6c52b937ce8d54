import DemonOS.DemonX.Tables
import Mathlib.Data.Fintype.Defs

/-!
# The tables of the DemonX server are apart, but for two

The sixteen window records take 960 bytes, from 0x330080 to 0x330440, and the reply handles start
at 0x330400: records 14 and 15 lie on them. Every other entry of every table is apart from all
other tables (`tables_separate_iff`).
-/

namespace DemonOS

namespace DemonX

open CLayout

namespace ServerTable

def all : List ServerTable :=
  [incomingWire, outgoingWire, windows, replyHandles, rootEventMask, rootRedirectClient,
    rootEventClient, atoms, properties, surfaceFactoryHandle, compositorHandle, compositorSerial,
    surfaceFailure, focusedWindow, pointerGrabClient, pointerGrabWindow, pointerGrabMask,
    keyboardGrabClient, keyboardGrabWindow, serverGrabClient, selectionAtom, selectionOwner,
    passiveGrabs, cursors, gcs, drawPixels, incoming, outgoing, assemblyActive, pixmaps]

instance : Fintype ServerTable where
  elems := ⟨all, by decide⟩
  complete t := by cases t <;> decide

def Clash (t u : ServerTable) : Prop :=
  (t = windows ∧ u = replyHandles) ∨ (t = replyHandles ∧ u = windows)

instance (t u : ServerTable) : Decidable (Clash t u) := inferInstanceAs (Decidable (_ ∨ _))

theorem tables_apart : ∀ t u : ServerTable, t ≠ u → ¬Clash t u →
    t.layout.tableEnd ≤ u.layout.base ∨ u.layout.tableEnd ≤ t.layout.base := by
  decide +kernel

/-- An entry no other table reaches into: an update of it leaves every other table unchanged, and
no update of another table's entry changes it. -/
structure Separate (t : ServerTable) (i : ℕ) : Prop where
  apart : ∀ u ≠ t, ∀ j < u.layout.length, t.layout.Apart i u.layout j
  frame : ∀ u ≠ t, ∀ j < u.layout.length, ∀ m v : ℕ → UInt8,
    u.layout.load (t.layout.store m i v) j = u.layout.load m j
  kept : ∀ u ≠ t, ∀ j < u.layout.length, ∀ m v : ℕ → UInt8,
    t.layout.load (u.layout.store m j v) i = t.layout.load m i

theorem Separate.of_apart {t : ServerTable} {i : ℕ}
    (h : ∀ u ≠ t, ∀ j < u.layout.length, t.layout.Apart i u.layout j) : Separate t i :=
  ⟨h, fun u hu j hj => Table.load_store (h u hu j hj),
    fun u hu j hj => Table.load_store (h u hu j hj).symm⟩

theorem window_apart {i : ℕ} (hi : i < 14) (j : ℕ) :
    windows.layout.Apart i replyHandles.layout j := by
  rintro a ⟨ht, hu⟩
  have ht' : a < 0x330080 + 60 * i + 60 := ht.2
  have hu' : 0x330400 + 8 * j ≤ a := hu.1
  omega

theorem window_clash {i : ℕ} (hi : 14 ≤ i) (hlt : i < 16) :
    ¬windows.layout.Apart i replyHandles.layout 0 := by
  intro h
  rcases (by omega : i = 14 ∨ i = 15) with rfl | rfl
  · exact h 0x330400 ⟨⟨by decide, by decide⟩, by decide, by decide⟩
  · exact h 0x330404 ⟨⟨by decide, by decide⟩, by decide, by decide⟩

theorem handle_clash {i : ℕ} (hi : i < 8) : ¬replyHandles.layout.Apart i windows.layout 15 := by
  have hhandle : replyHandles.layout.Holds i (0x330404 + 8 * i) := by
    change 0x330400 + 8 * i ≤ _ ∧ _ < 0x330400 + 8 * i + 8
    omega
  have hwindow : windows.layout.Holds 15 (0x330404 + 8 * i) := by
    change 0x330404 ≤ _ ∧ _ < 0x330440
    omega
  exact fun h => h _ ⟨hhandle, hwindow⟩

/-- An entry is apart from all other tables exactly when it is neither one of the last two window
records nor a reply handle. -/
theorem tables_separate_iff (t : ServerTable) (i : ℕ) (hi : i < t.layout.length) :
    Separate t i ↔ ¬(t = windows ∧ 14 ≤ i) ∧ t ≠ replyHandles := by
  constructor
  · refine fun h => ⟨?_, ?_⟩
    · rintro ⟨rfl, h14⟩
      exact window_clash h14 hi (h.apart replyHandles (by decide) 0 (by decide))
    · rintro rfl
      exact handle_clash hi (h.apart windows (by decide) 15 (by decide))
  · rintro ⟨hwindow, hhandle⟩
    refine .of_apart fun u hu j hj => ?_
    by_cases hclash : Clash t u
    · rcases hclash with ⟨rfl, rfl⟩ | ⟨rfl, rfl⟩
      · exact window_apart (by simpa using hwindow) j
      · exact absurd rfl hhandle
    · rcases tables_apart t u (Ne.symm hu) hclash with hle | hle
      · exact Table.apart_of_le hle hi j
      · exact (Table.apart_of_le hle hj i).symm

theorem tables_separate_firstWindow : Separate windows 0 :=
  (tables_separate_iff windows 0 (by decide)).2 (by decide)

/-- The last window record lies on the reply handles. -/
theorem last_window_clashes :
    ¬∀ (t : ServerTable) (i : ℕ), i < t.layout.length → Separate t i := fun h =>
  window_clash (by decide) (by decide)
    ((h windows 15 (by decide)).apart replyHandles (by decide) 0 (by decide))

end ServerTable

end DemonX

end DemonOS
