import DemonOS.Proofs.Compositor.Geometry

/-!
# What a step does to a window

Every way in which a step moves a window, and from it when a window goes back to where it was.
-/

/-!
## What a step does to a window

Most steps leave a window as it is, but for its height in the stack and whether it is hidden
(`Window.Same`), or take it off the table. `step_turns` says all that a step can do beside that: a
window is created, moved by its client, maximized or restored, dragged, resized or tiled.
-/

namespace DemonOS

namespace Compositor

/-- The same window, perhaps at another height of the stack, hidden or brought back. -/
def Window.Same (w w' : Window) : Prop := w' = { w with z := w'.z, minimized := w'.minimized }

theorem Window.Same.refl (w : Window) : w.Same w := rfl

theorem Window.Same.trans {w w' w'' : Window} (h : w.Same w') (h' : w'.Same w'') :
    w.Same w'' := by
  unfold Window.Same at *
  rw [h'] at *
  rw [h]

namespace Desktop

/-- Every window in use was in use before, and is the same. -/
def Steady (s t : Desktop) : Prop :=
  ∀ i, (t.table i).inUse = true → (s.table i).Same (t.table i)

variable {s t u : Desktop}

theorem Steady.of_eq (h : t.table = s.table) : s.Steady t := fun i _ => by
  rw [h]
  exact .refl _

theorem Steady.refl (s : Desktop) : s.Steady s := .of_eq rfl

theorem Steady.trans (h : s.Steady t) (h' : t.Steady u) : s.Steady u := by
  intro i hi
  have hsame := h' i hi
  have hused : (t.table i).inUse = true := by
    rw [hsame] at hi
    exact hi
  exact (h i hused).trans hsame

theorem Steady.setWindow (s : Desktop) {slot : ℕ} {w : Window}
    (h : w.inUse = true → (s.table slot).Same w) : s.Steady (s.setWindow slot w) := by
  intro i hi
  simp only [Desktop.setWindow, Function.update_apply] at hi ⊢
  split_ifs at hi ⊢ with hslot
  · rw [hslot]
    exact h hi
  · exact .refl _

theorem raise_steady (s : Desktop) (slot : ℕ) : s.Steady (s.raise slot) :=
  .trans (.setWindow s (w := { s.table slot with z := s.nextZ }) fun _ => rfl) (.of_eq rfl)

theorem restore_steady (s : Desktop) (slot : ℕ) : s.Steady (s.restore slot) :=
  .trans (.setWindow s (w := { s.table slot with minimized := false }) fun _ => rfl)
    (.trans (raise_steady _ slot) (.of_eq rfl))

theorem minimize_steady (s : Desktop) (slot : ℕ) : s.Steady (s.minimize slot) :=
  .trans (.setWindow s (w := { s.table slot with minimized := true }) fun _ => rfl) (.of_eq rfl)

theorem empty_steady (s : Desktop) (slot : ℕ) : s.Steady (s.setWindow slot .empty) :=
  .setWindow s fun h => by cases h

theorem closeWindow_steady (a : Answers) (s : Desktop) (slot : ℕ) :
    s.Steady (s.closeWindow a slot) := by
  have hgone : ∀ t : Desktop, t.table = s.table →
      s.Steady ((t.dropSurface (s.table slot)).setWindow slot .empty).focusTop := by
    intro t ht
    refine .trans (.of_eq (t := t.dropSurface (s.table slot)) ?_)
      (.trans (empty_steady _ slot) (.of_eq rfl))
    rw [dropSurface_table, ht]
  unfold Desktop.closeWindow
  dsimp only
  split_ifs
  · exact hgone _ (sendWindowEvent_table a s _)
  · exact hgone s rfl

theorem activateLauncherCell_steady (s : Desktop) (cell : ℕ) :
    s.Steady (s.activateLauncherCell cell) := by
  unfold Desktop.activateLauncherCell
  split
  · exact .refl s
  · split
    · exact .trans (restore_steady s _) (.of_eq rfl)
    · split
      · exact .refl s
      · exact .of_eq rfl

theorem launcherKey_steady (s : Desktop) (code : UInt16) : s.Steady (s.launcherKey code) := by
  unfold Desktop.launcherKey
  split_ifs
  · exact .of_eq rfl
  · exact .of_eq rfl
  · exact .of_eq rfl
  · exact .trans (activateLauncherCell_steady { s with suppressedKeyUp := code } _) (.of_eq rfl)
  · exact .trans (activateLauncherCell_steady
      { s with suppressedKeyUp := code, launcherSelection := (code - keyWorkspace1).toNat } _)
      (.of_eq rfl)
  · exact .refl s

theorem pressTaskbarItem_steady (s : Desktop) (id : ℕ) : s.Steady (s.pressTaskbarItem id) := by
  unfold pressTaskbarItem
  split
  · exact .refl s
  · split_ifs
    · exact minimize_steady s _
    · exact .trans (restore_steady s _) (.of_eq rfl)

theorem pressContent_steady (a : Answers) (s : Desktop) (slot : ℕ) (code : UInt16) :
    s.Steady (s.pressContent a slot code) := by
  unfold pressContent
  dsimp only
  split_ifs
  · exact .trans (raise_steady s slot) (.of_eq rfl)
  · exact .trans (raise_steady s slot) (.of_eq (sendPointer_table a _ _ _ _ _ _))

theorem close_steady (s : Desktop) (m : WindowMessage) : s.Steady (s.close m) := by
  unfold Desktop.close
  split
  · exact .refl s
  · rename_i slot _
    have hgone : s.Steady ((s.dropSurface (s.table slot)).setWindow slot .empty) :=
      .trans (.of_eq (dropSurface_table s _)) (empty_steady _ slot)
    split_ifs
    · exact hgone.trans (.of_eq rfl)
    · exact hgone

theorem focus_steady (s : Desktop) (m : WindowMessage) : s.Steady (s.focus m) := by
  unfold Desktop.focus
  split
  · exact .refl s
  · exact restore_steady s _

theorem cycleFocus_steady (s : Desktop) : s.Steady s.cycleFocus := by
  unfold cycleFocus
  split
  · exact .refl s
  · exact restore_steady s _

/-! ### The other turns -/

/-- What becomes of a window that is in use afterwards. -/
inductive Turn (s : Desktop) (slot : ℕ) : Input → Window → Prop
  | same {i w'} (h : (s.table slot).Same w') : Turn s slot i w'
  | created {m w'} (hfree : (s.table slot).inUse = false) (hmaximized : w'.maximized = false) :
      Turn s slot (.message m) w'
  | moved {m} (geometry : ℕ × ℕ × ℕ × ℕ) :
      Turn s slot (.message m) ((s.table slot).place geometry)
  | toggled {e w'} (hkind : e.kind ≠ inputMouseMove) (h : (toggleMaximize (s.table slot)).Same w') :
      Turn s slot (.event e) w'
  | dragged {e} (hkind : e.kind = inputMouseMove) (w : Window) (x y : ℤ) :
      Turn s slot (.event e) (draggedTo w x y)
  | resized {e} (hkind : e.kind = inputMouseMove) (width height : ℤ) :
      Turn s slot (.event e) (resizedTo (s.table slot) width height)
  | snapped {e} (hkind : e.kind = inputMouseButtonUp) (hdrag : s.draggingId ≠ 0)
      (hslot : findSlot s.table s.draggingId = some slot)
      (hedge : snapTarget (s.moveCursor e.x e.y).cursorX (s.moveCursor e.x e.y).cursorY ≠ 0) :
      Turn s slot (.event e) { (s.table slot).remember.place (snapGeometry
        (snapTarget (s.moveCursor e.x e.y).cursorX (s.moveCursor e.x e.y).cursorY)) with
        maximized := true }

def Turns (s : Desktop) (i : Input) (t : Desktop) : Prop :=
  ∀ slot, (t.table slot).inUse = true → Turn s slot i (t.table slot)

variable {i : Input}

theorem Steady.turns (h : s.Steady t) (i : Input) : s.Turns i t := fun slot hu =>
  .same (h slot hu)

theorem Turns.of_eq (h : s.Turns i u) (ht : t.table = u.table) : s.Turns i t := by
  unfold Turns
  rw [ht]
  exact h

theorem turns_setWindow (s : Desktop) {slot : ℕ} {w : Window}
    (h : w.inUse = true → Turn s slot i w) : s.Turns i (s.setWindow slot w) := by
  intro j hj
  simp only [Desktop.setWindow, Function.update_apply] at hj ⊢
  split_ifs at hj ⊢ with hslot
  · rw [hslot]
    exact h hj
  · exact .same (.refl _)

theorem create_turns (a : Answers) (s : Desktop) (m : WindowMessage) :
    s.Turns (.message m) (s.create a m) := by
  unfold Desktop.create
  split_ifs with hacc
  · split
    · exact (Steady.refl s).turns _
    · rename_i slot hfree
      have hunused := (findFreeSlot_eq_some hfree).2
      refine Turns.of_eq (u := Desktop.attachSurface a _ slot m.surfaceId.toNat) ?_ rfl
      unfold attachSurface
      have hplaced : s.Turns (.message m) { s.setWindow slot (s.createdWindow m) with
          nextZ := add32 s.nextZ 1 } :=
        (turns_setWindow s fun _ => .created hunused rfl).of_eq rfl
      split_ifs
      · exact hplaced
      · split
        · intro j hj
          simp only [Desktop.setWindow, Function.update_apply] at hj ⊢
          split_ifs at hj ⊢ with hslot
          · rw [hslot]
            exact .created hunused rfl
          · exact .same (.refl _)
        · exact hplaced.of_eq rfl
  · exact (Steady.refl s).turns _

theorem message_turns (a : Answers) (s : Desktop) (m : WindowMessage) :
    s.Turns (.message m) (s.message a m) := by
  unfold message
  split_ifs
  · exact create_turns a s m
  · exact (close_steady s m).turns _
  · exact (focus_steady s m).turns _
  · unfold move
    split
    · exact (Steady.refl s).turns _
    · split_ifs
      · exact turns_setWindow s fun _ => .moved _
      · exact (Steady.refl s).turns _
  · exact (Steady.of_eq (s := s) rfl).turns _
  · exact (Steady.refl s).turns _

theorem mouseMove_turns (a : Answers) (s : Desktop) {e : InputEvent}
    (hkind : e.kind = inputMouseMove) : s.Turns (.event e) (s.mouseMove a e) := by
  obtain ⟨htable, -, -⟩ := hovered_fields s e.x e.y
  unfold mouseMove
  generalize (s.moveCursor e.x e.y).hoverLauncher = t at htable
  have hset : ∀ {slot : ℕ} {w : Window} {u : Desktop}, Turn s slot (.event e) w →
      u.table = (t.setWindow slot w).table → s.Turns (.event e) u := by
    intro slot w u hw hu
    refine Turns.of_eq (u := s.setWindow slot w) (turns_setWindow s fun _ => hw) (hu.trans ?_)
    unfold setWindow
    rw [htable]
  unfold pointerMoved
  split_ifs
  · split
    · exact hset (.dragged hkind _ _ _) rfl
    · exact (Steady.of_eq htable).turns _
  · split
    · unfold resizeTo
      rw [htable]
      exact hset (.resized hkind _ _) rfl
    · exact (Steady.of_eq htable).turns _
  · split
    · exact (Steady.of_eq ((sendPointer_table a t _ _ _ _ _).trans htable)).turns _
    · exact (Steady.of_eq htable).turns _

theorem buttonUp_turns (a : Answers) (s : Desktop) {e : InputEvent}
    (hkind : e.kind = inputMouseButtonUp) : s.Turns (.event e) (s.buttonUp a e) := by
  have hsnap : s.Turns (.event e) (s.moveCursor e.x e.y).snap := by
    unfold snap
    dsimp only
    split_ifs with hdrag
    · split
      · exact (Steady.of_eq (s := s) (t := s.moveCursor e.x e.y) rfl).turns _
      · rename_i slot hslot
        exact (turns_setWindow s fun _ => .snapped hkind hdrag.1 hslot hdrag.2).of_eq rfl
    · exact (Steady.of_eq (s := s) (t := s.moveCursor e.x e.y) rfl).turns _
  unfold buttonUp release
  dsimp only
  split_ifs
  · split
    · exact hsnap.of_eq rfl
    · exact hsnap.of_eq (sendPointer_table a _ _ _ _ _ _)
  · exact hsnap.of_eq rfl

theorem toggled_turns {e : InputEvent} (hkind : e.kind ≠ inputMouseMove)
    (hsame : ∀ j, (s.table j).Same (t.table j)) (slot : ℕ) :
    s.Turns (.event e) (t.setWindow slot (toggleMaximize (t.table slot))) := by
  intro j hj
  simp only [Desktop.setWindow, Function.update_apply] at hj ⊢
  split_ifs at hj ⊢ with hslot
  · rw [hslot]
    refine .toggled hkind ?_
    have hw := hsame slot
    rw [hw]
    unfold toggleMaximize Window.place Window.remember
    split_ifs <;> rfl
  · exact .same (hsame j)

theorem raise_same (s : Desktop) (slot j : ℕ) : (s.table j).Same ((s.raise slot).table j) := by
  simp only [raise, setWindow, Function.update_apply]
  split_ifs with hj
  · rw [hj]
    rfl
  · rfl

theorem pressTitle_turns (a : Answers) (ht : t.table = s.table) (slot : ℕ)
    {e : InputEvent} (hkind : e.kind ≠ inputMouseMove) :
    s.Turns (.event e) (t.pressTitle a slot) := by
  have hraised : ∀ id, s.Steady { t.raise slot with focusedWindow := id } := fun id =>
    (Steady.of_eq ht).trans ((raise_steady t slot).trans (.of_eq rfl))
  unfold pressTitle
  dsimp only
  split_ifs
  · exact ((hraised _).trans (closeWindow_steady a _ slot)).turns _
  · refine toggled_turns (t := { t.raise slot with focusedWindow := (t.table slot).id }) hkind
      (fun j => ?_) slot
    rw [← ht]
    exact raise_same t slot j
  · exact ((hraised _).trans ((minimize_steady _ slot).trans (.of_eq rfl))).turns _
  · exact ((hraised (t.table slot).id).trans (.of_eq rfl)).turns _

theorem buttonDown_turns (a : Answers) (s : Desktop) {e : InputEvent}
    (hkind : e.kind ≠ inputMouseMove) : s.Turns (.event e) (s.buttonDown a e) := by
  have hcursor : s.Steady (s.moveCursor e.x e.y) := .of_eq rfl
  unfold buttonDown press
  split
  · exact (Steady.of_eq (s := s) rfl).turns _
  · exact (hcursor.trans ((activateLauncherCell_steady _ _).trans (.of_eq rfl))).turns _
  · exact (Steady.of_eq (s := s) rfl).turns _
  · exact (hcursor.trans ((activateLauncherCell_steady _ _).trans (.of_eq rfl))).turns _
  · exact (Steady.of_eq (s := s) rfl).turns _
  · exact (hcursor.trans (pressTaskbarItem_steady _ _)).turns _
  · exact pressTitle_turns a (s := s) (t := s.moveCursor e.x e.y) rfl _ hkind
  · exact (hcursor.trans (pressContent_steady a _ _ _)).turns _
  · exact hcursor.turns _

theorem key_turns (a : Answers) (s : Desktop) {e : InputEvent} (hkind : e.kind ≠ inputMouseMove) :
    s.Turns (.event e) (s.key a e) := by
  have hkept : s.Steady { s with suppressedKeyUp := e.code } := .of_eq rfl
  unfold Desktop.key
  dsimp only
  split_ifs
  · exact (Steady.of_eq (s := s) rfl).turns _
  · exact (Steady.of_eq (s := s) rfl).turns _
  · exact (Steady.refl s).turns _
  · exact (Steady.of_eq (s := s) rfl).turns _
  · exact (Steady.refl s).turns _
  · exact (hkept.trans ((cycleFocus_steady _).trans (.of_eq rfl))).turns _
  · exact (Steady.refl s).turns _
  · unfold windowKey
    split
    · exact (Steady.of_eq (s := s) rfl).turns _
    · rename_i slot _
      split_ifs
      · exact (hkept.trans ((closeWindow_steady a _ slot).trans (.of_eq rfl))).turns _
      · exact (hkept.trans ((minimize_steady _ slot).trans (.of_eq rfl))).turns _
      · exact (toggled_turns (t := s) hkind (fun j => .refl _) slot).of_eq rfl
  · exact (Steady.refl s).turns _
  · exact (launcherKey_steady s e.code).turns _
  · exact (Steady.refl s).turns _
  · exact (Steady.of_eq (sendWindowEvent_table a s _)).turns _
  · exact (Steady.refl s).turns _

theorem step_turns (s : Desktop) (i : Answers × Input) : s.Turns i.2 (step s i) := by
  rcases i with ⟨a, m | e⟩
  · exact message_turns a s m
  · unfold step input
    dsimp only
    split_ifs with hmove hdown hup hkey
    · exact mouseMove_turns a s hmove
    · exact buttonDown_turns a s hmove
    · exact buttonUp_turns a s hup
    · exact key_turns a s hmove
    · exact (Steady.refl s).turns _

end Desktop

end Compositor

/-!
## Maximizing and restoring

A window that is maximized or tiled remembers the geometry it had before, and goes back to it. What
it should go back to is kept beside the run, slot by slot: the geometry in the last state in which
the slot's window was not maximized (`track`). The code remembers something else only where a drag
of a window that is maximized already ends at an edge of the desktop, which a click on its title bar
does (`restored_right_iff`).
-/

namespace Compositor

namespace Window

def rect (w : Window) : ℕ × ℕ × ℕ × ℕ := (w.x, w.y, w.width, w.height)

def saved (w : Window) : ℕ × ℕ × ℕ × ℕ :=
  (w.restoreX, w.restoreY, w.restoreWidth, w.restoreHeight)

variable {w w' : Window}

theorem Same.inUse_eq (h : w.Same w') : w'.inUse = w.inUse := by rw [h]

theorem Same.maximized_eq (h : w.Same w') : w'.maximized = w.maximized := by rw [h]

theorem Same.rect_eq (h : w.Same w') : w'.rect = w.rect := by
  rw [h]
  rfl

theorem Same.saved_eq (h : w.Same w') : w'.saved = w.saved := by
  rw [h]
  rfl

end Window

theorem toggleMaximize_maximized (w : Window) :
    (toggleMaximize w).maximized = !w.maximized := by
  unfold toggleMaximize
  split_ifs with h <;> simp [h]

theorem toggleMaximize_saved {w : Window} (h : w.maximized = false) :
    (toggleMaximize w).saved = w.rect := by
  unfold toggleMaximize
  rw [h]
  rfl

theorem toggleMaximize_rect {w : Window} (h : w.maximized = true) :
    (toggleMaximize w).rect = w.saved := by
  unfold toggleMaximize
  rw [if_pos h]
  rfl

namespace Desktop

abbrev Normal : Type := ℕ → ℕ × ℕ × ℕ × ℕ

/-- A step, with the geometry that each slot's window had when it was last not maximized. -/
def track (t : Desktop × Normal) (i : Answers × Input) : Desktop × Normal :=
  let s := step t.1 i
  (s, fun slot => if (s.table slot).inUse ∧ (s.table slot).maximized = false
    then (s.table slot).rect else t.2 slot)

/-- Every maximized window has saved the geometry it had when it was last not maximized. -/
def Restorable (t : Desktop × Normal) : Prop :=
  ∀ slot, (t.1.table slot).inUse = true → (t.1.table slot).maximized = true →
    (t.1.table slot).saved = t.2 slot

def Motion : Input → Prop
  | .message _ => False
  | .event e => e.kind = inputMouseMove

/-- The step leads to a state in which every maximized window has saved the right geometry; and
where it ends a window's being maximized, otherwise than by pulling it out with the pointer, the
window is back at that geometry. -/
def StepRestores (t : Desktop × Normal) (i : Answers × Input) : Prop :=
  Restorable (track t i) ∧
    (¬ Motion i.2 → ∀ slot,
      (t.1.table slot).inUse = true → (t.1.table slot).maximized = true →
      ((step t.1 i).table slot).inUse = true → ((step t.1 i).table slot).maximized = false →
      ((step t.1 i).table slot).rect = t.2 slot)

def KeepsSaved (s : Desktop) : Input → Prop
  | .message _ => True
  | .event e => e.kind = inputMouseButtonUp → s.draggingId ≠ 0 →
      snapTarget (s.moveCursor e.x e.y).cursorX (s.moveCursor e.x e.y).cursorY ≠ 0 →
      ∀ slot, findSlot s.table s.draggingId = some slot → (s.table slot).maximized = true →
        (s.table slot).rect = (s.table slot).saved

/-- What a run keeps: the geometry of the windows that are not maximized is the one kept for them. -/
structure Tracked (t : Desktop × Normal) : Prop where
  restorable : Restorable t
  normal : ∀ slot, (t.1.table slot).inUse = true → (t.1.table slot).maximized = false →
    (t.1.table slot).rect = t.2 slot

variable {t : Desktop × Normal} {i : Answers × Input} {slot : ℕ}

theorem track_normal (hu : ((step t.1 i).table slot).inUse = true)
    (hm : ((step t.1 i).table slot).maximized = false) :
    (track t i).2 slot = ((step t.1 i).table slot).rect := if_pos ⟨hu, hm⟩

theorem track_kept (hm : ((step t.1 i).table slot).maximized = true) :
    (track t i).2 slot = t.2 slot :=
  if_neg fun h => by rw [hm] at h; cases h.2

theorem Tracked.of_restorable (h : Restorable (track t i)) : Tracked (track t i) :=
  ⟨h, fun _ hu hm => (track_normal hu hm).symm⟩

/-- Where a window is maximized after a step that keeps what is saved, it was in use before and has
saved the right geometry. -/
theorem Tracked.saved_eq (h : Tracked t) (hi : t.1.KeepsSaved i.2)
    (hu : ((step t.1 i).table slot).inUse = true)
    (hm : ((step t.1 i).table slot).maximized = true) :
    ((step t.1 i).table slot).saved = t.2 slot := by
  have hturn := step_turns t.1 i slot hu
  generalize hw : (step t.1 i).table slot = w' at hturn hu hm
  obtain ⟨a, input⟩ := i
  cases hturn with
  | same hsame =>
    rw [hsame.saved_eq]
    exact h.restorable slot (hsame.inUse_eq ▸ hu) (hsame.maximized_eq ▸ hm)
  | created _ hmaximized =>
    rw [hmaximized] at hm
    cases hm
  | moved geometry => exact h.restorable slot hu hm
  | toggled _ hsame =>
    rw [hsame.maximized_eq, toggleMaximize_maximized, Bool.not_eq_true'] at hm
    rw [hsame.inUse_eq, (toggleMaximize_identity _).1] at hu
    rw [hsame.saved_eq, toggleMaximize_saved hm]
    exact h.normal slot hu hm
  | dragged _ w x y => cases hm
  | resized _ width height => cases hm
  | snapped hkind hdrag hslot hedge =>
    change (t.1.table slot).rect = t.2 slot
    rcases hmax : (t.1.table slot).maximized with _ | _
    · exact h.normal slot hu hmax
    · rw [hi hkind hdrag hedge slot hslot hmax]
      exact h.restorable slot hu hmax

theorem Tracked.rect_eq (h : Tracked t) (hi : ¬ Motion i.2) (hmax : (t.1.table slot).maximized = true)
    (hu : ((step t.1 i).table slot).inUse = true)
    (hm : ((step t.1 i).table slot).maximized = false) (hused : (t.1.table slot).inUse = true) :
    ((step t.1 i).table slot).rect = t.2 slot := by
  have hturn := step_turns t.1 i slot hu
  generalize hw : (step t.1 i).table slot = w' at hturn hu hm
  obtain ⟨a, input⟩ := i
  cases hturn with
  | same hsame =>
    rw [hsame.maximized_eq, hmax] at hm
    cases hm
  | created hfree _ =>
    rw [hfree] at hused
    cases hused
  | moved geometry =>
    change (t.1.table slot).maximized = false at hm
    rw [hmax] at hm
    cases hm
  | toggled _ hsame =>
    rw [hsame.rect_eq, toggleMaximize_rect hmax]
    exact h.restorable slot hused hmax
  | dragged hkind w x y => exact absurd hkind hi
  | resized hkind width height => exact absurd hkind hi
  | snapped hkind hdrag hslot hedge => cases hm

theorem stepRestores_of_keepsSaved (h : Tracked t) (hi : t.1.KeepsSaved i.2) :
    StepRestores t i := by
  refine ⟨fun slot hu hm => ?_, fun hmotion slot hused hmax hu hm => ?_⟩
  · change ((step t.1 i).table slot).saved = (track t i).2 slot
    rw [track_kept hm]
    exact h.saved_eq hi hu hm
  · exact h.rect_eq hmotion hmax hu hm hused

theorem snap_table {s : Desktop} (hdrag : s.draggingId ≠ 0)
    (hedge : snapTarget s.cursorX s.cursorY ≠ 0) (hslot : findSlot s.table s.draggingId = some slot) :
    s.snap.table slot = { (s.table slot).remember.place (snapGeometry
      (snapTarget s.cursorX s.cursorY)) with maximized := true } := by
  unfold snap
  rw [if_pos ⟨hdrag, hedge⟩, hslot]
  exact Function.update_self _ _ _

theorem release_table (a : Answers) (s : Desktop) (code : UInt16) :
    (s.release a code).table = s.snap.table := by
  unfold release
  dsimp only
  split_ifs
  · split
    · rfl
    · exact sendPointer_table a _ _ _ _ _ _
  · rfl

theorem keepsSaved_of_stepRestores (h : Tracked t) (hs : StepRestores t i) :
    t.1.KeepsSaved i.2 := by
  rcases i with ⟨a, m | e⟩
  · trivial
  · intro hkind hdrag hedge slot hslot hmax
    obtain ⟨-, hu, -⟩ := findSlot_eq_some hslot
    have hstep : (step t.1 (a, .event e)).table slot = { (t.1.table slot).remember.place
        (snapGeometry (snapTarget (t.1.moveCursor e.x e.y).cursorX
          (t.1.moveCursor e.x e.y).cursorY)) with maximized := true } := by
      have hinput : step t.1 (a, .event e) = (t.1.moveCursor e.x e.y).release a e.code := by
        simp only [step, input, hkind]
        rfl
      rw [hinput, release_table]
      exact snap_table (s := t.1.moveCursor e.x e.y) hdrag hedge hslot
    have hm : ((step t.1 (a, .event e)).table slot).maximized = true := by rw [hstep]
    have hsaved := hs.1 slot (by rw [track, hstep]; exact hu) hm
    rw [track_kept hm] at hsaved
    change ((step t.1 (a, .event e)).table slot).saved = t.2 slot at hsaved
    rw [hstep] at hsaved
    exact hsaved.trans (h.restorable slot hu hmax).symm

theorem fresh_tracked (normal : Normal) : Tracked ({}, normal) :=
  ⟨fun _ hu => (by cases hu), fun _ hu => (by cases hu)⟩

/-- In every run each maximized window has the right geometry saved in every state, and gets it back
where it is un-maximized, just when no release of the run ends the drag of a maximized window at an
edge of the desktop, the window being elsewhere than the geometry it has saved. -/
theorem restored_right_iff (normal : Normal) (inputs : List (Answers × Input)) :
    Machine.Meets track StepRestores ({}, normal) inputs
      ↔ Machine.Meets track (fun t i => t.1.KeepsSaved i.2) ({}, normal) inputs := by
  refine Machine.meets_congr track (I := Tracked) (fun t i ht => ?_) (fun t i ht hs => ?_) inputs
    _ (fresh_tracked normal)
  · exact ⟨keepsSaved_of_stepRestores ht, stepRestores_of_keepsSaved ht⟩
  · exact .of_restorable hs.1

def titleClick : List (Answers × Input) :=
  [(plainAnswers, .message { opcode := opcodeCreate, windowId := 2097152, x := 100, y := 150
                             width := 200, height := 150 }),
    (plainAnswers, .event { kind := inputKeyDown, code := keyF10, modifiers := inputModAlt }),
    (plainAnswers, .event { kind := inputMouseButtonDown, code := 1, x := 200, y := 40 }),
    (plainAnswers, .event { kind := inputMouseButtonUp, code := 1, x := 200, y := 40 }),
    (plainAnswers, .event { kind := inputKeyDown, code := keyF10, modifiers := inputModAlt })]

/-- The window stays as large as the desktop. -/
theorem title_click_forgets :
    ((Machine.run track ({}, fun _ => (0, 0, 0, 0)) titleClick).1.table 0).maximized = false ∧
      ((Machine.run track ({}, fun _ => (0, 0, 0, 0)) titleClick).1.table 0).rect
        = (0, 58, 640, 370) ∧
      ¬ Machine.Meets track StepRestores ({}, fun _ => (0, 0, 0, 0)) titleClick := by
  have hlast : ((Machine.run track ({}, fun _ => (0, 0, 0, 0)) titleClick).1.table 0).maximized = false
      ∧ ((Machine.run track ({}, fun _ => (0, 0, 0, 0)) titleClick).1.table 0).rect
        = (0, 58, 640, 370) := by
    decide +kernel
  refine ⟨hlast.1, hlast.2, fun h => ?_⟩
  have hclicked := h.2.2.2.1.1 0 (by decide +kernel) (by decide +kernel)
  revert hclicked
  decide +kernel

end Desktop

end Compositor

end DemonOS
