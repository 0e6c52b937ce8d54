import DemonOS.Proofs.Compositor.SurfaceHandles
import DemonOS.Proofs.Compositor.Transform

/-!
# Windows on the screen

Every window in use has a pixel and lies on the screen, and so every slice and index of `composite`
is in bounds and it does not panic (`composite_isSome`). Creating, dragging, snapping, maximizing and
restoring a window keep this; the two ways out of it are a MOVE whose sum of position and extent
wraps, and a corner dragged of a window so low that its top is beyond the desktop's lower end. A run
without them stays on the screen, and a run with one of them does not (`windows_onScreen_iff`).
-/

namespace DemonOS

namespace Compositor

variable {slot : ℕ} {w : Window}

/-- The window and the place it may be restored to are on the screen, and its surface has a pixel. -/
structure Window.Sound (w : Window) : Prop where
  onScreen : w.OnScreen
  restored : (w.place (w.restoreX, w.restoreY, w.restoreWidth, w.restoreHeight)).OnScreen
  surfaceWidth_pos : 0 < w.surfaceWidth
  surfaceHeight_pos : 0 < w.surfaceHeight

def Window.geometry (w : Window) : (ℕ × ℕ × ℕ × ℕ) × (ℕ × ℕ × ℕ × ℕ) × ℕ × ℕ :=
  ((w.x, w.y, w.width, w.height), (w.restoreX, w.restoreY, w.restoreWidth, w.restoreHeight),
    w.surfaceWidth, w.surfaceHeight)

theorem Window.Sound.congr {w w' : Window} (h : w.Sound) (heq : w'.geometry = w.geometry) :
    w'.Sound := by
  simp only [Window.geometry, Prod.mk.injEq] at heq
  obtain ⟨⟨hx, hy, hw, hh⟩, ⟨hrx, hry, hrw, hrh⟩, hsw, hsh⟩ := heq
  obtain ⟨⟨h1, h2, h3, h4⟩, ⟨h5, h6, h7, h8⟩, h9, h10⟩ := h
  refine ⟨⟨?_, ?_, ?_, ?_⟩, ⟨?_, ?_, ?_, ?_⟩, ?_, ?_⟩
  all_goals simp only [Window.place] at *; omega

def Window.kept (w : Window) : (ℕ × ℕ × ℕ × ℕ) × ℕ × ℕ :=
  ((w.restoreX, w.restoreY, w.restoreWidth, w.restoreHeight), w.surfaceWidth, w.surfaceHeight)

theorem Window.Sound.moved {w w' : Window} (h : w.Sound) (hw : w'.OnScreen)
    (hkept : w'.kept = w.kept) : w'.Sound := by
  simp only [Window.kept, Prod.mk.injEq] at hkept
  obtain ⟨⟨hx, hy, hrw, hrh⟩, hs, hs'⟩ := hkept
  obtain ⟨-, ⟨hr1, hr2, hr3, hr4⟩, hpos, hpos'⟩ := h
  refine ⟨hw, ?_, hs ▸ hpos, hs' ▸ hpos'⟩
  rw [hx, hy, hrw, hrh]
  exact ⟨hr1, hr2, hr3, hr4⟩

theorem place_onScreen (w : Window) {g : ℕ × ℕ × ℕ × ℕ} (h : 1 ≤ g.2.2.1 ∧ 1 ≤ g.2.2.2
    ∧ g.1 + g.2.2.1 ≤ screenWidth ∧ g.2.1 + g.2.2.2 ≤ screenHeight) : (w.place g).OnScreen :=
  ⟨h.1, h.2.1, h.2.2.1, h.2.2.2⟩

theorem snapGeometry_onScreen (w : Window) (target : ℕ) :
    (w.place (snapGeometry target)).OnScreen := by
  unfold snapGeometry
  split_ifs <;> exact place_onScreen w (by decide)

theorem toggleMaximize_sound (h : w.Sound) : (toggleMaximize w).Sound := by
  obtain ⟨hw, hr, hs, hs'⟩ := h
  unfold toggleMaximize
  split_ifs
  · exact ⟨⟨hr.width_pos, hr.height_pos, hr.right, hr.bottom⟩,
      ⟨hr.width_pos, hr.height_pos, hr.right, hr.bottom⟩, hs, hs'⟩
  · have hsnap := snapGeometry_onScreen w 1
    exact ⟨⟨hsnap.width_pos, hsnap.height_pos, hsnap.right, hsnap.bottom⟩,
      ⟨hw.width_pos, hw.height_pos, hw.right, hw.bottom⟩, hs, hs'⟩

theorem snapped_sound (h : w.Sound) (target : ℕ) :
    { w.remember.place (snapGeometry target) with maximized := true }.Sound := by
  obtain ⟨hw, hr, hs, hs'⟩ := h
  have hsnap := snapGeometry_onScreen w target
  exact ⟨⟨hsnap.width_pos, hsnap.height_pos, hsnap.right, hsnap.bottom⟩,
    ⟨hw.width_pos, hw.height_pos, hw.right, hw.bottom⟩, hs, hs'⟩

namespace Desktop

/-- Every window in use is sound. -/
def Sound (s : Desktop) : Prop := ∀ i, (s.table i).inUse = true → (s.table i).Sound

def AllOnScreen (s : Desktop) : Prop :=
  ∀ i < windowLimit, (s.table i).inUse = true → (s.table i).OnScreen

def KeepsPlace (s : Desktop) : Input → Prop
  | .message m => m.opcode = opcodeMove → (findSlot s.table m.windowId.toNat).isSome = true →
      fits m minMoveWidth minMoveHeight = true →
        m.x.toInt.toNat + m.width.toNat < 2 ^ 32 ∧ m.y.toInt.toNat + m.height.toNat < 2 ^ 32
  | .event e => e.kind = inputMouseMove → s.draggingId = 0 → s.resizingId ≠ 0 →
      ∀ slot, findSlot s.table s.resizingId = some slot →
        (s.table slot).y < screenHeight - reservedBottom

variable {s : Desktop}

theorem Sound.of_eq {s' : Desktop} (h : s.Sound) (ht : s'.table = s.table) : s'.Sound := by
  unfold Sound
  rw [ht]
  exact h

theorem Sound.setWindow (h : s.Sound) (hw : w.inUse = true → w.Sound) :
    (s.setWindow slot w).Sound := by
  intro i hi
  simp only [Desktop.setWindow, Function.update_apply] at hi ⊢
  split_ifs at hi ⊢ with hslot
  · exact hw hi
  · exact h i hi

theorem Sound.setWindow_of_eq (h : s.Sound)
    (hu : w.inUse = (s.table slot).inUse) (hg : w.geometry = (s.table slot).geometry) :
    (s.setWindow slot w).Sound :=
  h.setWindow fun hi => (h slot (hu ▸ hi)).congr hg

theorem Sound.raise (h : s.Sound) (slot : ℕ) : (s.raise slot).Sound :=
  (h.setWindow_of_eq (w := { s.table slot with z := s.nextZ }) rfl rfl).of_eq rfl

theorem Sound.restore (h : s.Sound) (slot : ℕ) : (s.restore slot).Sound :=
  ((h.setWindow_of_eq (w := { s.table slot with minimized := false }) rfl rfl).raise slot).of_eq rfl

theorem Sound.minimize (h : s.Sound) (slot : ℕ) : (s.minimize slot).Sound :=
  (h.setWindow_of_eq (w := { s.table slot with minimized := true }) rfl rfl).of_eq rfl

theorem Sound.sendWindowEvent (h : s.Sound) (a : Answers) (event : WindowEvent) :
    (s.sendWindowEvent a event).Sound := h.of_eq (sendWindowEvent_table a s event)

theorem sendPointer_table (a : Answers) (s : Desktop) (slot : ℕ) (opcode : UInt16)
    (serial width height : ℕ) : (s.sendPointer a slot opcode serial width height).table = s.table := by
  unfold sendPointer
  dsimp only
  split
  · split
    · rfl
    · exact sendWindowEvent_table a s _
  · rfl

theorem Sound.closeWindow (h : s.Sound) (a : Answers) (slot : ℕ) : (s.closeWindow a slot).Sound := by
  have hgone : ∀ t : Desktop, t.table = s.table →
      ((t.dropSurface (s.table slot)).setWindow slot .empty).focusTop.Sound := by
    intro t ht
    refine Sound.of_eq (Sound.setWindow (h.of_eq ?_) fun hu => by cases hu) rfl
    rw [dropSurface_table, ht]
  unfold Desktop.closeWindow
  dsimp only
  split_ifs
  · exact hgone _ (sendWindowEvent_table a s _)
  · exact hgone s rfl

/-! ## The pointer -/

theorem pulledOut_extent (w : Window) :
    1 ≤ (pulledOut w).width ∧ (pulledOut w).width ≤ screenWidth ∧ 1 ≤ (pulledOut w).height
      ∧ (pulledOut w).height ≤ screenHeight := by
  simp only [pulledOut, Window.place, screenWidth, screenHeight, minWindowWidth, minWindowHeight,
    reservedBottom, reservedTop, titleHeight, bottomBarMargin, bottomBarHeight]
  omega

theorem clamped {pointer floor : ℤ} {extent limit screen : ℕ} (hle : extent ≤ screen)
    (hfloor : 0 ≤ floor) (hlimit : limit ≤ screen) (hscreen : screen < 2 ^ 31) :
    u32 (min (max pointer floor) (limit - min extent limit : ℕ)) + extent ≤ screen := by
  unfold u32
  omega

theorem draggedTo_onScreen (hextent : 1 ≤ w.width ∧ w.width ≤ screenWidth
    ∧ 1 ≤ w.height ∧ w.height ≤ screenHeight) (x y : ℤ) : (draggedTo w x y).OnScreen := by
  obtain ⟨hw, hw', hh, hh'⟩ := hextent
  have hx := @clamped x _ _ _ _ hw' le_rfl le_rfl (by decide)
  have hy := @clamped y (reservedTop + titleHeight : ℕ) _ _ _ hh'
    (Int.natCast_nonneg _) (Nat.sub_le screenHeight reservedBottom) (by decide)
  unfold draggedTo
  exact ⟨hw, hh, hx, hy⟩

theorem draggedTo_kept (w : Window) (x y : ℤ) : (draggedTo w x y).kept = w.kept := by
  unfold draggedTo Window.kept
  rfl

theorem pulledOut_kept (w : Window) : (pulledOut w).kept = w.kept := by
  unfold pulledOut Window.place Window.kept
  rfl

theorem Sound.dragTo (h : s.Sound) (slot : ℕ) : (s.dragTo slot).Sound := by
  have hput : ∀ (w : Window) (x y grabX : ℤ), ((draggedTo w x y).inUse = true →
      (draggedTo w x y).Sound) → { s.setWindow slot (draggedTo w x y) with dragGrabX := grabX }.Sound :=
    fun w x y grabX hw => (h.setWindow hw).of_eq rfl
  unfold Desktop.dragTo
  refine hput _ _ _ _ fun hu => ?_
  rw [(draggedTo_handle _ _ _).1] at hu
  by_cases hm : (s.table slot).maximized = true
  · rw [if_pos hm] at hu ⊢
    exact (h slot hu).moved (draggedTo_onScreen (pulledOut_extent _) _ _)
      ((draggedTo_kept _ _ _).trans (pulledOut_kept _))
  · rw [if_neg hm] at hu ⊢
    have hw := (h slot hu).onScreen
    exact (h slot hu).moved (draggedTo_onScreen ⟨hw.width_pos,
      (Nat.le_add_left _ _).trans hw.right, hw.height_pos,
      (Nat.le_add_left _ _).trans hw.bottom⟩ _ _) (draggedTo_kept _ _ _)

theorem stretched {position limit least : ℕ} {extent : ℤ} (hleast : 1 ≤ least)
    (hposition : position < limit) (hlimit : limit < 2 ^ 31) :
    1 ≤ u32 (min (max extent least) (i32 (sub32 limit position)))
      ∧ position + u32 (min (max extent least) (i32 (sub32 limit position))) ≤ limit := by
  have hroom : i32 (sub32 limit position) = limit - position := by
    unfold i32 sub32
    omega
  rw [hroom]
  unfold u32
  omega

theorem overstretched {position limit least screen : ℕ} {extent : ℤ} (hleast : 1 ≤ least)
    (hposition : limit ≤ position) (hscreen : position ≤ screen) (hlimit : screen < 2 ^ 31) :
    u32 (min (max extent least) (i32 (sub32 limit position))) = 0
      ∨ screen < position + u32 (min (max extent least) (i32 (sub32 limit position))) := by
  have hroom : i32 (sub32 limit position) = (limit : ℤ) - position := by
    unfold i32 sub32
    omega
  rw [hroom]
  unfold u32
  omega

theorem resizedTo_place (w : Window) (width height : ℤ) :
    (resizedTo w width height).x = w.x ∧ (resizedTo w width height).y = w.y
      ∧ (resizedTo w width height).width
        = u32 (min (max width minWindowWidth) (i32 (sub32 screenWidth w.x)))
      ∧ (resizedTo w width height).height
        = u32 (min (max height minWindowHeight)
          (i32 (sub32 (screenHeight - reservedBottom) w.y))) := by
  obtain ⟨⟩ := w
  unfold resizedTo
  exact ⟨rfl, rfl, rfl, rfl⟩

theorem resizedTo_kept (w : Window) (width height : ℤ) :
    (resizedTo w width height).kept = w.kept := by
  unfold resizedTo Window.kept
  rfl

/-- A corner that is dragged leaves a window on the screen just when it begins above the desktop's
lower end. -/
theorem resizedTo_onScreen_iff (hw : w.OnScreen) (width height : ℤ) :
    (resizedTo w width height).OnScreen ↔ w.y < screenHeight - reservedBottom := by
  obtain ⟨hx, hy, hwidth, hheight⟩ := resizedTo_place w width height
  have hleft : w.x < screenWidth := lt_of_lt_of_le (Nat.lt_add_of_pos_right hw.width_pos) hw.right
  have htop : w.y ≤ screenHeight := (Nat.le_add_right _ _).trans hw.bottom
  constructor
  · rintro ⟨-, hpos, -, hbottom⟩
    by_contra hlow
    rw [hheight] at hpos hbottom
    rw [hy] at hbottom
    rcases @overstretched _ _ minWindowHeight _ height (by decide)
      (not_lt.1 hlow) htop (by decide) with h0 | hover
    · rw [h0] at hpos
      exact absurd hpos (by decide)
    · exact absurd hbottom (not_le.2 hover)
  · intro hlow
    have hacross := @stretched _ _ minWindowWidth width (by decide) hleft
      (by decide)
    have hdown := @stretched _ _ minWindowHeight height (by decide) hlow
      (by decide)
    rw [← hwidth] at hacross
    rw [← hheight] at hdown
    refine ⟨hacross.1, hdown.1, ?_, ?_⟩
    · rw [hx]
      exact hacross.2
    · rw [hy]
      exact hdown.2.trans (Nat.sub_le _ _)

theorem Sound.resizeTo (h : s.Sound)
    (hlow : (s.table slot).y < screenHeight - reservedBottom) : (s.resizeTo slot).Sound := by
  unfold Desktop.resizeTo
  refine h.setWindow fun hu => ?_
  rw [(resizedTo_handle _ _ _).1] at hu
  exact (h slot hu).moved ((resizedTo_onScreen_iff (h slot hu).onScreen _ _).2 hlow)
    (resizedTo_kept _ _ _)

theorem Sound.hovered (h : s.Sound) (x y : Int32) : (s.moveCursor x y).hoverLauncher.Sound := by
  refine h.of_eq ?_
  unfold hoverLauncher
  split_ifs
  · split <;> rfl
  · rfl

theorem hovered_fields (s : Desktop) (x y : Int32) :
    (s.moveCursor x y).hoverLauncher.table = s.table
      ∧ (s.moveCursor x y).hoverLauncher.draggingId = s.draggingId
      ∧ (s.moveCursor x y).hoverLauncher.resizingId = s.resizingId := by
  unfold hoverLauncher
  split_ifs
  · split <;> exact ⟨rfl, rfl, rfl⟩
  · exact ⟨rfl, rfl, rfl⟩

theorem pointerMoved_sound {a : Answers} (h : s.Sound)
    (hlow : s.draggingId = 0 → s.resizingId ≠ 0 →
      ∀ slot, findSlot s.table s.resizingId = some slot →
        (s.table slot).y < screenHeight - reservedBottom) : (s.pointerMoved a).Sound := by
  unfold pointerMoved
  split_ifs with hdrag hresize
  · split
    · exact h.dragTo _
    · exact h.of_eq rfl
  · split
    · rename_i slot hslot
      exact h.resizeTo (hlow (not_not.1 hdrag) hresize slot hslot)
    · exact h.of_eq rfl
  · split
    · exact h.of_eq (sendPointer_table a s _ _ _ _ _)
    · exact h

theorem low_of_pointerMoved {a : Answers} (h : s.Sound) (hs : (s.pointerMoved a).AllOnScreen)
    (hdrag : s.draggingId = 0) (hresize : s.resizingId ≠ 0)
    (hslot : findSlot s.table s.resizingId = some slot) :
    (s.table slot).y < screenHeight - reservedBottom := by
  obtain ⟨hlt, hu, -⟩ := findSlot_eq_some hslot
  have hmoved : s.pointerMoved a = s.resizeTo slot := by
    unfold pointerMoved
    rw [if_neg (not_not.2 hdrag), if_pos hresize, hslot]
  rw [hmoved] at hs
  have hself : (s.resizeTo slot).table slot = resizedTo (s.table slot)
      (i32 (i32 s.resizeStartWidth + i32 (s.cursorX - s.resizeGrabX)))
      (i32 (i32 s.resizeStartHeight + i32 (s.cursorY - s.resizeGrabY))) := Function.update_self _ _ _
  have hwindow := hs slot hlt (by rw [hself, (resizedTo_handle _ _ _).1, hu])
  rw [hself] at hwindow
  exact (resizedTo_onScreen_iff (h slot hu).onScreen _ _).1 hwindow

theorem Sound.snap (h : s.Sound) : s.snap.Sound := by
  unfold Desktop.snap
  dsimp only
  split_ifs
  · split
    · exact h
    · exact h.setWindow fun hu => snapped_sound (h _ hu) _
  · exact h

theorem Sound.release (h : s.Sound) (a : Answers) (code : UInt16) : (s.release a code).Sound := by
  have hended : { s.snap with draggingId := 0, resizingId := 0 }.Sound := h.snap.of_eq rfl
  unfold Desktop.release
  dsimp only
  split_ifs
  · split
    · exact hended
    · exact hended.of_eq (sendPointer_table a _ _ _ _ _ _)
  · exact hended

theorem Sound.activateLauncherCell (h : s.Sound) (cell : ℕ) :
    (s.activateLauncherCell cell).Sound := by
  unfold Desktop.activateLauncherCell
  split
  · exact h
  · split
    · exact (h.restore _).of_eq rfl
    · split
      · exact h
      · exact h.of_eq rfl

theorem Sound.toggleMaximize (h : s.Sound) (slot : ℕ) :
    (s.setWindow slot (toggleMaximize (s.table slot))).Sound :=
  h.setWindow fun hu => toggleMaximize_sound (h slot ((toggleMaximize_identity _).1 ▸ hu))

theorem Sound.press (h : s.Sound) (a : Answers) (code : UInt16) : (s.press a code).Sound := by
  have hraised : ∀ slot id, { s.raise slot with focusedWindow := id }.Sound :=
    fun slot id => (h.raise slot).of_eq rfl
  unfold Desktop.press
  split
  · exact h.of_eq rfl
  · exact (h.activateLauncherCell _).of_eq rfl
  · exact h.of_eq rfl
  · exact (h.activateLauncherCell _).of_eq rfl
  · exact h.of_eq rfl
  · unfold pressTaskbarItem
    split
    · exact h
    · split_ifs
      · exact h.minimize _
      · exact (h.restore _).of_eq rfl
  · unfold pressTitle
    dsimp only
    split_ifs
    · exact (hraised _ _).closeWindow a _
    · exact (hraised _ _).toggleMaximize _
    · exact ((hraised _ _).minimize _).of_eq rfl
    · exact (h.raise _).of_eq rfl
  · unfold pressContent
    dsimp only
    split_ifs
    · exact (h.raise _).of_eq rfl
    · exact (hraised _ _).of_eq (sendPointer_table a _ _ _ _ _ _)
  · exact h

/-! ## Keys and messages -/

theorem Sound.launcherKey (h : s.Sound) (code : UInt16) : (s.launcherKey code).Sound := by
  have hkept : { s with suppressedKeyUp := code }.Sound := h.of_eq rfl
  have hchosen : ∀ cell, { s with suppressedKeyUp := code, launcherSelection := cell }.Sound :=
    fun cell => h.of_eq rfl
  unfold Desktop.launcherKey
  dsimp only
  split_ifs
  · exact h.of_eq rfl
  · exact h.of_eq rfl
  · exact h.of_eq rfl
  · exact (hkept.activateLauncherCell _).of_eq rfl
  · exact ((hchosen _).activateLauncherCell _).of_eq rfl
  · exact h

theorem Sound.key (h : s.Sound) (a : Answers) (e : InputEvent) : (s.key a e).Sound := by
  have hkept : { s with suppressedKeyUp := e.code }.Sound := h.of_eq rfl
  unfold Desktop.key
  dsimp only
  split_ifs
  · exact h.of_eq rfl
  · exact h.of_eq rfl
  · exact h
  · exact h.of_eq rfl
  · exact h
  · unfold cycleFocus
    split
    · exact h.of_eq rfl
    · exact (hkept.restore _).of_eq rfl
  · exact h
  · unfold windowKey
    split
    · exact h.of_eq rfl
    · split_ifs
      · exact (hkept.closeWindow a _).of_eq rfl
      · exact (hkept.minimize _).of_eq rfl
      · exact (hkept.toggleMaximize _).of_eq rfl
  · exact h
  · exact h.launcherKey e.code
  · exact h
  · exact h.sendWindowEvent a _
  · exact h

theorem fits_onScreen_iff {m : WindowMessage} {minWidth minHeight : ℕ} (w : Window)
    (h : fits m minWidth minHeight = true) (hw : 1 ≤ minWidth) (hh : 1 ≤ minHeight) :
    (w.place (m.x.toInt.toNat, m.y.toInt.toNat, m.width.toNat, m.height.toNat)).OnScreen
      ↔ m.x.toInt.toNat + m.width.toNat < 2 ^ 32 ∧ m.y.toInt.toNat + m.height.toNat < 2 ^ 32 := by
  simp only [fits, Bool.and_eq_true, decide_eq_true_eq] at h
  simp only [add32, screenWidth, screenHeight] at h
  obtain ⟨⟨⟨⟨⟨-, -⟩, hwidth⟩, hheight⟩, hright⟩, hbottom⟩ := h
  constructor
  · rintro ⟨-, -, hr, hb⟩
    simp only [Window.place, screenWidth, screenHeight] at hr hb
    omega
  · rintro ⟨hr, hb⟩
    refine place_onScreen w ?_
    simp only [screenWidth, screenHeight]
    omega

theorem mapSurface_eq_some {a : Answers} {handle address : ℕ}
    (h : mapSurface a handle = some address) :
    0 < (a.handleQuery handle 0).toNat ∧ 0 < (a.handleQuery handle 1).toNat := by
  unfold mapSurface at h
  dsimp only at h
  split_ifs at h with hvalid
  · exact ⟨hvalid.1, hvalid.2.1⟩

theorem Sound.create (h : s.Sound) (a : Answers) (m : WindowMessage) : (s.create a m).Sound := by
  unfold Desktop.create
  split_ifs with hacc
  · split
    · exact h
    · rename_i slot hfree
      simp only [createAccepted, Bool.and_eq_true, decide_eq_true_eq] at hacc
      obtain ⟨⟨⟨hfits, hwidth⟩, hheight⟩, -⟩ := hacc
      have hpos : 1 ≤ m.width.toNat ∧ 1 ≤ m.height.toNat := by
        simp only [fits, Bool.and_eq_true, decide_eq_true_eq] at hfits
        exact ⟨hfits.1.1.1.2, hfits.1.1.2⟩
      have hplace := (fits_onScreen_iff (s.createdWindow m) hfits le_rfl le_rfl).2 (by
        have hx := m.x.toInt_lt
        have hy := m.y.toInt_lt
        simp only [screenWidth, screenHeight] at hwidth hheight
        omega)
      have hcreated : (s.createdWindow m).Sound :=
        ⟨⟨hplace.width_pos, hplace.height_pos, hplace.right, hplace.bottom⟩,
          ⟨hplace.width_pos, hplace.height_pos, hplace.right, hplace.bottom⟩, hpos.1, hpos.2⟩
      have hplaced : { s.setWindow slot (s.createdWindow m) with
          nextZ := add32 s.nextZ 1 }.Sound := (h.setWindow fun _ => hcreated).of_eq rfl
      dsimp only
      refine Sound.of_eq (s := Desktop.attachSurface a _ slot m.surfaceId.toNat) ?_ rfl
      unfold attachSurface
      split_ifs
      · exact hplaced
      · split
        · rename_i address hmap
          refine hplaced.setWindow fun _ => ?_
          obtain ⟨hw, hh⟩ := mapSurface_eq_some hmap
          have hslot : ((s.setWindow slot (s.createdWindow m)).table slot) = s.createdWindow m :=
            Function.update_self _ _ _
          simp only [hslot]
          exact ⟨⟨hplace.width_pos, hplace.height_pos, hplace.right, hplace.bottom⟩,
            ⟨hplace.width_pos, hplace.height_pos, hplace.right, hplace.bottom⟩, hw, hh⟩
        · exact hplaced.of_eq rfl
  · exact h

theorem Sound.close (h : s.Sound) (m : WindowMessage) : (s.close m).Sound := by
  unfold Desktop.close
  split
  · exact h
  · rename_i slot _
    have hgone : ((s.dropSurface (s.table slot)).setWindow slot .empty).Sound :=
      Sound.setWindow (h.of_eq (dropSurface_table s _)) fun hu => by cases hu
    dsimp only
    split_ifs
    · exact hgone.of_eq rfl
    · exact hgone

theorem Sound.focus (h : s.Sound) (m : WindowMessage) : (s.focus m).Sound := by
  unfold Desktop.focus
  split
  · exact h
  · exact h.restore _

theorem Sound.move (h : s.Sound) {m : WindowMessage}
    (hsum : (findSlot s.table m.windowId.toNat).isSome = true →
      fits m minMoveWidth minMoveHeight = true →
        m.x.toInt.toNat + m.width.toNat < 2 ^ 32 ∧ m.y.toInt.toNat + m.height.toNat < 2 ^ 32) :
    (s.move m).Sound := by
  unfold Desktop.move
  split
  · exact h
  · rename_i slot hslot
    split_ifs with hfits
    · refine h.setWindow fun hu => ?_
      have hsound := h slot hu
      have hr := hsound.restored
      have hplace := (fits_onScreen_iff (s.table slot) hfits (by decide) (by decide)).2
        (hsum (by rw [hslot]; rfl) hfits)
      exact ⟨hplace, ⟨hr.width_pos, hr.height_pos, hr.right, hr.bottom⟩,
        hsound.surfaceWidth_pos, hsound.surfaceHeight_pos⟩
    · exact h

theorem sums_of_move {m : WindowMessage} (hs : (s.move m).AllOnScreen)
    (hslot : (findSlot s.table m.windowId.toNat).isSome = true)
    (hfits : fits m minMoveWidth minMoveHeight = true) :
    m.x.toInt.toNat + m.width.toNat < 2 ^ 32 ∧ m.y.toInt.toNat + m.height.toNat < 2 ^ 32 := by
  obtain ⟨slot, hslot⟩ := Option.isSome_iff_exists.1 hslot
  obtain ⟨hlt, hu, -⟩ := findSlot_eq_some hslot
  have hmoved : s.move m = s.setWindow slot ((s.table slot).place
      (m.x.toInt.toNat, m.y.toInt.toNat, m.width.toNat, m.height.toNat)) := by
    unfold Desktop.move
    rw [hslot]
    exact if_pos hfits
  rw [hmoved] at hs
  have hwindow := hs slot hlt (by simpa [setWindow, Window.place] using hu)
  simp only [setWindow, Function.update_self] at hwindow
  exact (fits_onScreen_iff (s.table slot) hfits (by decide) (by decide)).1 hwindow

/-! ## Painting -/

theorem drawPlaceholder_isSome (hw : w.OnScreen) (frame : Frame) :
    (drawPlaceholder frame w).isSome = true := by
  have hright := hw.right
  have hbottom := hw.bottom
  refine Raster.loop_isSome fun row hrow f => ?_
  have hrow' : add32 w.y row = w.y + row := by
    unfold screenHeight at hbottom
    unfold add32
    omega
  have hspan := Raster.row_le hright (show w.y + row < screenHeight by omega)
  rw [hrow', Raster.span_of_le (show _ ≤ framePixels from hspan)]
  rfl

theorem drawContent_isSome (hw : w.Sound) (memory : ℕ → ℕ → UInt32) (frame : Frame) :
    (drawContent memory frame w).isSome = true := by
  unfold drawContent
  split_ifs
  · obtain ⟨f, hf, -⟩ := drawSurface_eq hw.onScreen hw.surfaceWidth_pos hw.surfaceHeight_pos frame
      (memory w.mappedAddress)
    rw [hf]
    rfl
  · exact drawPlaceholder_isSome hw.onScreen frame

theorem paintWindow_isSome (h : s.Sound) (decor : Decor) (memory : ℕ → ℕ → UInt32) (frame : Frame)
    (i : ℕ) : (paintWindow decor memory s frame (s.table i)).isSome = true := by
  unfold paintWindow
  by_cases hshown : (s.table i).shown s.currentWorkspace = true
  · rw [if_pos hshown, Option.isSome_map]
    exact drawContent_isSome (h i (Window.shown_iff.1 hshown).1) memory _
  · rw [if_neg hshown]
    rfl

/-- With every window sound, `composite` has a frame: it does not panic. -/
theorem composite_isSome (h : s.Sound) (decor : Decor) (memory : ℕ → ℕ → UInt32) :
    (composite decor memory s).isSome = true := by
  unfold composite paintWindows
  rw [Option.isSome_map]
  have hslots : ∀ (slots : List ℕ) (frame : Frame), (slots.foldlM
      (fun f i => paintWindow decor memory s f (s.table i)) frame).isSome = true := by
    intro slots
    induction slots with
    | nil => exact fun _ => rfl
    | cons i slots ih =>
      intro frame
      obtain ⟨f, hf⟩ := Option.isSome_iff_exists.1 (paintWindow_isSome h decor memory frame i)
      rw [List.foldlM_cons, hf]
      exact ih f
  exact hslots _ _

/-! ## Runs -/

def StepOnScreen (s : Desktop) (i : Answers × Input) : Prop :=
  (step s i).AllOnScreen
    ∧ ∀ (decor : Decor) (memory : ℕ → ℕ → UInt32), (composite decor memory (step s i)).isSome = true

theorem step_sound (h : s.Sound) {i : Answers × Input} (hi : s.KeepsPlace i.2) :
    (step s i).Sound := by
  rcases i with ⟨a, m | e⟩
  · simp only [step, message]
    split_ifs with hcreate hclose hfocus hmove hwarp
    · exact h.create a m
    · exact h.close m
    · exact h.focus m
    · exact h.move (hi hmove)
    · exact h.of_eq rfl
    · exact h
  · have hcursor : (s.moveCursor e.x e.y).Sound := h.of_eq rfl
    simp only [step, input]
    split_ifs with hmove hdown hup hkey
    · obtain ⟨htable, hdrag, hresize⟩ := hovered_fields s e.x e.y
      refine pointerMoved_sound (h.hovered e.x e.y) ?_
      rw [htable, hdrag, hresize]
      exact hi hmove
    · exact hcursor.press a e.code
    · exact hcursor.release a e.code
    · exact h.key a e
    · exact h

theorem keepsPlace_of_step (h : s.Sound) {i : Answers × Input} (hs : (step s i).AllOnScreen) :
    s.KeepsPlace i.2 := by
  rcases i with ⟨a, m | e⟩
  · intro hmove
    have hmessage : step s (a, .message m) = s.move m := by
      simp only [step, message, hmove]
      rfl
    rw [hmessage] at hs
    exact sums_of_move hs
  · intro hmove hdrag hresize slot hslot
    obtain ⟨htable, hdrag', hresize'⟩ := hovered_fields s e.x e.y
    have hinput : step s (a, .event e) = ((s.moveCursor e.x e.y).hoverLauncher).pointerMoved a := by
      simp only [step, input, hmove]
      rfl
    rw [hinput] at hs
    have hslot' : findSlot ((s.moveCursor e.x e.y).hoverLauncher).table
        ((s.moveCursor e.x e.y).hoverLauncher).resizingId = some slot := by rwa [htable, hresize']
    have := low_of_pointerMoved (h.hovered e.x e.y) hs (hdrag'.trans hdrag) (by rwa [hresize'])
      hslot'
    rwa [htable] at this

theorem fresh_sound : ({} : Desktop).Sound := fun _ hi => by cases hi

/-- Every step of a run leaves the windows on the screen and `composite` without a panic just when no
MOVE of the run wraps and no corner of a window below the desktop's end is dragged. -/
theorem windows_onScreen_iff (inputs : List (Answers × Input)) :
    Machine.Meets step StepOnScreen {} inputs
      ↔ Machine.Meets step (fun s i => s.KeepsPlace i.2) {} inputs := by
  have hiff : ∀ (s : Desktop) i, s.Sound → (StepOnScreen s i ↔ s.KeepsPlace i.2) := fun s i hs =>
    ⟨fun h => keepsPlace_of_step hs h.1, fun h =>
      ⟨fun k _ hu => (step_sound hs h k hu).onScreen, composite_isSome (step_sound hs h)⟩⟩
  exact Machine.meets_congr step (I := Sound) hiff
    (fun s i hs hi => step_sound hs ((hiff s i hs).1 hi)) inputs {} fresh_sound

def wrappedMove : List (Answers × Input) :=
  [(plainAnswers, .message
      { opcode := opcodeCreate, windowId := 2097152, x := 0, y := 100, width := 200, height := 150 }),
    (plainAnswers, .message
      { opcode := opcodeMove, windowId := 2097152, x := 1, y := 100, width := 0xFFFFFFFF
        height := 150 })]

theorem foldlM_eq_none {f : Frame → ℕ → Option Frame} {i : ℕ} (h : ∀ frame, f frame i = none) :
    ∀ {slots : List ℕ}, i ∈ slots → ∀ frame, slots.foldlM f frame = none
  | j :: slots, hi, frame => by
    rw [List.foldlM_cons]
    rcases List.mem_cons.1 hi with rfl | hi
    · rw [h frame]
      rfl
    · rcases f frame j with _ | frame'
      · rfl
      · exact foldlM_eq_none h hi frame'

/-- The window is wider than the screen, and its first row does not fit the frame. -/
theorem wrapped_move_panics : ((Machine.run step {} wrappedMove).table 0).width = 2 ^ 32 - 1
    ∧ (∀ decor memory, composite decor memory (Machine.run step {} wrappedMove) = none)
    ∧ ¬Machine.Meets step StepOnScreen {} wrappedMove := by
  set s := Machine.run step {} wrappedMove with hs
  have hrun : (s.table 0).width = 2 ^ 32 - 1 ∧ (s.table 0).height = 150
      ∧ (s.table 0).mappedAddress = 0 ∧ (s.table 0).shown s.currentWorkspace = true := by
    rw [hs]
    decide +kernel
  obtain ⟨hwidth, hheight, hmapped, hshown⟩ := hrun
  have hpanic : ∀ decor memory, composite decor memory s = none := by
    intro decor memory
    have hwindow : ∀ frame, paintWindow decor memory s frame (s.table 0) = none := by
      intro frame
      have hcontent : ∀ f, drawContent memory f (s.table 0) = none := fun f => by
        unfold drawContent drawPlaceholder
        rw [if_neg (not_not.2 hmapped)]
        refine Raster.loop_eq_none (by omega) ?_
        unfold Raster.span
        rw [hwidth]
        exact if_neg (by unfold framePixels screenWidth screenHeight; omega)
      unfold paintWindow
      rw [if_pos hshown]
      dsimp only
      rw [hcontent]
      rfl
    have hslot : 0 ∈ paintOrder s.table :=
      (List.perm_insertionSort _ _).mem_iff.2 (by decide)
    have hnone := foldlM_eq_none (f := fun f i => paintWindow decor memory s f (s.table i)) hwindow
      hslot (drawWallpaper decor)
    unfold composite paintWindows
    rw [hnone]
    rfl
  refine ⟨hwidth, hpanic, fun h => ?_⟩
  have hframe := h.2.1.2 { wallpaper := none, shellIcons := none, hour := 0, minute := 0 }
    fun _ _ => 0
  change (composite _ _ s).isSome = true at hframe
  rw [hpanic] at hframe
  cases hframe

end Desktop

end Compositor

end DemonOS
