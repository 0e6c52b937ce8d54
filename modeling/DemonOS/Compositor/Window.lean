import DemonOS.Lib.Greatest
import DemonOS.Lib.Table

/-!
# The windows of the compositor

`rust/compositor/src/main.rs`: the window table, the searches of it, and the geometry that drawing
and input share. A `u32` field is a number below `2 ^ 32`; sums and differences wrap, as they do in
the release build (`add32`, `sub32`, `i32`).
-/

namespace DemonOS

namespace Compositor

def screenWidth : ℕ := 640
def screenHeight : ℕ := 480
def windowLimit : ℕ := 8
def minCreateSize : ℕ := 1
def minMoveWidth : ℕ := 160
def minMoveHeight : ℕ := 120
def titleHeight : ℕ := 24
def controlSize : ℕ := 16
def controlGap : ℕ := 4
def resizeGrip : ℕ := 10
def minWindowWidth : ℕ := 96
def minWindowHeight : ℕ := 64
def reservedTop : ℕ := 34
def snapDistance : ℕ := 12
def panelMargin : ℕ := 6
def panelHeight : ℕ := 28
def launcherBtnX0 : ℕ := panelMargin + 4
def launcherBtnX1 : ℕ := launcherBtnX0 + 72
def quickLaunchX : ℕ := launcherBtnX1 + 8
def quickLaunchSize : ℕ := 24
def quickLaunchGap : ℕ := 4
def workspaceCount : ℕ := 3
def bottomBarHeight : ℕ := 40
def bottomBarMargin : ℕ := 6
def bottomBarY : ℕ := screenHeight - bottomBarMargin - bottomBarHeight
def reservedBottom : ℕ := bottomBarMargin * 2 + bottomBarHeight
def taskbarItemWidthMax : ℕ := 120
def taskbarItemGap : ℕ := 8
def launcherX : ℕ := panelMargin
def launcherY : ℕ := panelMargin + panelHeight + 8
def launcherWidth : ℕ := 196
def launcherCellHeight : ℕ := 42
def launcherCellGap : ℕ := 6
def launcherCellCount : ℕ := 4
def launcherHeaderHeight : ℕ := 30
def launcherHeight : ℕ :=
  launcherHeaderHeight + launcherCellHeight * launcherCellCount
    + launcherCellGap * (launcherCellCount + 1)
def demonxWindowIdBase : ℕ := 2097152

def add32 (a b : ℕ) : ℕ := (a + b) % 2 ^ 32
def sub32 (a b : ℕ) : ℕ := (a + 2 ^ 32 - b) % 2 ^ 32

/-- The `i32` of this value. -/
@[irreducible] def i32 (z : ℤ) : ℤ := (z + 2 ^ 31) % 2 ^ 32 - 2 ^ 31

/-- The `u32` of this value. -/
@[irreducible] def u32 (z : ℤ) : ℕ := (z % 2 ^ 32).toNat

/-- What `title[..title_length]` holds. -/
abbrev Title : Type := { bytes : List UInt8 // bytes.length ≤ 24 }

structure Window where
  inUse : Bool := false
  id : ℕ := 0
  z : ℕ := 0
  x : ℕ := 0
  y : ℕ := 0
  width : ℕ := 0
  height : ℕ := 0
  surfaceId : ℕ := 0
  mappedAddress : ℕ := 0
  surfaceWidth : ℕ := 0
  surfaceHeight : ℕ := 0
  maximized : Bool := false
  minimized : Bool := false
  restoreX : ℕ := 0
  restoreY : ℕ := 0
  restoreWidth : ℕ := 0
  restoreHeight : ℕ := 0
  workspace : ℕ := 0
  title : Title := ⟨[], by simp⟩

/-- `Window::EMPTY`. -/
def Window.empty : Window := {}

abbrev WindowTable : Type := ℕ → Window

namespace Window

def asciiUppercase (c : UInt8) : UInt8 := if 0x61 ≤ c && c ≤ 0x7A then c - 0x20 else c

/-- The title in upper case, `WINDOW` where there is none. -/
def titleText (w : Window) : List UInt8 :=
  if w.title.1.length = 0 then [0x57, 0x49, 0x4E, 0x44, 0x4F, 0x57]
  else w.title.1.map asciiUppercase

def decorationTop (w : Window) : ℕ := w.y - titleHeight

def closeControlX (w : Window) : ℤ := i32 (i32 w.width - 13)
def maximizeControlX (w : Window) : ℤ := i32 (w.closeControlX - controlGap - controlSize)
def minimizeControlX (w : Window) : ℤ := i32 (w.maximizeControlX - controlGap - controlSize)

/-- `title_control_at`: 1 to maximize, 2 to close, 3 to minimize, 0 for the title itself. -/
def titleControlAt (w : Window) (localX : ℕ) : ℕ :=
  let near (control : ℤ) : Bool := i32 |i32 (i32 localX - control)| ≤ controlSize / 2
  if near w.closeControlX then 2
  else if near w.maximizeControlX then 1
  else if near w.minimizeControlX then 3
  else 0

def hitsResizeCorner (w : Window) (x y : ℕ) : Bool :=
  add32 w.x w.width ≤ add32 x resizeGrip && add32 w.y w.height ≤ add32 y resizeGrip

def shown (w : Window) (workspace : ℕ) : Bool :=
  w.inUse && !w.minimized && w.workspace == workspace

/-- The window has an entry in the taskbar. -/
def listed (w : Window) (workspace : ℕ) : Bool :=
  w.inUse && w.workspace == workspace && demonxWindowIdBase ≤ w.id

/-- What `decoration_hit_at` asks of a window. -/
def decorationHit (w : Window) (workspace x y : ℕ) : Bool :=
  w.shown workspace && demonxWindowIdBase ≤ w.id && w.x ≤ x && x < add32 w.x w.width
    && w.decorationTop ≤ y && y < w.y

/-- What `top_slot_at` asks of a window. -/
def contentHit (w : Window) (workspace x y : ℕ) : Bool :=
  w.shown workspace && w.x ≤ x && x < add32 w.x w.width && w.y ≤ y && y < add32 w.y w.height

/-- `content_rect`: the surface fitted into the window, its proportions kept. -/
def contentRect (w : Window) : ℕ × ℕ × ℕ × ℕ :=
  if w.surfaceWidth = 0 ∨ w.surfaceHeight = 0 ∨ w.width = 0 ∨ w.height = 0 then
    (w.x, w.y, w.width, w.height)
  else
    let fitted := w.width * w.surfaceHeight / w.surfaceWidth % 2 ^ 32
    let (width, height) :=
      if w.height < fitted then (w.height * w.surfaceWidth / w.surfaceHeight % 2 ^ 32, w.height)
      else (w.width, fitted)
    let width := max width 1
    let height := max height 1
    (add32 w.x (sub32 w.width width / 2), add32 w.y (sub32 w.height height / 2), width, height)

/-- `client_point`: the pixel of the surface that is shown at this point. -/
def clientPoint (w : Window) (x y : ℕ) : Option (ℤ × ℤ) :=
  let (contentX, contentY, contentWidth, contentHeight) := w.contentRect
  if x < contentX ∨ y < contentY ∨ add32 contentX contentWidth ≤ x
      ∨ add32 contentY contentHeight ≤ y then none
  else some (i32 ((x - contentX) * w.surfaceWidth / contentWidth : ℕ),
    i32 ((y - contentY) * w.surfaceHeight / contentHeight : ℕ))

end Window

section Searches

variable (table : WindowTable)

def findFreeSlot : Option ℕ := Table.firstIndex windowLimit fun i => !(table i).inUse

def findSlot (id : ℕ) : Option ℕ :=
  Table.firstIndex windowLimit fun i => (table i).inUse && (table i).id == id

/-- The slot of greatest `z` among those that pass, a later one before an earlier. -/
def topmost (passes : Window → Bool) : Option ℕ :=
  Greatest.greatest windowLimit (fun i => passes (table i)) fun i => (table i).z

def decorationHitAt (workspace x y : ℕ) : Option ℕ :=
  topmost table fun w => w.decorationHit workspace x y

def topSlotAt (workspace x y : ℕ) : Option ℕ :=
  topmost table fun w => w.contentHit workspace x y

def findTopSlot (workspace : ℕ) : Option ℕ := topmost table fun w => w.shown workspace

def topId (workspace : ℕ) : ℕ := ((findTopSlot table workspace).map fun i => (table i).id).getD 0

/-- `find_cycle_slot`: the topmost window but the focused one. -/
def findCycleSlot (workspace focusedWindow : ℕ) : Option ℕ :=
  (topmost table fun w => w.listed workspace && w.id != focusedWindow).or
    (findSlot table focusedWindow)

def findWindowByTitle (wanted : List UInt8) : Option ℕ :=
  Table.firstIndex windowLimit fun i =>
    (table i).inUse && demonxWindowIdBase ≤ (table i).id && (table i).titleText == wanted

def taskbarItemWidth (workspace : ℕ) : ℕ :=
  let count := ((List.range windowLimit).filter fun i => (table i).listed workspace).length
  if count = 0 then taskbarItemWidthMax
  else
    let innerWidth := screenWidth - bottomBarMargin * 2 - 16
    let gaps := taskbarItemGap * (count - 1)
    max (min ((innerWidth - gaps) / count) taskbarItemWidthMax) 64

/-- The loop of `taskbar_item_at` over the slots that are left, the next entry at `itemX`. -/
def taskbarScan (workspace itemWidth x : ℕ) : List ℕ → ℕ → Option ℕ
  | [], _ => none
  | i :: rest, itemX =>
    if !(table i).listed workspace then taskbarScan workspace itemWidth x rest itemX
    else if itemX ≤ x ∧ x < itemX + itemWidth then some (table i).id
    else taskbarScan workspace itemWidth x rest (itemX + itemWidth + taskbarItemGap)

/-- `taskbar_item_at`: the id of the window whose entry is there. -/
def taskbarItemAt (workspace x y : ℕ) : Option ℕ :=
  if y < bottomBarY ∨ bottomBarY + bottomBarHeight ≤ y then none
  else taskbarScan table workspace (taskbarItemWidth table workspace) x (List.range windowLimit)
    (bottomBarMargin + 8)

end Searches

/-! The cursor lies on the screen, so the points of the panel and the launcher are plain numbers. -/

def workspaceDotAt (x y : ℕ) : Option ℕ :=
  if y < panelMargin ∨ panelMargin + panelHeight ≤ y then none
  else
    let dotsX := panelMargin + (screenWidth - 2 * panelMargin) / 2 - 30
    Table.firstIndex workspaceCount fun dot =>
      dotsX + dot * 12 - 1 ≤ x && x < dotsX + dot * 12 + 9

def inLauncherButton (x y : ℕ) : Bool :=
  launcherBtnX0 ≤ x && x < launcherBtnX1 && panelMargin ≤ y && y < panelMargin + panelHeight

def quickLaunchAt (x y : ℕ) : Option ℕ :=
  if y < panelMargin + 4 ∨ panelMargin + panelHeight - 4 ≤ y then none
  else Table.firstIndex launcherCellCount fun index =>
    quickLaunchX + index * (quickLaunchSize + quickLaunchGap) ≤ x
      && x < quickLaunchX + index * (quickLaunchSize + quickLaunchGap) + quickLaunchSize

def launcherCellY (index : ℕ) : ℕ :=
  launcherY + launcherHeaderHeight + launcherCellGap
    + index * (launcherCellHeight + launcherCellGap)

def launcherCellAt (x y : ℕ) : Option ℕ :=
  if x < launcherX ∨ launcherX + launcherWidth ≤ x then none
  else Table.firstIndex launcherCellCount fun index =>
    launcherCellY index ≤ y && y < launcherCellY index + launcherCellHeight

/-- `snap_target`: 1 to maximize, 2 and 3 for the left and the right half. -/
def snapTarget (x y : ℕ) : ℕ :=
  if y ≤ reservedTop + snapDistance then 1
  else if x ≤ snapDistance then 2
  else if screenWidth ≤ x + snapDistance then 3
  else 0

/-- `snap_geometry`: the column, the row, the width and the height. -/
def snapGeometry (target : ℕ) : ℕ × ℕ × ℕ × ℕ :=
  let y := reservedTop + titleHeight
  let height := screenHeight - reservedBottom - y
  if target = 2 then (0, y, screenWidth / 2, height)
  else if target = 3 then (screenWidth / 2, y, screenWidth - screenWidth / 2, height)
  else (0, y, screenWidth, height)

def Window.place (w : Window) (geometry : ℕ × ℕ × ℕ × ℕ) : Window :=
  { w with x := geometry.1, y := geometry.2.1, width := geometry.2.2.1, height := geometry.2.2.2 }

/-- The geometry that `toggle_maximize` and the end of a drag put away. -/
def Window.remember (w : Window) : Window :=
  { w with restoreX := w.x, restoreY := w.y, restoreWidth := w.width, restoreHeight := w.height }

def toggleMaximize (w : Window) : Window :=
  if w.maximized then
    { w.place (w.restoreX, w.restoreY, w.restoreWidth, w.restoreHeight) with
      minimized := false, maximized := false }
  else { w.remember.place (snapGeometry 1) with minimized := false, maximized := true }

end Compositor

end DemonOS
