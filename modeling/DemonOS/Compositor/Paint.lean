import DemonOS.Compositor.Main
import DemonOS.Lib.Raster
import Mathlib.Data.List.Sort

/-!
# What the compositor paints

`composite` and the routines it draws with. A frame is a function of the pixel's index; a slice or
an index out of its bounds, on which the compositor panics, has no result. The routines that clip
each pixel they draw have one always.
-/

namespace DemonOS

namespace Compositor

abbrev Frame : Type := ℕ → UInt32

def framePixels : ℕ := screenWidth * screenHeight

def backgroundColor : UInt32 := 4279245080
def placeholderColor : UInt32 := 4280032545
def letterboxColor : UInt32 := 0xFF05080B
def colorTitleFocused : UInt32 := 0xFF263A4A
def colorTitleUnfocused : UInt32 := 0xFF1B2732
def colorText : UInt32 := 0xFFEDF4F7
def colorTextMuted : UInt32 := 0xFF91A5B2
def colorAccent : UInt32 := 0xFF35B8E6
def colorAccentDark : UInt32 := 0xFF176B8B
def colorPanelBg : UInt32 := 0xFF101A23
def colorTaskbarItem : UInt32 := 0xFF1C2A35
def colorSurfaceHover : UInt32 := 0xFF2A3B48
def colorBorder : UInt32 := 0xFF456174
def colorControlClose : UInt32 := 0xFFFF5F57
def colorControlMaximize : UInt32 := 0xFFA9BBC5
def colorControlHover : UInt32 := 0xFFB43D46
def cornerRadius : ℤ := 6
def panelBlendAlpha : UInt8 := 244
def shadowFeather : ℕ := 8
def shellIconWidth : ℕ := 22
def shellIconHeight : ℕ := 22
def shellIconCount : ℕ := 9
def shellIconTerminal : ℕ := 0
def shellIconApplication : ℕ := 3
def shellIconMinecraft : ℕ := 6
def shellIconDoom : ℕ := 7
def shellIconQuake : ℕ := 8

/-- What is read at start: the wallpaper and the icons, where they could be read, and the time. -/
structure Decor where
  wallpaper : Option Frame
  shellIcons : Option (ℕ → UInt32)
  hour : ℕ
  minute : ℕ

namespace Frame

variable (frame : Frame)

def onScreen (x y : ℤ) : Bool := 0 ≤ x && 0 ≤ y && x < screenWidth && y < screenHeight

def index (x y : ℤ) : ℕ := y.toNat * screenWidth + x.toNat

def putPixel (x y : ℤ) (color : UInt32) : Frame :=
  if onScreen x y then Function.update frame (index x y) color else frame

/-- The colour blended into what is there, weighted by `alpha`. -/
def blendPixel (x y : ℤ) (color : UInt32) (alpha : UInt8) : Frame :=
  if onScreen x y then
    let dst := frame (index x y)
    let a := alpha.toUInt32
    let channel (shift : UInt32) : UInt32 :=
      (((color >>> shift) &&& 0xFF) * a + ((dst >>> shift) &&& 0xFF) * (255 - a)) / 255 &&& 0xFF
    Function.update frame (index x y)
      ((0xFF000000 : UInt32) ||| (channel 16 <<< 16) ||| (channel 8 <<< 8) ||| channel 0)
  else frame

/-- The pixels of a rectangle one after the other, row after row. -/
def overRect (width height : ℕ) (draw : Frame → ℤ → ℤ → Frame) : Frame :=
  (List.range (i32 height).toNat).foldl
    (fun f row => (List.range (i32 width).toNat).foldl (fun f col => draw f col row) f) frame

def fillRect (x y : ℤ) (width height : ℕ) (color : UInt32) : Frame :=
  frame.overRect width height fun f col row => f.putPixel (i32 (x + col)) (i32 (y + row)) color

def strokeRect (x y : ℤ) (width height : ℕ) (color : UInt32) : Frame :=
  if width = 0 ∨ height = 0 then frame
  else
    let f := frame.fillRect x y width 1 color
    let f := f.fillRect x (i32 (y + i32 height - 1)) width 1 color
    let f := f.fillRect x y 1 height color
    f.fillRect (i32 (x + i32 width - 1)) y 1 height color

/-- How far this column or row reaches into a rounded corner at the near side. -/
def nearCorner (radius at_ : ℤ) : ℤ := if at_ < radius then radius - at_ else 0

/-- The same, at either side of this extent. -/
def corner (radius extent at_ : ℤ) : ℤ :=
  if at_ < radius then radius - at_
  else if extent - radius ≤ at_ then at_ - (extent - radius - 1)
  else 0

def cut (radius cornerX cornerY : ℤ) : Bool :=
  0 < cornerX && 0 < cornerY && radius * radius < cornerX * cornerX + cornerY * cornerY

def fillRoundedRect (x y : ℤ) (width height : ℕ) (radius : ℤ) (color : UInt32) : Frame :=
  frame.overRect width height fun f col row =>
    if cut radius (corner radius (i32 width) col) (corner radius (i32 height) row) then f
    else f.putPixel (i32 (x + col)) (i32 (y + row)) color

def fillRoundedRectTop (x y : ℤ) (width height : ℕ) (radius : ℤ) (color : UInt32) : Frame :=
  frame.overRect width height fun f col row =>
    if cut radius (corner radius (i32 width) col) (nearCorner radius row) then f
    else f.putPixel (i32 (x + col)) (i32 (y + row)) color

def blendRoundedRect (x y : ℤ) (width height : ℕ) (radius : ℤ) (color : UInt32) (alpha : UInt8) :
    Frame :=
  frame.overRect width height fun f col row =>
    if cut radius (corner radius (i32 width) col) (corner radius (i32 height) row) then f
    else f.blendPixel (i32 (x + col)) (i32 (y + row)) color alpha

/-- The numbers from `lo` up to `hi`. -/
def span (lo hi : ℤ) : List ℤ := (List.range (hi - lo).toNat).map fun i => lo + i

def drawShadow (x y : ℤ) (width height : ℕ) : Frame :=
  let right := i32 (x + i32 width)
  let bottom := i32 (y + i32 height)
  (List.range shadowFeather).foldl (fun f (i : ℕ) =>
    let distance : ℤ := i + 1
    let alpha := UInt8.ofNat ((shadowFeather - i) * 64 / shadowFeather)
    let f := (span (i32 (y - distance)) (i32 (bottom + distance))).foldl (fun f row =>
      (f.blendPixel (i32 (x - distance)) row 0xFF000000 alpha).blendPixel
        (i32 (right - 1 + distance)) row 0xFF000000 alpha) f
    (span x right).foldl (fun f col =>
      (f.blendPixel col (i32 (y - distance)) 0xFF000000 alpha).blendPixel
        col (i32 (bottom - 1 + distance)) 0xFF000000 alpha) f) frame

/-- ` -.:/0123456789ABCDEFGHIJKLMNOPQRSTUVWXYZ` -/
def fontChars : List UInt8 :=
  [0x20, 0x2D, 0x2E, 0x3A, 0x2F] ++ (List.range 10).map (fun i => 0x30 + UInt8.ofNat i)
    ++ (List.range 26).map fun i => 0x41 + UInt8.ofNat i

/-- Four bits for a row, the highest on the left. -/
def fontRows : List (List ℕ) := [
  [0, 0, 0, 0, 0], [0, 0, 15, 0, 0], [0, 0, 0, 0, 4], [0, 4, 0, 4, 0], [1, 2, 4, 8, 0],
  [6, 9, 9, 9, 6], [2, 6, 2, 2, 7], [6, 9, 2, 4, 15], [14, 1, 6, 1, 14], [9, 9, 15, 1, 1],
  [15, 8, 14, 1, 14], [6, 8, 14, 9, 6], [15, 1, 2, 4, 4], [6, 9, 6, 9, 6], [6, 9, 7, 1, 6],
  [6, 9, 15, 9, 9], [14, 9, 14, 9, 14], [7, 8, 8, 8, 7], [14, 9, 9, 9, 14], [15, 8, 14, 8, 15],
  [15, 8, 14, 8, 8], [7, 8, 11, 9, 7], [9, 9, 15, 9, 9], [15, 4, 4, 4, 15], [3, 1, 1, 9, 6],
  [9, 10, 12, 10, 9], [8, 8, 8, 8, 15], [9, 15, 15, 9, 9], [9, 13, 11, 9, 9], [6, 9, 9, 9, 6],
  [14, 9, 14, 8, 8], [6, 9, 9, 6, 1], [14, 9, 14, 10, 9], [7, 8, 6, 1, 14], [15, 4, 4, 4, 4],
  [9, 9, 9, 9, 6], [9, 9, 9, 6, 4], [9, 9, 15, 15, 9], [9, 6, 4, 6, 9], [9, 9, 6, 4, 4],
  [15, 2, 4, 8, 15]]

def glyphRows (character : UInt8) : List ℕ :=
  fontRows.getD (fontChars.idxOf? (Window.asciiUppercase character) |>.getD 0) []

def drawGlyph (x y : ℤ) (character : UInt8) (color : UInt32) : Frame :=
  (glyphRows character).zipIdx.foldl (fun f (row, i) =>
    (List.range 4).foldl (fun f col =>
      if row.testBit (3 - col) then f.putPixel (i32 (x + col)) (i32 (y + i)) color else f) f) frame

def drawText (x y : ℤ) (text : List UInt8) (color : UInt32) : Frame :=
  text.zipIdx.foldl (fun f (character, i) => f.drawGlyph (i32 (x + 5 * i)) y character color) frame

/-- An icon of the atlas, scaled to `size`. -/
def drawShellIcon (atlas : Option (ℕ → UInt32)) (icon : ℕ) (x y : ℤ) (size : ℕ) : Frame :=
  match atlas with
  | none => frame
  | some pixels =>
    if shellIconCount ≤ icon ∨ size = 0 then frame
    else
      (List.range size).foldl (fun f dy => (List.range size).foldl (fun f dx =>
        let pixel := pixels (icon * shellIconWidth * shellIconHeight
          + dy * shellIconHeight / size * shellIconWidth + dx * shellIconWidth / size)
        let alpha := (pixel >>> 24).toUInt8
        if alpha = 255 then f.putPixel (i32 (x + dx)) (i32 (y + dy)) pixel
        else if alpha ≠ 0 then f.blendPixel (i32 (x + dx)) (i32 (y + dy)) pixel alpha
        else f) f) frame

end Frame

open Frame

def shellIconForWindow (w : Window) : ℕ :=
  if w.titleText = [0x58, 0x54, 0x45, 0x52, 0x4D] then shellIconTerminal
  else if w.titleText = [0x43, 0x4C, 0x41, 0x53, 0x53, 0x49, 0x43, 0x55, 0x42, 0x45] then
    shellIconMinecraft
  else if w.titleText = [0x46, 0x52, 0x45, 0x45, 0x44, 0x4F, 0x4F, 0x4D] then shellIconDoom
  else if w.titleText = [0x51, 0x55, 0x41, 0x4B, 0x45] then shellIconQuake
  else shellIconApplication

/-! ## Windows -/

def drawTitleStrip (frame : Frame) (w : Window) (focused : Bool) : Frame :=
  let top := i32 w.decorationTop
  let f := frame.fillRoundedRectTop (i32 w.x) top w.width titleHeight cornerRadius
    (if focused then colorTitleFocused else colorTitleUnfocused)
  if focused then
    f.fillRect (i32 (i32 w.x + cornerRadius)) top (w.width - 12) 2 colorAccent
  else f

def drawControls (frame : Frame) (w : Window) (focused : Bool) (hovered : ℕ) : Frame :=
  let controlY := i32 (i32 w.decorationTop + titleHeight / 2)
  let symbol := if focused then colorControlMaximize else colorTextMuted
  let minX := i32 (i32 w.x + w.minimizeControlX)
  let maxX := i32 (i32 w.x + w.maximizeControlX)
  let closeX := i32 (i32 w.x + w.closeControlX)
  let mark (x : ℤ) (color : UInt32) : Frame :=
    frame.fillRoundedRect (i32 (x - 8)) (i32 (controlY - 8)) controlSize controlSize 4 color
  let f := if hovered = 3 then mark minX colorSurfaceHover
    else if hovered = 1 then mark maxX colorSurfaceHover
    else if hovered = 2 then mark closeX colorControlHover
    else frame
  let f := f.fillRect (i32 (minX - 4)) (i32 (controlY + 3)) 8 1 symbol
  let f := f.strokeRect (i32 (maxX - 4)) (i32 (controlY - 4)) 8 8 symbol
  let closeColor := if hovered = 2 then colorText
    else if focused then colorControlClose else colorTextMuted
  (Frame.span (-3) 4).foldl (fun f offset =>
    (f.putPixel (i32 (closeX + offset)) (i32 (controlY + offset)) closeColor).putPixel
      (i32 (closeX + offset)) (i32 (controlY - offset)) closeColor) f

def drawDecoration (decor : Decor) (frame : Frame) (w : Window) (focused : Bool) (hovered : ℕ) :
    Frame :=
  let top := i32 w.decorationTop
  let f := drawTitleStrip frame w focused
  let f := f.drawShellIcon decor.shellIcons (shellIconForWindow w) (i32 (i32 w.x + 7))
    (i32 (top + 5)) 14
  let f := f.drawText (i32 (i32 w.x + 27)) (i32 (top + 9))
    (w.titleText.take ((w.width - 104) / 5)) (if focused then colorText else colorTextMuted)
  drawControls f w focused hovered

/-- The pixel of a surface of so many. -/
def readSource (source : ℕ → UInt32) (pixels i : ℕ) : Option UInt32 :=
  if i < pixels then some (source i) else none

/-- The surface copied row by row, where it has the size of its place. -/
def copySurface (frame : Frame) (w : Window) (source : ℕ → UInt32) : Option Frame :=
  let (contentX, contentY, contentWidth, contentHeight) := w.contentRect
  Raster.loop contentHeight (fun f row =>
    let srcStart := row * w.surfaceWidth
    let dstStart := (contentY + row) * screenWidth + contentX
    if srcStart + contentWidth ≤ w.surfaceWidth * w.surfaceHeight then
      Raster.span framePixels f dstStart contentWidth fun i => source (srcStart + i)
    else none) frame

def scaleSurface (frame : Frame) (w : Window) (source : ℕ → UInt32) : Option Frame :=
  let (contentX, contentY, contentWidth, contentHeight) := w.contentRect
  Raster.loop contentHeight (fun f destinationY =>
    let sourceY := destinationY * w.surfaceHeight / contentHeight
    let dstStart := add32 contentY destinationY * screenWidth + contentX
    Raster.loop contentWidth (fun f destinationX =>
      let sourceX := destinationX * w.surfaceWidth / contentWidth
      (readSource source (w.surfaceWidth * w.surfaceHeight)
        (sourceY * w.surfaceWidth + sourceX)).bind fun pixel =>
          Raster.put framePixels f (dstStart + destinationX) pixel) f) frame

def drawSurface (frame : Frame) (w : Window) (source : ℕ → UInt32) : Option Frame :=
  let (_, _, contentWidth, contentHeight) := w.contentRect
  let f := if contentWidth ≠ w.width ∨ contentHeight ≠ w.height then
      frame.fillRect (i32 w.x) (i32 w.y) w.width w.height letterboxColor
    else frame
  if contentWidth = w.surfaceWidth ∧ contentHeight = w.surfaceHeight then copySurface f w source
  else scaleSurface f w source

/-- The rectangle of a window that has no surface. -/
def drawPlaceholder (frame : Frame) (w : Window) : Option Frame :=
  Raster.loop w.height (fun f row =>
    Raster.span framePixels f (add32 w.y row * screenWidth + w.x) w.width
      fun _ => placeholderColor) frame

/-- What a window shows: its surface, or the placeholder. -/
def drawContent (memory : ℕ → ℕ → UInt32) (frame : Frame) (w : Window) : Option Frame :=
  if w.mappedAddress ≠ 0 then drawSurface frame w (memory w.mappedAddress)
  else drawPlaceholder frame w

/-- The border of a window, the marks of its corner, and its title bar. -/
def drawFrame (decor : Decor) (frame : Frame) (w : Window) (focused : Bool) (hovered : ℕ) : Frame :=
  let f := frame.strokeRect (i32 w.x) (i32 w.y) w.width w.height
    (if focused then colorAccentDark else colorBorder)
  let f := (List.range 3).foldl (fun f grip =>
    f.putPixel (i32 (i32 w.x + i32 w.width - 3 - grip)) (i32 (i32 w.y + i32 w.height - 2))
      colorTextMuted) f
  drawDecoration decor f w focused hovered

variable (decor : Decor) (memory : ℕ → ℕ → UInt32) (s : Desktop)

/-- The id of the window whose title bar the cursor is on, 0 where there is none. -/
def hoveredDecoration : ℕ :=
  ((decorationHitAt s.table s.currentWorkspace s.cursorX s.cursorY).map
    fun i => (s.table i).id).getD 0

def paintWindow (frame : Frame) (w : Window) : Option Frame :=
  if w.shown s.currentWorkspace then
    let decorated := demonxWindowIdBase ≤ w.id
    let f := if decorated then
        frame.drawShadow (i32 w.x) (i32 w.decorationTop) w.width (add32 w.height titleHeight)
      else frame
    (drawContent memory f w).map fun f =>
      if decorated then
        drawFrame decor f w (w.id = s.focusedWindow)
          (if w.id = hoveredDecoration s then w.titleControlAt (s.cursorX - w.x) else 0)
      else f
  else some frame

/-- `order`: the slots from the lowest window to the topmost. -/
def paintOrder (table : WindowTable) : List ℕ :=
  (List.range windowLimit).insertionSort fun i j => (table i).z ≤ (table j).z

/-! ## The desktop around them -/

def drawWallpaper : Frame := decor.wallpaper.getD fun _ => backgroundColor

def drawPreview (frame : Frame) : Frame :=
  let target := snapTarget s.cursorX s.cursorY
  if s.draggingId ≠ 0 ∧ target ≠ 0 then
    let (x, y, width, height) := snapGeometry target
    let f := frame.blendRoundedRect (x + 4) (y - titleHeight + 4) (width - 8)
      (height + titleHeight - 8) cornerRadius colorAccentDark 92
    f.strokeRect (x + 4) (y - titleHeight + 4) (width - 8) (height + titleHeight - 8) colorAccent
  else frame

def launcherIcon (index : ℕ) : ℕ :=
  if index = 0 then shellIconTerminal
  else if index = 1 then shellIconMinecraft
  else if index = 2 then shellIconDoom
  else shellIconQuake

def digits (n : ℕ) : List UInt8 := [0x30 + UInt8.ofNat (n / 10 % 10), 0x30 + UInt8.ofNat (n % 10)]

def drawPanel (frame : Frame) : Frame :=
  let width := screenWidth - 2 * panelMargin
  let f := frame.drawShadow panelMargin panelMargin width panelHeight
  let f := f.blendRoundedRect panelMargin panelMargin width panelHeight cornerRadius colorPanelBg
    panelBlendAlpha
  let f := f.fillRoundedRect launcherBtnX0 (panelMargin + 4) (launcherBtnX1 - launcherBtnX0)
    (panelHeight - 8) 6 (if s.launcherOpen then colorAccentDark
      else if inLauncherButton s.cursorX s.cursorY then colorSurfaceHover else colorTaskbarItem)
  let f := f.drawShellIcon decor.shellIcons shellIconApplication (launcherBtnX0 + 3)
    (panelMargin + 5) 18
  let f := f.drawText (launcherBtnX0 + 25) (panelMargin + 10) [0x44, 0x45, 0x4D, 0x4F, 0x4E]
    colorText
  let f := (List.range launcherCellCount).foldl (fun f (index : ℕ) =>
    let x : ℤ := quickLaunchX + index * (quickLaunchSize + quickLaunchGap)
    let f := if quickLaunchAt s.cursorX s.cursorY = some index then
        f.fillRoundedRect x (panelMargin + 4) quickLaunchSize (panelHeight - 8) 5 colorSurfaceHover
      else f
    f.drawShellIcon decor.shellIcons (launcherIcon index) (x + 3) (panelMargin + 7) 18) f
  let f := (List.range workspaceCount).foldl (fun f dot =>
    let active := dot = s.currentWorkspace
    f.fillRoundedRect (panelMargin + width / 2 - 30 + dot * 12 : ℕ) (panelMargin + 13)
      (if active then 8 else 4) 4 2
      (if active then colorAccent
        else if workspaceDotAt s.cursorX s.cursorY = some dot then colorText
        else colorTextMuted)) f
  let f := f.drawText (panelMargin + width / 2 + 8 : ℕ) (panelMargin + 10)
    (digits decor.hour ++ [0x3A] ++ digits decor.minute) colorText
  let tray : ℤ := (panelMargin + width - 12 : ℕ)
  let f := (List.range 3).foldl (fun f bar =>
    f.fillRect (tray - 8 + bar * 4) (panelMargin + 18 - bar * 3) 2 (4 + bar * 3)
      colorTextMuted) f
  let f := f.fillRect (tray - 34) (panelMargin + 12) 4 7 colorTextMuted
  let f := f.fillRect (tray - 30) (panelMargin + 10) 2 11 colorTextMuted
  let f := f.strokeRect (tray - 58) (panelMargin + 10) 15 9 colorTextMuted
  f.fillRect (tray - 42) (panelMargin + 13) 2 3 colorTextMuted

/-- One entry of the taskbar at `itemX`. -/
def drawTaskbarItem (frame : Frame) (w : Window) (hovered itemWidth itemX : ℕ) : Frame :=
  let focused : Bool := w.id = s.focusedWindow
  let f := frame.fillRoundedRect itemX (bottomBarY + 6) itemWidth (bottomBarHeight - 12) 6
    (if focused then colorTitleFocused else if w.id = hovered then colorSurfaceHover
      else colorTaskbarItem)
  let f := f.drawShellIcon decor.shellIcons (shellIconForWindow w) (itemX + 6) (bottomBarY + 9) 22
  let f := f.drawText (itemX + 32) (bottomBarY + 16) (w.titleText.take ((itemWidth - 36) / 5))
    (if w.minimized then colorTextMuted else colorText)
  if focused && !w.minimized then
    f.fillRect (itemX + 8) (bottomBarY + bottomBarHeight - 4) (itemWidth - 16) 2 colorAccent
  else f

def drawTaskbar (frame : Frame) : Frame :=
  let width := screenWidth - 2 * bottomBarMargin
  let f := frame.drawShadow bottomBarMargin bottomBarY width bottomBarHeight
  let f := f.blendRoundedRect bottomBarMargin bottomBarY width bottomBarHeight cornerRadius
    colorPanelBg panelBlendAlpha
  let itemWidth := taskbarItemWidth s.table s.currentWorkspace
  let hovered := (taskbarItemAt s.table s.currentWorkspace s.cursorX s.cursorY).getD 0
  let listed := (List.range windowLimit).filter fun i => (s.table i).listed s.currentWorkspace
  listed.zipIdx.foldl (fun f (slot, i) =>
    drawTaskbarItem decor s f (s.table slot) hovered itemWidth
      (bottomBarMargin + 8 + i * (itemWidth + taskbarItemGap))) f

def launcherLabel : ℕ → List UInt8
  | 0 => [0x54, 0x45, 0x52, 0x4D, 0x49, 0x4E, 0x41, 0x4C]
  | 1 => [0x43, 0x4C, 0x41, 0x53, 0x53, 0x49, 0x43, 0x55, 0x42, 0x45]
  | 2 => [0x44, 0x4F, 0x4F, 0x4D]
  | _ => [0x51, 0x55, 0x41, 0x4B, 0x45]

def drawLauncherCell (frame : Frame) (index : ℕ) : Frame :=
  let cellY : ℤ := launcherCellY index
  let f := if s.launcherSelection = index then
      frame.fillRoundedRect (launcherX + 6) cellY (launcherWidth - 12) launcherCellHeight 4
        colorSurfaceHover
    else frame
  let f := f.drawShellIcon decor.shellIcons (launcherIcon index) (launcherX + 15) (cellY + 10) 22
  f.drawText (launcherX + 48) (cellY + 18) (launcherLabel index) colorText

def drawLauncher (frame : Frame) : Frame :=
  let f := frame.drawShadow launcherX launcherY launcherWidth launcherHeight
  let f := f.blendRoundedRect launcherX launcherY launcherWidth launcherHeight cornerRadius
    colorPanelBg panelBlendAlpha
  let f := f.drawText (launcherX + 12) (launcherY + 11)
    [0x41, 0x50, 0x50, 0x4C, 0x49, 0x43, 0x41, 0x54, 0x49, 0x4F, 0x4E, 0x53] colorTextMuted
  let f := f.fillRect (launcherX + 8) (launcherY + launcherHeaderHeight - 1) (launcherWidth - 16) 1
    colorBorder
  (List.range launcherCellCount).foldl (fun f index => drawLauncherCell decor s f index) f

/-- The windows over the wallpaper, from the lowest to the topmost. -/
def paintWindows : Option Frame :=
  (paintOrder s.table).foldlM (fun f i => paintWindow decor memory s f (s.table i))
    (drawWallpaper decor)

/-- `composite`: the frame that is presented. -/
def composite : Option Frame :=
  (paintWindows decor memory s).map fun f =>
    let f := drawTaskbar decor s (drawPanel decor s (drawPreview s f))
    if s.launcherOpen then drawLauncher decor s f else f

end Compositor

end DemonOS
