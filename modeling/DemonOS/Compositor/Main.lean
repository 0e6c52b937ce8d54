import DemonOS.Compositor.Window

/-!
# The event loop of the compositor

`rust_main`: what the compositor does with one message of the window service or one input event.
What the kernel answers to its calls is a parameter of the step, and the calls that others can
notice are kept in the order in which they are made (`calls`). Left out are the cursor's image, the
reports and log lines, and when a frame is presented.
-/

namespace DemonOS

namespace Compositor

def opcodeCreate : UInt16 := 2
def opcodeFocus : UInt16 := 6
def opcodePointer : UInt16 := 7
def opcodeKey : UInt16 := 8
def opcodeClose : UInt16 := 9
def opcodeMove : UInt16 := 10
def opcodeButton : UInt16 := 11
def opcodePointerWarp : UInt16 := 12

def inputKeyDown : UInt16 := 1
def inputKeyUp : UInt16 := 2
def inputMouseMove : UInt16 := 3
def inputMouseButtonDown : UInt16 := 4
def inputMouseButtonUp : UInt16 := 5

def keyEscape : UInt16 := 0x01
def keyWorkspace1 : UInt16 := 0x02
def keyWorkspace3 : UInt16 := 0x04
def keyTab : UInt16 := 0x0F
def keyEnter : UInt16 := 0x1C
def keySpace : UInt16 := 0x39
def keyF4 : UInt16 := 0x3E
def keyF9 : UInt16 := 0x43
def keyF10 : UInt16 := 0x44
def keyUp : UInt16 := 0x148
def keyDown : UInt16 := 0x150
def inputModAlt : UInt32 := 4
def inputModCtrl : UInt32 := 16

/-- A `demon_window_message` as it arrives, the fields nothing reads left out. -/
structure WindowMessage where
  opcode : UInt16
  windowId : UInt32
  x : Int32 := 0
  y : Int32 := 0
  width : UInt32 := 0
  height : UInt32 := 0
  surfaceId : UInt32 := 0
  payloadLength : UInt32 := 0
  payload : Vector UInt8 24 := Vector.replicate 24 0

structure InputEvent where
  kind : UInt16
  code : UInt16 := 0
  x : Int32 := 0
  y : Int32 := 0
  value : Int32 := 0
  modifiers : UInt32 := 0

/-- A `demon_window_message` to a client. -/
structure WindowEvent where
  opcode : UInt16
  serial : ℕ
  windowId : ℕ
  x : ℤ
  y : ℤ
  width : ℕ := 0
  height : ℕ := 0
  deriving DecidableEq

/-- The event channels: DemonX's, and `desktop.win` with a digit. -/
inductive EventChannel
  | demonx
  | win (digit : ℕ)

inductive Program
  | classicube
  | doom
  | quake
  deriving DecidableEq

inductive Call
  | windowEvent (event : WindowEvent)
  | surfaceUnmap (handle : ℕ)
  | handleClose (handle : ℕ)
  | spawn (program : Program) (services : ℕ)
  deriving DecidableEq

/-- What the kernel answers during a step. -/
structure Answers where
  handleQuery : ℕ → ℕ → UInt64
  surfaceMap : ℕ → UInt64
  channelConnect : EventChannel → UInt64

def uint64Max : UInt64 := 0xFFFFFFFFFFFFFFFF

structure Desktop where
  table : WindowTable := fun _ => .empty
  nextZ : ℕ := 1
  focusedWindow : ℕ := 0
  cursorX : ℕ := 60
  cursorY : ℕ := 80
  draggingId : ℕ := 0
  dragGrabX : ℤ := 0
  dragGrabY : ℤ := 0
  resizingId : ℕ := 0
  resizeGrabX : ℤ := 0
  resizeGrabY : ℤ := 0
  resizeStartWidth : ℕ := 0
  resizeStartHeight : ℕ := 0
  currentWorkspace : ℕ := 0
  launcherOpen : Bool := false
  launcherSelection : ℕ := 0
  suppressedKeyUp : UInt16 := 0
  calls : List Call := []

namespace Desktop

variable (a : Answers) (s : Desktop)

def call (c : Call) : Desktop := { s with calls := s.calls ++ [c] }

def setWindow (slot : ℕ) (w : Window) : Desktop :=
  { s with table := Function.update s.table slot w }

/-- The window on top of all others. -/
def raise (slot : ℕ) : Desktop :=
  { s.setWindow slot { s.table slot with z := s.nextZ } with nextZ := add32 s.nextZ 1 }

/-- The window brought back, raised and focused. -/
def restore (slot : ℕ) : Desktop :=
  { (s.setWindow slot { s.table slot with minimized := false }).raise slot with
    focusedWindow := (s.table slot).id }

def focusTop : Desktop := { s with focusedWindow := topId s.table s.currentWorkspace }

/-- The window hidden, the focus to the top one. -/
def minimize (slot : ℕ) : Desktop :=
  (s.setWindow slot { s.table slot with minimized := true }).focusTop

def eventChannel (targetId : ℕ) : EventChannel :=
  if demonxWindowIdBase ≤ targetId then .demonx else .win (targetId % 10)

/-- `send_window_event`: an event whose channel cannot be connected is dropped. -/
def sendWindowEvent (event : WindowEvent) : Desktop :=
  if a.channelConnect (eventChannel event.windowId) = uint64Max then s
  else s.call (.windowEvent event)

def dropSurface (w : Window) : Desktop :=
  if w.surfaceId ≠ 0 then (s.call (.surfaceUnmap w.surfaceId)).call (.handleClose w.surfaceId)
  else s

/-- `close_window`: the client is told, and the focus goes to the top window. -/
def closeWindow (slot : ℕ) : Desktop :=
  let w := s.table slot
  let told := if demonxWindowIdBase ≤ w.id then
      s.sendWindowEvent a { opcode := opcodeClose, serial := 9, windowId := w.id, x := 0, y := 0 }
    else s
  ((told.dropSurface w).setWindow slot .empty).focusTop

/-! ## Messages -/

def fits (m : WindowMessage) (minWidth minHeight : ℕ) : Bool :=
  0 ≤ m.x.toInt && 0 ≤ m.y.toInt && minWidth ≤ m.width.toNat && minHeight ≤ m.height.toNat
    && add32 m.x.toInt.toNat m.width.toNat ≤ screenWidth
    && add32 m.y.toInt.toNat m.height.toNat ≤ screenHeight

def createAccepted (m : WindowMessage) : Bool :=
  fits m minCreateSize minCreateSize && m.width.toNat ≤ screenWidth
    && m.height.toNat ≤ screenHeight && (findSlot s.table m.windowId.toNat).isNone

def createdWindow (m : WindowMessage) : Window where
  inUse := true
  id := m.windowId.toNat
  z := s.nextZ
  x := m.x.toInt.toNat
  y := m.y.toInt.toNat
  width := m.width.toNat
  height := m.height.toNat
  surfaceWidth := m.width.toNat
  surfaceHeight := m.height.toNat
  restoreX := m.x.toInt.toNat
  restoreY := m.y.toInt.toNat
  restoreWidth := m.width.toNat
  restoreHeight := m.height.toNat
  workspace := s.currentWorkspace
  title := ⟨m.payload.toList.take (min m.payloadLength.toNat 24),
    (List.length_take_le _ _).trans (Nat.min_le_right _ _)⟩

/-- The address at which the surface is mapped, if it is one whose size is known and small enough. -/
def mapSurface (handle : ℕ) : Option ℕ :=
  let width := (a.handleQuery handle 0).toNat
  let height := (a.handleQuery handle 1).toNat
  let pixels := (a.handleQuery handle 2).toNat
  if 0 < width ∧ 0 < height ∧ width ≤ screenWidth ∧ height ≤ screenHeight
      ∧ width * height = pixels then
    let address := a.surfaceMap handle
    if address ≠ 0 ∧ address ≠ uint64Max then some address.toNat else none
  else none

/-- The new window takes the surface, or the handle is closed. -/
def attachSurface (slot handle : ℕ) : Desktop :=
  if handle = 0 then s
  else match mapSurface a handle with
    | some address => s.setWindow slot { s.table slot with
        surfaceId := handle
        mappedAddress := address
        surfaceWidth := (a.handleQuery handle 0).toNat
        surfaceHeight := (a.handleQuery handle 1).toNat }
    | none => s.call (.handleClose handle)

def create (m : WindowMessage) : Desktop :=
  if s.createAccepted m then
    match findFreeSlot s.table with
    | none => s
    | some slot =>
      let placed := { s.setWindow slot (s.createdWindow m) with nextZ := add32 s.nextZ 1 }
      { placed.attachSurface a slot m.surfaceId.toNat with focusedWindow := m.windowId.toNat }
  else s

def close (m : WindowMessage) : Desktop :=
  match findSlot s.table m.windowId.toNat with
  | none => s
  | some slot =>
    let gone := (s.dropSurface (s.table slot)).setWindow slot .empty
    if s.focusedWindow = m.windowId.toNat then gone.focusTop else gone

def focus (m : WindowMessage) : Desktop :=
  match findSlot s.table m.windowId.toNat with
  | none => s
  | some slot => s.restore slot

def move (m : WindowMessage) : Desktop :=
  match findSlot s.table m.windowId.toNat with
  | none => s
  | some slot =>
    if fits m minMoveWidth minMoveHeight then
      s.setWindow slot ((s.table slot).place
        (m.x.toInt.toNat, m.y.toInt.toNat, m.width.toNat, m.height.toNat))
    else s

/-- The cursor at this point, or the nearest of the screen. -/
def moveCursor (x y : Int32) : Desktop :=
  { s with
    cursorX := min (max x.toInt 0).toNat (screenWidth - 1)
    cursorY := min (max y.toInt 0).toNat (screenHeight - 1) }

def message (m : WindowMessage) : Desktop :=
  if m.opcode = opcodeCreate then s.create a m
  else if m.opcode = opcodeClose then s.close m
  else if m.opcode = opcodeFocus then s.focus m
  else if m.opcode = opcodeMove then s.move m
  else if m.opcode = opcodePointerWarp then s.moveCursor m.x m.y
  else s

/-! ## The pointer -/

/-- A pointer or button event to a window of DemonX, if its surface is shown at the cursor. -/
def sendPointer (slot : ℕ) (opcode : UInt16) (serial width height : ℕ) : Desktop :=
  let w := s.table slot
  if demonxWindowIdBase ≤ w.id then
    match w.clientPoint s.cursorX s.cursorY with
    | none => s
    | some (x, y) => s.sendWindowEvent a
        { opcode := opcode, serial := serial, windowId := w.id, x := x, y := y, width := width,
          height := height }
  else s

/-- A maximized window at the size it had. -/
def pulledOut (w : Window) : Window :=
  { w.place (w.restoreX, w.restoreY,
      min (max w.restoreWidth minWindowWidth) screenWidth,
      min (max w.restoreHeight minWindowHeight)
        (screenHeight - reservedBottom - reservedTop - titleHeight)) with
    maximized := false }

/-- Where the pointer holds a window that is pulled out, the same part of its width. -/
def pulledGrab (w : Window) : ℤ :=
  i32 (min (s.cursorX - w.x) w.width * (pulledOut w).width / max w.width 1 : ℕ)

/-- A window with its corner at this point, or as near as the desktop allows. -/
def draggedTo (w : Window) (x y : ℤ) : Window :=
  { w with
    x := u32 (min (max x 0) (screenWidth - min w.width screenWidth : ℕ))
    y := u32 (min (max y (reservedTop + titleHeight : ℕ))
      (screenHeight - reservedBottom - min w.height (screenHeight - reservedBottom) : ℕ))
    maximized := false }

/-- A window that the pointer holds, moved with it. -/
def dragTo (slot : ℕ) : Desktop :=
  let old := s.table slot
  let grabX := if old.maximized then s.pulledGrab old else s.dragGrabX
  let w := if old.maximized then pulledOut old else old
  { s.setWindow slot (draggedTo w (i32 (s.cursorX - grabX)) (i32 (s.cursorY - s.dragGrabY))) with
    dragGrabX := grabX }

/-- A window of this size, or as near to it as the desktop allows. -/
def resizedTo (w : Window) (width height : ℤ) : Window :=
  { w with
    width := u32 (min (max width minWindowWidth) (i32 (sub32 screenWidth w.x)))
    height := u32 (min (max height minWindowHeight)
      (i32 (sub32 (screenHeight - reservedBottom) w.y)))
    maximized := false }

/-- A window whose corner the pointer holds. -/
def resizeTo (slot : ℕ) : Desktop :=
  s.setWindow slot (resizedTo (s.table slot)
    (i32 (i32 s.resizeStartWidth + i32 (s.cursorX - s.resizeGrabX)))
    (i32 (i32 s.resizeStartHeight + i32 (s.cursorY - s.resizeGrabY))))

def hoverLauncher : Desktop :=
  if s.launcherOpen then
    match launcherCellAt s.cursorX s.cursorY with
    | none => s
    | some cell => { s with launcherSelection := cell }
  else s

/-- The pointer has moved: the gesture goes on, or the window below it is told. -/
def pointerMoved : Desktop :=
  if s.draggingId ≠ 0 then
    match findSlot s.table s.draggingId with
    | some slot => s.dragTo slot
    | none => { s with draggingId := 0 }
  else if s.resizingId ≠ 0 then
    match findSlot s.table s.resizingId with
    | some slot => s.resizeTo slot
    | none => { s with resizingId := 0 }
  else
    match topSlotAt s.table s.currentWorkspace s.cursorX s.cursorY with
    | some slot => s.sendPointer a slot opcodePointer 5 0 0
    | none => s

def mouseMove (e : InputEvent) : Desktop := ((s.moveCursor e.x e.y).hoverLauncher).pointerMoved a

def classicubeServiceMask : ℕ := 2 ^ 1 + 2 ^ 3 + 2 ^ 4 + 2 ^ 6 + 2 ^ 9
def doomServiceMask : ℕ := classicubeServiceMask + 2 ^ 11

/-- The title a launcher cell looks for, and the program it starts where no window has it. -/
def launcherCell : ℕ → Option (List UInt8 × Option (Program × ℕ))
  | 0 => some ([0x58, 0x54, 0x45, 0x52, 0x4D], none)
  | 1 => some ([0x43, 0x6C, 0x61, 0x73, 0x73, 0x69, 0x43, 0x75, 0x62, 0x65],
      some (.classicube, classicubeServiceMask))
  | 2 => some ([0x46, 0x72, 0x65, 0x65, 0x64, 0x6F, 0x6F, 0x6D], some (.doom, doomServiceMask))
  | 3 => some ([0x51, 0x75, 0x61, 0x6B, 0x65], some (.quake, classicubeServiceMask))
  | _ => none

/-- `activate_launcher_cell`: a window of that title is shown, whatever its workspace. -/
def activateLauncherCell (cell : ℕ) : Desktop :=
  match launcherCell cell with
  | none => s
  | some (title, program) =>
    match findWindowByTitle s.table title with
    | some slot => { s.restore slot with currentWorkspace := (s.table slot).workspace }
    | none =>
      match program with
      | none => s
      | some (p, services) => s.call (.spawn p services)

def showWorkspace (workspace : ℕ) : Desktop := { s with currentWorkspace := workspace }.focusTop

inductive PressTarget
  | launcherButton
  | quickLaunch (cell : ℕ)
  | launcher (cell : Option ℕ)
  | workspaceDot (dot : ℕ)
  | taskbarItem (id : ℕ)
  | title (slot : ℕ)
  | content (slot : ℕ)
  | background
  deriving DecidableEq

def pressTarget : PressTarget :=
  let x := s.cursorX
  let y := s.cursorY
  if inLauncherButton x y then .launcherButton
  else match quickLaunchAt x y with
  | some cell => .quickLaunch cell
  | none =>
    if s.launcherOpen then .launcher (launcherCellAt x y)
    else match workspaceDotAt x y with
    | some dot => .workspaceDot dot
    | none =>
      match taskbarItemAt s.table s.currentWorkspace x y with
      | some id => .taskbarItem id
      | none =>
        match decorationHitAt s.table s.currentWorkspace x y with
        | some slot => .title slot
        | none =>
          match topSlotAt s.table s.currentWorkspace x y with
          | some slot => .content slot
          | none => .background

def pressTaskbarItem (id : ℕ) : Desktop :=
  match findSlot s.table id with
  | none => s
  | some slot =>
    if s.focusedWindow = id ∧ (s.table slot).minimized = false then s.minimize slot
    else { s.restore slot with focusedWindow := id }

/-- A press on a title bar: the control under the pointer, or the start of a drag. -/
def pressTitle (slot : ℕ) : Desktop :=
  let w := s.table slot
  let raised := { s.raise slot with focusedWindow := w.id }
  let control := w.titleControlAt (sub32 s.cursorX w.x)
  if control = 2 then raised.closeWindow a slot
  else if control = 1 then raised.setWindow slot (toggleMaximize (raised.table slot))
  else if control = 3 then { raised.minimize slot with draggingId := 0, resizingId := 0 }
  else
    { raised with
      draggingId := w.id
      dragGrabX := i32 (s.cursorX - i32 w.x)
      dragGrabY := i32 (s.cursorY - i32 w.y) }

/-- A press on a window's content: the start of a resize, or a click for its client. -/
def pressContent (slot : ℕ) (code : UInt16) : Desktop :=
  let w := s.table slot
  let raised := { s.raise slot with focusedWindow := w.id }
  if demonxWindowIdBase ≤ w.id ∧ w.hitsResizeCorner s.cursorX s.cursorY then
    { raised with
      resizingId := w.id
      resizeGrabX := s.cursorX
      resizeGrabY := s.cursorY
      resizeStartWidth := w.width
      resizeStartHeight := w.height }
  else raised.sendPointer a slot opcodeButton 4 1 code.toNat

def press (code : UInt16) : Desktop :=
  match s.pressTarget with
  | .launcherButton => { s with launcherOpen := !s.launcherOpen, launcherSelection := 0 }
  | .quickLaunch cell => { s.activateLauncherCell cell with launcherOpen := false }
  | .launcher none => { s with launcherOpen := false }
  | .launcher (some cell) => { s.activateLauncherCell cell with launcherOpen := false }
  | .workspaceDot dot => s.showWorkspace dot
  | .taskbarItem id => s.pressTaskbarItem id
  | .title slot => s.pressTitle a slot
  | .content slot => s.pressContent a slot code
  | .background => s

def buttonDown (e : InputEvent) : Desktop := (s.moveCursor e.x e.y).press a e.code

/-- A drag that ends at an edge of the desktop tiles its window. -/
def snap : Desktop :=
  let target := snapTarget s.cursorX s.cursorY
  if s.draggingId ≠ 0 ∧ target ≠ 0 then
    match findSlot s.table s.draggingId with
    | none => s
    | some slot => s.setWindow slot
        { (s.table slot).remember.place (snapGeometry target) with maximized := true }
  else s

def release (code : UInt16) : Desktop :=
  let ended := { s.snap with draggingId := 0, resizingId := 0 }
  if s.draggingId = 0 ∧ s.resizingId = 0 then
    match topSlotAt ended.table ended.currentWorkspace ended.cursorX ended.cursorY with
    | none => ended
    | some slot => ended.sendPointer a slot opcodeButton 6 2 code.toNat
  else ended

def buttonUp (e : InputEvent) : Desktop := (s.moveCursor e.x e.y).release a e.code

/-! ## Keys -/

def hasCtrl (e : InputEvent) : Bool := e.modifiers &&& inputModCtrl != 0
def hasAlt (e : InputEvent) : Bool := e.modifiers &&& inputModAlt != 0
def isWorkspaceKey (code : UInt16) : Bool := keyWorkspace1 ≤ code && code ≤ keyWorkspace3

def workspaceShortcut (e : InputEvent) : Bool := hasCtrl e && isWorkspaceKey e.code
def launcherShortcut (e : InputEvent) : Bool := hasCtrl e && e.code == keySpace
def cycleShortcut (e : InputEvent) : Bool := hasAlt e && e.code == keyTab
def windowShortcut (e : InputEvent) : Bool :=
  hasAlt e && (e.code == keyF4 || e.code == keyF9 || e.code == keyF10)

def cycleFocus : Desktop :=
  match findCycleSlot s.table s.currentWorkspace s.focusedWindow with
  | none => s
  | some slot => s.restore slot

def windowKey (code : UInt16) : Desktop :=
  match findSlot s.table s.focusedWindow with
  | none => s
  | some slot =>
    if code = keyF4 then s.closeWindow a slot
    else if code = keyF9 then s.minimize slot
    else s.setWindow slot (toggleMaximize (s.table slot))

/-- A key that goes down while the launcher is open. -/
def launcherKey (code : UInt16) : Desktop :=
  if code = keyEscape then { s with suppressedKeyUp := code, launcherOpen := false }
  else if code = keyUp then
    { s with launcherSelection :=
        (s.launcherSelection + launcherCellCount - 1) % launcherCellCount }
  else if code = keyDown then
    { s with launcherSelection := (s.launcherSelection + 1) % launcherCellCount }
  else if code = keyEnter then
    { { s with suppressedKeyUp := code }.activateLauncherCell s.launcherSelection with
      launcherOpen := false }
  else if isWorkspaceKey code then
    let cell := (code - keyWorkspace1).toNat
    { { s with suppressedKeyUp := code, launcherSelection := cell }.activateLauncherCell cell with
      launcherOpen := false }
  else s

/-- `packed_type_code`. -/
def packedTypeCode (kind code : UInt16) : ℤ := i32 (kind.toNat + code.toNat * 2 ^ 16 : ℕ)

/-- A key that is for the focused window. -/
def forwardKey (e : InputEvent) : Desktop :=
  s.sendWindowEvent a
    { opcode := opcodeKey, serial := 3, windowId := s.focusedWindow
      x := packedTypeCode e.kind e.code, y := i32 e.modifiers.toNat
      width := u32 e.value.toInt }

def key (e : InputEvent) : Desktop :=
  let down := e.kind = inputKeyDown
  if e.kind = inputKeyUp ∧ s.suppressedKeyUp = e.code then { s with suppressedKeyUp := 0 }
  else if workspaceShortcut e then
    if down then
      { { s with suppressedKeyUp := e.code }.showWorkspace (e.code - keyWorkspace1).toNat with
        launcherOpen := false }
    else s
  else if launcherShortcut e then
    if down then
      { s with suppressedKeyUp := e.code, launcherOpen := !s.launcherOpen, launcherSelection := 0 }
    else s
  else if cycleShortcut e then
    if down then { { s with suppressedKeyUp := e.code }.cycleFocus with launcherOpen := false }
    else s
  else if windowShortcut e then
    if down then
      { { s with suppressedKeyUp := e.code }.windowKey a e.code with
        draggingId := 0, resizingId := 0, launcherOpen := false }
    else s
  else if s.launcherOpen then
    if down then s.launcherKey e.code else s
  else if s.focusedWindow ≠ 0 then s.forwardKey a e
  else s

def input (e : InputEvent) : Desktop :=
  if e.kind = inputMouseMove then s.mouseMove a e
  else if e.kind = inputMouseButtonDown then s.buttonDown a e
  else if e.kind = inputMouseButtonUp then s.buttonUp a e
  else if e.kind = inputKeyDown ∨ e.kind = inputKeyUp then s.key a e
  else s

end Desktop

/-- What `compositor_wait` hands over. -/
inductive Input
  | message (m : WindowMessage)
  | event (e : InputEvent)

/-- One turn of the loop, with what the kernel answers meanwhile. -/
def step (s : Desktop) : Answers × Input → Desktop
  | (a, .message m) => s.message a m
  | (a, .event e) => s.input a e

end Compositor

end DemonOS
