import DemonOS.DemonX.Protocol
import DemonOS.DemonX.Tables
import DemonOS.Lib.Table

/-!
# The state of the DemonX server

The tables of `user/demonx_server.c` and the functions that keep them: windows and their surfaces,
the messages to the compositor, and what becomes of the resources of a client that is gone. The
window records and the reply handles share bytes, so both are read from memory; the other tables are
apart from them and from each other.

What the kernel answers to the server's system calls is a function of the calls made so far.
-/

namespace DemonOS

namespace DemonX

def failure : UInt64 := 0xFFFFFFFFFFFFFFFF
def fallbackSurface : UInt32 := 0xFFFFFFFF
def windowMaxWidth : ℕ := 640
def windowMaxHeight : ℕ := 480
def drawChunkPixels : ℕ := 48
def backgroundColor : UInt32 := 0xFF101722

/-! ## Records -/

/-- `struct demonx_window`; `x` and `y` are signed. -/
structure Window where
  id : UInt32 := 0
  parent : UInt32 := 0
  x : UInt16 := 0
  y : UInt16 := 0
  width : UInt16 := 0
  height : UInt16 := 0
  border : UInt16 := 0
  windowClass : UInt16 := 0
  eventMask : UInt32 := 0
  eventClient : UInt32 := 0
  keyEventClient : UInt32 := 0
  ownerClient : UInt32 := 0
  surfaceHandle : UInt32 := 0
  compositorSurface : UInt32 := 0
  backgroundPixel : UInt32 := 0
  backgroundPixmap : UInt32 := 0
  cursor : UInt32 := 0
  mapped : UInt8 := 0
  used : UInt8 := 0
  savedBy : UInt8 := 0

/-- The window record at `a`. -/
def Window.load (m : ℕ → UInt8) (a : ℕ) : Window where
  id := read32 m a
  parent := read32 m (a + 4)
  x := read16 m (a + 8)
  y := read16 m (a + 10)
  width := read16 m (a + 12)
  height := read16 m (a + 14)
  border := read16 m (a + 16)
  windowClass := read16 m (a + 18)
  eventMask := read32 m (a + 20)
  eventClient := read32 m (a + 24)
  keyEventClient := read32 m (a + 28)
  ownerClient := read32 m (a + 32)
  surfaceHandle := read32 m (a + 36)
  compositorSurface := read32 m (a + 40)
  backgroundPixel := read32 m (a + 44)
  backgroundPixmap := read32 m (a + 48)
  cursor := read32 m (a + 52)
  mapped := read8 m (a + 56)
  used := read8 m (a + 57)
  savedBy := read8 m (a + 58)

/-- The memory with the window record at `a` set. -/
def Window.store (w : Window) (m : ℕ → UInt8) (a : ℕ) : ℕ → UInt8 :=
  let m := write32 (write32 m a w.id) (a + 4) w.parent
  let m := write16 (write16 m (a + 8) w.x) (a + 10) w.y
  let m := write16 (write16 m (a + 12) w.width) (a + 14) w.height
  let m := write16 (write16 m (a + 16) w.border) (a + 18) w.windowClass
  let m := write32 (write32 m (a + 20) w.eventMask) (a + 24) w.eventClient
  let m := write32 (write32 m (a + 28) w.keyEventClient) (a + 32) w.ownerClient
  let m := write32 (write32 m (a + 36) w.surfaceHandle) (a + 40) w.compositorSurface
  let m := write32 (write32 m (a + 44) w.backgroundPixel) (a + 48) w.backgroundPixmap
  let m := write8 (write32 m (a + 52) w.cursor) (a + 56) w.mapped
  write8 (write8 m (a + 57) w.used) (a + 58) w.savedBy

structure Cursor where
  id : UInt32 := 0
  shape : UInt16 := 0
  ownerClient : UInt8 := 0
  used : Bool := false

structure Atom where
  hash : UInt32 := 0
  id : UInt16 := 0
  length : UInt8 := 0
  used : Bool := false
  name : ℕ → UInt8 := fun _ => 0

structure Property where
  window : UInt32 := 0
  atom : UInt32 := 0
  type : UInt32 := 0
  itemCount : UInt32 := 0
  format : UInt8 := 0
  dataLength : UInt8 := 0
  used : Bool := false
  data : ℕ → UInt8 := fun _ => 0

structure Gc where
  id : UInt32 := 0
  drawable : UInt32 := 0
  foreground : UInt32 := 0
  font : UInt32 := 0
  ownerClient : UInt32 := 0
  used : Bool := false

structure Pixmap where
  id : UInt32 := 0
  ownerClient : UInt32 := 0
  surfaceHandle : UInt32 := 0
  width : UInt16 := 0
  height : UInt16 := 0
  depth : UInt8 := 0
  used : Bool := false

structure PassiveGrab where
  window : UInt32 := 0
  client : UInt32 := 0
  modifiers : UInt32 := 0
  eventMask : UInt32 := 0
  detail : UInt8 := 0
  kind : UInt8 := 0
  used : Bool := false

/-- `struct demon_window_message` to the compositor. -/
structure WindowMessage where
  opcode : ℕ
  serial : UInt32
  windowId : UInt32 := 0
  x : ℤ := 0
  y : ℤ := 0
  width : ℕ := 0
  height : ℕ := 0
  surfaceId : UInt32 := 0
  payload : List UInt8 := []

def windowCreate : ℕ := 2
def windowFocus : ℕ := 6
def windowPointer : ℕ := 7
def windowKey : ℕ := 8
def windowClose : ℕ := 9
def windowMove : ℕ := 10
def windowButton : ℕ := 11
def windowPointerWarp : ℕ := 12

inductive SystemCall where
  | serviceOpen (service : ℕ)
  | connectCompositor
  | connectReply (client : UInt32)
  | sendWindow (handle : UInt64) (message : WindowMessage)
  | sendRecord (handle : UInt64) (record : Packet)
  | surfaceCreate (factory : UInt64) (width height : ℕ)
  | surfaceWrite (surface : UInt32) (pixels : List UInt32) (offset : ℕ)
  | surfaceShare (surface : UInt32) (channel : UInt64)
  | surfaceMap (surface : UInt32)
  | readPixel (surface : UInt32) (index : ℕ)
  | surfaceDamage (surface : UInt32) (x y width height : UInt32)
  | surfaceUnmap (surface : UInt32)
  | handleClose (handle : UInt64)
  | handleQuery (handle : UInt32) (field : ℕ)

/-- What the kernel answers to the first of a list of calls, the latest. -/
abbrev Answers := List SystemCall → UInt64

structure Server where
  memory : ℕ → UInt8 := fun _ => 0
  rootEventMask : UInt32 := 0
  rootRedirectClient : UInt32 := 0
  rootEventClient : UInt32 := 0
  atoms : ℕ → Atom := fun _ => {}
  properties : ℕ → Property := fun _ => {}
  surfaceFactoryHandle : UInt64 := 0
  compositorHandle : UInt64 := 0
  compositorSerial : UInt32 := 0
  surfaceFailure : UInt32 := 0
  focusedWindow : UInt32 := 0
  pointerGrabClient : UInt32 := 0
  pointerGrabWindow : UInt32 := 0
  pointerGrabMask : UInt32 := 0
  keyboardGrabClient : UInt32 := 0
  keyboardGrabWindow : UInt32 := 0
  serverGrabClient : UInt32 := 0
  selectionAtom : UInt32 := 0
  selectionOwner : UInt32 := 0
  passiveGrabs : ℕ → PassiveGrab := fun _ => {}
  cursors : ℕ → Cursor := fun _ => {}
  gcs : ℕ → Gc := fun _ => {}
  pixmaps : ℕ → Pixmap := fun _ => {}
  drawPixels : ℕ → UInt32 := fun _ => 0
  assembly : Assembly := {}
  outgoing : Packet := {}
  calls : List SystemCall := []
  /-- The clients that have been released, the latest first; nothing reads it. -/
  released : List UInt32 := []

namespace Server

def incoming (s : Server) : Packet := s.assembly.incoming

/-- `windows[i]`. -/
def window (s : Server) (i : ℕ) : Window :=
  Window.load s.memory (ServerTable.windows.layout.address i)

def setWindow (s : Server) (i : ℕ) (w : Window) : Server :=
  { s with memory := w.store s.memory (ServerTable.windows.layout.address i) }

/-- `reply_handles[c]`. -/
def replyHandle (s : Server) (c : ℕ) : UInt64 :=
  read64 s.memory (ServerTable.replyHandles.layout.address c)

def setReplyHandle (s : Server) (c : ℕ) (handle : UInt64) : Server :=
  { s with memory := write64 s.memory (ServerTable.replyHandles.layout.address c) handle }

def call (s : Server) (sys : Answers) (c : SystemCall) : UInt64 × Server :=
  (sys (c :: s.calls), { s with calls := c :: s.calls })

def call' (s : Server) (sys : Answers) (c : SystemCall) : Server := (s.call sys c).2

/-- A loop that stops at its first failure. -/
def forEach {α : Type} (f : α → Server → Bool × Server) : List α → Server → Bool × Server
  | [], s => (true, s)
  | a :: as, s => if (f a s).1 then forEach f as (f a s).2 else (false, (f a s).2)

/-! ## Looking resources up -/

def findWindow (s : Server) (id : UInt32) : Option ℕ :=
  Table.firstIndex windowLimit fun i => (s.window i).used ≠ 0 ∧ (s.window i).id = id

def findPixmap (s : Server) (id : UInt32) : Option ℕ :=
  Table.firstIndex pixmapLimit fun i => (s.pixmaps i).used ∧ (s.pixmaps i).id = id

def findGc (s : Server) (id : UInt32) : Option ℕ :=
  Table.firstIndex gcLimit fun i => (s.gcs i).used ∧ (s.gcs i).id = id

def findCursor (s : Server) (id : UInt32) : Option ℕ :=
  Table.firstIndex cursorLimit fun i => (s.cursors i).used ∧ (s.cursors i).id = id

def findAtom (s : Server) (id : UInt32) : Option ℕ :=
  Table.firstIndex atomLimit fun i => (s.atoms i).used ∧ (s.atoms i).id.toUInt32 = id

def findProperty (s : Server) (window atom : UInt32) : Option ℕ :=
  Table.firstIndex propertyLimit fun i =>
    (s.properties i).used ∧ (s.properties i).window = window ∧ (s.properties i).atom = atom

def validDrawable (s : Server) (id : UInt32) : Bool :=
  (s.findWindow id).isSome || (s.findPixmap id).isSome

def validPropertyWindow (s : Server) (id : UInt32) : Bool :=
  id = rootWindow || (s.findWindow id).isSome

def setPixmap (s : Server) (i : ℕ) (p : Pixmap) : Server :=
  { s with pixmaps := Function.update s.pixmaps i p }

def setGc (s : Server) (i : ℕ) (gc : Gc) : Server := { s with gcs := Function.update s.gcs i gc }

def setCursor (s : Server) (i : ℕ) (c : Cursor) : Server :=
  { s with cursors := Function.update s.cursors i c }

def setProperty (s : Server) (i : ℕ) (p : Property) : Server :=
  { s with properties := Function.update s.properties i p }

def setPassiveGrab (s : Server) (i : ℕ) (g : PassiveGrab) : Server :=
  { s with passiveGrabs := Function.update s.passiveGrabs i g }

def resourceBase (clientId : UInt32) : UInt32 := clientId * (resourceMask + 1)

def ownsId (id clientId : UInt32) : Bool := id &&& ~~~resourceMask = resourceBase clientId

/-- `allocate_window`: the record it takes. -/
def allocateWindow (s : Server) (id clientId : UInt32) : Option (ℕ × Server) :=
  if !ownsId id clientId || (s.findWindow id).isSome then none
  else (Table.firstIndex windowLimit fun i => (s.window i).used = 0).map fun i =>
    (i, s.setWindow i { id := id, used := 1 })

def allocatePixmap (s : Server) (id clientId : UInt32) : Option (ℕ × Server) :=
  if (s.findPixmap id).isSome then none
  else (Table.firstIndex pixmapLimit fun i => !(s.pixmaps i).used).map fun i =>
    (i, s.setPixmap i { id := id, ownerClient := clientId, used := true })

def allocateCursor (s : Server) (id clientId : UInt32) : Option (ℕ × Server) :=
  if !ownsId id clientId || (s.findCursor id).isSome then none
  else (Table.firstIndex cursorLimit fun i => !(s.cursors i).used).map fun i =>
    (i, s.setCursor i { id := id, ownerClient := clientId.toUInt8, used := true })

def allocateGc (s : Server) (id clientId : UInt32) : Option (ℕ × Server) :=
  if !ownsId id clientId || (s.findGc id).isSome || (s.findWindow id).isSome then none
  else (Table.firstIndex gcLimit fun i => !(s.gcs i).used).map fun i =>
    (i, s.setGc i { id := id, foreground := 0xFF000000, ownerClient := clientId, used := true })

def propertySlot (s : Server) (window atom : UInt32) : Option (ℕ × Server) :=
  match s.findProperty window atom with
  | some i => some (i, s)
  | none => (Table.firstIndex propertyLimit fun i => !(s.properties i).used).map fun i =>
      (i, s.setProperty i { window := window, atom := atom, used := true })

def matchingPassiveGrab (s : Server) (kind detail : UInt8) (modifiers : UInt32) : Option ℕ :=
  Table.firstIndex passiveGrabLimit fun i =>
    (s.passiveGrabs i).used ∧ (s.passiveGrabs i).kind = kind
      ∧ ((s.passiveGrabs i).detail = 0 ∨ (s.passiveGrabs i).detail = detail)
      ∧ ((s.passiveGrabs i).modifiers = 0x8000 ∨ (s.passiveGrabs i).modifiers = modifiers)

/-! ## Surfaces and the compositor -/

/-- `surface_factory_handle`, opened at its first use. -/
def openFactory (s : Server) (sys : Answers) : Server :=
  if s.surfaceFactoryHandle = 0 then
    let r := s.call sys (.serviceOpen 9)
    { r.2 with surfaceFactoryHandle := r.1 }
  else s

def openCompositor (s : Server) (sys : Answers) : Server :=
  if s.compositorHandle = 0 then
    let r := s.call sys .connectCompositor
    { r.2 with compositorHandle := r.1 }
  else s

def ensureDesktopHandles (s : Server) (sys : Answers) : Bool × Server :=
  let s := (s.openFactory sys).openCompositor sys
  (s.surfaceFactoryHandle ≠ failure ∧ s.compositorHandle ≠ failure, s)

def clampedWidth (w : Window) : ℕ := min w.width.toNat windowMaxWidth
def clampedHeight (w : Window) : ℕ := min w.height.toNat windowMaxHeight

/-- The first `count` pixels of the draw buffer set to one color. -/
def fillDraw (s : Server) (count : ℕ) (color : UInt32) : Server :=
  { s with drawPixels := fun i => if i < count then color else s.drawPixels i }

/-- The window draws into the buffer of the server. -/
def fallBack (s : Server) (i : ℕ) : Server :=
  (s.setWindow i { s.window i with surfaceHandle := fallbackSurface }).fillDraw
    (fallbackWidth * fallbackHeight) backgroundColor

/-- `count` places from `start` on, cut into what one write takes: where each part starts and its
length. -/
def chunks (start count : ℕ) : List (ℕ × ℕ) :=
  (List.range ((count + drawChunkPixels - 1) / drawChunkPixels)).map fun k =>
    (start + k * drawChunkPixels, min (count - k * drawChunkPixels) drawChunkPixels)

/-- `SYSCALL_SURFACE_WRITE`, which is to take all the pixels. -/
def surfaceWritePixels (s : Server) (sys : Answers) (surface : UInt32) (pixels : List UInt32)
    (offset : ℕ) : Bool × Server :=
  let r := s.call sys (.surfaceWrite surface pixels offset)
  (r.1.toNat = pixels.length, r.2)

/-- `count` pixels of the draw buffer written to a surface. -/
def surfaceWrite (s : Server) (sys : Answers) (surface : UInt32) (count offset : ℕ) :
    Bool × Server :=
  s.surfaceWritePixels sys surface ((List.range count).map s.drawPixels) offset

/-- The background of a new surface, in the parts one write takes. -/
def paintBackground (s : Server) (sys : Answers) (surface : UInt32) (count : ℕ) : Bool × Server :=
  let r := forEach (fun part s => s.surfaceWrite sys surface part.2 part.1) (chunks 0 count)
    (s.fillDraw drawChunkPixels backgroundColor)
  if r.1 then r else (false, { r.2 with surfaceFailure := 3 })

/-- A surface of the kernel for `windows[i]`, where it makes one. -/
def makeSurface (s : Server) (sys : Answers) (i : ℕ) : Bool × Server :=
  let width := clampedWidth (s.window i)
  let height := clampedHeight (s.window i)
  let r := s.call sys (.surfaceCreate s.surfaceFactoryHandle width height)
  if r.1 = failure ∨ 0xFFFFFFFF < r.1 then (true, r.2.fallBack i)
  else (r.2.setWindow i { r.2.window i with surfaceHandle := r.1.toUInt32 }).paintBackground sys
    r.1.toUInt32 (width * height)

/-- `create_window_surface` for `windows[i]`. -/
def createWindowSurface (s : Server) (sys : Answers) (i : ℕ) : Bool × Server :=
  if (s.window i).surfaceHandle ≠ 0 then (true, s)
  else
    let s := s.openFactory sys
    if s.surfaceFactoryHandle = failure then (true, s.fallBack i) else s.makeSurface sys i

/-- The position of a window on the desktop: its own and those of its ancestors, sixteen at most. -/
def desktopPosition (s : Server) : ℕ → UInt32 → ℤ × ℤ → ℤ × ℤ
  | 0, _, position => position
  | depth + 1, parent, position =>
    if parent = rootWindow then position
    else match s.findWindow parent with
      | none => position
      | some i => desktopPosition s depth (s.window i).parent
          (position.1 + (s.window i).x.toBitVec.toInt, position.2 + (s.window i).y.toBitVec.toInt)

def desktopPositionOf (s : Server) (w : Window) : ℤ × ℤ :=
  s.desktopPosition 16 w.parent (w.x.toBitVec.toInt, w.y.toBitVec.toInt)

def sendCompositor (s : Server) (sys : Answers) (message : UInt32 → WindowMessage) :
    Bool × Server :=
  let s := { s with compositorSerial := s.compositorSerial + 1 }
  let r := s.call sys (.sendWindow s.compositorHandle (message s.compositorSerial))
  (r.1 = 64, r.2)

/-- The window's name, the property `XA_WM_NAME`, as far as it fits a message. -/
def windowTitle (s : Server) (id : UInt32) : List UInt8 :=
  match s.findProperty id 39 with
  | none => []
  | some i => (List.range (min (s.properties i).dataLength.toNat 24)).map (s.properties i).data

/-- The surface of `windows[i]` shared with the compositor, at its first use there. -/
def shareSurface (s : Server) (sys : Answers) (i : ℕ) : Bool × Server :=
  if (s.window i).compositorSurface = 0 then
    let r := s.call sys (.surfaceShare (s.window i).surfaceHandle s.compositorHandle)
    if r.1 = failure ∨ 0xFFFFFFFF < r.1 then (false, r.2)
    else (true, r.2.setWindow i { r.2.window i with compositorSurface := r.1.toUInt32 })
  else (true, s)

/-- `publish_window` once there is a surface. -/
def announceWindow (s : Server) (sys : Answers) (i : ℕ) : Bool × Server :=
  let ensured := s.ensureDesktopHandles sys
  let s := ensured.2
  if !ensured.1 ∨ (s.window i).surfaceHandle = fallbackSurface then (false, s)
  else
    let shared := s.shareSurface sys i
    let s := shared.2
    if !shared.1 then (false, s)
    else
      let position := s.desktopPositionOf (s.window i)
      s.sendCompositor sys fun serial =>
        { opcode := windowCreate, serial := serial, windowId := (s.window i).id
          x := position.1, y := position.2
          width := clampedWidth (s.window i), height := clampedHeight (s.window i)
          surfaceId := (s.window i).compositorSurface, payload := s.windowTitle (s.window i).id }

def publishWindow (s : Server) (sys : Answers) (i : ℕ) : Bool × Server :=
  let created := s.createWindowSurface sys i
  if !created.1 then created else created.2.announceWindow sys i

def movePublishedWindow (s : Server) (sys : Answers) (i : ℕ) : Server :=
  if (s.window i).mapped = 0 ∨ (s.window i).compositorSurface = 0 then s
  else
    let ensured := s.ensureDesktopHandles sys
    let s := ensured.2
    if !ensured.1 then s
    else
      let position := s.desktopPositionOf (s.window i)
      (s.sendCompositor sys fun serial =>
        { opcode := windowMove, serial := serial, windowId := (s.window i).id
          x := position.1, y := position.2
          width := clampedWidth (s.window i), height := clampedHeight (s.window i) }).2

/-- `move_published_descendants`, as deep as `depth` windows below one another; nothing where the
tree of windows goes deeper. -/
def movePublishedDescendants (sys : Answers) : ℕ → UInt32 → Server → Option Server
  | 0, _, _ => none
  | depth + 1, parent, s =>
    (List.range windowLimit).foldlM (fun s i =>
      if (s.window i).used = 0 ∨ (s.window i).parent ≠ parent then some s
      else movePublishedDescendants sys depth (s.window i).id (s.movePublishedWindow sys i)) s

/-- The compositor is told that a window it shows is closed. -/
def announceClosed (s : Server) (sys : Answers) (i : ℕ) : Server :=
  if (s.window i).compositorSurface = 0 then s
  else
    let ensured := s.ensureDesktopHandles sys
    if !ensured.1 then ensured.2
    else (ensured.2.sendCompositor sys fun serial =>
      { opcode := windowClose, serial := serial, windowId := (ensured.2.window i).id }).2

def closeSurface (s : Server) (sys : Answers) (surface : UInt32) : Server :=
  if surface ≠ 0 ∧ surface ≠ fallbackSurface then s.call' sys (.handleClose surface.toUInt64) else s

def closePublishedWindow (s : Server) (sys : Answers) (i : ℕ) : Server :=
  let s := s.announceClosed sys i
  let s := s.closeSurface sys (s.window i).surfaceHandle
  s.setWindow i { s.window i with surfaceHandle := 0, compositorSurface := 0 }

/-! ## The end of windows and clients -/

/-- The slots of a table that `p` accepts are given up. -/
def removeWindowProperties (s : Server) (id : UInt32) : Server :=
  { s with properties := fun i =>
      if i < propertyLimit ∧ (s.properties i).window = id then
        { s.properties i with used := false } else s.properties i }

def clearPointerGrab (s : Server) : Server :=
  { s with pointerGrabClient := 0, pointerGrabWindow := 0, pointerGrabMask := 0 }

def clearKeyboardGrab (s : Server) : Server :=
  { s with keyboardGrabClient := 0, keyboardGrabWindow := 0 }

def forgetFocus (s : Server) (id : UInt32) : Server :=
  if s.focusedWindow = id then { s with focusedWindow := 0 } else s

def forgetGrabs (s : Server) (id : UInt32) : Server :=
  let s := if s.pointerGrabWindow = id then s.clearPointerGrab else s
  if s.keyboardGrabWindow = id then s.clearKeyboardGrab else s

def forgetSelection (s : Server) (id : UInt32) : Server :=
  if s.selectionOwner = id then { s with selectionAtom := 0, selectionOwner := 0 } else s

/-- The graphics contexts and passive grabs of a window that is destroyed. -/
def removeWindowResources (s : Server) (id : UInt32) : Server :=
  { s with
    gcs := fun i => if i < gcLimit ∧ (s.gcs i).drawable = id then
      { s.gcs i with used := false } else s.gcs i
    passiveGrabs := fun i => if i < passiveGrabLimit ∧ (s.passiveGrabs i).window = id then
      { s.passiveGrabs i with used := false } else s.passiveGrabs i }

def destroyWindowState (s : Server) (sys : Answers) (i : ℕ) : Server :=
  let id := (s.window i).id
  let s := ((s.forgetFocus id).forgetGrabs id).forgetSelection id
  let s := ((s.closePublishedWindow sys i).removeWindowProperties id).removeWindowResources id
  s.setWindow i { s.window i with used := 0 }

def releaseWindows (s : Server) (sys : Answers) (client : UInt32) : Server :=
  (List.range windowLimit).foldl (fun s i =>
    if (s.window i).used ≠ 0 ∧ (s.window i).ownerClient = client then s.destroyWindowState sys i
    else s) s

def releasePixmap (s : Server) (sys : Answers) (i : ℕ) : Server :=
  (if (s.pixmaps i).surfaceHandle ≠ 0 then
    s.call' sys (.handleClose (s.pixmaps i).surfaceHandle.toUInt64)
  else s).setPixmap i { s.pixmaps i with used := false }

def releasePixmaps (s : Server) (sys : Answers) (client : UInt32) : Server :=
  (List.range pixmapLimit).foldl (fun s i =>
    if (s.pixmaps i).used ∧ (s.pixmaps i).ownerClient = client then s.releasePixmap sys i else s) s

/-- No window shows the cursor any more. -/
def hideCursor (s : Server) (id : UInt32) : Server :=
  (List.range windowLimit).foldl (fun s i =>
    if (s.window i).used ≠ 0 ∧ (s.window i).cursor = id then
      s.setWindow i { s.window i with cursor := 0 }
    else s) s

def releaseCursors (s : Server) (client : UInt32) : Server :=
  (List.range cursorLimit).foldl (fun s i =>
    if (s.cursors i).used ∧ (s.cursors i).ownerClient = client.toUInt8 then
      (s.hideCursor (s.cursors i).id).setCursor i { s.cursors i with used := false }
    else s) s

def releaseGcs (s : Server) (client : UInt32) : Server :=
  { s with gcs := fun i => if i < gcLimit ∧ (s.gcs i).ownerClient = client then
      { s.gcs i with used := false } else s.gcs i }

def releasePassiveGrabs (s : Server) (client : UInt32) : Server :=
  { s with passiveGrabs := fun i => if i < passiveGrabLimit ∧ (s.passiveGrabs i).client = client then
      { s.passiveGrabs i with used := false } else s.passiveGrabs i }

def releaseRoot (s : Server) (client : UInt32) : Server :=
  let s := { s with released := client :: s.released }
  if s.rootRedirectClient = client then
    { s with rootEventMask := 0, rootRedirectClient := 0, rootEventClient := 0 }
  else s

def releaseGrabs (s : Server) (client : UInt32) : Server :=
  let s := if s.pointerGrabClient = client then s.clearPointerGrab else s
  let s := if s.keyboardGrabClient = client then s.clearKeyboardGrab else s
  if s.serverGrabClient = client then { s with serverGrabClient := 0 } else s

def closeReply (s : Server) (sys : Answers) (handle : UInt64) : Server :=
  if handle ≠ 0 ∧ handle ≠ failure then s.call' sys (.handleClose handle) else s

def releaseReplyHandle (s : Server) (sys : Answers) (client : UInt32) : Server :=
  if maxClients < client then s
  else (s.closeReply sys (s.replyHandle (client.toNat - 1))).setReplyHandle (client.toNat - 1) 0

def releaseClient (s : Server) (sys : Answers) (client : UInt32) : Server :=
  if client = 0 then s
  else
    let s := (((s.releaseWindows sys client).releasePixmaps sys client).releaseGcs
      client).releaseCursors client
    (((s.releasePassiveGrabs client).releaseRoot client).releaseGrabs client).releaseReplyHandle
      sys client

end Server

end DemonX

end DemonOS
