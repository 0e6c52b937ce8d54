import DemonOS.DemonX.Resources
import DemonOS.Lib.Machine

/-!
# The loop of the DemonX server

`parse_request`, `process_native_input` and `demonx_main` of `user/demonx_server.c`. The server takes
records off its channel one after the other: the compositor's messages at once, and those of its
clients put together to requests.
-/

namespace DemonOS

namespace DemonX

/-- A request `parse_request` knows: its opcode, the payload lengths it takes, and its handler. -/
structure Request (α : Type) where
  opcode : UInt8
  takes : ℕ → Bool
  handle : α

def Request.find {α : Type} (requests : List (Request α)) (opcode : UInt8) (length : ℕ) :
    Option α :=
  (requests.find? fun r => r.opcode == opcode && r.takes length).map Request.handle

namespace Server

/-! ## Requests -/

/-- The requests before those for a window, in the order they are looked at. -/
def resourceRequests : List (Request (Server → Answers → UInt32 → Bool × Server)) :=
  [⟨Opcode.attachSurface, (· = 16), fun s sys id => s.attachSurface sys id⟩,
    ⟨Opcode.changeSaveSet, (· = 8), fun s _ id => s.changeSaveSet id⟩,
    ⟨Opcode.warpPointer, (· = 24), fun s sys id => s.warpPointer sys id⟩,
    ⟨Opcode.killClient, (· = 8), fun s sys id => s.killClient sys id⟩,
    ⟨Opcode.createFontCursor, (· = 12), fun s _ id => s.createFontCursor id⟩,
    ⟨Opcode.defineCursor, (· = 12), fun s _ id => s.defineCursor id⟩,
    ⟨Opcode.freeCursor, (· = 8), fun s _ id => s.freeCursor id⟩,
    ⟨Opcode.setSelectionOwner, (· = 16), fun s _ id => s.setSelectionOwner id⟩,
    ⟨Opcode.getSelectionOwner, (· = 8), fun s _ id => s.getSelectionOwner id⟩,
    ⟨Opcode.grabKey, (· = 24), fun s _ id => s.passiveGrab Opcode.grabKey id⟩,
    ⟨Opcode.grabButton, (· = 24), fun s _ id => s.passiveGrab Opcode.grabButton id⟩,
    ⟨Opcode.ungrabKey, (· = 24), fun s _ id => s.passiveGrab Opcode.ungrabKey id⟩,
    ⟨Opcode.ungrabButton, (· = 24), fun s _ id => s.passiveGrab Opcode.ungrabButton id⟩,
    ⟨Opcode.grabPointer, (· = 24), fun s _ id => s.activeGrab Opcode.grabPointer id⟩,
    ⟨Opcode.grabKeyboard, (· = 24), fun s _ id => s.activeGrab Opcode.grabKeyboard id⟩,
    ⟨Opcode.ungrabPointer, (· = 8), fun s _ _ => s.activeUngrab Opcode.ungrabPointer⟩,
    ⟨Opcode.ungrabKeyboard, (· = 8), fun s _ _ => s.activeUngrab Opcode.ungrabKeyboard⟩,
    ⟨Opcode.internAtom, (8 ≤ ·), fun s _ _ => s.internAtom⟩,
    ⟨Opcode.getAtomName, (· = 8), fun s _ id => s.getAtomName id⟩,
    ⟨Opcode.changeProperty, (24 ≤ ·), fun s _ id => s.changeProperty id⟩,
    ⟨Opcode.deleteProperty, (· = 12), fun s _ id => s.deleteProperty id⟩,
    ⟨Opcode.getProperty, (· = 24), fun s _ id => s.getProperty id⟩,
    ⟨Opcode.listProperties, (· = 8), fun s _ id => s.listProperties id⟩,
    ⟨Opcode.sendEvent, (· = 44), fun s _ id => s.sendEvent id⟩,
    ⟨Opcode.createPixmap, (· = 16), fun s sys id => s.createPixmap sys id⟩,
    ⟨Opcode.freePixmap, (· = 8), fun s sys id => s.freePixmap sys id⟩,
    ⟨Opcode.createGc, (16 ≤ ·), fun s _ id => s.createGc id⟩,
    ⟨Opcode.changeGc, (12 ≤ ·), fun s _ id => s.changeGc id⟩,
    ⟨Opcode.freeGc, (· = 8), fun s _ id => s.freeGc id⟩,
    ⟨Opcode.polyFillRectangle, fun n => 20 ≤ n ∧ (n - 12) % 8 = 0,
      fun s sys id => s.polyFillRectangle sys id⟩,
    ⟨Opcode.putImage, (28 ≤ ·), fun s sys id => s.putImageRequest sys id⟩,
    ⟨Opcode.copyArea, (· = 28), fun s sys id => s.copyAreaRequest sys id⟩,
    ⟨Opcode.getImage, (· = 20), fun s sys id => s.getImage sys id⟩,
    ⟨Opcode.polyText8, (20 ≤ ·), fun s sys id => s.polyText8 sys id⟩,
    ⟨Opcode.polyText8Scaled, (21 ≤ ·), fun s sys id => s.polyText8Scaled sys id⟩]

/-- The requests that ask for a window and refuse themselves where there is none. -/
def focusRequests : List (Request (Server → Answers → Option ℕ → UInt32 → Bool × Server)) :=
  [⟨Opcode.setInputFocus, (· = 12), fun s sys window id => s.setInputFocus sys window id⟩,
    ⟨Opcode.getWindowAttributes, (· = 8), fun s _ window id => s.getWindowAttributes window id⟩,
    ⟨Opcode.queryTree, (· = 8), fun s _ window id => s.queryTree window id⟩]

def destroyWindow (s : Server) (sys : Answers) (i : ℕ) : Bool × Server :=
  (false, s.destroyWindowState sys i)

def windowRequests : List (Request (Server → Answers → ℕ → UInt32 → Option (Bool × Server))) :=
  [⟨Opcode.changeWindowAttributes, (· = 16), fun s _ i id => some (s.changeWindowAttributes i id)⟩,
    ⟨Opcode.clearArea, (· = 16), fun s sys i id => some (s.clearArea sys i id)⟩,
    ⟨Opcode.mapWindow, (· = 8), fun s sys i _ => some (s.mapWindow sys i)⟩,
    ⟨Opcode.selectInput, (· = 12), fun s _ i _ => some (s.selectInput i)⟩,
    ⟨Opcode.configureWindow, (12 ≤ ·), fun s sys i _ => s.configureWindow sys i⟩,
    ⟨Opcode.unmapWindow, (· = 8), fun s _ i _ => some (s.unmapWindow i)⟩,
    ⟨Opcode.reparentWindow, (· = 16), fun s sys i _ => s.reparentWindow sys i⟩,
    ⟨Opcode.destroyWindow, (· = 8), fun s sys i _ => some (s.destroyWindow sys i)⟩,
    ⟨Opcode.getGeometry, (· = 8), fun s _ i _ => some (s.getGeometry i)⟩]

/-- The requests that ask for the window `id`, which may be missing. -/
def windowRequest (s : Server) (sys : Answers) (opcode : UInt8) (id : UInt32) :
    Option (Bool × Server) :=
  let length := s.incoming.payloadLength.toNat
  let window := s.findWindow id
  match Request.find focusRequests opcode length, window with
  | some handle, _ => some (handle s sys window id)
  | none, none => some (s.refuse 3 opcode id)
  | none, some i =>
    match Request.find windowRequests opcode length with
    | some handle => handle s sys i id
    | none => some (s.refuse 1 opcode id)

def ungrabbedRequest (s : Server) (sys : Answers) (opcode : UInt8) (id : UInt32) :
    Option (Bool × Server) :=
  let length := s.incoming.payloadLength.toNat
  match Request.find resourceRequests opcode length with
  | some handle => some (handle s sys id)
  | none =>
    if opcode = Opcode.selectInput ∧ id = rootWindow ∧ length = 12 then some (s.selectInputRoot id)
    else if opcode = Opcode.createWindow then some (s.createWindow id)
    else s.windowRequest sys opcode id

/-- The client holds the server, or no one does. -/
def mayRequest (s : Server) : Bool :=
  s.serverGrabClient = 0 ∨ s.serverGrabClient = s.incoming.clientId

/-- `parse_request`: nothing where a walk over the windows does not end. -/
def parseRequest (s : Server) (sys : Answers) : Option (Bool × Server) :=
  let opcode := s.payload 0
  let words := s.field16 2
  let id := s.field32 4
  if words = 0 ∨ words.toNat * 4 ≠ s.incoming.payloadLength.toNat then
    some (s.refuse 16 opcode words.toUInt32)
  else if opcode = Opcode.grabServer ∧ s.incoming.payloadLength = 8 then some s.grabServer
  else if opcode = Opcode.ungrabServer ∧ s.incoming.payloadLength = 8 then some s.ungrabServer
  else if !s.mayRequest then some (s.refuse 10 opcode s.incoming.clientId)
  else s.ungrabbedRequest sys opcode id

/-- `parse_setup`: the setup of a little-endian client of version 11, with no authorization. -/
def parseSetup (s : Server) : Option Server :=
  if s.incoming.payloadLength ≠ 12 ∨ s.payload 0 ≠ 0x6C ∨ s.field16 2 ≠ 11 ∨ s.field16 6 ≠ 0
      ∨ s.field16 8 ≠ 0 then none
  else
    let p := write16 (write16 (write8 (fun _ => 0) 0 1) 2 11) 6 8
    let p := write32 (write32 p 8 1) 12 (resourceBase s.incoming.clientId)
    some (s.reply 40 (write16 (write16 (write32 p 16 resourceMask) 24 0) 26 12))

/-! ## The compositor's messages -/

/-- What is told of a key, a button or the pointer. -/
structure Input where
  type : UInt8
  detail : UInt8 := 0
  state : UInt32 := 0
  value : UInt32 := 0
  x : UInt16 := 0
  y : UInt16 := 0

structure Grab where
  client : UInt32 := 0
  window : UInt32 := 0

def grabFor (s : Server) (grab : Grab) (pressed : Bool) (kind detail : UInt8)
    (modifiers : UInt32) : Grab × Option ℕ :=
  if grab.client = 0 ∧ pressed then
    match s.matchingPassiveGrab kind detail modifiers with
    | some i => (⟨(s.passiveGrabs i).client, (s.passiveGrabs i).window⟩, some i)
    | none => (grab, none)
  else (grab, none)

def keyInput (s : Server) (m : ℕ → UInt8) (w : Window) (grab : Grab) : Option (Input × Grab) :=
  let packed := read32 m 16
  let type : UInt8 := if packed &&& 0xFFFF = 1 then 2 else if packed &&& 0xFFFF = 2 then 3 else 0
  let detail := (packed >>> 16).toUInt8
  let state := read32 m 20
  let grab := (s.grabFor grab (type = 2) 1 detail state).1
  let required := if type = 2 then keyPressMask else keyReleaseMask
  if type = 0 ∨ (grab.client = 0 ∧ !selects w.eventMask required) then none
  else some ({ type := type, detail := detail, state := state, value := read32 m 24 }, grab)

def takeGrab (s : Server) : Option ℕ → Server
  | none => s
  | some i => { s with pointerGrabMask := (s.passiveGrabs i).eventMask }

def buttonInput (s : Server) (m : ℕ → UInt8) (w : Window) (grab : Grab) :
    Option (Input × Grab × Server) :=
  let released : Bool := read32 m 24 = 2
  let required := if released then buttonReleaseMask else buttonPressMask
  if !selects (if grab.client = 0 then w.eventMask else s.pointerGrabMask) required then none
  else
    let detail := if read32 m 28 = 0 then 1 else (read32 m 28).toUInt8
    let found := s.grabFor grab (!released) 2 detail 0
    some ({ type := if released then 5 else 4, detail := detail
            x := (read32 m 16).toUInt16, y := (read32 m 20).toUInt16 }, found.1,
      s.takeGrab found.2)

def pointerInput (s : Server) (m : ℕ → UInt8) (w : Window) (grab : Grab) : Option Input :=
  if !selects (if grab.client = 0 then w.eventMask else s.pointerGrabMask) pointerMotionMask then
    none
  else some { type := 6, state := read32 m 24
              x := (read32 m 16).toUInt16, y := (read32 m 20).toUInt16 }

/-- The input goes to the client of the grab, else to the one that selected it. -/
def tellInput (s : Server) (id owner : UInt32) (input : Input) (grab : Grab) : Bool × Server :=
  if grab.client = 0 ∧ owner = 0 then (false, s)
  else
    let p := write8 (write8 (fun _ => 0) 0 input.type) 1 input.detail
    let p := write32 (write32 p 8 rootWindow) 12 (if grab.client ≠ 0 then grab.window else id)
    let p := write16 (write16 (write32 p 16 input.value) 20 input.x) 22 input.y
    (true, s.event (if grab.client ≠ 0 then grab.client else owner)
      (write8 (write32 p 24 input.state) 30 1))

def closeMessage : UInt32 := 0x4458434C

/-- The compositor has closed the window in a slot. -/
def nativeClose (s : Server) (sys : Answers) (i : ℕ) : Bool × Server :=
  let w := s.window i
  (true, (s.event w.ownerClient (write32 (write32 (write8 (write8 (fun _ => 0) 0 clientMessage) 1
    32) 4 w.id) 8 closeMessage)).destroyWindowState sys i)

/-- The grab that takes a message. -/
def activeGrabFor (s : Server) (opcode : ℕ) : Grab :=
  if opcode = windowKey then ⟨s.keyboardGrabClient, s.keyboardGrabWindow⟩
  else if opcode = windowButton ∨ opcode = windowPointer then
    ⟨s.pointerGrabClient, s.pointerGrabWindow⟩
  else {}

/-- A key, a button or the pointer in the window in a slot. -/
def nativeEvent (s : Server) (m : ℕ → UInt8) (opcode i : ℕ) (grab : Grab) : Bool × Server :=
  let w := s.window i
  if opcode = windowKey then
    match s.keyInput m w grab with
    | none => (false, s)
    | some (input, grab) => s.tellInput w.id w.keyEventClient input grab
  else if opcode = windowButton then
    match s.buttonInput m w grab with
    | none => (false, s)
    | some (input, grab, s) => s.tellInput w.id w.eventClient input grab
  else if opcode = windowPointer then
    match s.pointerInput m w grab with
    | none => (false, s)
    | some input => s.tellInput w.id w.eventClient input grab
  else (false, s)

/-- `process_native_input` up to the sending of what it has composed. -/
def nativeInput (s : Server) (sys : Answers) (m : ℕ → UInt8) : Bool × Server :=
  let opcode := (read16 m 2).toNat
  let grab := s.activeGrabFor opcode
  let id := read32 m 8
  if opcode = windowClose then
    match s.findWindow id with
    | none => (false, s)
    | some i => s.nativeClose sys i
  else match s.findWindow (if grab.client ≠ 0 then grab.window else id) with
    | none => (false, s)
    | some i => s.nativeEvent m opcode i grab

/-! ## The loop -/

/-- The record is a message of the compositor. -/
def isNative (wire : ℕ → UInt8) : Bool :=
  read16 wire 0 = 1 ∧ ((read16 wire 2).toNat = windowKey ∨ (read16 wire 2).toNat = windowPointer
    ∨ (read16 wire 2).toNat = windowClose ∨ (read16 wire 2).toNat = windowButton)

/-- The server with the request that a record completes. -/
def asked (s : Server) (wire : ℕ → UInt8) : Option Server :=
  match isNative wire, s.assembly.receive (Packet.ofWire wire) with
  | false, .ok assembly =>
    if assembly.active || assembly.incoming.flags &&& flagSetup != 0 then none
    else some { s with assembly := assembly }
  | _, _ => none

/-- A whole message of a client: the server ends with 123 where it is a setup it does not know. -/
def dispatch (s : Server) (sys : Answers) : Option (Except ℕ (Bool × Server)) :=
  if s.incoming.flags &&& flagSetup ≠ 0 then
    match s.parseSetup with
    | none => some (.error 123)
    | some s => some (.ok (true, s))
  else (s.parseRequest sys).map .ok

/-- One turn of the loop of `demonx_main` on the record it has received, up to the sending: whether
there is a packet to send. -/
def handle (s : Server) (sys : Answers) (wire : ℕ → UInt8) : Option (Except ℕ (Bool × Server)) :=
  if isNative wire then some (.ok (s.nativeInput sys wire))
  else match s.assembly.receive (Packet.ofWire wire) with
    | .error code => some (.error code)
    | .ok assembly =>
      let s := { s with assembly := assembly }
      if assembly.active then some (.ok (false, s)) else s.dispatch sys

end Server

/-- The server between two turns: it has ended with a code, or is in a walk that does not end. -/
inductive Process where
  | running (s : Server)
  | exited (code : ℕ)
  | hung

def Server.turn (s : Server) (sys : Answers) (wire : ℕ → UInt8) : Process :=
  match s.handle sys wire with
  | none => .hung
  | some (.error code) => .exited code
  | some (.ok r) => .running (Server.answer sys r)

/-- `demonx_main` takes one more record off its channel. -/
def Process.step (sys : Answers) : Process → (ℕ → UInt8) → Process
  | .running s, wire => s.turn sys wire
  | stopped, _ => stopped

/-- The server on the records of its channel. -/
def Process.run (sys : Answers) : Process → List (ℕ → UInt8) → Process :=
  Machine.run (Process.step sys)

end DemonX

end DemonOS
