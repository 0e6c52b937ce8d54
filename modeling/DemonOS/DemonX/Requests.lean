import DemonOS.DemonX.Drawing

/-!
# The requests of the DemonX server

`send_outgoing` and `parse_request` of `user/demonx_server.c`: what a client is told and when it is
given up, and the handler of each request. A handler says whether the packet it leaves in `outgoing`
is to be sent.
-/

namespace DemonOS

namespace DemonX

/-! ## Numbers of the protocol -/

def keyPressMask : UInt32 := 1
def keyReleaseMask : UInt32 := 2
def buttonPressMask : UInt32 := 4
def buttonReleaseMask : UInt32 := 8
def pointerMotionMask : UInt32 := 0x40
def structureNotifyMask : UInt32 := 0x20000
def substructureNotifyMask : UInt32 := 0x80000
def substructureRedirectMask : UInt32 := 0x100000
def focusChangeMask : UInt32 := 0x200000
def propertyChangeMask : UInt32 := 0x400000

def selects (mask event : UInt32) : Bool := mask &&& event != 0

namespace Opcode

def createWindow : UInt8 := 1
def changeWindowAttributes : UInt8 := 2
def getWindowAttributes : UInt8 := 3
def destroyWindow : UInt8 := 4
def changeSaveSet : UInt8 := 6
def reparentWindow : UInt8 := 7
def mapWindow : UInt8 := 8
def unmapWindow : UInt8 := 10
def configureWindow : UInt8 := 12
def getGeometry : UInt8 := 14
def queryTree : UInt8 := 15
def internAtom : UInt8 := 16
def getAtomName : UInt8 := 17
def changeProperty : UInt8 := 18
def deleteProperty : UInt8 := 19
def getProperty : UInt8 := 20
def listProperties : UInt8 := 21
def setSelectionOwner : UInt8 := 22
def getSelectionOwner : UInt8 := 23
def sendEvent : UInt8 := 25
def grabPointer : UInt8 := 26
def ungrabPointer : UInt8 := 27
def grabButton : UInt8 := 28
def ungrabButton : UInt8 := 29
def grabKeyboard : UInt8 := 31
def ungrabKeyboard : UInt8 := 32
def grabKey : UInt8 := 33
def ungrabKey : UInt8 := 34
def grabServer : UInt8 := 36
def ungrabServer : UInt8 := 37
def warpPointer : UInt8 := 41
def setInputFocus : UInt8 := 42
def selectInput : UInt8 := 43
def createPixmap : UInt8 := 53
def freePixmap : UInt8 := 54
def createGc : UInt8 := 55
def changeGc : UInt8 := 56
def freeGc : UInt8 := 60
def clearArea : UInt8 := 61
def copyArea : UInt8 := 62
def polyFillRectangle : UInt8 := 70
def putImage : UInt8 := 72
def getImage : UInt8 := 73
def polyText8 : UInt8 := 74
def createFontCursor : UInt8 := 93
def freeCursor : UInt8 := 95
def defineCursor : UInt8 := 96
def killClient : UInt8 := 113
def polyText8Scaled : UInt8 := 200
def attachSurface : UInt8 := 201

end Opcode

namespace Server

/-! ## Packets to clients -/

/-- `clear_outgoing` and what is then filled in. -/
def compose (s : Server) (client : UInt32) (flags : UInt16) (length : ℕ) (payload : ℕ → UInt8) :
    Server :=
  { s with outgoing :=
      { magic := transportMagic, payloadLength := UInt16.ofNat length, flags := flags
        clientId := client, sequence := s.incoming.sequence, payload := payload } }

/-- The start of a packet's payload: its type, a byte, and the sequence number. -/
def header (s : Server) (type second : UInt8) : ℕ → UInt8 :=
  write16 (write8 (write8 (fun _ => 0) 0 type) 1 second) 2 s.incoming.sequence.toUInt16

def event (s : Server) (client : UInt32) (payload : ℕ → UInt8) : Server :=
  s.compose client flagEvent 32 payload

def reply (s : Server) (length : ℕ) (payload : ℕ → UInt8) : Server :=
  s.compose s.incoming.clientId flagReply length payload

def protocolError (s : Server) (code opcode : UInt8) (badValue : UInt32) : Server :=
  s.compose s.incoming.clientId flagError 32
    (write8 (write32 (s.header 0 code) 4 badValue) 10 opcode)

/-- A protocol error, and that it is to be sent. -/
def refuse (s : Server) (code opcode : UInt8) (badValue : UInt32) : Bool × Server :=
  (true, s.protocolError code opcode badValue)

/-- `focus_notify`, with no sequence number. -/
def focusNotify (s : Server) (window : Option ℕ) (type : UInt8) : Bool × Server :=
  match window with
  | none => (false, s)
  | some i =>
    let w := s.window i
    if !selects w.eventMask focusChangeMask ∨ w.eventClient = 0 then (false, s)
    else (true, s.event w.eventClient
      (write32 (write8 (write8 (fun _ => 0) 0 type) 1 3) 4 w.id))

def mapNotify (s : Server) (w : Window) : Server :=
  s.event w.eventClient (write32 (write32 (s.header 19 0) 4 w.id) 8 w.id)

def mapRequest (s : Server) (w : Window) : Server :=
  s.event s.rootRedirectClient (write32 (write32 (s.header 20 0) 4 rootWindow) 8 w.id)

def writeGeometry (payload : ℕ → UInt8) (a : ℕ) (w : Window) : ℕ → UInt8 :=
  write16 (write16 (write16 (write16 (write16 payload a w.x) (a + 2) w.y) (a + 4) w.width) (a + 6)
    w.height) (a + 8) w.border

def configureRequest (s : Server) (w : Window) (valueMask : UInt16) : Server :=
  s.event s.rootRedirectClient (write16 (writeGeometry
    (write32 (write32 (s.header 23 0) 4 w.parent) 8 w.id) 16 w) 26 valueMask)

def configureNotify (s : Server) (w : Window) : Server :=
  s.event w.eventClient (writeGeometry (write32 (write32 (s.header 22 0) 4 w.id) 8 w.id) 16 w)

def unmapNotify (s : Server) (w : Window) (destination eventWindow : UInt32) : Server :=
  s.event destination (write32 (write32 (s.header 18 0) 4 eventWindow) 8 w.id)

def reparentNotify (s : Server) (w : Window) : Server :=
  s.event w.eventClient (write16 (write16 (write32 (write32 (write32 (s.header 21 0) 4 w.id) 8
    w.id) 12 w.parent) 16 w.x) 18 w.y)

/-- The client that has selected the properties of a window. -/
def propertyListener (s : Server) (windowId : UInt32) : Option UInt32 :=
  if windowId = rootWindow then
    if selects s.rootEventMask propertyChangeMask then some s.rootEventClient else none
  else match s.findWindow windowId with
    | none => none
    | some i =>
      if selects (s.window i).eventMask propertyChangeMask then some (s.window i).eventClient
      else none

def propertyNotify (s : Server) (windowId atom : UInt32) (state : UInt8) : Bool × Server :=
  match s.propertyListener windowId with
  | none => (false, s)
  | some destination => (true, s.event destination
      (write8 (write32 (write32 (write32 (s.header 28 0) 4 windowId) 8 atom) 12
        s.incoming.sequence) 16 state))

/-! ## Sending -/

/-- The connection of a client, opened where there is none. -/
def connectReply (s : Server) (sys : Answers) (client : UInt32) : Server :=
  let r := s.call sys (.connectReply client)
  r.2.setReplyHandle (client.toNat - 1) r.1

def sendRecord (s : Server) (sys : Answers) (client : UInt32) (record : Packet) : Bool × Server :=
  let r := s.call sys (.sendRecord (s.replyHandle (client.toNat - 1)) record)
  (r.1 = 64, r.2)

/-- The connection of a client is closed and forgotten. -/
def dropReply (s : Server) (sys : Answers) (client : UInt32) : Server :=
  (s.call' sys (.handleClose (s.replyHandle (client.toNat - 1)))).setReplyHandle
    (client.toNat - 1) 0

/-- One turn of the loop of `send_outgoing`: where the record is not taken, the channel is connected
anew and the record sent once more. -/
def deliverRecord (sys : Answers) (client : UInt32) (record : Packet) (s : Server) :
    Bool × Server :=
  let sent := s.sendRecord sys client record
  if sent.1 then sent
  else
    let s := (sent.2.call' sys (.handleClose (sent.2.replyHandle (client.toNat - 1)))).connectReply
      sys client
    if s.replyHandle (client.toNat - 1) = failure then (false, s)
    else
      let sent := s.sendRecord sys client record
      if sent.1 then sent else (false, sent.2.dropReply sys client)

/-- The records of `outgoing` to a client in one of the slots; it fails where the client is gone. -/
def deliver (s : Server) (sys : Answers) (client : UInt32) : Bool × Server :=
  let handle := s.replyHandle (client.toNat - 1)
  let s := if handle = 0 ∨ handle = failure then s.connectReply sys client else s
  if s.replyHandle (client.toNat - 1) = failure then (false, s)
  else forEach (deliverRecord sys client) s.outgoing.records s

/-- `send_outgoing`, which never fails: a client that cannot be reached is released. -/
def sendOutgoing (s : Server) (sys : Answers) : Server :=
  let client := s.outgoing.clientId
  if client = 0 ∨ maxClients < client then s
  else
    let delivered := s.deliver sys client
    if delivered.1 then delivered.2 else delivered.2.releaseClient sys client

/-- A packet is sent where there is one. -/
def answer (sys : Answers) (r : Bool × Server) : Server := if r.1 then r.2.sendOutgoing sys else r.2

/-! ## Windows -/

def payload (s : Server) : ℕ → UInt8 := s.incoming.payload
def field16 (s : Server) (a : ℕ) : UInt16 := read16 s.incoming.payload a
def field32 (s : Server) (a : ℕ) : UInt32 := read32 s.incoming.payload a

def createWindow (s : Server) (id : UInt32) : Bool × Server :=
  if s.incoming.payloadLength ≠ 32 ∨ s.field32 8 ≠ rootWindow then s.refuse 3 Opcode.createWindow id
  else match s.allocateWindow id s.incoming.clientId with
    | none => s.refuse 14 Opcode.createWindow id
    | some (i, s) =>
      let w := { s.window i with
        parent := rootWindow, x := s.field16 12, y := s.field16 14
        width := s.field16 16, height := s.field16 18, border := s.field16 20
        windowClass := s.field16 22, ownerClient := s.incoming.clientId
        backgroundPixel := s.field32 24 }
      if s.field32 28 &&& ~~~2 ≠ 0 then
        (s.setWindow i { w with used := 0 }).refuse 2 Opcode.createWindow id
      -- the error is composed and not sent
      else if w.width = 0 ∨ w.height = 0 then
        (false, (s.setWindow i { w with used := 0 }).protocolError 2 Opcode.createWindow id)
      else (false, s.setWindow i w)

def selectInputRoot (s : Server) (id : UInt32) : Bool × Server :=
  let mask := s.field32 8
  let client := s.incoming.clientId
  if selects mask substructureRedirectMask ∧ s.rootRedirectClient ≠ 0
      ∧ s.rootRedirectClient ≠ client then s.refuse 10 Opcode.selectInput id
  else (false, { s with
    rootEventMask := mask
    rootEventClient := if mask ≠ 0 then client else 0
    rootRedirectClient := if selects mask substructureRedirectMask then client else 0 })

def selectInput (s : Server) (i : ℕ) : Bool × Server :=
  let mask := s.field32 8
  let w := s.window i
  let client := s.incoming.clientId
  (false, s.setWindow i { w with
    eventMask := w.eventMask ||| mask
    eventClient := if mask ≠ 0 then client else w.eventClient
    keyEventClient := if selects mask (keyPressMask ||| keyReleaseMask) then client
      else w.keyEventClient })

/-- The window manager is another client, and redirects what clients do to windows. -/
def redirected (s : Server) : Bool :=
  selects s.rootEventMask substructureRedirectMask && s.rootRedirectClient != s.incoming.clientId

def mapWindow (s : Server) (sys : Answers) (i : ℕ) : Bool × Server :=
  if s.redirected then (true, s.mapRequest (s.window i))
  else
    let created := s.createWindowSurface sys i
    let s := if created.1 then (created.2.clearBackground sys i 0 0 0 0).2 else created.2
    let s := (s.publishWindow sys i).2
    let s := s.setWindow i { s.window i with mapped := 1 }
    if selects (s.window i).eventMask structureNotifyMask then (true, s.mapNotify (s.window i))
    else (false, s)

/-- The values a configure request can give. -/
def configureBits : List UInt16 := [1, 2, 4, 8, 16, 32, 64]

def valueCount (mask : UInt16) : ℕ := (configureBits.filter fun bit => mask &&& bit ≠ 0).length

/-- One value of `apply_configure`. -/
def configureValue (bit : UInt16) (value : UInt32) (w : Window) : Window :=
  if bit = 1 then { w with x := value.toUInt16 }
  else if bit = 2 then { w with y := value.toUInt16 }
  else if bit = 4 ∧ value ≠ 0 then { w with width := value.toUInt16 }
  else if bit = 8 ∧ value ≠ 0 then { w with height := value.toUInt16 }
  else if bit = 16 then { w with border := value.toUInt16 }
  else w

/-- `apply_configure`: the values stand one after the other from byte 12 of the request on. -/
def applyConfigure (payload : ℕ → UInt8) (mask : UInt16) (w : Window) : Window :=
  ((configureBits.filter fun bit => mask &&& bit ≠ 0).foldl
    (fun r bit => (configureValue bit (read32 payload r.2) r.1, r.2 + 4)) (w, 12)).1

/-- How deep the windows can lie below one another, each in a slot of its own. -/
def treeDepth : ℕ := windowLimit + 1

/-- A window that has moved takes its descendants with it. -/
def movePublished (s : Server) (sys : Answers) (i : ℕ) : Option Server :=
  let s := s.movePublishedWindow sys i
  movePublishedDescendants sys treeDepth (s.window i).id s

def configureWindow (s : Server) (sys : Answers) (i : ℕ) : Option (Bool × Server) :=
  let mask := s.field16 8
  if mask &&& ~~~127 ≠ 0 ∨ s.incoming.payloadLength.toNat ≠ 12 + valueCount mask * 4 then
    some (s.refuse 2 Opcode.configureWindow mask.toUInt32)
  else if s.redirected then
    some (true, s.configureRequest (applyConfigure s.payload mask (s.window i)) mask)
  else ((s.setWindow i (applyConfigure s.payload mask (s.window i))).movePublished sys i).map
    fun s =>
      if selects (s.window i).eventMask structureNotifyMask then
        (true, s.configureNotify (s.window i))
      else (false, s)

def unmapWindow (s : Server) (i : ℕ) : Bool × Server :=
  let s := s.setWindow i { s.window i with mapped := 0 }
  let w := s.window i
  if selects s.rootEventMask substructureNotifyMask then
    (true, s.unmapNotify w s.rootEventClient w.parent)
  else if selects w.eventMask structureNotifyMask then (true, s.unmapNotify w w.eventClient w.id)
  else (false, s)

def reparentWindow (s : Server) (sys : Answers) (i : ℕ) : Option (Bool × Server) :=
  let parent := s.field32 8
  if parent ≠ rootWindow ∧ s.findWindow parent = none then
    some (s.refuse 3 Opcode.reparentWindow parent)
  else ((s.setWindow i { s.window i with
      parent := parent, x := s.field16 12, y := s.field16 14 }).movePublished sys i).map fun s =>
    if selects (s.window i).eventMask structureNotifyMask then
      (true, s.reparentNotify (s.window i))
    else (false, s)

def changeWindowAttributes (s : Server) (i : ℕ) (id : UInt32) : Bool × Server :=
  let mask := s.field32 8
  let value := s.field32 12
  let w := s.window i
  if mask = 1 then
    if value ≠ 0 ∧ value ≠ 1 ∧ s.findPixmap value = none then
      s.refuse 4 Opcode.changeWindowAttributes value
    else (false, s.setWindow i { w with backgroundPixmap := if 1 < value then value else 0 })
  else if mask = 2 then
    (false, s.setWindow i { w with backgroundPixel := value, backgroundPixmap := 0 })
  else s.refuse 2 Opcode.changeWindowAttributes id

/-- The refusal of `AttachSurface` closes the handle that came with the request. -/
def refuseSurface (s : Server) (sys : Answers) (supplied id : UInt32) : Bool × Server :=
  (s.closeSurface sys supplied).refuse 2 Opcode.attachSurface id

def takeSurface (s : Server) (sys : Answers) (i : ℕ) (supplied : UInt32) : Server :=
  let s := s.closeSurface sys (s.window i).surfaceHandle
  s.setWindow i { s.window i with surfaceHandle := supplied, compositorSurface := 0 }

def attachSurface (s : Server) (sys : Answers) (id : UInt32) : Bool × Server :=
  let supplied := s.field32 8
  let width := (s.field16 12).toNat
  let height := (s.field16 14).toNat
  match s.findWindow id with
  | none => s.refuseSurface sys supplied id
  | some i =>
    if (s.window i).ownerClient ≠ s.incoming.clientId ∨ (s.window i).mapped ≠ 0 ∨ supplied = 0
        ∨ supplied = fallbackSurface ∨ width = 0 ∨ height = 0 ∨ windowMaxWidth < width
        ∨ windowMaxHeight < height then s.refuseSurface sys supplied id
    else
      let measured := s.call sys (.handleQuery supplied 0)
      if measured.1.toNat ≠ width then measured.2.refuseSurface sys supplied id
      else
        let measured := measured.2.call sys (.handleQuery supplied 1)
        if measured.1.toNat ≠ height then measured.2.refuseSurface sys supplied id
        else (false, measured.2.takeSurface sys i supplied)

def changeSaveSet (s : Server) (id : UInt32) : Bool × Server :=
  let client := s.incoming.clientId
  match s.findWindow id with
  | none => s.refuse 3 Opcode.changeSaveSet id
  | some i =>
    let w := s.window i
    if w.ownerClient = client ∨ 1 < s.payload 1 then s.refuse 8 Opcode.changeSaveSet id
    else if s.payload 1 = 0 then (false, s.setWindow i { w with savedBy := client.toUInt8 })
    else if w.savedBy = client.toUInt8 then (false, s.setWindow i { w with savedBy := 0 })
    else (false, s)

def focusOn (s : Server) (sys : Answers) (i : ℕ) : Bool × Server :=
  let s := { s with focusedWindow := (s.window i).id }
  let ensured := s.ensureDesktopHandles sys
  let s := if ensured.1 then (ensured.2.sendCompositor sys fun serial =>
    { opcode := windowFocus, serial := serial, windowId := (ensured.2.window i).id }).2
    else ensured.2
  s.focusNotify (some i) 9

def setInputFocus (s : Server) (sys : Answers) (window : Option ℕ) (id : UInt32) : Bool × Server :=
  match window with
  | none => s.refuse 3 Opcode.setInputFocus id
  | some i =>
    if (s.window i).mapped = 0 ∨ 2 < s.payload 1 then s.refuse 8 Opcode.setInputFocus id
    else
      let previous := s.findWindow s.focusedWindow
      if previous = some i then (false, s)
      else (answer sys (s.focusNotify previous 10)).focusOn sys i

def getWindowAttributes (s : Server) (window : Option ℕ) (id : UInt32) : Bool × Server :=
  match window with
  | none => s.refuse 3 Opcode.getWindowAttributes id
  | some i =>
    let w := s.window i
    let p := write32 (writeGeometry (s.header 1 32) 8 w) 20 rootWindow
    let p := write8 (write16 p 24 w.windowClass) 26 (if w.mapped ≠ 0 then 2 else 0)
    (true, s.reply 44 (write32 (write32 p 28
      (if w.eventClient = s.incoming.clientId then w.eventMask else 0)) 32 w.eventMask))

def writeIds (payload : ℕ → UInt8) (ids : List UInt32) : ℕ → UInt8 :=
  ids.zipIdx.foldl (fun p id => write32 p (32 + id.2 * 4) id.1) payload

def queryTree (s : Server) (window : Option ℕ) (id : UInt32) : Bool × Server :=
  if id ≠ rootWindow ∧ window = none then s.refuse 3 Opcode.queryTree id
  else
    let children := ((List.range windowLimit).filter fun i =>
      (s.window i).used ≠ 0 ∧ (s.window i).parent = id).map fun i => (s.window i).id
    if 4 < children.length then s.refuse 11 Opcode.queryTree id
    else
      let parent := if id = rootWindow then 0 else
        (window.map fun i => (s.window i).parent).getD 0
      let p := write32 (write32 (write32 (s.header 1 0) 4 (UInt32.ofNat children.length)) 8
        rootWindow) 12 parent
      (true, s.reply (32 + children.length * 4)
        (writeIds (write16 p 16 (UInt16.ofNat children.length)) children))

def getGeometry (s : Server) (i : ℕ) : Bool × Server :=
  (true, s.reply 32 (writeGeometry (write32 (s.header 1 32) 4 rootWindow) 8 (s.window i)))

/-! ## The pointer, the grabs and the selection -/

def grabServer (s : Server) : Bool × Server :=
  let client := s.incoming.clientId
  if s.serverGrabClient = 0 ∨ s.serverGrabClient = client then
    (false, { s with serverGrabClient := client })
  else s.refuse 10 Opcode.grabServer client

def ungrabServer (s : Server) : Bool × Server :=
  (false, if s.serverGrabClient = s.incoming.clientId then { s with serverGrabClient := 0 } else s)

def clampTo (v : ℤ) (limit : ℤ) : ℤ := min (max v 0) limit

def warpOrigin (s : Server) : Option ℕ → ℤ × ℤ
  | none => (0, 0)
  | some i => (int16 (s.window i).x, int16 (s.window i).y)

def warpTarget (s : Server) (destination : UInt32) : Option ℕ :=
  if destination = rootWindow then none else s.findWindow destination

/-- The compositor is asked to warp the pointer. -/
def sendWarp (s : Server) (sys : Answers) (destination : UInt32) (origin : ℤ × ℤ) :
    Bool × Server :=
  let ensured := s.ensureDesktopHandles sys
  if !ensured.1 then ensured.2.refuse 11 Opcode.warpPointer destination
  else
    let sent := ensured.2.sendCompositor sys fun serial =>
      { opcode := windowPointerWarp, serial := serial
        x := clampTo (int16 (s.field16 20) + origin.1) 639
        y := clampTo (int16 (s.field16 22) + origin.2) 479 }
    if sent.1 then (false, sent.2) else sent.2.refuse 11 Opcode.warpPointer destination

def warpPointer (s : Server) (sys : Answers) (source : UInt32) : Bool × Server :=
  let destination := s.field32 8
  let window := s.warpTarget destination
  if (source ≠ 0 ∧ source ≠ rootWindow ∧ s.findWindow source = none)
      ∨ (destination ≠ rootWindow ∧ window = none) then
    s.refuse 3 Opcode.warpPointer (if window = none then destination else source)
  else s.sendWarp sys destination (s.warpOrigin window)

/-- The owner of a resource, looked for among windows, pixmaps, graphics contexts and cursors. -/
def resourceOwner (s : Server) (id : UInt32) : UInt32 :=
  match s.findWindow id, s.findPixmap id, s.findGc id, s.findCursor id with
  | some i, _, _, _ => (s.window i).ownerClient
  | none, some i, _, _ => (s.pixmaps i).ownerClient
  | none, none, some i, _ => (s.gcs i).ownerClient
  | none, none, none, some i => (s.cursors i).ownerClient.toUInt32
  | none, none, none, none => 0

def killClient (s : Server) (sys : Answers) (id : UInt32) : Bool × Server :=
  if s.resourceOwner id = 0 then s.refuse 2 Opcode.killClient id
  else (false, s.releaseClient sys (s.resourceOwner id))

def setSelectionOwner (s : Server) (atom : UInt32) : Bool × Server :=
  let owner := s.field32 8
  if owner ≠ 0 ∧ s.findWindow owner = none then s.refuse 3 Opcode.setSelectionOwner owner
  else (false, { s with selectionAtom := atom, selectionOwner := owner })

def getSelectionOwner (s : Server) (atom : UInt32) : Bool × Server :=
  (true, s.reply 32 (write32 (write8 (fun _ => 0) 0 1) 8
    (if s.selectionAtom = atom then s.selectionOwner else 0)))

/-- `UngrabKey` and `UngrabButton`. -/
def ungrabPassive (s : Server) (kind detail : UInt8) (modifiers id : UInt32) : Server :=
  { s with passiveGrabs := fun i =>
      let g := s.passiveGrabs i
      if i < passiveGrabLimit ∧ g.client = s.incoming.clientId ∧ g.kind = kind ∧ g.window = id
          ∧ (detail = 0 ∨ g.detail = detail) ∧ (modifiers = 0x8000 ∨ g.modifiers = modifiers) then
        { g with used := false } else g }

/-- The grab that is already there, else the first free slot before it. -/
def passiveSlot (s : Server) (kind detail : UInt8) (modifiers id : UInt32) : Option ℕ :=
  Table.firstIndex passiveGrabLimit fun i =>
    !(s.passiveGrabs i).used ∨ ((s.passiveGrabs i).kind = kind ∧ (s.passiveGrabs i).detail = detail
      ∧ (s.passiveGrabs i).modifiers = modifiers ∧ (s.passiveGrabs i).window = id)

/-- `GrabKey`, `GrabButton`, `UngrabKey` and `UngrabButton`. -/
def passiveGrab (s : Server) (opcode : UInt8) (id : UInt32) : Bool × Server :=
  let kind : UInt8 := if opcode = Opcode.grabKey ∨ opcode = Opcode.ungrabKey then 1 else 2
  let detail := s.payload 1
  let modifiers := s.field32 8
  let client := s.incoming.clientId
  if s.findWindow id = none ∧ id ≠ rootWindow then s.refuse 3 opcode id
  else if opcode = Opcode.ungrabKey ∨ opcode = Opcode.ungrabButton then
    (false, s.ungrabPassive kind detail modifiers id)
  else match s.passiveSlot kind detail modifiers id with
    | none => s.refuse 11 opcode id
    | some i =>
      if (s.passiveGrabs i).used then
        if (s.passiveGrabs i).client = client then (false, s) else s.refuse 10 opcode id
      else (false, s.setPassiveGrab i
        { window := id, client := client, modifiers := modifiers, eventMask := s.field32 12
          detail := detail, kind := kind, used := true })

def holdGrab (s : Server) (pointer : Bool) (id : UInt32) : Server :=
  let client := s.incoming.clientId
  if pointer then { s with
    pointerGrabClient := client, pointerGrabWindow := id, pointerGrabMask := s.field32 8 }
  else { s with keyboardGrabClient := client, keyboardGrabWindow := id }

/-- `GrabPointer` and `GrabKeyboard`. -/
def activeGrab (s : Server) (opcode : UInt8) (id : UInt32) : Bool × Server :=
  let client := s.incoming.clientId
  let pointer : Bool := opcode = Opcode.grabPointer
  let holder := if pointer then s.pointerGrabClient else s.keyboardGrabClient
  let viewable := (s.findWindow id).any fun i => (s.window i).mapped != 0
  let status : UInt8 :=
    if !viewable then 3 else if holder ≠ 0 ∧ holder ≠ client then 1 else 0
  let s := if status ≠ 0 then s else s.holdGrab pointer id
  (true, s.reply 32 (s.header 1 status))

/-- `UngrabPointer` and `UngrabKeyboard`. -/
def activeUngrab (s : Server) (opcode : UInt8) : Bool × Server :=
  let client := s.incoming.clientId
  if opcode = Opcode.ungrabPointer ∧ s.pointerGrabClient = client then (false, s.clearPointerGrab)
  else if opcode = Opcode.ungrabKeyboard ∧ s.keyboardGrabClient = client then
    (false, s.clearKeyboardGrab)
  else (false, s)

/-! ## Cursors -/

def createFontCursor (s : Server) (id : UInt32) : Bool × Server :=
  match s.allocateCursor id s.incoming.clientId with
  | none => s.refuse 14 Opcode.createFontCursor id
  | some (i, s) => (false, s.setCursor i { s.cursors i with shape := s.field16 8 })

def foreignCursor (s : Server) (i : ℕ) : Bool :=
  (s.cursors i).ownerClient != s.incoming.clientId.toUInt8

def defineCursor (s : Server) (id : UInt32) : Bool × Server :=
  let target := s.findWindow id
  let cursor := s.findCursor (s.field32 8)
  if (id ≠ rootWindow ∧ target = none) ∨ cursor.any s.foreignCursor then
    s.refuse (if target = none then 3 else 6) Opcode.defineCursor id
  else match target with
    | none => (false, s)
    | some i => (false, s.setWindow i { s.window i with
        cursor := (cursor.map fun c => (s.cursors c).id).getD 0 })

def freeCursor (s : Server) (id : UInt32) : Bool × Server :=
  match s.findCursor id with
  | none => s.refuse 6 Opcode.freeCursor id
  | some i =>
    if s.foreignCursor i then s.refuse 6 Opcode.freeCursor id
    else (false, (s.hideCursor id).setCursor i { s.cursors i with used := false })

end Server

end DemonX

end DemonOS
