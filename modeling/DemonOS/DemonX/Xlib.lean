import DemonOS.DemonX.Main

/-!
# The client library of DemonX

What `lib/demonx/xlib.c` does for the clients: requests, replies, atoms, properties and events. Every
client has one display, and the displays, the server and the reply channels make up a `Desktop`.
What a client sends the server takes at once; what the server sends waits in the reply channel of
its client. A call that waits for a packet which does not come gives nothing.
-/

namespace DemonOS

namespace DemonX

/-! ## C strings -/

structure CString where
  bytes : List UInt8
  noNul : 0 ∉ bytes

/-- The C string at `a` in a buffer of `size` bytes. -/
def cString (buffer : ℕ → UInt8) (size a : ℕ) : List UInt8 :=
  ((List.range (size - a)).map fun k => buffer (a + k)).takeWhile (· ≠ 0)

/-- The bytes of an array of `uint32_t`. -/
def words (ws : List UInt32) : ℕ → UInt8 := fun i =>
  UInt8.ofNat ((ws.getD (i / 4) 0).toNat / 256 ^ (i % 4))

/-! ## Events -/

/-- `XClientMessageEvent`; `data` is the union of 20 bytes, 10 shorts and 5 longs. -/
structure XClientMessageEvent where
  serial : UInt16 := 0
  sendEvent : Bool := false
  window : UInt32
  messageType : UInt32
  format : Int32
  data : ℕ → UInt8

namespace XClientMessageEvent

def byte (e : XClientMessageEvent) (k : ℕ) : UInt8 := e.data k
def short (e : XClientMessageEvent) (k : ℕ) : UInt16 := read16 e.data (2 * k)
def long (e : XClientMessageEvent) (k : ℕ) : Int64 := (read64 e.data (8 * k)).toInt64

end XClientMessageEvent

/-- `XEvent`, by the type of the event. -/
inductive XEvent where
  | key (type : UInt8) (serial : UInt16) (root window : UInt32) (keycode : UInt8) (value : UInt32)
      (x y : ℤ) (state : UInt32) (sameScreen : Bool)
  | button (type : UInt8) (serial : UInt16) (root window : UInt32) (button : UInt8) (x y : ℤ)
      (state : UInt32) (sameScreen : Bool)
  | motion (serial : UInt16) (root window : UInt32) (x y : ℤ) (state : UInt32) (isHint : UInt8)
      (sameScreen : Bool)
  | focus (type : UInt8) (serial : UInt16) (window : UInt32) (mode detail : UInt8)
  | map (serial : UInt16) (event window : UInt32)
  | mapRequest (serial : UInt16) (parent window : UInt32)
  | configure (serial : UInt16) (event window above : UInt32) (x y : ℤ)
      (width height borderWidth : UInt16)
  | configureRequest (serial : UInt16) (parent window above : UInt32) (x y : ℤ)
      (width height borderWidth valueMask : UInt16)
  | reparent (serial : UInt16) (event window parent : UInt32) (x y : ℤ)
  | unmap (serial : UInt16) (event window : UInt32)
  | property (serial : UInt16) (window atom time : UInt32) (state : UInt8)
  | clientMessage (e : XClientMessageEvent)
  | other (type : UInt8)

/-- The data of a client message out of the 20 bytes of a packet from byte 12 on. -/
def clientData (format : UInt8) (p : ℕ → UInt8) : ℕ → UInt8 :=
  if format = 32 then
    (List.range 5).foldl (fun data k => write64 data (8 * k) (read32 p (12 + 4 * k)).toUInt64)
      fun _ => 0
  else copyBytes (fun _ => 0) 0 (fun k => p (12 + k)) 20

/-- The event in a packet's payload. -/
def decodeEvent (p : ℕ → UInt8) : XEvent :=
  let type := p 0 &&& 0x7F
  let serial := read16 p 2
  let x := int16 (read16 p 20)
  let y := int16 (read16 p 22)
  if type = 2 ∨ type = 3 then
    .key type serial (read32 p 8) (read32 p 12) (p 1) (read32 p 16) x y (read32 p 24) (p 30 != 0)
  else if type = 4 ∨ type = 5 then
    .button type serial (read32 p 8) (read32 p 12) (p 1) x y (read32 p 24) (p 30 != 0)
  else if type = 6 then
    .motion serial (read32 p 8) (read32 p 12) x y (read32 p 24) (p 29) (p 30 != 0)
  else if type = 9 ∨ type = 10 then .focus type serial (read32 p 4) (p 8) (p 1)
  else if type = 19 then .map serial (read32 p 4) (read32 p 8)
  else if type = 20 then .mapRequest serial (read32 p 4) (read32 p 8)
  else if type = 22 then
    .configure serial (read32 p 4) (read32 p 8) (read32 p 12) (int16 (read16 p 16))
      (int16 (read16 p 18)) (read16 p 20) (read16 p 22) (read16 p 24)
  else if type = 23 then
    .configureRequest serial (read32 p 4) (read32 p 8) (read32 p 12) (int16 (read16 p 16))
      (int16 (read16 p 18)) (read16 p 20) (read16 p 22) (read16 p 24) (read16 p 26)
  else if type = 21 then
    .reparent serial (read32 p 4) (read32 p 8) (read32 p 12) (int16 (read16 p 16))
      (int16 (read16 p 18))
  else if type = 18 then .unmap serial (read32 p 4) (read32 p 8)
  else if type = 28 then .property serial (read32 p 4) (read32 p 8) (read32 p 12) (p 16)
  else if type = clientMessage then
    .clientMessage
      { serial := serial, sendEvent := p 0 &&& 0x80 != 0, window := read32 p 4
        messageType := read32 p 8, format := (p 1).toUInt32.toInt32, data := clientData (p 1) p }
  else .other type

/-- `event->type`. -/
def XEvent.type : XEvent → UInt8
  | .key type .. | .button type .. | .focus type .. | .other type => type
  | .motion .. => 6
  | .unmap .. => 18
  | .map .. => 19
  | .mapRequest .. => 20
  | .reparent .. => 21
  | .configure .. => 22
  | .configureRequest .. => 23
  | .property .. => 28
  | .clientMessage _ => DemonX.clientMessage

/-- `event->xany.window`, the first word after the display in every kind of event. -/
def XEvent.anyWindow : XEvent → UInt32
  | .key _ _ _ w .. | .button _ _ _ w .. | .motion _ _ w .. | .focus _ _ w .. | .map _ w _
  | .mapRequest _ w _ | .configure _ w .. | .configureRequest _ w .. | .reparent _ w ..
  | .unmap _ w _ | .property _ w .. => w
  | .clientMessage e => e.window
  | .other _ => 0

def eventMaskForType (type : UInt8) : UInt64 :=
  if type = 2 then 1
  else if type = 3 then 2
  else if type = 4 then 4
  else if type = 5 then 8
  else if type = 6 then 0x40
  else if type = 9 ∨ type = 10 then 0x200000
  else if type = 19 ∨ type = 22 ∨ type = 18 ∨ type = 21 then 0x20000
  else if type = 28 then 0x400000
  else 0

/-! ## Displays and the desktop -/

/-- `struct _XDisplay` of a client that is connected. -/
structure Display where
  sequence : UInt32 := 1
  propertyData : ℕ → UInt8 := fun _ => 0
  putback : Option XEvent := none
  pending : Option Packet := none
  packet : Packet := {}

/-- The server, the displays of its clients, and the records that wait in their reply channels. -/
structure Desktop where
  server : Process
  display : UInt32 → Display
  replies : UInt32 → List Packet

/-- The records among the calls after the first `n` that the kernel has taken, the earliest
first. -/
def takenSince (sys : Answers) (n : ℕ) : List SystemCall → List Packet
  | [] => []
  | call :: calls =>
    if calls.length < n then []
    else takenSince sys n calls ++ match call with
      | .sendRecord _ record => if sys (call :: calls) = 64 then [record] else []
      | _ => []

namespace Desktop

def setDisplay (d : Desktop) (client : UInt32) (display : Display) : Desktop :=
  { d with display := Function.update d.display client display }

/-- The server takes a record off its channel, and what it sends is in the channel of the client. -/
def take (sys : Answers) (d : Desktop) (record : Packet) : Desktop :=
  match d.server, Process.step sys d.server record.toWire with
  | .running s, .running t =>
    { d with
      server := .running t
      replies := Function.update d.replies t.outgoing.clientId
        (d.replies t.outgoing.clientId ++ takenSince sys s.calls.length t.calls) }
  | _, p => { d with server := p }

/-- `begin_packet` and what is then filled in. -/
def packet (d : Desktop) (client : UInt32) (length : ℕ) (payload : ℕ → UInt8) : Packet where
  magic := transportMagic
  payloadLength := UInt16.ofNat length
  clientId := client
  sequence := (d.display client).sequence
  payload := payload

/-- A request is composed and sent. -/
def send (sys : Answers) (d : Desktop) (client : UInt32) (length : ℕ) (payload : ℕ → UInt8) :
    Desktop :=
  (sendPacket (d.packet client length payload)).foldl (take sys) (d.setDisplay client
    { d.display client with
      sequence := (d.display client).sequence + 1, packet := d.packet client length payload })

/-- `receive_packet`, where there is a packet in the channel. -/
def receive (d : Desktop) (client : UInt32) : Option Desktop :=
  (receivePacket (d.display client).packet (d.replies client)).map fun r =>
    { d.setDisplay client { d.display client with packet := r.1 } with
      replies := Function.update d.replies client r.2 }

/-- A request, and the packet that comes next. -/
def request (sys : Answers) (d : Desktop) (client : UInt32) (length : ℕ) (payload : ℕ → UInt8) :
    Option Desktop := (d.send sys client length payload).receive client

/-- What a call reads from the packet it has received, where that is a reply. -/
def replied (d : Desktop) (client : UInt32) : Option (ℕ → UInt8) :=
  if (d.display client).packet.flags = flagReply then some (d.display client).packet.payload
  else none

end Desktop

/-! ## Atoms -/

/-- The head of a request: its opcode, the byte after it, its length and its first argument. -/
def requestHead (opcode second : UInt8) (length : ℕ) (id : UInt32) : ℕ → UInt8 :=
  write32 (write16 (write8 (write8 (fun _ => 0) 0 opcode) 1 second) 2 (UInt16.ofNat (length / 4)))
    4 id

namespace Desktop

def xInternAtom (sys : Answers) (client : UInt32) (name : CString) (onlyIfExists : Bool)
    (d : Desktop) : Option (UInt32 × Desktop) :=
  let length := name.bytes.length
  if length = 0 ∨ 32 < length then some (0, d)
  else
    let size := 8 + padded length
    let head := write16 (write16 (write8 (write8 (fun _ => 0) 0 Opcode.internAtom) 1
      (if onlyIfExists then 1 else 0)) 2 (UInt16.ofNat (size / 4))) 4 (UInt16.ofNat length)
    (d.request sys client size (copyBytes head 8 (fun k => name.bytes.getD k 0) length)).map fun d =>
      (((d.replied client).map fun p => read32 p 8).getD 0, d)

/-- `XGetAtomName`: the string in `atom_name`, or `NULL`. -/
def xGetAtomName (sys : Answers) (client atom : UInt32) (d : Desktop) :
    Option (Option (List UInt8) × Desktop) :=
  (d.request sys client 8 (requestHead Opcode.getAtomName 0 8 atom)).map fun d =>
    ((d.replied client).bind fun p =>
      let length := (read16 p 8).toNat
      if 16 < length then none
      else some (cString (fun k => if k < length then p (32 + k) else 0) 17 0), d)

/-! ## Properties -/

def xaAtom : UInt32 := 4
def xaString : UInt32 := 31
def xaWmName : UInt32 := 39
def propModeReplace : UInt8 := 0

def xChangeProperty (sys : Answers) (client window property type : UInt32) (format mode : UInt8)
    (data : ℕ → UInt8) (elementCount : ℕ) (d : Desktop) : Bool × Desktop :=
  let bytes := (UInt32.ofNat elementCount * (format / 8).toUInt32).toNat
  if (format ≠ 8 ∧ format ≠ 16 ∧ format ≠ 32) ∨ 2 < mode ∨ propertyDataBytes < bytes then (false, d)
  else
    let length := 24 + padded bytes
    let head := write32 (write32 (requestHead Opcode.changeProperty mode length window) 8 property)
      12 type
    (true, d.send sys client length
      (copyBytes (write32 (write8 head 16 format) 20 (UInt32.ofNat elementCount)) 24 data bytes))

/-- What `XGetWindowProperty` returns. -/
structure WindowProperty where
  actualType : UInt32
  actualFormat : UInt8
  itemCount : UInt32
  bytesAfter : UInt32
  data : ℕ → UInt8

/-- The bytes of a reply to `GetProperty` that are copied to `property_data`. -/
def returnedBytes (p : ℕ → UInt8) : ℕ := min (((p 1).toUInt32 / 8) * read32 p 16).toNat 24

/-- `XGetWindowProperty`, where the offset and the length are not negative: nothing for its failure.
The data is `property_data`, which is `NULL` where the type is `None`. -/
def xGetWindowProperty (sys : Answers) (client window property : UInt32) (offset length : UInt32)
    (deleteAfter : Bool) (requestedType : UInt32) (d : Desktop) :
    Option (Option WindowProperty × Desktop) :=
  let head := requestHead Opcode.getProperty (if deleteAfter then 1 else 0) 24 window
  let payload := write32 (write32 (write32 (write32 head 8 property) 12 requestedType) 16 offset) 20
    length
  (d.request sys client 24 payload).map fun d =>
    match d.replied client with
    | none => (none, d)
    | some p =>
      let data := copyBytes (d.display client).propertyData 0 (fun k => p (32 + k)) (returnedBytes p)
      (some ⟨read32 p 8, p 1, read32 p 16, read32 p 12, data⟩,
        d.setDisplay client { d.display client with propertyData := data })

def xStoreName (sys : Answers) (client window : UInt32) (name : CString) (d : Desktop) :
    Bool × Desktop :=
  if propertyDataBytes < name.bytes.length then (false, d)
  else d.xChangeProperty sys client window xaWmName xaString 8 propModeReplace
    (fun k => name.bytes.getD k 0) name.bytes.length

/-- `XTextProperty`; the value is an array of `nitems` items of `format` bits. -/
structure XTextProperty where
  value : ℕ → UInt8
  encoding : UInt32
  format : UInt8
  nitems : UInt32

def xGetTextProperty (sys : Answers) (client window property : UInt32) (d : Desktop) :
    Option (Option XTextProperty × Desktop) :=
  (d.xGetWindowProperty sys client window property 0 4 false 0).map fun r =>
    (r.1.bind fun w =>
      if w.actualType = 0 then none
      else some ⟨w.data, w.actualType, w.actualFormat, w.itemCount⟩, r.2)

/-! ## Events -/

/-- The data of a client message in a request: five longs cut to 32 bits, or the bytes as they
are. -/
def writeData (payload : ℕ → UInt8) (e : XClientMessageEvent) : ℕ → UInt8 :=
  if e.format = 32 then
    (List.range 5).foldl (fun payload k =>
      write32 payload (24 + k * 4) (e.long k).toUInt64.toUInt32) payload
  else copyBytes payload 24 e.data 20

/-- `XSendEvent` of a client message. -/
def xSendEvent (sys : Answers) (client window : UInt32) (propagate : Bool) (eventMask : Int64)
    (e : XClientMessageEvent) (d : Desktop) : Bool × Desktop :=
  let head := requestHead Opcode.sendEvent (if propagate then 1 else 0) 44 window
  let head := write8 (write8 (write32 head 8 eventMask.toUInt64.toUInt32) 12 clientMessage) 13
    e.format.toUInt32.toUInt8
  let payload := write32 (write32 head 16 e.window) 20 e.messageType
  if e.format ≠ 8 ∧ e.format ≠ 16 ∧ e.format ≠ 32 then
    -- the packet has been begun, and is not sent
    (false, d.setDisplay client { d.display client with
      sequence := (d.display client).sequence + 1, packet := d.packet client 44 payload })
  else (true, d.send sys client 44 (writeData payload e))

/-- The loop of `XNextEvent` on the channel: packets that are no events are dropped. -/
def nextEvent (client : UInt32) : ℕ → Desktop → Option (XEvent × Desktop)
  | 0, _ => none
  | turns + 1, d =>
    match d.receive client with
    | none => none
    | some d =>
      if (d.display client).packet.flags = flagEvent then
        some (decodeEvent (d.display client).packet.payload, d)
      else nextEvent client turns d

/-- `XNextEvent`: every turn takes at least one record. -/
def xNextEvent (client : UInt32) (d : Desktop) : Option (XEvent × Desktop) :=
  match (d.display client).putback, (d.display client).pending with
  | some e, _ => some (e, d.setDisplay client { d.display client with putback := none })
  | none, some p =>
    let d := d.setDisplay client { d.display client with packet := p, pending := none }
    if p.flags = flagEvent then some (decodeEvent p.payload, d)
    else nextEvent client (d.replies client).length d
  | none, none => nextEvent client (d.replies client).length d

def xPending (client : UInt32) (d : Desktop) : Bool × Desktop :=
  if (d.display client).putback.isSome ∨ (d.display client).pending.isSome then (true, d)
  else match d.receive client with
    | none => (false, d)
    | some d =>
      if (d.display client).packet.flags = flagEvent then
        (true, d.setDisplay client
          { d.display client with pending := some (d.display client).packet })
      else (false, d)

/-- The type of the next event, once there is one. -/
def pendingType (client : UInt32) (d : Desktop) : UInt8 :=
  ((d.display client).putback.map XEvent.type).getD
    (((d.display client).pending.map fun p => p.payload 0 &&& 0x7F).getD 0)

/-- The next event where its type is wanted. -/
def checkEvent (client : UInt32) (wanted : UInt8 → Bool) (d : Desktop) : Option XEvent × Desktop :=
  let r := d.xPending client
  if r.1 && wanted (r.2.pendingType client) then
    (r.2.xNextEvent client).elim (none, r.2) fun next => (some next.1, next.2)
  else (none, r.2)

def xPutBackEvent (client : UInt32) (e : XEvent) (d : Desktop) : Bool × Desktop :=
  if (d.display client).putback.isSome then (false, d)
  else (true, d.setDisplay client { d.display client with putback := some e })

/-- The event that was taken, or nothing where it is not wanted and is put back. -/
def keepEvent (client : UInt32) (wanted : XEvent → Bool) :
    Option XEvent × Desktop → Option XEvent × Desktop
  | (none, d) => (none, d)
  | (some e, d) => if wanted e then (some e, d) else (none, (d.xPutBackEvent client e).2)

def xCheckTypedEvent (client : UInt32) (type : ℤ) : Desktop → Option XEvent × Desktop :=
  checkEvent client (·.toNat == type)

def xCheckMaskEvent (client : UInt32) (mask : UInt64) : Desktop → Option XEvent × Desktop :=
  checkEvent client (eventMaskForType · &&& mask != 0)

def xCheckTypedWindowEvent (client window : UInt32) (type : ℤ) (d : Desktop) :
    Option XEvent × Desktop :=
  keepEvent client (·.anyWindow == window) (d.xCheckTypedEvent client type)

def xCheckWindowEvent (client window : UInt32) (mask : UInt64) (d : Desktop) :
    Option XEvent × Desktop :=
  keepEvent client (·.anyWindow == window) (d.xCheckMaskEvent client mask)

def xMaskEvent (client : UInt32) (mask : UInt64) (d : Desktop) :
    Option (Option XEvent × Desktop) :=
  (d.xNextEvent client).map fun r =>
    keepEvent client (fun e => eventMaskForType e.type &&& mask != 0) (some r.1, r.2)

def xWindowEvent (client window : UInt32) (mask : UInt64) (d : Desktop) :
    Option (Option XEvent × Desktop) :=
  (d.xNextEvent client).map fun r => keepEvent client
    (fun e => e.anyWindow == window && eventMaskForType e.type &&& mask != 0) (some r.1, r.2)

end Desktop

end DemonX

/-!
## The hints for a window manager

The calls of `lib/demonx/xlib.c` that keep the hints of a window as properties: its class, its
window-manager hints, its size hints and the protocols it takes part in. Each packs its fields into
the bytes of a property its own way.
-/

namespace DemonX

/-! ### The names of the properties -/

def ascii (text : String) : List UInt8 := text.toList.map fun c => UInt8.ofNat c.toNat

def wmProtocols : CString := ⟨ascii "WM_PROTOCOLS", by decide⟩
def wmClass : CString := ⟨ascii "WM_CLASS", by decide⟩
def wmHints : CString := ⟨ascii "WM_HINTS", by decide⟩
def wmNormalHints : CString := ⟨ascii "WM_NORMAL_HINTS", by decide⟩

/-! ### Hints -/

structure XClassHint where
  resName : CString
  resClass : CString

/-- The fields of `XWMHints` that are sent; the others stay zero where hints are read. -/
structure XWMHints where
  flags : Int64
  input : Int32
  initialState : Int32
  iconWindow : UInt32
  deriving DecidableEq

/-- The fields of `XSizeHints` that are sent; the others stay zero where hints are read. -/
structure XSizeHints where
  flags : Int64
  minWidth : Int32
  minHeight : Int32
  maxWidth : Int32
  maxHeight : Int32
  widthInc : Int32
  heightInc : Int32
  baseWidth : Int32
  baseHeight : Int32
  winGravity : Int32
  deriving DecidableEq

namespace Desktop

/-- A property of one of the names above is set, where its atom can be had. -/
def setNamed (sys : Answers) (client : UInt32) (name : CString)
    (change : UInt32 → Desktop → Bool × Desktop) (d : Desktop) : Option (Bool × Desktop) :=
  (d.xInternAtom sys client name false).map fun r =>
    if r.1 = 0 then (false, r.2) else change r.1 r.2

/-- A property of one of the names above is read, where it is of the type and format expected; the
type depends on the atom. -/
def getNamed (sys : Answers) (client window : UInt32) (name : CString) (length : UInt32)
    (type : UInt32 → UInt32) (format : UInt8) (d : Desktop) :
    Option (Option WindowProperty × Desktop) :=
  match d.xInternAtom sys client name true with
  | none => none
  | some (property, d) =>
    if property = 0 then some (none, d)
    else (d.xGetWindowProperty sys client window property 0 length false (type property)).map fun r =>
      (r.1.filter fun w => w.actualType = type property ∧ w.actualFormat = format, r.2)

/-! ### Protocols -/

def xSetWMProtocols (sys : Answers) (client window : UInt32) (protocols : List UInt32)
    (d : Desktop) : Option (Bool × Desktop) :=
  if propertyDataBytes / 4 < protocols.length then some (false, d)
  else d.setNamed sys client wmProtocols fun property d =>
    d.xChangeProperty sys client window property xaAtom 32 propModeReplace (words protocols)
      protocols.length

def xGetWMProtocols (sys : Answers) (client window : UInt32) (d : Desktop) :
    Option (Option (List UInt32) × Desktop) :=
  (d.getNamed sys client window wmProtocols 4 (fun _ => xaAtom) 32).map fun r =>
    (r.1.map fun w => (List.range w.itemCount.toNat).map fun k => read32 w.data (4 * k), r.2)

/-! ### The class -/

/-- The name and the class, each with its NUL. -/
def classData (hint : XClassHint) : ℕ → UInt8 := fun i =>
  (hint.resName.bytes ++ 0 :: hint.resClass.bytes).getD i 0

def xSetClassHint (sys : Answers) (client window : UInt32) (hint : XClassHint) (d : Desktop) :
    Option (Bool × Desktop) :=
  let length := hint.resName.bytes.length + hint.resClass.bytes.length + 2
  if 16 < length then some (false, d)
  else d.setNamed sys client wmClass fun property d =>
    d.xChangeProperty sys client window property xaString 8 propModeReplace (classData hint) length

/-- Where the name in the data ends. -/
def classSplit (w : WindowProperty) : ℕ :=
  (((List.range w.itemCount.toNat).map w.data).takeWhile (· ≠ 0)).length

/-- The two strings `XGetClassHint` points to, in `property_data`. -/
def xGetClassHint (sys : Answers) (client window : UInt32) (d : Desktop) :
    Option (Option (List UInt8 × List UInt8) × Desktop) :=
  (d.getNamed sys client window wmClass 4 (fun _ => xaString) 8).map fun r =>
    (r.1.bind fun w =>
      if w.itemCount < 2 ∨ w.itemCount.toNat ≤ classSplit w + 1 then none
      else some (cString w.data 24 0, cString w.data 24 (classSplit w + 1)), r.2)

/-! ### The window-manager hints -/

def hintsData (hints : XWMHints) : ℕ → UInt8 :=
  write32 (write32 (write32 (write32 (fun _ => 0) 0 hints.flags.toUInt64.toUInt32) 4
    hints.input.toUInt32) 8 hints.initialState.toUInt32) 12 hints.iconWindow

def xSetWMHints (sys : Answers) (client window : UInt32) (hints : XWMHints) (d : Desktop) :
    Option (Bool × Desktop) :=
  d.setNamed sys client wmHints fun property d =>
    d.xChangeProperty sys client window property property 32 propModeReplace (hintsData hints) 4

/-- A field of 32 bits read as a `long`. -/
def readLong (data : ℕ → UInt8) (a : ℕ) : Int64 := (read32 data a).toUInt64.toInt64

def xGetWMHints (sys : Answers) (client window : UInt32) (d : Desktop) :
    Option (Option XWMHints × Desktop) :=
  (d.getNamed sys client window wmHints 4 id 32).map fun r =>
    (r.1.bind fun w =>
      if w.itemCount < 3 then none
      else some
        { flags := readLong w.data 0, input := (read32 w.data 4).toInt32
          initialState := (read32 w.data 8).toInt32
          iconWindow := if 4 ≤ w.itemCount then read32 w.data 12 else 0 }, r.2)

/-! ### The size hints -/

def sizeHintsData (hints : XSizeHints) : ℕ → UInt8 :=
  let data := write32 (fun _ => 0) 0 hints.flags.toUInt64.toUInt32
  let data := write16 (write16 data 4 hints.minWidth.toUInt32.toUInt16) 6
    hints.minHeight.toUInt32.toUInt16
  let data := write16 (write16 data 8 hints.maxWidth.toUInt32.toUInt16) 10
    hints.maxHeight.toUInt32.toUInt16
  let data := write16 (write16 data 12 hints.widthInc.toUInt32.toUInt16) 14
    hints.heightInc.toUInt32.toUInt16
  let data := write16 (write16 data 16 hints.baseWidth.toUInt32.toUInt16) 18
    hints.baseHeight.toUInt32.toUInt16
  write32 data 20 hints.winGravity.toUInt32

def xSetNormalHints (sys : Answers) (client window : UInt32) (hints : XSizeHints) (d : Desktop) :
    Option (Bool × Desktop) :=
  d.setNamed sys client wmNormalHints fun property d =>
    d.xChangeProperty sys client window property property 32 propModeReplace (sizeHintsData hints) 6

/-- A field of 16 bits read as an `int`. -/
def readInt (data : ℕ → UInt8) (a : ℕ) : Int32 := (read16 data a).toUInt32.toInt32

/-- `XGetWMNormalHints`; what it says is supplied are the flags. -/
def xGetWMNormalHints (sys : Answers) (client window : UInt32) (d : Desktop) :
    Option (Option XSizeHints × Desktop) :=
  (d.getNamed sys client window wmNormalHints 6 id 32).map fun r =>
    (r.1.bind fun w =>
      if w.itemCount ≠ 6 then none
      else some
        { flags := readLong w.data 0, minWidth := readInt w.data 4, minHeight := readInt w.data 6
          maxWidth := readInt w.data 8, maxHeight := readInt w.data 10
          widthInc := readInt w.data 12, heightInc := readInt w.data 14
          baseWidth := readInt w.data 16, baseHeight := readInt w.data 18
          winGravity := (read32 w.data 20).toInt32 }, r.2)

end Desktop

end DemonX

end DemonOS
