import DemonOS.Lib.LittleEndian

/-!
# The DemonX transport

The records of `include/demon/demonx.h`: a logical message of up to 256 bytes travels as records of
at most 48 payload bytes, all but the last with a continuation flag. The two splitters are
`send_packet` of `lib/demonx/xlib.c` and the loop of `send_outgoing` in `user/demonx_server.c`, the
two reassemblers `receive_packet` and the head of the loop of `demonx_main`.
-/

namespace DemonOS

namespace DemonX

def transportMagic : UInt32 := 0x58313144
def transportBytes : ℕ := 64
def payloadBytes : ℕ := 48
def messageBytes : ℕ := 256
def rootWindow : UInt32 := 0x100
def resourceMask : UInt32 := 0x1FFFFF
def maxClients : UInt32 := 8

def flagSetup : UInt16 := 1
def flagReply : UInt16 := 2
def flagError : UInt16 := 4
def flagEvent : UInt16 := 8
def flagMore : UInt16 := 16

/-! ## Fields of a byte buffer -/

def read8 (bytes : ℕ → UInt8) (a : ℕ) : UInt8 := UInt8.ofNat (LittleEndian.load bytes a 1)
def read16 (bytes : ℕ → UInt8) (a : ℕ) : UInt16 := UInt16.ofNat (LittleEndian.load bytes a 2)
def read32 (bytes : ℕ → UInt8) (a : ℕ) : UInt32 := UInt32.ofNat (LittleEndian.load bytes a 4)
def read64 (bytes : ℕ → UInt8) (a : ℕ) : UInt64 := UInt64.ofNat (LittleEndian.load bytes a 8)

def write8 (bytes : ℕ → UInt8) (a : ℕ) (v : UInt8) : ℕ → UInt8 :=
  LittleEndian.store bytes a 1 v.toNat

def write16 (bytes : ℕ → UInt8) (a : ℕ) (v : UInt16) : ℕ → UInt8 :=
  LittleEndian.store bytes a 2 v.toNat

def write32 (bytes : ℕ → UInt8) (a : ℕ) (v : UInt32) : ℕ → UInt8 :=
  LittleEndian.store bytes a 4 v.toNat

def write64 (bytes : ℕ → UInt8) (a : ℕ) (v : UInt64) : ℕ → UInt8 :=
  LittleEndian.store bytes a 8 v.toNat

/-- `count` bytes of `source` copied to `a`. -/
def copyBytes (bytes : ℕ → UInt8) (a : ℕ) (source : ℕ → UInt8) (count : ℕ) : ℕ → UInt8 := fun i =>
  if a ≤ i ∧ i < a + count then source (i - a) else bytes i

@[simp] theorem read8_write8 (bytes : ℕ → UInt8) (a : ℕ) (v : UInt8) :
    read8 (write8 bytes a v) a = v := by
  rw [read8, write8, LittleEndian.load_store_of_lt _ v.toNat_lt, UInt8.ofNat_toNat]

@[simp] theorem read16_write16 (bytes : ℕ → UInt8) (a : ℕ) (v : UInt16) :
    read16 (write16 bytes a v) a = v := by
  rw [read16, write16, LittleEndian.load_store_of_lt _ v.toNat_lt, UInt16.ofNat_toNat]

@[simp] theorem read32_write32 (bytes : ℕ → UInt8) (a : ℕ) (v : UInt32) :
    read32 (write32 bytes a v) a = v := by
  rw [read32, write32, LittleEndian.load_store_of_lt _ v.toNat_lt, UInt32.ofNat_toNat]

@[simp] theorem read64_write64 (bytes : ℕ → UInt8) (a : ℕ) (v : UInt64) :
    read64 (write64 bytes a v) a = v := by
  rw [read64, write64, LittleEndian.load_store_of_lt _ v.toNat_lt, UInt64.ofNat_toNat]

theorem load_copyBytes_of_disjoint (bytes source : ℕ → UInt8) {a count b k : ℕ}
    (h : b + k ≤ a ∨ a + count ≤ b) :
    LittleEndian.load (copyBytes bytes a source count) b k = LittleEndian.load bytes b k :=
  LittleEndian.load_congr fun _ _ _ => if_neg (by omega)

/-! ## Records and messages -/

/-- `struct demonx_transport` and `struct demonx_message`, which differ in the room for the payload
alone. -/
@[ext] structure Packet where
  magic : UInt32 := 0
  payloadLength : UInt16 := 0
  flags : UInt16 := 0
  clientId : UInt32 := 0
  sequence : UInt32 := 0
  payload : ℕ → UInt8 := fun _ => 0

/-- The 64 bytes of a record, as a channel carries them. -/
def Packet.toWire (p : Packet) : ℕ → UInt8 :=
  copyBytes (write32 (write32 (write16 (write16 (write32 (fun _ => 0) 0 p.magic) 4
    p.payloadLength) 6 p.flags) 8 p.clientId) 12 p.sequence) 16 p.payload payloadBytes

def Packet.ofWire (wire : ℕ → UInt8) : Packet where
  magic := read32 wire 0
  payloadLength := read16 wire 4
  flags := read16 wire 6
  clientId := read32 wire 8
  sequence := read32 wire 12
  payload := fun i => wire (16 + i)

def hasMore (flags : UInt16) : Bool := flags &&& flagMore != 0

def withoutMore (flags : UInt16) : UInt16 := flags &&& ~~~flagMore

/-! ## Splitting -/

/-- The payload bytes of the record that starts at `offset`. -/
def Packet.recordCount (p : Packet) (offset : ℕ) : ℕ := min (p.payloadLength.toNat - offset) payloadBytes

/-- One turn of the loop of `send_packet` and `send_outgoing`: the record that starts at
`offset`. -/
def Packet.record (p : Packet) (offset : ℕ) : Packet where
  magic := transportMagic
  payloadLength := UInt16.ofNat (p.recordCount offset)
  flags := p.flags |||
    (if p.recordCount offset < p.payloadLength.toNat - offset then flagMore else 0)
  clientId := p.clientId
  sequence := p.sequence
  payload := fun i => if i < p.recordCount offset then p.payload (offset + i) else 0

/-- The loop from `offset` on, for at most `turns` turns. -/
def Packet.recordsFrom (p : Packet) : ℕ → ℕ → List Packet
  | 0, _ => []
  | turns + 1, offset =>
    p.record offset ::
      if offset + p.recordCount offset < p.payloadLength.toNat then
        p.recordsFrom turns (offset + p.recordCount offset)
      else []

/-- The records of a message: every turn but the last takes a payload byte. -/
def Packet.records (p : Packet) : List Packet := p.recordsFrom (p.payloadLength.toNat + 1) 0

/-- `send_packet`: what it sends on the server's channel. -/
def sendPacket (packet : Packet) : List Packet := packet.records

/-- What `send_outgoing` sends to a client that takes it all. -/
def outgoingRecords (outgoing : Packet) : List Packet :=
  if outgoing.clientId = 0 ∨ maxClients < outgoing.clientId then [] else outgoing.records

/-! ## Reassembly -/

/-- `incoming` and `assembly_active`. -/
structure Assembly where
  active : Bool := false
  incoming : Packet := {}

/-- The record belongs to the message under assembly. -/
def Assembly.continues (a : Assembly) (wire : Packet) : Bool :=
  a.incoming.clientId == wire.clientId && a.incoming.sequence == wire.sequence
    && a.incoming.flags == withoutMore wire.flags

/-- The message a record is appended to. -/
def Assembly.target (a : Assembly) (wire : Packet) : Packet :=
  if a.active then a.incoming
  else { a.incoming with
    magic := wire.magic, payloadLength := 0, flags := withoutMore wire.flags
    clientId := wire.clientId, sequence := wire.sequence }

/-- The payload of a record at the end of a message. -/
def Packet.append (p wire : Packet) : Packet :=
  { p with
    payload := copyBytes p.payload p.payloadLength.toNat wire.payload wire.payloadLength.toNat
    payloadLength := p.payloadLength + wire.payloadLength }

/-- The loop of `demonx_main` on a record up to the dispatch of a whole message. The server returns
with the code of an error. -/
def Assembly.receive (a : Assembly) (wire : Packet) : Except ℕ Assembly :=
  if wire.magic ≠ transportMagic ∨ payloadBytes < wire.payloadLength.toNat then .error 121
  else if wire.clientId = 0 ∨ maxClients < wire.clientId then .error 122
  else if a.active && !a.continues wire then .error 125
  else if messageBytes < (a.target wire).payloadLength.toNat + wire.payloadLength.toNat then
    .error 126
  else .ok { active := hasMore wire.flags, incoming := (a.target wire).append wire }

/-- The loop of `demonx_main` on the records of its channel: the messages it dispatches. -/
def Assembly.feed : Assembly → List (ℕ → UInt8) → Except ℕ (List Packet × Assembly)
  | a, [] => .ok ([], a)
  | a, wire :: wires =>
    match a.receive (Packet.ofWire wire) with
    | .error code => .error code
    | .ok a => (a.feed wires).map fun r => (if a.active then r.1 else a.incoming :: r.1, r.2)

/-- The locals of `receive_packet`, with the packet it fills. -/
structure Reception where
  packet : Packet := {}
  total : UInt16 := 0
  flags : UInt16 := 0
  clientId : UInt32 := 0
  sequence : UInt32 := 0

/-- The record goes with those already received. -/
def Reception.continues (r : Reception) (wire : Packet) : Bool :=
  r.clientId == wire.clientId && r.sequence == wire.sequence && r.flags == withoutMore wire.flags

/-- The header of the first record, or of the records before. -/
def Reception.header (r : Reception) (wire : Packet) : Reception :=
  if r.total = 0 then { r with
    flags := withoutMore wire.flags, clientId := wire.clientId, sequence := wire.sequence }
  else r

/-- The record's payload copied behind what is there. -/
def Reception.append (r : Reception) (wire : Packet) : Reception :=
  { r with
    packet := { r.packet with
      payload := copyBytes r.packet.payload r.total.toNat wire.payload wire.payloadLength.toNat }
    total := r.total + wire.payloadLength }

/-- The end of `receive_packet`. -/
def Reception.finish (r : Reception) : Packet :=
  { r.packet with
    magic := transportMagic, payloadLength := r.total, flags := r.flags
    clientId := r.clientId, sequence := r.sequence }

/-- The loop of `receive_packet` on the records of the reply channel: the packet, and the records
left. -/
def Reception.loop : Reception → List Packet → Option (Packet × List Packet)
  | _, [] => none
  | r, wire :: rest =>
    if wire.magic ≠ transportMagic ∨ payloadBytes < wire.payloadLength.toNat
        ∨ messageBytes < r.total.toNat + wire.payloadLength.toNat then none
    else if r.total ≠ 0 ∧ r.continues wire = false then none
    else
      let r := (r.header wire).append wire
      if hasMore wire.flags then Reception.loop r rest else some (r.finish, rest)

/-- `receive_packet` into the display's packet. -/
def receivePacket (packet : Packet) (replies : List Packet) : Option (Packet × List Packet) :=
  Reception.loop { packet := packet } replies

end DemonX

end DemonOS
