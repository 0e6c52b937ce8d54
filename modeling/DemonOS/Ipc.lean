import DemonOS.Capability

/-!
# IPC channels

The channel table of `src/ipc.c`: a ring of 32 messages, the process waiting for the next message
and the one sender parked on a full ring. What wakes a task or copies into a process is in
`Kernel.lean`; the message counters are left out.
-/

namespace DemonOS

def ipcChannelLimit : ℕ := 16
def ipcQueueDepth : ℕ := 32
def ipcNameMax : ℕ := 24
def ipcMessageMax : ℕ := 64

structure IpcMessage where
  sender : ℕ := 0
  data : List UInt8 := []
  deriving DecidableEq, Inhabited

structure IpcWaiter where
  pid : ℕ := 0
  address : ℕ := 0
  capacity : ℕ := 0
  active : Bool := false
  multiplex : Bool := false
  deriving DecidableEq

/-- A sender asleep on a full ring, with the message it wants to send. -/
structure IpcSendWaiter where
  pid : ℕ := 0
  data : List UInt8 := []
  active : Bool := false
  deriving DecidableEq

structure IpcChannel where
  owner : ℕ := 0
  name : List UInt8 := []
  read : ℕ := 0
  write : ℕ := 0
  count : ℕ := 0
  messages : ℕ → IpcMessage := fun _ => {}
  waiter : IpcWaiter := {}
  sender : IpcSendWaiter := {}
  active : Bool := false

structure Ipc where
  channels : ℕ → IpcChannel := fun _ => {}

namespace IpcChannel

/-- Stores a message in the ring's next slot. -/
def push (c : IpcChannel) (m : IpcMessage) : IpcChannel :=
  { c with
    messages := Function.update c.messages c.write m
    write := (c.write + 1) % ipcQueueDepth
    count := c.count + 1 }

/-- Drops the ring's oldest message. -/
def pop (c : IpcChannel) : IpcChannel :=
  { c with read := (c.read + 1) % ipcQueueDepth, count := c.count - 1 }

def clearWaiter (c : IpcChannel) : IpcChannel := { c with waiter := { c.waiter with active := false } }

def clearSender (c : IpcChannel) : IpcChannel := { c with sender := { c.sender with active := false } }

/-- Drops what the channel holds for the process `pid`: its wait and its parked message. -/
def forget (c : IpcChannel) (pid : ℕ) : IpcChannel :=
  let c := if c.waiter.active = true ∧ c.waiter.pid = pid then c.clearWaiter else c
  if c.sender.active = true ∧ c.sender.pid = pid then c.clearSender else c

/-- The channel after its owner's exit. -/
def closed (c : IpcChannel) : IpcChannel :=
  { c.clearWaiter.clearSender with active := false, count := 0 }

end IpcChannel

namespace Ipc

@[simps -fullyApplied] def setChannel (ipc : Ipc) (i : ℕ) (c : IpcChannel) : Ipc :=
  { channels := Function.update ipc.channels i c }

/-- `by_id`: the index of a live channel. -/
def byId (ipc : Ipc) (id : ℕ) : Option ℕ :=
  if id = 0 ∨ ipcChannelLimit < id then none
  else if (ipc.channels (id - 1)).active = false then none
  else some (id - 1)

/-- `resolve`: the live channel a handle of `pid` with the right names. -/
def resolve (ipc : Ipc) (caps : Capabilities) (pid handle : ℕ) (right : BitVec 32) : Option ℕ :=
  match caps.capabilityResolveObject pid handle right with
  | none => none
  | some v => if v.service ≠ .ipc then none else ipc.byId v.objectId

/-- The live channel of that name. -/
def findName (ipc : Ipc) (name : List UInt8) : Option ℕ :=
  Table.firstIndex ipcChannelLimit fun i =>
    (ipc.channels i).active && (ipc.channels i).name == name

/-- The slot the next channel is created in. -/
def firstInactive (ipc : Ipc) : Option ℕ :=
  Table.firstIndex ipcChannelLimit fun i => !(ipc.channels i).active

/-- `ipc_create`: the handle, and the tables. Where no capability can be opened the slot stays
inactive. -/
def ipcCreate (ipc : Ipc) (caps : Capabilities) (owner : ℕ) (name : List UInt8) :
    Option ℕ × Ipc × Capabilities :=
  if owner = 0 ∨ name.length = 0 ∨ ipcNameMax ≤ name.length then (none, ipc, caps)
  else match ipc.findName name with
    | some _ => (none, ipc, caps)
    | none =>
      match ipc.firstInactive with
      | none => (none, ipc, caps)
      | some i =>
        let c : IpcChannel := { owner := owner, name := name, active := true }
        match caps.capabilityOpenIpc owner (i + 1) (rightSend ||| rightReceive ||| rightQuery) with
        | none => (none, ipc.setChannel i { c with active := false }, caps)
        | some (handle, caps) => (some handle, ipc.setChannel i c, caps)

/-- `ipc_connect`. -/
def ipcConnect (ipc : Ipc) (caps : Capabilities) (pid : ℕ) (name : List UInt8) :
    Option (ℕ × Capabilities) :=
  if pid = 0 ∨ name.length = 0 ∨ ipcNameMax ≤ name.length then none
  else match ipc.findName name with
    | none => none
    | some i => caps.capabilityOpenIpc pid (i + 1) (rightSend ||| rightQuery)

/-- `ipc_cancel_wait`: withdraws `pid`'s wait from the first channel it waits on. -/
def ipcCancelWait (ipc : Ipc) (pid : ℕ) : Ipc :=
  match Table.firstIndex ipcChannelLimit fun i => (ipc.channels i).active
      && (ipc.channels i).waiter.active && (ipc.channels i).waiter.pid == pid with
  | none => ipc
  | some i => ipc.setChannel i (ipc.channels i).clearWaiter

/-- `ipc_channel_owner`. -/
def ipcChannelOwner (ipc : Ipc) (caps : Capabilities) (pid handle : ℕ) : Option ℕ :=
  match ipc.resolve caps pid handle rightQuery with
  | none => none
  | some i => if (ipc.channels i).owner = 0 then none else some (ipc.channels i).owner

/-- The body of `ipc_wait` and `ipc_wait_select`. -/
def registerWait (ipc : Ipc) (caps : Capabilities) (multiplex : Bool)
    (pid handle address capacity : ℕ) : Option Ipc :=
  match ipc.resolve caps pid handle rightReceive with
  | none => none
  | some i =>
    if (ipc.channels i).waiter.active = true ∨ capacity = 0 ∨ ipcMessageMax < capacity then none
    else
      let w : IpcWaiter :=
        { pid := pid, address := address, capacity := capacity, active := true
          multiplex := multiplex }
      some (ipc.setChannel i { ipc.channels i with waiter := w })

def ipcWait (ipc : Ipc) (caps : Capabilities) : ℕ → ℕ → ℕ → ℕ → Option Ipc :=
  ipc.registerWait caps false

def ipcWaitSelect (ipc : Ipc) (caps : Capabilities) : ℕ → ℕ → ℕ → ℕ → Option Ipc :=
  ipc.registerWait caps true

end Ipc

end DemonOS
