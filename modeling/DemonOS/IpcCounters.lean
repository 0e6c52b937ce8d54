import DemonOS.Syscall

/-!
# The message counters

The counters of `src/ipc.c`, which `ipc_messages_sent`, `ipc_messages_received` and
`ipc_messages_dropped` report: what `ipc_send_impl` and `ipc_receive` add to them, and with that what
an event adds.
-/

namespace DemonOS

/-- `sent_count`, `received_count` and `dropped_count`. -/
structure IpcCounters where
  sent : UInt64 := 0
  received : UInt64 := 0
  dropped : UInt64 := 0

namespace Kernel

/-- What `ipc_send_impl` adds to the counters. A message that is parked is not counted. -/
def countSend (k : Kernel) (n : IpcCounters) (pid handle : ℕ) (data : List UInt8) (block : Bool) :
    IpcCounters :=
  match k.ipc.resolve k.objects.caps pid handle rightSend with
  | none => n
  | some i =>
    let c := k.ipc.channels i
    if data.length = 0 ∨ ipcMessageMax < data.length then n
    else if c.waiter.active then
      if (k.deliverToWaiter i pid data).1 = .delivered then
        { n with sent := n.sent + 1, received := n.received + 1 }
      else { n with dropped := n.dropped + 1 }
    else if c.count = ipcQueueDepth then
      if !block || c.sender.active then { n with dropped := n.dropped + 1 } else n
    else { n with sent := n.sent + 1 }

/-- What `ipc_receive` adds to the counters. The message of a parked sender goes into the ring
without being counted. -/
def countReceive (k : Kernel) (n : IpcCounters) (pid handle capacity : ℕ) : IpcCounters :=
  if (k.ipcReceive pid handle capacity).isSome then { n with received := n.received + 1 } else n

/-- The counters after a system call: 16 sends, 17 and 26 receive. -/
def countSyscall (k : Kernel) (n : IpcCounters) (f : Frame) (user : ℕ → UInt8) : IpcCounters :=
  let number := f.rax.toNat
  if number = 16 then
    if !k.canRead f.rsi f.rdx || f.rdx == 0 || ipcMessageMax < f.rdx.toNat then n
    else k.countSend n k.current f.rdi.toNat (readUser user f.rsi.toNat f.rdx.toNat) true
  else if number = 17 then
    if !k.validBuffer f then n else k.countReceive n k.current f.rdi.toNat f.rdx.toNat
  else if number = 26 then
    if !k.validSelect f then n else k.countReceive n k.current f.rdi.toNat ipcMessageMax
  else n

def countEvent (k : Kernel) (n : IpcCounters) : Event → IpcCounters
  | .syscall registers user _ =>
    if k.userMode then (k.enter registers).countSyscall n registers user else n
  | _ => n

end Kernel

end DemonOS
