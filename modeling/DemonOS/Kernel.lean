import DemonOS.Input
import DemonOS.Ipc
import DemonOS.Ramfs
import DemonOS.UserMemory

/-!
# The kernel

The modules put together, and the functions of `src/ipc.c`, `src/input.c`, `src/scheduler.c` and
`src/arch/x86_64/userspace.c` that reach across them: delivery of messages and events to waiting
processes, the timer, and the life of a process from spawn to reap. What is copied into a
process's memory is left out; whether a copy is allowed is not.
-/

namespace DemonOS

def u64Max : UInt64 := 0xFFFFFFFFFFFFFFFF

structure Kernel where
  sched : Scheduler := {}
  ipc : Ipc := {}
  input : Input := {}
  objects : Objects
  files : Ramfs := {}
  mem : UserMemory
  initialized : Bool := false

namespace Kernel

@[simps] def withSched (k : Kernel) (s : Scheduler) : Kernel := { k with sched := s }
@[simps] def withIpc (k : Kernel) (ipc : Ipc) : Kernel := { k with ipc := ipc }
@[simps] def withInput (k : Kernel) (input : Input) : Kernel := { k with input := input }
@[simps] def withObjects (k : Kernel) (o : Objects) : Kernel := { k with objects := o }
@[simps] def withFiles (k : Kernel) (files : Ramfs) : Kernel := { k with files := files }
@[simps] def withMem (k : Kernel) (m : UserMemory) : Kernel := { k with mem := m }

/-- The kernel with channel `i` replaced. -/
@[simps! -fullyApplied] def setChannel (k : Kernel) (i : ℕ) (c : IpcChannel) : Kernel := k.withIpc (k.ipc.setChannel i c)

/-- `(void)scheduler_wake(...)`. -/
def wakeIfBlocked (k : Kernel) (pid : ℕ) (result detail : UInt64) : Kernel :=
  k.withSched ((k.sched.wake pid result detail).getD k.sched)

/-- `userspace_copy_to`: the target is a loaded process, and the range one the running process
may write. -/
def userspaceCopyTo (k : Kernel) (pid address length : ℕ) : Bool :=
  UserMemory.validPid pid && k.mem.processMemoryUsed pid
    && k.mem.userWriteRange k.sched.currentPid address length

/-! ## Messages -/

/-- The result of `ipc_send_impl`: 0, 1 and 2. -/
inductive SendResult where
  | failed | delivered | parked
  deriving DecidableEq

/-- Takes the waiting process off channel `i`, and off the input queue where it selects on both. -/
def takeWaiter (k : Kernel) (i : ℕ) : Kernel :=
  if (k.ipc.channels i).waiter.multiplex then
    (k.setChannel i (k.ipc.channels i).clearWaiter).withInput
      (k.input.inputCancelWait (k.ipc.channels i).waiter.pid)
  else k.setChannel i (k.ipc.channels i).clearWaiter

def wakeResult (w : IpcWaiter) (pid length : ℕ) : UInt64 × UInt64 :=
  if w.multiplex then (1, UInt64.ofNat length) else (UInt64.ofNat length, UInt64.ofNat pid)

/-- The message fits the buffer a process waits with, and may be copied there. -/
def accepts (k : Kernel) (w : IpcWaiter) (length : ℕ) : Bool :=
  length ≤ w.capacity && k.userspaceCopyTo w.pid w.address length

/-- The first branch of `ipc_send_impl`: the message goes to the process waiting on channel `i`. -/
def deliverToWaiter (k : Kernel) (i pid : ℕ) (data : List UInt8) : SendResult × Kernel :=
  let w := (k.ipc.channels i).waiter
  if !k.accepts w data.length then (.failed, k.takeWaiter i)
  else match (k.takeWaiter i).sched.wake w.pid (wakeResult w pid data.length).1
      (wakeResult w pid data.length).2 with
    | none => (.failed, k.takeWaiter i)
    | some s => (.delivered, (k.takeWaiter i).withSched s)

def ipcSendImpl (k : Kernel) (pid handle : ℕ) (data : List UInt8) (block : Bool) :
    SendResult × Kernel :=
  match k.ipc.resolve k.objects.caps pid handle rightSend with
  | none => (.failed, k)
  | some i =>
    let c := k.ipc.channels i
    if data.length = 0 ∨ ipcMessageMax < data.length then (.failed, k)
    else if c.waiter.active then k.deliverToWaiter i pid data
    else if c.count = ipcQueueDepth then
      if !block || c.sender.active then (.failed, k)
      else (.parked, k.setChannel i { c with sender := { pid := pid, data := data, active := true } })
    else (.delivered, k.setChannel i (c.push { sender := pid, data := data }))

def ipcSendBlock (k : Kernel) (pid handle : ℕ) (data : List UInt8) : SendResult × Kernel :=
  k.ipcSendImpl pid handle data true

/-- Drains one slot of channel `i`, into which a parked sender's message goes at once. -/
def drainSlot (k : Kernel) (i : ℕ) : Kernel :=
  let parked := (k.ipc.channels i).sender
  if parked.active then
    (k.setChannel i ((k.ipc.channels i).pop.clearSender.push
      { sender := parked.pid, data := parked.data })).wakeIfBlocked
      parked.pid (UInt64.ofNat parked.data.length) 0
  else k.setChannel i (k.ipc.channels i).pop

def ipcReceive (k : Kernel) (pid handle capacity : ℕ) : Option (IpcMessage × Kernel) :=
  match k.ipc.resolve k.objects.caps pid handle rightReceive with
  | none => none
  | some i =>
    let c := k.ipc.channels i
    if c.count = 0 ∨ capacity < (c.messages c.read).data.length then none
    else some (c.messages c.read, k.drainSlot i)

/-- The processes asleep on a channel whose owner goes away are woken with failure. -/
def wakeSleepers (k : Kernel) (c : IpcChannel) : Kernel :=
  let k := if c.waiter.active = true ∧ c.waiter.multiplex = true then
    k.withInput (k.input.inputCancelWait c.waiter.pid) else k
  let k := if c.waiter.active then k.wakeIfBlocked c.waiter.pid u64Max 0 else k
  if c.sender.active then k.wakeIfBlocked c.sender.pid u64Max 0 else k

/-- One turn of the loop of `ipc_process_cleanup`. -/
def cleanupChannel (k : Kernel) (pid i : ℕ) : Kernel :=
  if (k.ipc.channels i).active = false then k
  else if (k.ipc.channels i).owner ≠ pid then k.setChannel i ((k.ipc.channels i).forget pid)
  else (k.wakeSleepers ((k.ipc.channels i).forget pid)).setChannel i
    ((k.ipc.channels i).forget pid).closed

def ipcProcessCleanup (k : Kernel) (pid : ℕ) : Kernel :=
  (List.range ipcChannelLimit).foldl (fun k i => k.cleanupChannel pid i)
    (k.withInput (k.input.inputCancelWait pid))

/-- `ipc_cancel_wait` and `input_cancel_wait` of one process. -/
def cancelWaits (k : Kernel) (pid : ℕ) : Kernel :=
  (k.withIpc (k.ipc.ipcCancelWait pid)).withInput (k.input.inputCancelWait pid)

/-! ## Input events -/

/-- `input_publish`: the event goes to the waiting process, else into the queue. -/
def inputPublish (k : Kernel) (event : InputEvent) : Kernel :=
  if event.type < inputKeyDown ∨ inputMouseScroll < event.type then k
  else if k.input.waiter.active = false then k.withInput (k.input.enqueue event)
  else
    let w := k.input.waiter
    let k := (k.withInput k.input.clearWaiter).withIpc (k.ipc.ipcCancelWait w.pid)
    let woken := if k.userspaceCopyTo w.pid w.address inputEventSize then
      k.sched.wake w.pid 2 (UInt64.ofNat inputEventSize) else none
    match woken with
    | some s => k.withSched s
    | none => k.withInput (k.input.enqueue event)

/-! ## Surfaces mapped into a process -/

/-- `map_surface_readonly`: the address the surface is mapped at. -/
def mapSurfaceReadonly (k : Kernel) (pid objectId : ℕ) : Option ℕ × Kernel :=
  let mapped := k.mem.mappedSurface pid
  if ¬UserMemory.validPid pid ∨ k.mem.processMemoryUsed pid = false then (none, k)
  else match Table.firstIndex userSurfaceMapSlots (fun slot => mapped slot = objectId) with
    | some slot => (some (userSurfaceMapSlotBase slot), k)
    | none =>
      match Table.firstIndex userSurfaceMapSlots (fun slot => mapped slot = 0) with
      | none => (none, k)
      | some slot =>
        match k.objects.surfaces.surfaceMappingData objectId with
        | none => (none, k)
        | some (physicalAddress, pageCount) =>
          if pageCount = 0 ∨ userSurfaceMapPages < pageCount ∨ physicalAddress % 4096 ≠ 0 then
            (none, k)
          else match k.objects.surfaces.surfaceRetain objectId with
            | none => (none, k)
            | some s =>
              match k.mem.editSurfacePtes pid slot physicalAddress pageCount true with
              | (false, m) =>
                (none, (k.withMem m).withObjects
                  (k.objects.withSurfaces ((s.surfaceRelease objectId).getD s)))
              | (true, m) =>
                (some (userSurfaceMapSlotBase slot),
                  (k.withMem { m with
                    mappedSurface := UserMemory.update2 m.mappedSurface pid slot objectId
                  }).withObjects (k.objects.withSurfaces s))

/-- Takes the surface mapped in one slot out of it, with its reference. -/
def unmapSlot (k : Kernel) (pid slot : ℕ) : Kernel :=
  let objectId := k.mem.mappedSurface pid slot
  let m := (k.mem.editSurfacePtes pid slot 0 0 false).2
  (k.withMem { m with mappedSurface := UserMemory.update2 m.mappedSurface pid slot 0 }).withObjects
    (k.objects.withSurfaces ((k.objects.surfaces.surfaceRelease objectId).getD k.objects.surfaces))

/-- `unmap_surface_id`. -/
def unmapSurfaceId (k : Kernel) (pid objectId : ℕ) : Option Kernel :=
  if ¬UserMemory.validPid pid ∨ objectId = 0 then none
  else (Table.firstIndex userSurfaceMapSlots fun slot => k.mem.mappedSurface pid slot = objectId).map
    (k.unmapSlot pid)

/-- `unmap_surface`: every mapping of `pid`, then the tables of its slots. -/
def unmapSurface (k : Kernel) (pid : ℕ) : Kernel :=
  if ¬UserMemory.validPid pid then k
  else
    let k := (List.range userSurfaceMapSlots).foldl (fun k slot =>
      if k.mem.mappedSurface pid slot = 0 then k else k.unmapSlot pid slot) k
    k.withMem (k.mem.releaseSurfaceTables pid)

/-! ## The life of a process -/

/-- `capabilities_close_all`, on the kernel. -/
def closeAll (k : Kernel) (pid : ℕ) : Kernel := k.withObjects (k.objects.capabilitiesCloseAll pid)

def userspaceReleaseProcess (k : Kernel) (pid : ℕ) : Kernel :=
  if ¬UserMemory.validPid pid then k
  else
    let k := ((k.ipcProcessCleanup pid).closeAll pid).unmapSurface pid
    let m := (k.mem.anonymousRelease pid).largeCodeRelease pid
    k.withMem { m with processMemoryUsed := Function.update m.processMemoryUsed pid false }

/-- Empties the slot of a process whose exit status has been read. -/
def freeSlot (k : Kernel) (child : ℕ) : Kernel :=
  let k := k.userspaceReleaseProcess child
  k.withSched (k.sched.setTask child {})

def wakeWaitingParent (k : Kernel) (child : ℕ) : Kernel :=
  let parent := (k.sched.tasks child).parentPid
  let waitingFor := (k.sched.tasks parent).waitingFor
  if parent = 0 ∨ processLimit ≤ parent ∨ k.sched.state parent ≠ .blocked
      ∨ (waitingFor ≠ some 0 ∧ waitingFor ≠ some child) then k
  else
    let s := k.sched.setResult parent (UInt64.ofNat child) (k.sched.tasks child).exitCode
    let s := s.setTask parent { s.tasks parent with waitingFor := none, state := .ready }
    (k.withSched s).freeSlot child

/-- Marks a task exited and hands its status to a parent that waits for it. -/
def exitTask (k : Kernel) (pid : ℕ) (code : UInt64) : Kernel :=
  (k.withSched (k.sched.setTask pid
    { k.sched.tasks pid with exitCode := code, state := .exited })).wakeWaitingParent pid

def schedulerOnExit (k : Kernel) (code : UInt64) : Kernel :=
  if k.sched.usersRunning = false ∨ k.sched.currentPid = 0 then k
  else
    let k := k.exitTask k.sched.currentPid code
    match k.sched.nextReady k.sched.currentPid with
    | some next => k.withSched (k.sched.dispatch next)
    | none => k.withSched k.sched.returnIdle

def schedulerTerminate (k : Kernel) (pid : ℕ) (code : UInt64) : Option Kernel :=
  if pid = 0 ∨ processLimit ≤ pid ∨ pid = k.sched.currentPid ∨ k.sched.state pid = .unused
      ∨ k.sched.state pid = .exited then none
  else some (k.exitTask pid code)

def schedulerReap (k : Kernel) (parent child : ℕ) : Option (UInt64 × Kernel) :=
  if child = 0 ∨ processLimit ≤ child ∨ (k.sched.tasks child).parentPid ≠ parent
      ∨ k.sched.state child ≠ .exited then none
  else some ((k.sched.tasks child).exitCode, k.freeSlot child)

/-- `scheduler_reap_exited`: the first exited child. -/
def schedulerReapExited (k : Kernel) (parent : ℕ) : Option (ℕ × UInt64 × Kernel) :=
  match Table.firstIndex (processLimit - 1) fun i =>
      (k.sched.tasks (i + 1)).parentPid = parent ∧ k.sched.state (i + 1) = .exited with
  | none => none
  | some i => (k.schedulerReap parent (i + 1)).map fun (code, k) => (i + 1, code, k)

def schedulerOnWait (k : Kernel) (child : ℕ) : Kernel :=
  let current := k.sched.currentPid
  match k.schedulerReap current child with
  | some (status, k) => k.withSched (k.sched.setResult current (UInt64.ofNat child) status)
  | none =>
    if processLimit ≤ child ∨ (k.sched.tasks child).parentPid ≠ current
        ∨ k.sched.state child = .unused then
      k.withSched (k.sched.setFrame current { k.sched.frames current with rax := u64Max })
    else k.withSched (k.sched.setTask current
      { k.sched.tasks current with state := .blocked, waitingFor := some child }).reschedule

/-! ## The timer -/

/-- One turn of the loop of `scheduler_on_timer_tick`: a timed wait that has run out ends. -/
def expireWait (k : Kernel) (pid : ℕ) : Kernel :=
  let t := k.sched.tasks pid
  if t.state ≠ .blocked ∨ t.timedWait = false ∨ k.sched.ticks < t.wakeTick then k
  else
    let k := k.cancelWaits pid
    k.withSched ((k.sched.setResult pid t.timeoutResult 0).setTask pid
      { t with timedWait := false, waitingFor := none, state := .ready })

def expireWaits (k : Kernel) : Kernel :=
  (List.range (processLimit - 1)).foldl (fun k i => k.expireWait (i + 1)) k

def countTick (k : Kernel) : Kernel := k.withSched { k.sched with ticks := k.sched.ticks + 1 }

def schedulerOnTimerTick (k : Kernel) : Kernel :=
  k.countTick.expireWaits.withSched k.countTick.expireWaits.sched.chargeSlice

/-! ## Loading and spawning -/

/-- `load_process`. The task table picks the slot itself: where it picks another one than
`expectedPid`, the call fails and the task it has created stays. -/
def loadProcess (k : Kernel) (expectedPid parentPid : ℕ) (image : List UInt8)
    (serviceMask : BitVec 32) : Bool × Kernel :=
  match k.mem.loadImage expectedPid image with
  | (none, m) => (false, k.withMem m)
  | (some entry, m) =>
    let k := k.withMem m
    match k.sched.createUser parentPid (UInt64.ofNat entry)
        (UInt64.ofNat (userAddressEnd - 16)) (m.processMemory expectedPid).addressSpace with
    | none => (false, k.withMem (m.largeCodeRelease expectedPid))
    | some (pid, s) =>
      let k := k.withSched s
      if pid ≠ expectedPid then (false, k.withMem (m.largeCodeRelease expectedPid))
      else match k.objects.caps.capabilityAssignServices pid serviceMask with
        | none => (false, k.withMem (m.largeCodeRelease expectedPid))
        | some caps =>
          (true, (k.withObjects { k.objects with caps := caps }).withMem { m with
            processMemoryUsed := Function.update m.processMemoryUsed pid true })

/-- The candidate loop of `userspace_spawn_path`. -/
def spawnLoop (parentPid : ℕ) (image : List UInt8) (serviceMask : BitVec 32) :
    List ℕ → Kernel → Option ℕ × Kernel
  | [], k => (none, k)
  | candidate :: candidates, k =>
    if k.mem.processMemoryUsed candidate then
      spawnLoop parentPid image serviceMask candidates k
    else match k.loadProcess candidate parentPid image serviceMask with
      | (true, k) => (some candidate, k)
      | (false, k) => spawnLoop parentPid image serviceMask candidates k

def userspaceSpawnPath (k : Kernel) (parentPid : ℕ) (path : List UInt8)
    (serviceMask : BitVec 32) : Option ℕ × Kernel :=
  if k.initialized = false ∨ path.length = 0 then (none, k)
  else match k.files.ramfsOpen path false with
    | none => (none, k)
    | some (objectId, _) =>
      match k.files.ramfsView objectId with
      | none => (none, k)
      | some image =>
        spawnLoop parentPid image serviceMask ((List.range (processLimit - 1)).map (· + 1)) k

def bootstrapServices : BitVec 32 :=
  CapabilityService.console.bit ||| CapabilityService.clock.bit ||| CapabilityService.process.bit
    ||| CapabilityService.storage.bit ||| CapabilityService.ipc.bit

/-- `userspace_init` on the tables a fresh kernel has: the two bootstrap tasks are loaded, or the
boot stops. -/
def userspaceInit (k : Kernel) (image : List UInt8) : Option Kernel :=
  match k.loadProcess 1 0 image bootstrapServices with
  | (false, _) => none
  | (true, k) =>
    match k.loadProcess 2 0 image bootstrapServices with
    | (false, _) => none
    | (true, k) => some { k with initialized := true }

end Kernel

end DemonOS
