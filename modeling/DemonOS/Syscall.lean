import DemonOS.Kernel
import DemonOS.Lib.Machine

/-!
# System calls and runs of the kernel

`syscall_dispatch` of `src/arch/x86_64/userspace.c`, and the events that move the kernel: a system
call of the running process, a timer tick, an input event, and the calls the kernel's own thread
makes while no process runs. The running process's memory and the devices' answers come with the
event. Calls that change no kernel state beyond the caller's registers are collected in
`syscallValue`.
-/

namespace DemonOS

structure DisplayInfo where
  width : UInt64
  height : UInt64
  stridePixels : UInt64
  format : UInt64
  maxTransferPixels : UInt64

/-- What the devices answer during one call. -/
structure Devices where
  timerTicks : UInt64 := 0
  display : Option DisplayInfo := none
  displaySubmitted : Bool := false
  effectSubmitted : Bool := false
  audioSubmitted : Bool := false
  httpResponse : ℕ → ℕ := fun _ => 0
  httpGetUrl : List UInt8 → ℕ → ℕ := fun _ _ => 0
  batteryPresent : Bool := false
  timeOfDay : UInt64 := 0
  bootTestMode : UInt64 := 0
  demonwmMode : Bool := false

/-- `(uint32_t)` of a register. -/
def low32 (r : UInt64) : ℕ := r.toNat % 2 ^ 32

def readUser (user : ℕ → UInt8) (address length : ℕ) : List UInt8 :=
  (List.range length).map fun i => user (address + i)

/-- The result register for a handle or `UINT64_MAX`. -/
def resultOf : Option ℕ → UInt64
  | none => u64Max
  | some v => UInt64.ofNat v

/-- The chunk loop of `copy_ramfs_to_user`; `fuel` chunks of 4096 bytes at most. -/
def copyChunks (fs : Ramfs) (id offset capacity : ℕ) : ℕ → List UInt8 → Option (List UInt8)
  | 0, copied => some copied
  | fuel + 1, copied =>
    if capacity ≤ copied.length then some copied
    else if 2 ^ 64 - 1 - offset < copied.length then none
    else
      let chunk := min (capacity - copied.length) 4096
      match fs.ramfsReadRange id (offset + copied.length) chunk with
      | none => none
      | some received =>
        if received.length < chunk then some (copied ++ received)
        else copyChunks fs id offset capacity fuel (copied ++ received)

def copyRamfsToUser (fs : Ramfs) (id offset capacity : ℕ) : Option (List UInt8) :=
  copyChunks fs id offset capacity (capacity / 4096 + 1) []

namespace Kernel

/-- The running process. -/
def current (k : Kernel) : ℕ := k.sched.currentPid

/-- Returns `rax` to the running process. -/
@[simps! -fullyApplied] def ret (k : Kernel) (rax : UInt64) : Kernel :=
  k.withSched (k.sched.setFrame k.current { k.sched.frames k.current with rax := rax })

/-- Returns `rax` and `rdx`. -/
@[simps! -fullyApplied] def ret2 (k : Kernel) (rax rdx : UInt64) : Kernel :=
  k.withSched (k.sched.setResult k.current rax rdx)

def retHandle (k : Kernel) : Option (ℕ × Capabilities) → Kernel
  | none => k.ret u64Max
  | some (handle, caps) => (k.withObjects { k.objects with caps := caps }).ret (UInt64.ofNat handle)

def resolveObject (k : Kernel) (handle : UInt64) (right : BitVec 32)
    (service : CapabilityService) : Option ℕ :=
  match k.objects.caps.capabilityResolveObject k.current handle.toNat right with
  | none => none
  | some v => if v.service = service then some v.objectId else none

/-- `capability_resolve` and the check of the service after it. -/
def holds (k : Kernel) (handle : UInt64) (right : BitVec 32) (service : CapabilityService) :
    Bool :=
  (k.resolveObject handle right service).isSome

def canRead (k : Kernel) (address length : UInt64) : Bool :=
  k.mem.userRange k.current address.toNat length.toNat

def canWrite (k : Kernel) (address : UInt64) (length : ℕ) : Bool :=
  k.mem.userWriteRange k.current address.toNat length

/-! ## Calls that only return a value -/

/-- System call 7. -/
def queryValue (k : Kernel) (f : Frame) (dev : Devices) : UInt64 :=
  match k.objects.caps.capabilityResolveObject k.current f.rdi.toNat rightQuery with
  | none => u64Max
  | some v =>
    match v.service with
    | .clock => if f.rsi = 0 then dev.timerTicks else u64Max
    | .process => if f.rsi = 0 then UInt64.ofNat k.current else u64Max
    | .file => if f.rsi ≠ 0 then u64Max else resultOf (k.files.ramfsSize v.objectId)
    | .display =>
      match dev.display with
      | none => u64Max
      | some info =>
        if f.rsi = 0 then info.width
        else if f.rsi = 1 then info.height
        else if f.rsi = 2 then info.stridePixels
        else if f.rsi = 3 then info.format
        else if f.rsi = 4 then info.maxTransferPixels
        else if f.rsi = 5 then info.width ||| info.height <<< 32
        else u64Max
    | .surface =>
      match k.objects.surfaces.surfaceData v.objectId with
      | none => u64Max
      | some (_, pixelCount, width, height) =>
        if f.rsi = 0 then UInt64.ofNat width
        else if f.rsi = 1 then UInt64.ofNat height
        else if f.rsi = 2 then UInt64.ofNat pixelCount
        else u64Max
    | _ => u64Max

/-- System calls 10 and 42: the file's bytes from `offset` on. -/
def readFile (k : Kernel) (f : Frame) (offset : ℕ) : Option (List UInt8) :=
  match k.resolveObject f.rdi rightRead .file with
  | none => none
  | some id =>
    if !k.canWrite f.rsi f.rdx.toNat then none
    else copyRamfsToUser k.files id offset f.rdx.toNat

/-- System call 25. -/
def readSurface (k : Kernel) (f : Frame) : Option ℕ :=
  if surfaceMaxWidth * surfaceMaxHeight < f.rdx.toNat then none
  else match k.resolveObject f.rdi rightRead .surface with
    | none => none
    | some id =>
      match k.objects.surfaces.surfaceData id with
      | none => none
      | some (_, pixelCount, _, _) =>
        if f.rdx.toNat < pixelCount ∨ k.canWrite f.rsi (pixelCount * 4) = false
            ∨ k.userspaceCopyTo k.current f.rsi.toNat (pixelCount * 4) = false then none
        else some pixelCount

/-- System calls 35 and 36: an answer of `amount` bytes copied out to `address`. -/
def copyAnswer (k : Kernel) (address amount : ℕ) : UInt64 :=
  if amount ≠ 0 ∧ k.userspaceCopyTo k.current address amount = true then UInt64.ofNat amount
  else u64Max

/-- System call 19. -/
def submitValue (k : Kernel) (f : Frame) (user : ℕ → UInt8) (dev : Devices) : UInt64 :=
  if !k.holds f.rdi rightWrite .display || !k.canRead f.rsi 48 then u64Max
  else
    let field (n : ℕ) : ℕ := Bytes.load64 user (f.rsi.toNat + 8 * n)
    let count := field 2 * field 3 % 2 ^ 64
    let bytes := count * 4 % 2 ^ 64
    if (field 3 ≠ 0 ∧ count / field 3 ≠ field 2) ∨ bytes / 4 ≠ count
        ∨ k.mem.userRange k.current (field 4) bytes = false then u64Max
    else if dev.displaySubmitted then 0 else u64Max

/-- The result of the calls that leave the kernel's state alone. -/
def syscallValue (k : Kernel) (f : Frame) (user : ℕ → UInt8) (dev : Devices) : UInt64 :=
  let number := f.rax.toNat
  if number = 0 then (if k.canRead f.rdi f.rsi then f.rsi else u64Max)
  else if number = 3 then dev.timerTicks
  else if number = 4 then UInt64.ofNat k.current
  else if number = 7 then k.queryValue f dev
  else if number = 10 then resultOf ((k.readFile f 0).map List.length)
  else if number = 42 then resultOf ((k.readFile f f.r10.toNat).map List.length)
  else if number = 45 then
    (if f.rdx = 0 ∨ 4096 < f.rdx ∨ k.holds f.rdi rightWrite .audio = false
        ∨ k.canRead f.rsi (f.rdx * 4) = false then u64Max
      else if dev.audioSubmitted then f.rdx else 0)
  else if number = 18 then
    (match dev.display with
      | none => u64Max
      | some info =>
        if k.holds f.rdi rightQuery .display && k.canWrite f.rsi 40
            && k.userspaceCopyTo k.current f.rsi.toNat 40 then info.width ||| info.height <<< 32
        else u64Max)
  else if number = 19 then k.submitValue f user dev
  else if number = 21 then
    (match dev.display with
      | none => u64Max
      | some info =>
        if k.holds f.rdi rightQuery .display then info.width * 1000 + info.height else u64Max)
  else if number = 25 then resultOf (k.readSurface f)
  else if number = 31 then (if k.holds f.rdi rightWrite .display then 0 else u64Max)
  else if number = 32 then
    (if k.holds f.rdi rightWrite .display && f.rsi ≤ 0x7FFFFFFF && f.rdx ≤ 0x7FFFFFFF then 0
      else u64Max)
  else if number = 33 then
    (if k.holds f.rdi rightWrite .display && k.canRead f.rsi 80 && dev.effectSubmitted then 0
      else u64Max)
  else if number = 34 then dev.bootTestMode
  else if number = 35 then
    (if k.holds f.rdi rightRead .network && f.rdx != 0 && f.rdx ≤ 512
        && k.canWrite f.rsi f.rdx.toNat
      then k.copyAnswer f.rsi.toNat (dev.httpResponse f.rdx.toNat) else u64Max)
  else if number = 36 then
    (if k.holds f.rdi rightRead .network && f.rdx != 0 && f.rdx < 128 && f.r8 != 0 && f.r8 ≤ 512
        && k.canRead f.rsi f.rdx && k.canWrite f.r10 f.r8.toNat
      then k.copyAnswer f.r10.toNat
        (dev.httpGetUrl (readUser user f.rsi.toNat f.rdx.toNat) f.r8.toNat)
      else u64Max)
  else if number = 37 then (if dev.batteryPresent then 1 else 0)
  else if number = 38 then (if dev.demonwmMode then 1 else 0)
  else if number = 39 then
    (if !k.holds f.rdi rightOpen .storage || !k.canRead f.rsi f.rdx || !k.canWrite f.r8 80 then
        u64Max
      else match k.files.ramfsList (readUser user f.rsi.toNat f.rdx.toNat) f.r10.toNat with
        | none => 0
        | some _ => if k.userspaceCopyTo k.current f.r8.toNat 80 then 1 else u64Max)
  else if number = 48 then dev.timeOfDay
  else u64Max

/-! ## Capabilities and files -/

/-- System call 2. -/
def syscallExit (k : Kernel) (f : Frame) : Kernel :=
  ((k.ipcProcessCleanup k.current).closeAll k.current).schedulerOnExit f.rdi

/-- System call 6. -/
def syscallWrite (k : Kernel) (f : Frame) (user : ℕ → UInt8) : Kernel :=
  match k.objects.caps.capabilityResolveObject k.current f.rdi.toNat rightWrite with
  | none => k.ret u64Max
  | some v =>
    if v.service = .console then k.ret (if k.canRead f.rsi f.rdx then f.rdx else u64Max)
    else if v.service = .file ∧ k.canRead f.rsi f.rdx = true then
      match k.files.ramfsWrite v.objectId (readUser user f.rsi.toNat f.rdx.toNat) with
      | none => k.ret u64Max
      | some files => (k.withFiles files).ret f.rdx
    else k.ret u64Max

/-- System call 8. -/
def syscallClose (k : Kernel) (f : Frame) : Kernel :=
  match k.objects.capabilityClose k.current f.rdi.toNat with
  | none => k.ret u64Max
  | some o => (k.withObjects o).ret 0

/-- System call 9. -/
def syscallOpenFile (k : Kernel) (f : Frame) (user : ℕ → UInt8) : Kernel :=
  if !k.holds f.rdi rightOpen .storage || !k.canRead f.rsi f.rdx then k.ret u64Max
  else match k.files.ramfsOpen (readUser user f.rsi.toNat f.rdx.toNat) (f.r10 != 0) with
    | none => k.ret u64Max
    | some (id, files) =>
      (k.withFiles files).retHandle (k.objects.caps.capabilityOpenFile k.current id)

/-- System call 43. -/
def syscallDelete (k : Kernel) (f : Frame) (user : ℕ → UInt8) : Kernel :=
  if !k.holds f.rdi rightOpen .storage || !k.canRead f.rsi f.rdx then k.ret u64Max
  else match k.files.ramfsDelete (readUser user f.rsi.toNat f.rdx.toNat) with
    | none => k.ret u64Max
    | some files => (k.withFiles files).ret 0

/-- System call 44. -/
def syscallRename (k : Kernel) (f : Frame) (user : ℕ → UInt8) : Kernel :=
  if !k.holds f.rdi rightOpen .storage || !k.canRead f.rsi f.rdx || !k.canRead f.r10 f.r8 then
    k.ret u64Max
  else match k.files.ramfsRename (readUser user f.rsi.toNat f.rdx.toNat)
      (readUser user f.r10.toNat f.r8.toNat) with
    | none => k.ret u64Max
    | some files => (k.withFiles files).ret 0

/-! ## Processes -/

/-- The check of the path of system calls 11 and 50. -/
def validPath (k : Kernel) (f : Frame) : Bool :=
  k.canRead f.rdi f.rsi && f.rsi != 0 && f.rsi ≤ 127

/-- System call 11. -/
def syscallSpawn (k : Kernel) (f : Frame) (user : ℕ → UInt8) : Kernel :=
  if !k.validPath f then k.ret u64Max
  else
    let r := k.userspaceSpawnPath k.current (readUser user f.rdi.toNat f.rsi.toNat)
      (BitVec.ofNat 32 f.rdx.toNat)
    r.2.ret (resultOf r.1)

/-- System call 50. -/
def syscallSpawnAndWait (k : Kernel) (f : Frame) (user : ℕ → UInt8) : Kernel :=
  if !k.validPath f then k.ret u64Max
  else
    match (k.cancelWaits k.current).userspaceSpawnPath k.current
        (readUser user f.rdi.toNat f.rsi.toNat) (BitVec.ofNat 32 f.rdx.toNat) with
    | (none, k) => k.ret u64Max
    | (some pid, k) => k.schedulerOnWait pid

/-- System call 13. -/
def syscallTerminate (k : Kernel) (f : Frame) : Kernel :=
  let target := low32 f.rdi
  let k := (k.ipcProcessCleanup target).closeAll target
  match k.schedulerTerminate target f.rsi with
  | none => k.ret u64Max
  | some k => k.ret 0

/-- System call 51. -/
def syscallReapExited (k : Kernel) : Kernel :=
  match k.schedulerReapExited k.current with
  | none => k.ret2 u64Max 0
  | some (child, status, k) => k.ret2 (UInt64.ofNat child) status

/-! ## Messages and input -/

/-- The check of the name of system calls 14 and 15. -/
def validName (k : Kernel) (f : Frame) : Bool :=
  k.canRead f.rdi f.rsi && f.rsi != 0 && f.rsi.toNat < ipcNameMax

/-- System call 14. -/
def syscallIpcCreate (k : Kernel) (f : Frame) (user : ℕ → UInt8) : Kernel :=
  if !k.validName f then k.ret u64Max
  else
    let r := k.ipc.ipcCreate k.objects.caps k.current (readUser user f.rdi.toNat f.rsi.toNat)
    ((k.withIpc r.2.1).withObjects { k.objects with caps := r.2.2 }).ret (resultOf r.1)

/-- System call 15. -/
def syscallIpcConnect (k : Kernel) (f : Frame) (user : ℕ → UInt8) : Kernel :=
  if !k.validName f then k.ret u64Max
  else k.retHandle
    (k.ipc.ipcConnect k.objects.caps k.current (readUser user f.rdi.toNat f.rsi.toNat))

/-- System call 16. A sender parked on a full ring sleeps. -/
def syscallSend (k : Kernel) (f : Frame) (user : ℕ → UInt8) : Kernel :=
  if !k.canRead f.rsi f.rdx || f.rdx == 0 || ipcMessageMax < f.rdx.toNat then k.ret u64Max
  else match k.ipcSendBlock k.current f.rdi.toNat (readUser user f.rsi.toNat f.rdx.toNat) with
    | (.delivered, k) => k.ret f.rdx
    | (.failed, k) => k.ret u64Max
    | (.parked, k) => k.withSched k.sched.blockCurrent

/-- The check of the buffer of system call 17. -/
def validBuffer (k : Kernel) (f : Frame) : Bool :=
  k.canWrite f.rsi f.rdx.toNat && f.rdx != 0 && f.rdx.toNat ≤ ipcMessageMax

/-- System call 17. -/
def syscallReceive (k : Kernel) (f : Frame) : Kernel :=
  if !k.validBuffer f then k.ret u64Max
  else match k.ipcReceive k.current f.rdi.toNat f.rdx.toNat with
    | some (m, k) =>
      if !k.userspaceCopyTo k.current f.rsi.toNat m.data.length then k.ret u64Max
      else k.ret2 (UInt64.ofNat m.data.length) (UInt64.ofNat m.sender)
    | none =>
      if f.r10 ≠ 0 then k.ret u64Max
      else match k.ipc.ipcWait k.objects.caps k.current f.rdi.toNat f.rsi.toNat f.rdx.toNat with
        | none => k.ret u64Max
        | some ipc => (k.withIpc ipc).withSched k.sched.blockCurrent

/-- System call 20. -/
def syscallInputPoll (k : Kernel) (f : Frame) : Kernel :=
  if !k.holds f.rdi rightRead .input || !k.canWrite f.rsi inputEventSize then k.ret u64Max
  else match k.input.inputPoll with
    | none => k.ret 1
    | some (_, input) =>
      (k.withInput input).ret
        (if k.userspaceCopyTo k.current f.rsi.toNat inputEventSize then 0 else u64Max)

/-- The checks of system call 26. -/
def validSelect (k : Kernel) (f : Frame) : Bool :=
  k.holds f.rsi rightRead .input && k.canWrite f.rdx ipcMessageMax
    && k.canWrite f.r10 inputEventSize

/-- System call 26: the next message or input event, or a wait for either. -/
def syscallSelect (k : Kernel) (f : Frame) : Kernel :=
  if !k.validSelect f then k.ret u64Max
  else match k.ipcReceive k.current f.rdi.toNat ipcMessageMax with
    | some (m, k) =>
      k.ret2 (if k.userspaceCopyTo k.current f.rdx.toNat m.data.length then 1 else u64Max)
        (UInt64.ofNat m.data.length)
    | none =>
      match k.input.inputPoll with
      | some (_, input) =>
        (k.withInput input).ret2
          (if k.userspaceCopyTo k.current f.r10.toNat inputEventSize then 2 else u64Max)
          (UInt64.ofNat inputEventSize)
      | none =>
        match k.ipc.ipcWaitSelect k.objects.caps k.current f.rdi.toNat f.rdx.toNat
            ipcMessageMax with
        | none => (k.withIpc (k.ipc.ipcCancelWait k.current)).ret u64Max
        | some ipc =>
          match k.input.inputWait k.current f.r10.toNat with
          | none => (k.withIpc (ipc.ipcCancelWait k.current)).ret u64Max
          | some input =>
            ((k.withIpc ipc).withInput input).withSched
              (if f.r8 ≠ 0 then k.sched.blockCurrentTimeout f.r8 3 else k.sched.blockCurrent)

/-! ## Surfaces -/

/-- System call 22. -/
def syscallSurfaceCreate (k : Kernel) (f : Frame) : Kernel :=
  if !k.holds f.rdi rightOpen .surface then k.ret u64Max
  else match k.objects.surfaces.surfaceCreate k.current (low32 f.rsi) (low32 f.rdx) with
    | none => k.ret u64Max
    | some (id, s) =>
      match (k.objects.withSurfaces s).capabilityOpenSurface k.current id
          (rightRead ||| rightWrite ||| rightQuery) with
      | (some handle, o) => (k.withObjects o).ret (UInt64.ofNat handle)
      | (none, o) =>
        (k.withObjects (o.withSurfaces ((o.surfaces.surfaceDiscard id).getD o.surfaces))).ret u64Max

/-- System call 23. -/
def syscallSurfaceWrite (k : Kernel) (f : Frame) (user : ℕ → UInt8) : Kernel :=
  if surfaceMaxWidth * surfaceMaxHeight < f.rdx.toNat then k.ret u64Max
  else match k.resolveObject f.rdi rightWrite .surface with
    | none => k.ret u64Max
    | some id =>
      if k.mem.userRange k.current f.rsi.toNat (f.rdx.toNat * 4) = false then k.ret u64Max
      else
        let pixel (i : ℕ) : UInt32 := UInt32.ofNat (Bytes.load64 user (f.rsi.toNat + 4 * i))
        match k.objects.surfaces.surfaceWrite id f.r10.toNat
            ((List.range f.rdx.toNat).map pixel) with
        | none => k.ret u64Max
        | some s => (k.withObjects (k.objects.withSurfaces s)).ret f.rdx

/-- System call 24: the owner of a channel gets a surface to read. -/
def syscallGrant (k : Kernel) (f : Frame) : Kernel :=
  match k.ipc.ipcChannelOwner k.objects.caps k.current f.rsi.toNat with
  | none => k.ret u64Max
  | some target =>
    let r := k.objects.capabilityGrant k.current f.rdi.toNat target (rightRead ||| rightQuery)
    (k.withObjects r.2).ret (resultOf r.1)

/-- System call 27. -/
def syscallSurfaceMap (k : Kernel) (f : Frame) : Kernel :=
  match k.resolveObject f.rdi rightRead .surface with
  | none => k.ret u64Max
  | some id =>
    let r := k.mapSurfaceReadonly k.current id
    r.2.ret (resultOf r.1)

/-- System call 28. -/
def syscallSurfaceDamage (k : Kernel) (f : Frame) : Kernel :=
  match k.resolveObject f.rdi rightWrite .surface with
  | none => k.ret u64Max
  | some id =>
    match k.objects.surfaces.surfaceDamage id (low32 f.rsi) (low32 f.rdx) (low32 f.r10)
        (low32 f.r8) with
    | none => k.ret u64Max
    | some s => (k.withObjects (k.objects.withSurfaces s)).ret 0

/-- System call 29. -/
def syscallTakeDamage (k : Kernel) (f : Frame) : Kernel :=
  match k.resolveObject f.rdi rightQuery .surface with
  | none => k.ret u64Max
  | some id =>
    match k.objects.surfaces.surfaceTakeDamage id with
    | none => k.ret u64Max
    | some (damage, s) => (k.withObjects (k.objects.withSurfaces s)).ret (UInt64.ofNat damage)

/-- System call 30. -/
def syscallSurfaceUnmap (k : Kernel) (f : Frame) : Kernel :=
  match k.resolveObject f.rdi rightRead .surface with
  | none => k.ret u64Max
  | some id =>
    match k.unmapSurfaceId k.current id with
    | none => k.ret u64Max
    | some k => k.ret 0

/-! ## Anonymous memory -/

/-- System call 41. -/
def syscallAnonymousUnmap (k : Kernel) (f : Frame) : Kernel :=
  if f.rdi.toNat ≠ userAnonBase ∨ k.current = 0
      ∨ (k.mem.anonymousPageCount k.current = 0 ∧ k.mem.anonymousReservedPages k.current = 0) then
    k.ret u64Max
  else (k.withMem (k.mem.anonymousRelease k.current)).ret 0

/-- The result and the memory of system calls 40, 46 and 47. -/
def retMem (k : Kernel) (r : Option ℕ × UserMemory) : Kernel := (k.withMem r.2).ret (resultOf r.1)

/-- `syscall_dispatch`. -/
def syscallDispatch (k : Kernel) (user : ℕ → UInt8) (dev : Devices) : Kernel :=
  let f := k.sched.frames k.current
  let number := f.rax.toNat
  if number = 1 then (k.ret 0).withSched (k.ret 0).sched.onYield
  else if number = 2 then k.syscallExit f
  else if number = 5 then k.retHandle (k.objects.caps.capabilityOpen k.current (low32 f.rdi))
  else if number = 6 then k.syscallWrite f user
  else if number = 8 then k.syscallClose f
  else if number = 9 then k.syscallOpenFile f user
  else if number = 43 then k.syscallDelete f user
  else if number = 44 then k.syscallRename f user
  else if number = 11 then k.syscallSpawn f user
  else if number = 12 then k.schedulerOnWait (low32 f.rdi)
  else if number = 13 then k.syscallTerminate f
  else if number = 14 then k.syscallIpcCreate f user
  else if number = 15 then k.syscallIpcConnect f user
  else if number = 16 then k.syscallSend f user
  else if number = 17 then k.syscallReceive f
  else if number = 20 then k.syscallInputPoll f
  else if number = 22 then k.syscallSurfaceCreate f
  else if number = 23 then k.syscallSurfaceWrite f user
  else if number = 24 then k.syscallGrant f
  else if number = 26 then k.syscallSelect f
  else if number = 27 then k.syscallSurfaceMap f
  else if number = 28 then k.syscallSurfaceDamage f
  else if number = 29 then k.syscallTakeDamage f
  else if number = 30 then k.syscallSurfaceUnmap f
  else if number = 40 then k.retMem (k.mem.anonymousMap k.current f.rdi.toNat)
  else if number = 41 then k.syscallAnonymousUnmap f
  else if number = 46 then k.retMem (k.mem.anonymousReserve k.current f.rdi.toNat)
  else if number = 47 then
    k.retMem (k.mem.anonymousCommit k.current f.rdi.toNat (f.rsi != 0))
  else if number = 50 then k.syscallSpawnAndWait f user
  else if number = 51 then k.syscallReapExited
  else k.ret (k.syscallValue f user dev)

/-- The system call made with the registers `f`, and the kernel after it. -/
inductive Call (k : Kernel) (f : Frame) (user : ℕ → UInt8) (dev : Devices) : Kernel → Prop
  | yield (number : f.rax.toNat = 1) : Call k f user dev ((k.ret 0).withSched (k.ret 0).sched.onYield)
  | exit (number : f.rax.toNat = 2) : Call k f user dev (k.syscallExit f)
  | openService (number : f.rax.toNat = 5) :
    Call k f user dev (k.retHandle (k.objects.caps.capabilityOpen k.current (low32 f.rdi)))
  | write (number : f.rax.toNat = 6) : Call k f user dev (k.syscallWrite f user)
  | close (number : f.rax.toNat = 8) : Call k f user dev (k.syscallClose f)
  | openFile (number : f.rax.toNat = 9) : Call k f user dev (k.syscallOpenFile f user)
  | delete (number : f.rax.toNat = 43) : Call k f user dev (k.syscallDelete f user)
  | rename (number : f.rax.toNat = 44) : Call k f user dev (k.syscallRename f user)
  | spawn (number : f.rax.toNat = 11) : Call k f user dev (k.syscallSpawn f user)
  | wait (number : f.rax.toNat = 12) : Call k f user dev (k.schedulerOnWait (low32 f.rdi))
  | terminate (number : f.rax.toNat = 13) : Call k f user dev (k.syscallTerminate f)
  | ipcCreate (number : f.rax.toNat = 14) : Call k f user dev (k.syscallIpcCreate f user)
  | ipcConnect (number : f.rax.toNat = 15) : Call k f user dev (k.syscallIpcConnect f user)
  | send (number : f.rax.toNat = 16) : Call k f user dev (k.syscallSend f user)
  | receive (number : f.rax.toNat = 17) : Call k f user dev (k.syscallReceive f)
  | inputPoll (number : f.rax.toNat = 20) : Call k f user dev (k.syscallInputPoll f)
  | surfaceCreate (number : f.rax.toNat = 22) : Call k f user dev (k.syscallSurfaceCreate f)
  | surfaceWrite (number : f.rax.toNat = 23) : Call k f user dev (k.syscallSurfaceWrite f user)
  | grant (number : f.rax.toNat = 24) : Call k f user dev (k.syscallGrant f)
  | select (number : f.rax.toNat = 26) : Call k f user dev (k.syscallSelect f)
  | surfaceMap (number : f.rax.toNat = 27) : Call k f user dev (k.syscallSurfaceMap f)
  | surfaceDamage (number : f.rax.toNat = 28) : Call k f user dev (k.syscallSurfaceDamage f)
  | takeDamage (number : f.rax.toNat = 29) : Call k f user dev (k.syscallTakeDamage f)
  | surfaceUnmap (number : f.rax.toNat = 30) : Call k f user dev (k.syscallSurfaceUnmap f)
  | anonymousMap (number : f.rax.toNat = 40) :
    Call k f user dev (k.retMem (k.mem.anonymousMap k.current f.rdi.toNat))
  | anonymousUnmap (number : f.rax.toNat = 41) : Call k f user dev (k.syscallAnonymousUnmap f)
  | anonymousReserve (number : f.rax.toNat = 46) :
    Call k f user dev (k.retMem (k.mem.anonymousReserve k.current f.rdi.toNat))
  | anonymousCommit (number : f.rax.toNat = 47) :
    Call k f user dev (k.retMem (k.mem.anonymousCommit k.current f.rdi.toNat (f.rsi != 0)))
  | spawnAndWait (number : f.rax.toNat = 50) : Call k f user dev (k.syscallSpawnAndWait f user)
  | reapExited (number : f.rax.toNat = 51) : Call k f user dev k.syscallReapExited
  | value : Call k f user dev (k.ret (k.syscallValue f user dev))

theorem syscallDispatch_call (k : Kernel) (user : ℕ → UInt8) (dev : Devices) :
    Call k (k.sched.frames k.current) user dev (k.syscallDispatch user dev) := by
  unfold syscallDispatch
  exact iteInduction .yield fun _ => iteInduction .exit fun _ => iteInduction .openService fun _ =>
    iteInduction .write fun _ => iteInduction .close fun _ => iteInduction .openFile fun _ =>
    iteInduction .delete fun _ => iteInduction .rename fun _ => iteInduction .spawn fun _ =>
    iteInduction .wait fun _ => iteInduction .terminate fun _ => iteInduction .ipcCreate fun _ =>
    iteInduction .ipcConnect fun _ => iteInduction .send fun _ => iteInduction .receive fun _ =>
    iteInduction .inputPoll fun _ => iteInduction .surfaceCreate fun _ =>
    iteInduction .surfaceWrite fun _ => iteInduction .grant fun _ =>
    iteInduction .select fun _ => iteInduction .surfaceMap fun _ =>
    iteInduction .surfaceDamage fun _ => iteInduction .takeDamage fun _ =>
    iteInduction .surfaceUnmap fun _ => iteInduction .anonymousMap fun _ =>
    iteInduction .anonymousUnmap fun _ => iteInduction .anonymousReserve fun _ =>
    iteInduction .anonymousCommit fun _ => iteInduction .spawnAndWait fun _ =>
    iteInduction .reapExited fun _ => .value

/-! ## Runs -/

/-- What the kernel's own thread does to the file system: the boot seeds it, and the shell creates,
writes, renames and deletes files. -/
inductive FileCall where
  | seed (name data : List UInt8)
  | seedReference (name data : List UInt8)
  | create (name : List UInt8)
  | write (id : ℕ) (data : List UInt8)
  | rename (oldName newName : List UInt8)
  | delete (name : List UInt8)

def fileCall (fs : Ramfs) : FileCall → Ramfs
  | .seed name data => (fs.ramfsSeed name data).2
  | .seedReference name data => (fs.ramfsSeedReference name data).2
  | .create name => ((fs.ramfsOpen name true).map Prod.snd).getD fs
  | .write id data => (fs.ramfsWrite id data).getD fs
  | .rename oldName newName => (fs.ramfsRename oldName newName).getD fs
  | .delete name => (fs.ramfsDelete name).getD fs

inductive KernelCall where
  | init (image : List UInt8)
  | startUsers
  | spawn (path : List UInt8) (serviceMask : BitVec 32)
  | reap (child : ℕ)
  | kill (pid : ℕ)
  | discardInput
  | file (call : FileCall)

def kernelCall (k : Kernel) : KernelCall → Kernel
  | .init image => if k.initialized then k else (k.userspaceInit image).getD k
  | .startUsers => if k.initialized then k.withSched (k.sched.startUsers.getD k.sched) else k
  | .spawn path serviceMask => (k.userspaceSpawnPath 0 path serviceMask).2
  | .reap child => ((k.schedulerReap 0 child).map Prod.snd).getD k
  | .kill pid => (k.schedulerTerminate pid 137).getD k
  | .discardInput => k.withInput k.input.inputDiscardPending
  | .file call => k.withFiles (fileCall k.files call)

inductive Event where
  | syscall (registers : Frame) (user : ℕ → UInt8) (dev : Devices)
  | timerTick (registers : Frame)
  | input (event : InputEvent)
  | kernel (call : KernelCall)

/-- A process is running. -/
def userMode (k : Kernel) : Prop := k.sched.usersRunning = true ∧ k.current ≠ 0

instance (k : Kernel) : Decidable k.userMode := inferInstanceAs (Decidable (_ ∧ _))

/-- The registers an interrupt saves on the running process's kernel stack. -/
@[simps! -fullyApplied] def enter (k : Kernel) (registers : Frame) : Kernel :=
  k.withSched (k.sched.setFrame k.current registers)

/-- One event. System calls come from a running process, the kernel's own calls while none
runs. -/
def step (k : Kernel) : Event → Kernel
  | .syscall registers user dev =>
    if k.userMode then (k.enter registers).syscallDispatch user dev else k
  | .timerTick registers =>
    (if k.userMode then k.enter registers else k).schedulerOnTimerTick
  | .input event => k.inputPublish event
  | .kernel call => if k.sched.usersRunning then k else k.kernelCall call

/-- What the boot has set up before the first process: the surface arena, the frames left, and
each slot's memory. -/
structure BootInfo where
  arena : ℕ
  arenaBytes : ℕ
  pool : FramePool
  processes : ℕ → ProcessMemory

/-- The kernel before `userspace_init`. -/
def fresh (b : BootInfo) : Kernel where
  objects :=
    { caps := Capabilities.capabilitiesInit, surfaces := Surfaces.freshArena b.arena b.arenaBytes }
  mem := { pool := b.pool, processMemory := b.processes }

def runFrom (b : BootInfo) (events : List Event) : Kernel := Machine.run step (fresh b) events

/-! ## A small machine -/

/-- An executable of one page at the code base, all zero. -/
def smallImage : List UInt8 :=
  [0x7F, 0x45, 0x4C, 0x46, 2, 1, 1, 0, 0, 0, 0, 0, 0, 0, 0, 0,
    2, 0, 62, 0, 1, 0, 0, 0, 0, 0, 0x30, 0, 0, 0, 0, 0,
    64, 0, 0, 0, 0, 0, 0, 0, 0, 0, 0, 0, 0, 0, 0, 0,
    0, 0, 0, 0, 64, 0, 56, 0, 1, 0, 0, 0, 0, 0, 0, 0,
    1, 0, 0, 0, 5, 0, 0, 0, 0, 0, 0, 0, 0, 0, 0, 0,
    0, 0, 0x30, 0, 0, 0, 0, 0, 0, 0, 0, 0, 0, 0, 0, 0,
    0, 0, 0, 0, 0, 0, 0, 0, 0, 16, 0, 0, 0, 0, 0, 0,
    0, 0, 0, 0, 0, 0, 0, 0]

/-- Slots of one code page each, a mebibyte apart. -/
def smallMemory (pid : ℕ) : ProcessMemory where
  addressSpace := 0x1000000 + pid * 0x100000
  pageDirectory := 0x1002000 + pid * 0x100000
  pageTable := 0x1004000 + pid * 0x100000
  codePageCount := 1
  codeFrames := fun i => 0x1005000 + pid * 0x100000 + i * 4096
  heapFrames := fun i => 0x1035000 + pid * 0x100000 + i * 4096
  stackFrames := fun i => 0x103A000 + pid * 0x100000 + i * 4096

def smallBoot : BootInfo where
  arena := 0x2000000
  arenaBytes := surfaceArenaBytes
  pool := { phys := fun _ => 0, frameNext := 0x3000000, frameEnd := 0x4000000 }
  processes := smallMemory

/-- The boot of a machine whose only file, `a`, is the image its processes run. -/
def bootEvents : List Event :=
  [.kernel (.file (.seedReference [0x61] smallImage)), .kernel (.init smallImage),
    .kernel .startUsers]

/-- A system call of a process whose memory reads `a` everywhere. -/
def call (registers : Frame) : Event := .syscall registers (fun _ => 0x61) {}

end Kernel

end DemonOS
