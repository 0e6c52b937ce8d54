import DemonOS.Elf64
import DemonOS.Scheduler

/-!
# The memory of processes

Physical frames and, over them, what a process has mapped.
-/

/-!
## Physical frames

Physical memory with the boot frame allocator of `mako/kernel_probe.mko`, which hands out
consecutive 4 KiB frames, and the free list of `src/arch/x86_64/userspace.c`, threaded through the
first word of each free frame. A frame taken from either comes zeroed.
-/

namespace DemonOS

structure FramePool where
  phys : ℕ → UInt8
  frameNext : ℕ
  frameEnd : ℕ
  freeFrames : ℕ := 0

namespace FramePool

/-- The word at a physical address. -/
def word (p : FramePool) (a : ℕ) : ℕ := Bytes.load64 p.phys a

def setWord (p : FramePool) (a v : ℕ) : FramePool := { p with phys := Bytes.store64 p.phys a v }

def clear (p : FramePool) (a n : ℕ) : FramePool := { p with phys := Bytes.clear p.phys a n }

/-- `mako_frame_allocate`. -/
def makoFrameAllocate (p : FramePool) : Option (ℕ × FramePool) :=
  let following := (p.frameNext + pageSize) % 2 ^ 64
  if p.frameNext = 0 ∨ following < p.frameNext ∨ p.frameEnd < following then none
  else some (p.frameNext, { p with frameNext := following })

def anonymousFrameTake (p : FramePool) : Option (ℕ × FramePool) :=
  let taken :=
    if p.freeFrames ≠ 0 then some (p.freeFrames, { p with freeFrames := p.word p.freeFrames })
    else p.makoFrameAllocate
  taken.map fun (frame, p) => (frame, p.clear frame pageSize)

def anonymousFrameRelease (p : FramePool) (frame : ℕ) : FramePool :=
  if frame = 0 then p
  else { p.setWord frame p.freeFrames with freeFrames := frame }

def frameOf (entry : ℕ) : ℕ := entry / pageSize * pageSize

def present (entry : ℕ) : Bool := entry % 2 == 1

/-- The PS bit, set in a directory entry that maps 2 MiB itself. -/
def huge (entry : ℕ) : Bool := entry / 0x80 % 2 == 1

/-- The directory entry of an identity-mapped 2 MiB page: present, writable, user, huge. -/
def identityEntry (directoryIndex : ℕ) : ℕ := directoryIndex * 0x200000 + 0x87

/-- `mako_build_identity_4m`: the upper levels permit every access, the first two tables map 4 KiB
supervisor pages, and every other directory entry maps 2 MiB. -/
def makoBuildIdentity4m (p : FramePool) (pml4 pdpt pd pt0 pt1 : ℕ) : FramePool :=
  let p := ((((p.clear pml4 pageSize).clear pdpt pageSize).clear pd pageSize).clear pt0
    pageSize).clear pt1 pageSize
  let p := (((p.setWord pml4 (pdpt + 7)).setWord pdpt (pd + 7)).setWord pd (pt0 + 7)).setWord
    (pd + 8) (pt1 + 7)
  let p := (List.range 512).foldl (fun p index =>
    (p.setWord (pt0 + 8 * index) (index * 4096 + 3)).setWord (pt1 + 8 * index)
      (2097152 + index * 4096 + 3)) p
  (List.range 510).foldl (fun p index =>
    p.setWord (pd + 8 * (index + 2)) ((index + 2) * 2097152 + 135)) p

end FramePool

/-!
## User memory

The memory half of `src/arch/x86_64/userspace.c`: the frames and tables of each process slot, its
anonymous region, large-code region and mapped surfaces, and the checks on user addresses. Every
page-table edit is a write to physical memory; the switches of `cr3` around them are left out.
-/

def userspaceCodePages : ℕ := 48
def userspaceHeapPages : ℕ := 5
def userspaceStackPages : ℕ := 128

def userCode : ℕ := 0x300000
def userHeap : ℕ := 0x330000
def userStackPage : ℕ := 0x335000
def userAddressEnd : ℕ := 0x3B5000
def userAnonBase : ℕ := 0x10000000
def userAnonMaxBytes : ℕ := 25165824
def userLargeCodeBase : ℕ := 0x20000000
def userLargeCodeMaxPages : ℕ := 320
def userSurfaceMapBase : ℕ := 0x18000000
def userSurfaceMapPages : ℕ := 300
def userSurfaceMapSlots : ℕ := 4
def userSurfaceMapSlotStride : ℕ := 0x200000

def userSurfaceMapSlotBase (slot : ℕ) : ℕ := userSurfaceMapBase + slot * userSurfaceMapSlotStride

/-- `struct userspace_memory`. -/
structure ProcessMemory where
  addressSpace : ℕ := 0
  pageDirectory : ℕ := 0
  pageTable : ℕ := 0
  codePageCount : ℕ := 0
  codeFrames : ℕ → ℕ := fun _ => 0
  heapFrames : ℕ → ℕ := fun _ => 0
  stackFrames : ℕ → ℕ := fun _ => 0

structure UserMemory where
  pool : FramePool
  processMemory : ℕ → ProcessMemory
  processMemoryUsed : ℕ → Bool := fun _ => false
  mappedSurface : ℕ → ℕ → ℕ := fun _ _ => 0
  anonymousPageCount : ℕ → ℕ := fun _ => 0
  anonymousReservedPages : ℕ → ℕ := fun _ => 0
  largeCodeFrames : ℕ → ℕ → ℕ := fun _ _ => 0
  largeCodePageCount : ℕ → ℕ := fun _ => 0
  largeCodePageTable : ℕ → ℕ := fun _ => 0
  surfaceMapPageTable : ℕ → ℕ → ℕ := fun _ _ => 0

namespace UserMemory

open FramePool

/-- A process slot: slot 0 is the idle task. -/
def validPid (pid : ℕ) : Prop := pid ≠ 0 ∧ pid < processLimit

instance (pid : ℕ) : Decidable (validPid pid) := inferInstanceAs (Decidable (_ ∧ _))

def withPool (m : UserMemory) (p : FramePool) : UserMemory := { m with pool := p }

def withPhys (m : UserMemory) (phys : ℕ → UInt8) : UserMemory :=
  m.withPool { m.pool with phys := phys }

/-- The address of entry `index` of `pid`'s page directory. -/
def directoryEntry (m : UserMemory) (pid index : ℕ) : ℕ :=
  (m.processMemory pid).pageDirectory + 8 * index

/-- Assigns to one entry of a two-dimensional array. -/
def update2 {α : Type} (f : ℕ → ℕ → α) (i j : ℕ) (v : α) : ℕ → ℕ → α :=
  Function.update f i (Function.update (f i) j v)

/-! ### Large code -/

def largeCodeRelease (m : UserMemory) (pid : ℕ) : UserMemory :=
  if ¬validPid pid then m
  else
    let p := m.pool.setWord (m.directoryEntry pid (userLargeCodeBase >>> 21)) 0
    let p := (List.range (m.largeCodePageCount pid)).foldl
      (fun p page => p.anonymousFrameRelease (m.largeCodeFrames pid page)) p
    let p := p.anonymousFrameRelease (m.largeCodePageTable pid)
    { m with
      pool := p
      largeCodeFrames := Function.update m.largeCodeFrames pid fun page =>
        if page < m.largeCodePageCount pid then 0 else m.largeCodeFrames pid page
      largeCodePageCount := Function.update m.largeCodePageCount pid 0
      largeCodePageTable := Function.update m.largeCodePageTable pid 0 }

/-- The frame loop of `large_code_load`, `n` pages from `page` on. -/
def largeCodeFramesLoop (pid table : ℕ) : ℕ → ℕ → UserMemory → Bool × UserMemory
  | _, 0, m => (true, m)
  | page, n + 1, m =>
    match m.pool.anonymousFrameTake with
    | none =>
      (false, ({ m with
        largeCodePageCount := Function.update m.largeCodePageCount pid page }).largeCodeRelease pid)
    | some (frame, p) =>
      largeCodeFramesLoop pid table (page + 1) n
        { m with
          pool := p.setWord (table + 8 * page) (frame + 7)
          largeCodeFrames := update2 m.largeCodeFrames pid page frame
          largeCodePageCount := Function.update m.largeCodePageCount pid (page + 1) }

def largeCodePages (layout : ElfLayout) : ℕ :=
  (layout.virtualEnd - userLargeCodeBase + 4095) / pageSize

def validLargeLayout (layout : ElfLayout) : Bool :=
  layout.virtualBase == userLargeCodeBase && userLargeCodeBase < layout.virtualEnd
    && layout.virtualEnd - userLargeCodeBase ≤ userLargeCodeMaxPages * pageSize

/-- `large_code_load` once it has the table: the frames, the image into them, and the directory
entry. -/
def largeCodeFill (m : UserMemory) (pid table : ℕ) (image : List UInt8) (pages : ℕ) :
    Option ℕ × UserMemory :=
  match largeCodeFramesLoop pid table 0 pages m with
  | (false, m) => (none, m)
  | (true, m) =>
    match Elf64.elf64LoadExecutablePages m.pool.phys image userLargeCodeBase
        (m.largeCodeFrames pid) pages with
    | (none, phys) => (none, (m.withPhys phys).largeCodeRelease pid)
    | (some entry, phys) =>
      (some entry, m.withPool ((m.withPhys phys).pool.setWord
        (m.directoryEntry pid (userLargeCodeBase >>> 21)) (table + 7)))

def largeCodeLoad (m : UserMemory) (pid : ℕ) (image : List UInt8) (layout : ElfLayout) :
    Option ℕ × UserMemory :=
  if ¬validPid pid ∨ validLargeLayout layout = false then (none, m)
  else match m.pool.anonymousFrameTake with
    | none => (none, m)
    | some (table, p) =>
      largeCodeFill
        { m with
          pool := p, largeCodePageTable := Function.update m.largeCodePageTable pid table }
        pid table image (largeCodePages layout)

/-! ### The anonymous region -/

/-- The page loop of `anonymous_release` over the first `pages` entries of one table. -/
def releaseTable (table pages : ℕ) (p : FramePool) : FramePool :=
  (List.range pages).foldl (fun p page =>
    let entry := p.word (table + 8 * page)
    let p := if present entry then p.anonymousFrameRelease (frameOf entry) else p
    p.setWord (table + 8 * page) 0) p

def anonymousRelease (m : UserMemory) (pid : ℕ) : UserMemory :=
  if ¬validPid pid then m
  else
    let count := m.anonymousPageCount pid
    let p := if count = 0 then m.pool
      else (List.range ((count + 511) / 512)).foldl (fun p table =>
        let index := (userAnonBase >>> 21) + table
        let entry := p.word (m.directoryEntry pid index)
        if !present entry || huge entry then p
        else
          let p := releaseTable (frameOf entry) (min (count - table * 512) 512) p
          let p := p.setWord (m.directoryEntry pid index) (identityEntry index)
          p.anonymousFrameRelease (frameOf entry)) m.pool
    { m with
      pool := p
      anonymousPageCount := Function.update m.anonymousPageCount pid 0
      anonymousReservedPages := Function.update m.anonymousReservedPages pid 0 }

/-- One page of `anonymous_commit_pages`; the page that starts a 2 MiB chunk takes its table
first, and gives it back where no frame is left for the page. -/
def commitPage (m : UserMemory) (pid page : ℕ) (writable : Bool) : Bool × UserMemory :=
  let index := (userAnonBase >>> 21) + page / 512
  let entry := m.directoryEntry pid index
  let flags := if writable then 7 else 5
  let table : Option (ℕ × FramePool) :=
    if page % 512 = 0 then m.pool.anonymousFrameTake.map fun (table, p) =>
      (table, p.setWord entry (table + 7))
    else some (frameOf (m.pool.word entry), m.pool)
  match table with
  | none => (false, m)
  | some (table, p) =>
    match p.anonymousFrameTake with
    | none =>
      (false, m.withPool (if page % 512 = 0 then
        (p.anonymousFrameRelease (frameOf (p.word entry))).setWord entry (identityEntry index)
        else p))
    | some (frame, p) =>
      (true, { m with
        pool := p.setWord (table + 8 * (page % 512)) (frame ||| flags)
        anonymousPageCount := Function.update m.anonymousPageCount pid (page + 1) })

/-- `anonymous_commit_pages`: `n` pages from `page` on. -/
def anonymousCommitPages (pid : ℕ) (writable : Bool) : ℕ → ℕ → UserMemory → Bool × UserMemory
  | _, 0, m => (true, m)
  | page, n + 1, m =>
    match m.commitPage pid page writable with
    | (false, m) => (false, m)
    | (true, m) => anonymousCommitPages pid writable (page + 1) n m

def anonymousMap (m : UserMemory) (pid byteCount : ℕ) : Option ℕ × UserMemory :=
  if ¬validPid pid ∨ byteCount = 0 ∨ userAnonMaxBytes < byteCount
      ∨ m.anonymousPageCount pid ≠ 0 ∨ m.anonymousReservedPages pid ≠ 0 then (none, m)
  else match anonymousCommitPages pid true 0 ((byteCount + 4095) / pageSize) m with
    | (false, m) => (none, m.anonymousRelease pid)
    | (true, m) => (some userAnonBase, m)

def anonymousReserve (m : UserMemory) (pid byteCount : ℕ) : Option ℕ × UserMemory :=
  if ¬validPid pid ∨ byteCount = 0 ∨ userAnonMaxBytes < byteCount
      ∨ m.anonymousPageCount pid ≠ 0 ∨ m.anonymousReservedPages pid ≠ 0 then (none, m)
  else (some userAnonBase, { m with
    anonymousReservedPages := Function.update m.anonymousReservedPages pid
      ((byteCount + 4095) / pageSize) })

def anonymousCommit (m : UserMemory) (pid byteCount : ℕ) (writable : Bool) :
    Option ℕ × UserMemory :=
  let newPages := (byteCount + 4095) / pageSize
  let startPage := m.anonymousPageCount pid
  if ¬validPid pid ∨ byteCount = 0 ∨ m.anonymousReservedPages pid = 0
      ∨ 2 ^ 64 - 1 - 4095 < byteCount
      ∨ m.anonymousReservedPages pid - startPage < newPages then (none, m)
  else match anonymousCommitPages pid writable startPage newPages m with
    | (false, m) => (none, m)
    | (true, m) => (some (userAnonBase + startPage * pageSize), m)

/-! ### Checks on user addresses -/

def anonymousRange (m : UserMemory) (pid address length : ℕ) : Bool :=
  let end_ := userAnonBase + m.anonymousPageCount pid * pageSize
  validPid pid && m.anonymousPageCount pid != 0 && userAnonBase ≤ address
    && address ≤ end_ && length ≤ end_ - address

/-- The code pages, or the large-code pages, of a process as a range of addresses. -/
def pagesRange (base pages address length : ℕ) : Bool :=
  base ≤ address && address ≤ base + pages * pageSize
    && length ≤ base + pages * pageSize - address

/-- `user_write_range` for the process `pid`. -/
def userWriteRange (m : UserMemory) (pid address length : ℕ) : Bool :=
  m.anonymousRange pid address length
    || (userHeap ≤ address && address ≤ userAddressEnd && length ≤ userAddressEnd - address)
    || (validPid pid && m.processMemoryUsed pid
      && pagesRange userCode (m.processMemory pid).codePageCount address length)
    || (validPid pid && m.largeCodePageCount pid != 0
      && pagesRange userLargeCodeBase (m.largeCodePageCount pid) address length)

/-- `user_range` for the process `pid`: what it may write, and the slots it has a surface mapped
in. -/
def userRange (m : UserMemory) (pid address length : ℕ) : Bool :=
  let regionEnd := userSurfaceMapBase + userSurfaceMapSlots * userSurfaceMapSlotStride
  let slot := (address - userSurfaceMapBase) / userSurfaceMapSlotStride
  m.userWriteRange pid address length
    || (validPid pid && userSurfaceMapBase ≤ address && address ≤ regionEnd
      && length ≤ regionEnd - address && slot < userSurfaceMapSlots
      && m.mappedSurface pid slot != 0
      && length ≤ userSurfaceMapSlotBase slot + userSurfaceMapSlotStride - address)

/-! ### Mapped surfaces -/

def takeSurfaceTable (m : UserMemory) (pid slot : ℕ) : UserMemory :=
  if m.surfaceMapPageTable pid slot ≠ 0 then m
  else match m.pool.anonymousFrameTake with
    | none => m
    | some (table, p) => { m with
        pool := p.setWord (m.directoryEntry pid (userSurfaceMapSlotBase slot >>> 21)) (table + 7)
        surfaceMapPageTable := update2 m.surfaceMapPageTable pid slot table }

/-- The entries of a surface slot's table: the pages of a surface, read-only, or nothing. -/
def writeSurfacePtes (p : FramePool) (table physicalAddress pageCount : ℕ) (isPresent : Bool) :
    FramePool :=
  (List.range userSurfaceMapPages).foldl (fun p page =>
    p.setWord (table + 8 * page)
      (if isPresent && page < pageCount then physicalAddress + page * 4096 + 5 else 0)) p

def editSurfacePtes (m : UserMemory) (pid slot physicalAddress pageCount : ℕ) (isPresent : Bool) :
    Bool × UserMemory :=
  if (m.takeSurfaceTable pid slot).surfaceMapPageTable pid slot = 0 then
    (false, m.takeSurfaceTable pid slot)
  else (true, (m.takeSurfaceTable pid slot).withPool
    (writeSurfacePtes (m.takeSurfaceTable pid slot).pool
      ((m.takeSurfaceTable pid slot).surfaceMapPageTable pid slot) physicalAddress pageCount
      isPresent))

/-- Gives the tables of `pid`'s surface slots back, the second loop of `unmap_surface`. -/
def releaseSurfaceTables (m : UserMemory) (pid : ℕ) : UserMemory :=
  (List.range userSurfaceMapSlots).foldl (fun m slot =>
    if m.surfaceMapPageTable pid slot = 0 then m
    else
      let p := m.pool.setWord (m.directoryEntry pid (userSurfaceMapSlotBase slot >>> 21)) 0
      { m with
        pool := p.anonymousFrameRelease (m.surfaceMapPageTable pid slot)
        surfaceMapPageTable := update2 m.surfaceMapPageTable pid slot 0 }) m

/-! ### Loading -/

def framesContiguous (frames : ℕ → ℕ) (count : ℕ) : Bool :=
  (List.range (count - 1)).all fun i => frames (i + 1) == frames i + pageSize

/-- The leaf entries `load_process` writes for the code, heap and stack pages. -/
def mapProcessPages (m : UserMemory) (pid : ℕ) : UserMemory :=
  let memory := m.processMemory pid
  let put (base pages : ℕ) (frames : ℕ → ℕ) (p : FramePool) : FramePool :=
    (List.range pages).foldl (fun p i =>
      p.setWord (memory.pageTable + 8 * ((base - 0x200000) / pageSize + i)) (frames i + 7)) p
  m.withPool (put userStackPage userspaceStackPages memory.stackFrames
    (put userHeap userspaceHeapPages memory.heapFrames
      (put userCode memory.codePageCount memory.codeFrames m.pool)))

/-- `load_process` up to the creation of the task: the entry point of the loaded image. -/
def loadImage (m : UserMemory) (pid : ℕ) (image : List UInt8) : Option ℕ × UserMemory :=
  let memory := m.processMemory pid
  if memory.codePageCount = 0 ∨ userspaceCodePages < memory.codePageCount
      ∨ !framesContiguous memory.codeFrames memory.codePageCount
      ∨ !framesContiguous memory.heapFrames userspaceHeapPages then (none, m)
  else
    let p := (List.range userspaceStackPages).foldl
      (fun p page => p.clear (memory.stackFrames page) pageSize) m.pool
    let m := m.withPool (p.clear (memory.heapFrames 0) (userspaceHeapPages * pageSize))
    match Elf64.elf64ExecutableLayout image with
    | none => (none, m)
    | some layout =>
      let loaded : Option ℕ × UserMemory :=
        if layout.virtualBase = userLargeCodeBase then m.largeCodeLoad pid image layout
        else
          let r := Elf64.elf64LoadExecutable m.pool.phys image userCode (memory.codeFrames 0)
            (memory.codePageCount * pageSize)
          (r.1, m.withPhys r.2)
      match loaded with
      | (none, m) => (none, m)
      | (some entry, m) => (some entry, m.mapProcessPages pid)

end UserMemory

end DemonOS
