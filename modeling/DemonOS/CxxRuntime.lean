import DemonOS.Lib.Blocks
import DemonOS.Lib.LittleEndian

/-!
# `operator new` and `operator delete`

`src/cxx_runtime.cpp` and `src/kernel_cxx_runtime.cpp`: the allocators of a native app and of the
kernel, line for line the same but for the size of the arena. The blocks are linked one way, in the
order of their addresses, up to the high water of the arena.
-/

namespace DemonOS

/-- The two programs that bring an allocator of this kind along. -/
inductive CxxRuntime
  | user
  | kernel
  deriving DecidableEq

/-- `CXX_RUNTIME_ARENA_BYTES` and `kArenaBytes`. -/
def CxxRuntime.arenaBytes : CxxRuntime → ℕ
  | .user => 32 * 1024
  | .kernel => 16 * 1024

namespace CxxArena

def kAlign : ℕ := 16

/-- `sizeof(block_header)` is 24. -/
def kHeaderSize : ℕ := (24 + kAlign - 1) / kAlign * kAlign

/-- The remainder modulo `2 ^ 64`, as the arithmetic of `size_t` and of pointers takes it. -/
def wrap64 (value : ℕ) : ℕ := value % 2 ^ 64

def alignUp (bytes : ℕ) : ℕ := wrap64 (bytes + kAlign - 1) / kAlign * kAlign

def payloadOf (block : ℕ) : ℕ := wrap64 (block + kHeaderSize)

def headerOf (payload : ℕ) : ℕ := payload - kHeaderSize

end CxxArena

/-! ## `block_header` -/

namespace BlockHeader

def size (m : ℕ → UInt8) (block : ℕ) : ℕ := LittleEndian.load m block 8
def used (m : ℕ → UInt8) (block : ℕ) : Bool := LittleEndian.load m (block + 8) 1 != 0
def next (m : ℕ → UInt8) (block : ℕ) : ℕ := LittleEndian.load m (block + 16) 8

def setSize (m : ℕ → UInt8) (block size : ℕ) : ℕ → UInt8 := LittleEndian.store m block 8 size

def setUsed (m : ℕ → UInt8) (block : ℕ) (used : Bool) : ℕ → UInt8 :=
  LittleEndian.store m (block + 8) 1 used.toNat

def setNext (m : ℕ → UInt8) (block next : ℕ) : ℕ → UInt8 :=
  LittleEndian.store m (block + 16) 8 next

end BlockHeader

structure CxxArena where
  memory : ℕ → UInt8
  arena : ℕ
  arenaBytes : ℕ
  firstBlock : ℕ := 0
  highWater : ℕ

/-- The static objects before the first allocation. -/
def CxxRuntime.fresh (r : CxxRuntime) (memory : ℕ → UInt8) (arena : ℕ) : CxxArena :=
  { memory := memory, arena := arena, arenaBytes := r.arenaBytes, highWater := arena }

namespace CxxArena

variable (c : CxxArena)

/-- More rounds than there can be blocks. -/
def rounds : ℕ := c.arenaBytes + 2

/-- `extend`: the block, 0 for `nullptr`; `none` where the loop does not end. -/
def extend (payloadSize : ℕ) : Option (ℕ × CxxArena) :=
  let needed := wrap64 (kHeaderSize + payloadSize)
  if c.arena + c.arenaBytes - c.highWater < needed then some (0, c)
  else
    let block := c.highWater
    let m := BlockHeader.setSize c.memory block payloadSize
    let m := BlockHeader.setUsed m block true
    let m := BlockHeader.setNext m block 0
    let highWater := c.highWater + needed
    if c.firstBlock = 0 then
      some (block, { c with memory := m, firstBlock := block, highWater := highWater })
    else
      (Blocks.walk (BlockHeader.next m) (fun tail => BlockHeader.next m tail = 0) c.rounds
        c.firstBlock).map fun tail =>
          (block, { c with memory := BlockHeader.setNext m tail block, highWater := highWater })

/-- What the scan of `bump_allocate` writes into the block that it has found. -/
def take (m : ℕ → UInt8) (block payloadSize : ℕ) : ℕ → UInt8 :=
  let leftover := BlockHeader.size m block - payloadSize
  let m :=
    if kHeaderSize + kAlign ≤ leftover then
      let remainder := wrap64 (payloadOf block + payloadSize)
      let m := BlockHeader.setSize m remainder (leftover - kHeaderSize)
      let m := BlockHeader.setUsed m remainder false
      let m := BlockHeader.setNext m remainder (BlockHeader.next m block)
      let m := BlockHeader.setNext m block remainder
      BlockHeader.setSize m block payloadSize
    else m
  BlockHeader.setUsed m block true

/-- `bump_allocate`, which is `operator new`: the payload, 0 for `nullptr`. -/
def bumpAllocate (bytes : ℕ) : Option (ℕ × CxxArena) :=
  let payloadSize := alignUp bytes
  (Blocks.walk (BlockHeader.next c.memory)
    (fun block => !BlockHeader.used c.memory block
      && payloadSize ≤ BlockHeader.size c.memory block)
    c.rounds c.firstBlock).bind fun block =>
      if block ≠ 0 then
        some (payloadOf block, { c with memory := take c.memory block payloadSize })
      else
        (c.extend payloadSize).map fun result =>
          (if result.1 = 0 then 0 else payloadOf result.1, result.2)

/-- Takes the block behind in, if that is free. -/
def coalesceNext (m : ℕ → UInt8) (block : ℕ) : ℕ → UInt8 :=
  if BlockHeader.next m block ≠ 0 ∧ BlockHeader.used m (BlockHeader.next m block) = false then
    let m := BlockHeader.setSize m block
      (BlockHeader.size m block + (kHeaderSize + BlockHeader.size m (BlockHeader.next m block)))
    BlockHeader.setNext m block (BlockHeader.next m (BlockHeader.next m block))
  else m

/-- The block that the scan has found, if any, takes in the one behind it. -/
def coalescePrevious (m : ℕ → UInt8) (prev block : ℕ) : ℕ → UInt8 :=
  if prev ≠ 0 then
    let m := BlockHeader.setSize m prev
      (BlockHeader.size m prev + (kHeaderSize + BlockHeader.size m block))
    BlockHeader.setNext m prev (BlockHeader.next m block)
  else m

/-- `bump_free`, which is `operator delete`. -/
def bumpFree (payload : ℕ) : Option CxxArena :=
  if payload = 0 then some c
  else
    let block := headerOf payload
    let m := coalesceNext (BlockHeader.setUsed c.memory block false) block
    (Blocks.walk (BlockHeader.next m)
      (fun prev => BlockHeader.next m prev = block && !BlockHeader.used m prev)
      c.rounds c.firstBlock).map fun prev => { c with memory := coalescePrevious m prev block }

end CxxArena

end DemonOS
