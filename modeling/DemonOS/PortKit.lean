import DemonOS.Lib.Blocks
import DemonOS.Lib.LittleEndian

/-!
# The heap of the port kit

`src/user/portkit.c`: the arena that a port brings along, and `demon_port_malloc`, `free`, `calloc`
and `realloc` over it. The blocks are a doubly linked list inside the arena itself, so every field
of a header is a load or a store in the memory of the process. The handles that the services give
are answers of the kernel, and so is what a read of a file (`PortFile`) brings.
-/

namespace DemonOS

def demonPortInvalidHandle : ℕ := 2 ^ 64 - 1

/-- `sizeof(struct port_block)`. -/
def sizeofPortBlock : ℕ := 32

/-- A pointer, a status or a size after an operation on `size_t`. -/
def sizeT (value : ℕ) : ℕ := value % 2 ^ 64

/-! ## `struct port_block` -/

namespace PortBlock

def size (m : ℕ → UInt8) (block : ℕ) : ℕ := LittleEndian.load m block 8
def previous (m : ℕ → UInt8) (block : ℕ) : ℕ := LittleEndian.load m (block + 8) 8
def next (m : ℕ → UInt8) (block : ℕ) : ℕ := LittleEndian.load m (block + 16) 8
def free (m : ℕ → UInt8) (block : ℕ) : Bool := LittleEndian.load m (block + 24) 1 != 0

def setSize (m : ℕ → UInt8) (block size : ℕ) : ℕ → UInt8 := LittleEndian.store m block 8 size

def setPrevious (m : ℕ → UInt8) (block previous : ℕ) : ℕ → UInt8 :=
  LittleEndian.store m (block + 8) 8 previous

def setNext (m : ℕ → UInt8) (block next : ℕ) : ℕ → UInt8 :=
  LittleEndian.store m (block + 16) 8 next

def setFree (m : ℕ → UInt8) (block : ℕ) (free : Bool) : ℕ → UInt8 :=
  LittleEndian.store m (block + 24) 1 free.toNat

end PortBlock

/-- `bytes_copy`. -/
def bytesCopy (m : ℕ → UInt8) (destination source length : ℕ) : ℕ → UInt8 :=
  (List.range length).foldl (fun m i => Function.update m (destination + i) (m (source + i))) m

/-- `bytes_zero`. -/
def bytesZero (m : ℕ → UInt8) (destination length : ℕ) : ℕ → UInt8 :=
  (List.range length).foldl (fun m i => Function.update m (destination + i) 0) m

def alignedSize (size : ℕ) : ℕ := if 2 ^ 64 - 1 - 15 < size then 0 else (size + 15) / 16 * 16

/-- `struct demon_port_runtime` and the list of blocks, with the memory that it lies in. -/
structure PortHeap where
  memory : ℕ → UInt8
  heapFirst : ℕ := 0
  storage : ℕ := 0
  input : ℕ := 0
  heapUsed : ℕ := 0
  heapPeak : ℕ := 0
  heapCapacity : ℕ := 0

namespace PortHeap

/-- `demon_port_init`, where the kernel answers `demon_service_open` in this way. -/
def demonPortInit (h : PortHeap) (serviceOpen : ℕ → ℕ) (arena arenaSize : ℕ) : Bool × PortHeap :=
  if arena = 0 ∨ arena % 16 ≠ 0 ∨ arenaSize ≤ sizeofPortBlock + 16 then (false, h)
  else
    let storage := serviceOpen 4
    let input := serviceOpen 8
    let capacity := arenaSize - sizeofPortBlock
    let m := PortBlock.setSize h.memory arena capacity
    let m := PortBlock.setPrevious m arena 0
    let m := PortBlock.setNext m arena 0
    let m := PortBlock.setFree m arena true
    (storage ≠ demonPortInvalidHandle,
      { memory := m
        heapFirst := arena
        storage := storage
        input := input
        heapUsed := 0
        heapPeak := 0
        heapCapacity := capacity })

/-- More rounds than there can be blocks. -/
def rounds (h : PortHeap) : ℕ := h.heapCapacity + 2

/-- The block that `demon_port_malloc` has found is handed out. -/
def take (h : PortHeap) (block needed : ℕ) : ℕ × PortHeap :=
  let m := h.memory
  let m :=
    if sizeT (needed + sizeofPortBlock + 16) ≤ PortBlock.size m block then
      let rest := sizeT (block + sizeofPortBlock + needed)
      let m := PortBlock.setSize m rest (PortBlock.size m block - needed - sizeofPortBlock)
      let m := PortBlock.setPrevious m rest block
      let m := PortBlock.setNext m rest (PortBlock.next m block)
      let m := PortBlock.setFree m rest true
      let m := if PortBlock.next m rest ≠ 0 then
          PortBlock.setPrevious m (PortBlock.next m rest) rest
        else m
      let m := PortBlock.setNext m block rest
      PortBlock.setSize m block needed
    else m
  let m := PortBlock.setFree m block false
  let used := sizeT (h.heapUsed + PortBlock.size m block)
  (sizeT (block + sizeofPortBlock),
    { h with
      memory := m
      heapUsed := used
      heapPeak := if h.heapPeak < used then used else h.heapPeak })

/-- `demon_port_malloc`: the pointer, 0 for `NULL`. -/
def demonPortMalloc (h : PortHeap) (size : ℕ) : Option (ℕ × PortHeap) :=
  let needed := alignedSize size
  if needed = 0 ∨ h.heapFirst = 0 then some (0, h)
  else
    (Blocks.walk (PortBlock.next h.memory)
      (fun block => PortBlock.free h.memory block && needed ≤ PortBlock.size h.memory block)
      h.rounds h.heapFirst).map fun block => if block = 0 then (0, h) else h.take block needed

def joinNext (m : ℕ → UInt8) (block : ℕ) : ℕ → UInt8 :=
  if PortBlock.next m block ≠ 0 ∧ PortBlock.free m (PortBlock.next m block) = true then
    let m := PortBlock.setSize m block
      (PortBlock.size m block + (sizeofPortBlock + PortBlock.size m (PortBlock.next m block)))
    let m := PortBlock.setNext m block (PortBlock.next m (PortBlock.next m block))
    if PortBlock.next m block ≠ 0 then PortBlock.setPrevious m (PortBlock.next m block) block
    else m
  else m

def joinPrevious (m : ℕ → UInt8) (block : ℕ) : ℕ → UInt8 :=
  if PortBlock.previous m block ≠ 0 ∧ PortBlock.free m (PortBlock.previous m block) = true then
    let m := PortBlock.setSize m (PortBlock.previous m block)
      (PortBlock.size m (PortBlock.previous m block) + (sizeofPortBlock + PortBlock.size m block))
    let m := PortBlock.setNext m (PortBlock.previous m block) (PortBlock.next m block)
    if PortBlock.next m block ≠ 0 then
      PortBlock.setPrevious m (PortBlock.next m block) (PortBlock.previous m block)
    else m
  else m

/-- `demon_port_free` once the block is known to be in use. -/
def release (h : PortHeap) (block : ℕ) : PortHeap :=
  let m := PortBlock.setFree h.memory block true
  { h with
    memory := joinPrevious (joinNext m block) block
    heapUsed := if PortBlock.size m block ≤ h.heapUsed then h.heapUsed - PortBlock.size m block
      else h.heapUsed }

def demonPortFree (h : PortHeap) (pointer : ℕ) : PortHeap :=
  if pointer = 0 then h
  else
    let block := pointer - sizeofPortBlock
    if PortBlock.free h.memory block then h else h.release block

def demonPortCalloc (h : PortHeap) (count size : ℕ) : Option (ℕ × PortHeap) :=
  if count ≠ 0 ∧ (2 ^ 64 - 1) / count < size then some (0, h)
  else
    let total := sizeT (count * size)
    (h.demonPortMalloc total).map fun result =>
      if result.1 ≠ 0 then
        (result.1, { result.2 with memory := bytesZero result.2.memory result.1 total })
      else result

def demonPortRealloc (h : PortHeap) (pointer size : ℕ) : Option (ℕ × PortHeap) :=
  if pointer = 0 then h.demonPortMalloc size
  else if size = 0 then some (0, h.demonPortFree pointer)
  else
    let block := pointer - sizeofPortBlock
    if size ≤ PortBlock.size h.memory block then some (pointer, h)
    else
      (h.demonPortMalloc size).map fun replacement =>
        if replacement.1 = 0 then (0, replacement.2)
        else
          let length := PortBlock.size replacement.2.memory block
          (replacement.1,
            { replacement.2 with
              memory := bytesCopy replacement.2.memory replacement.1 pointer length }.demonPortFree
                pointer)

end PortHeap

/-! ## Files -/

/-- `struct demon_port_file`, with what the kernel answers to each read of its handle: the bytes, or
nothing where it fails. -/
structure PortFile where
  size : ℕ
  position : ℕ := 0
  readAt : ℕ → ℕ → ℕ → Option (List UInt8)
  reads : ℕ := 0

namespace PortFile

variable (f : PortFile)

def demonPortSeek (absoluteOffset : ℕ) : Option PortFile :=
  if f.size < absoluteOffset then none else some { f with position := absoluteOffset }

/-- `demon_port_read`: the bytes that it has put at the destination. -/
def demonPortRead (bytes : ℕ) : List UInt8 × PortFile :=
  if f.size < f.position then ([], f)
  else
    let remaining := f.size - f.position
    let bytes := if remaining < bytes then remaining else bytes
    if bytes = 0 then ([], f)
    else
      let result := (f.readAt f.reads f.position bytes).getD []
      let f := { f with reads := f.reads + 1 }
      if bytes < result.length then ([], f)
      else (result, { f with position := f.position + result.length })

end PortFile

end DemonOS
