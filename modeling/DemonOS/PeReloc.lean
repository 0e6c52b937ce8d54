import DemonOS.WinePe

/-!
# Base relocations

`src/ports/wine/platform/pe_reloc.c`: a loaded image is adjusted to the address it has been loaded
at. The relocation directory is a sequence of blocks in the image itself, each with a header and
entries that name the pointers to adjust. What is read as a header or as an entry and which pointers
are adjusted is kept beside the memory.
-/

namespace DemonOS

inductive WinePeRelocResult
  | ok
  | none
  | unsupported
  deriving DecidableEq

def imageRelBasedAbsolute : ℕ := 0
def imageRelBasedDir64 : ℕ := 10
def blockHeaderSize : ℕ := 8

/-- Bytes that have been read as a part of the directory, and what they said. -/
structure RelocReading where
  address : ℕ
  length : ℕ
  value : ℕ
  deriving DecidableEq

structure PeRelocating where
  memory : ℕ → UInt8
  readings : List RelocReading := []
  targets : List ℕ := []

namespace PeRelocating

def read (s : PeRelocating) (address length : ℕ) : ℕ × PeRelocating :=
  let value := LittleEndian.load s.memory address length
  (value, { s with readings := ⟨address, length, value⟩ :: s.readings })

/-- The pointer at this address moves by `delta`. -/
def patch (s : PeRelocating) (delta target : ℕ) : PeRelocating :=
  let value := LittleEndian.load s.memory target 8
  { s with
    memory := LittleEndian.store s.memory target 8 (sizeT (value + delta))
    targets := target :: s.targets }

end PeRelocating

namespace WinePeImage

def delta (image : WinePeImage) : ℕ := sizeT (image.base + 2 ^ 64 - image.info.imageBase)

def blockHeader (image : WinePeImage) (consumed : ℕ) : ℕ :=
  sizeT (image.base + image.info.relocDirectoryRva + consumed)

def relocEntry (blockHeader index : ℕ) : ℕ := sizeT (blockHeader + blockHeaderSize + index * 2)

def relocTarget (image : WinePeImage) (blockVirtualAddress pageOffset : ℕ) : ℕ :=
  sizeT (image.base + blockVirtualAddress + pageOffset)

def applyEntries (image : WinePeImage) (blockHeader blockVirtualAddress : ℕ) :
    List ℕ → PeRelocating → Bool × PeRelocating
  | [], s => (true, s)
  | index :: indices, s =>
    let entry := s.read (relocEntry blockHeader index) 2
    let type := entry.1 / 2 ^ 12
    let pageOffset := entry.1 % 2 ^ 12
    if type = imageRelBasedAbsolute then
      image.applyEntries blockHeader blockVirtualAddress indices entry.2
    else if type ≠ imageRelBasedDir64 then (false, entry.2)
    else
      image.applyEntries blockHeader blockVirtualAddress indices
        (entry.2.patch image.delta (image.relocTarget blockVirtualAddress pageOffset))

/-- The loop over the blocks; false where a block is rejected. -/
def applyBlocks (image : WinePeImage) (consumed : ℕ) (s : PeRelocating) : Bool × PeRelocating :=
  if consumed < image.info.relocDirectorySize then
    let blockVirtualAddress := s.read (image.blockHeader consumed) 4
    let blockSize := blockVirtualAddress.2.read (image.blockHeader consumed + 4) 4
    if blockSize.1 < blockHeaderSize then (false, blockSize.2)
    else
      let entryCount := (blockSize.1 - blockHeaderSize) / 2
      let entries := image.applyEntries (image.blockHeader consumed) blockVirtualAddress.1
        (List.range entryCount) blockSize.2
      if entries.1 then image.applyBlocks (consumed + blockSize.1) entries.2
      else (false, entries.2)
  else (true, s)
termination_by image.info.relocDirectorySize - consumed
decreasing_by
  -- a block is at least as large as its header
  have hsize : 0 < blockSize.1 := lt_of_lt_of_le (by decide) (not_lt.1 ‹_› : blockHeaderSize ≤ _)
  exact Nat.sub_lt_sub_left ‹consumed < _› (Nat.lt_add_of_pos_right hsize)

end WinePeImage

def winePeApplyRelocations (image : WinePeImage) (memory : ℕ → UInt8) :
    WinePeRelocResult × PeRelocating :=
  if image.info.relocDirectorySize = 0 then (.none, { memory := memory })
  else
    let run := image.applyBlocks 0 { memory := memory }
    (if run.1 then .ok else .unsupported, run.2)

end DemonOS
