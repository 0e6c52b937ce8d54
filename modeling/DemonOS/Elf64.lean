import DemonOS.Lib.Bytes
import Mathlib.Algebra.GroupWithZero.Nat

/-!
# ELF64 executables

`src/elf64.c`: the checks on the headers, the range the loadable segments span
(`elf64ExecutableLayout`), and the two loaders, into one contiguous range and into a list of page
frames.
-/

namespace DemonOS

def pageSize : ℕ := 4096

/-- A little-endian field of `n` bytes of the image. -/
def elfField (image : List UInt8) (offset n : ℕ) : ℕ :=
  ((List.range n).map fun i => (image.getD (offset + i) 0).toNat * 2 ^ (8 * i)).sum

structure ElfProgramHeader where
  type : ℕ
  flags : ℕ
  offset : ℕ
  virtualAddress : ℕ
  fileSize : ℕ
  memorySize : ℕ

structure ElfLayout where
  virtualBase : ℕ
  virtualEnd : ℕ
  entryPoint : ℕ

namespace Elf64

def headerSize : ℕ := 64
def programHeaderSize : ℕ := 56
def ptLoad : ℕ := 1

def rangeFits (offset length total : ℕ) : Bool := offset ≤ total && length ≤ total - offset

def programCount (image : List UInt8) : ℕ := elfField image 56 2

def entryPoint (image : List UInt8) : ℕ := elfField image 24 8

/-- The checks both loaders make on the file header and on the extent of the program headers. -/
def validHeader (image : List UInt8) : Bool :=
  headerSize ≤ image.length
    && image.take 7 == [0x7F, 0x45, 0x4C, 0x46, 2, 1, 1]
    && elfField image 16 2 == 2 && elfField image 18 2 == 62 && elfField image 20 4 == 1
    && elfField image 52 2 == headerSize && elfField image 54 2 == programHeaderSize
    && programCount image != 0
    && rangeFits (elfField image 32 8) (programCount image * programHeaderSize) image.length

def programHeader (image : List UInt8) (index : ℕ) : ElfProgramHeader :=
  let at_ := elfField image 32 8 + index * programHeaderSize
  { type := elfField image at_ 4
    flags := elfField image (at_ + 4) 4
    offset := elfField image (at_ + 8) 8
    virtualAddress := elfField image (at_ + 16) 8
    fileSize := elfField image (at_ + 32) 8
    memorySize := elfField image (at_ + 40) 8 }

def loadSegments (image : List UInt8) : List ElfProgramHeader :=
  ((List.range (programCount image)).map (programHeader image)).filter (·.type == ptLoad)

def holdsEntry (image : List UInt8) (p : ElfProgramHeader) : Bool :=
  p.flags % 2 == 1 && p.virtualAddress ≤ entryPoint image
    && entryPoint image < p.virtualAddress + p.memorySize

/-- The loop of `elf64_executable_layout`: the lowest address, the highest end, and whether an
executable segment holds the entry point. -/
def layoutLoop (image : List UInt8) : List ElfProgramHeader → ℕ → ℕ → Bool → Option (ℕ × ℕ × Bool)
  | [], base, end_, executableEntry => some (base, end_, executableEntry)
  | p :: ps, base, end_, executableEntry =>
    if p.memorySize < p.fileSize || !rangeFits p.offset p.fileSize image.length
        || 2 ^ 64 - 1 - p.memorySize < p.virtualAddress then none
    else layoutLoop image ps (min base p.virtualAddress)
      (max end_ (p.virtualAddress + p.memorySize)) (executableEntry || holdsEntry image p)

def elf64ExecutableLayout (image : List UInt8) : Option ElfLayout :=
  if !validHeader image then none
  else match layoutLoop image (loadSegments image) (2 ^ 64 - 1) 0 false with
    | none => none
    | some (base, end_, executableEntry) =>
      if base = 2 ^ 64 - 1 ∨ end_ ≤ base ∨ executableEntry = false then none
      else some { virtualBase := base, virtualEnd := end_, entryPoint := entryPoint image }

/-- The segment loop of `elf64_load_executable`. It stops at a segment that does not fit, with the
segments before it already copied. -/
def loadLoop (image : List UInt8) (virtualBase memory memorySize : ℕ) :
    List ElfProgramHeader → Bool → Bool → (ℕ → UInt8) → Option (Bool × Bool) × (ℕ → UInt8)
  | [], loaded, executableEntry, m => (some (loaded, executableEntry), m)
  | p :: ps, _, executableEntry, m =>
    if p.memorySize < p.fileSize || !rangeFits p.offset p.fileSize image.length
        || p.virtualAddress < virtualBase then (none, m)
    else if !rangeFits (p.virtualAddress - virtualBase) p.memorySize memorySize then (none, m)
    else
      let destination := memory + (p.virtualAddress - virtualBase)
      loadLoop image virtualBase memory memorySize ps true (executableEntry || holdsEntry image p)
        fun a => if destination ≤ a ∧ a < destination + p.fileSize
          then image.getD (p.offset + (a - destination)) 0 else m a

/-- `elf64_load_executable`: the entry point, and memory with the segments in the `memorySize`
bytes from `memory` on. -/
def elf64LoadExecutable (m : ℕ → UInt8) (image : List UInt8)
    (virtualBase memory memorySize : ℕ) : Option ℕ × (ℕ → UInt8) :=
  match elf64ExecutableLayout image with
  | none => (none, m)
  | some layout =>
    if layout.virtualBase < virtualBase
        ∨ (virtualBase + memorySize) % 2 ^ 64 < layout.virtualEnd then (none, m)
    else match loadLoop image virtualBase memory memorySize (loadSegments image) false false
        (Bytes.clear m memory memorySize) with
      | (none, m) => (none, m)
      | (some (loaded, executableEntry), m) =>
        if loaded = false ∨ executableEntry = false ∨ entryPoint image < virtualBase
            ∨ (virtualBase + memorySize) % 2 ^ 64 ≤ entryPoint image then (none, m)
        else (some (entryPoint image), m)

def copyToPages (image : List UInt8) (virtualBase : ℕ) (frames : ℕ → ℕ) (p : ElfProgramHeader)
    (m : ℕ → UInt8) : ℕ → UInt8 :=
  (List.range p.fileSize).foldl (fun m byte =>
    let offset := p.virtualAddress - virtualBase + byte
    Function.update m (frames (offset / pageSize) + offset % pageSize)
      (image.getD (p.offset + byte) 0)) m

/-- The clearing loop of `elf64_load_executable_pages`, which stops at a frame that is zero or not
aligned. -/
def clearPages (frames : ℕ → ℕ) : List ℕ → (ℕ → UInt8) → Bool × (ℕ → UInt8)
  | [], m => (true, m)
  | page :: pages, m =>
    if frames page = 0 ∨ frames page % pageSize ≠ 0 then (false, m)
    else clearPages frames pages (Bytes.clear m (frames page) pageSize)

/-- `elf64_load_executable_pages`. -/
def elf64LoadExecutablePages (m : ℕ → UInt8) (image : List UInt8) (virtualBase : ℕ)
    (frames : ℕ → ℕ) (pageCount : ℕ) : Option ℕ × (ℕ → UInt8) :=
  if pageCount = 0 ∨ (2 ^ 64 - 1) / pageSize < pageCount
      ∨ 2 ^ 64 - 1 - pageCount * pageSize < virtualBase then (none, m)
  else match elf64ExecutableLayout image with
    | none => (none, m)
    | some layout =>
      if layout.virtualBase < virtualBase ∨ virtualBase + pageCount * pageSize < layout.virtualEnd
      then (none, m)
      else match clearPages frames (List.range pageCount) m with
        | (false, m) => (none, m)
        | (true, m) => (some layout.entryPoint,
            (loadSegments image).foldl (fun m p => copyToPages image virtualBase frames p m) m)

end Elf64

end DemonOS
