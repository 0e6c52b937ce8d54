import DemonOS.PortKit

/-!
# Windows executables

`src/ports/wine/platform/pe.c` and `pe_load.c`: the checks on the headers of a PE32+ file
(`winePeValidate`), and the loader that puts its sections into memory (`winePeLoad`). Whether the
kernel commits the memory that the loader asks for is an answer of the kernel; what a page holds
before the loader writes to it is what it holds once it is there.
-/

namespace DemonOS

def readLe16 (bytes : List UInt8) (at_ : ℕ) : ℕ := LittleEndian.load (bytes.getD · 0) at_ 2
def readLe32 (bytes : List UInt8) (at_ : ℕ) : ℕ := LittleEndian.load (bytes.getD · 0) at_ 4
def readLe64 (bytes : List UInt8) (at_ : ℕ) : ℕ := LittleEndian.load (bytes.getD · 0) at_ 8

inductive WinePeResult
  | io
  | truncated
  | badDosMagic
  | badPeOffset
  | badPeSignature
  | unsupportedMachine
  | badOptionalMagic
  | badSectionTable
  deriving DecidableEq

/-- `struct wine_pe_info`. -/
structure WinePeInfo where
  machine : ℕ
  sectionCount : ℕ
  optionalHeaderSize : ℕ
  characteristics : ℕ
  optionalMagic : ℕ
  entryPointRva : ℕ
  imageBase : ℕ
  sizeOfImage : ℕ
  numberOfRvaAndSizes : ℕ
  sectionTableOffset : ℕ
  exportDirectoryRva : ℕ
  exportDirectorySize : ℕ
  importDirectoryRva : ℕ
  importDirectorySize : ℕ
  relocDirectoryRva : ℕ
  relocDirectorySize : ℕ

def dosHeaderSize : ℕ := 64
def dosELfanewOffset : ℕ := 0x3C
def peSignatureSize : ℕ := 4
def coffHeaderSize : ℕ := 20
def sectionHeaderSize : ℕ := 40
def optionalMagicPe32Plus : ℕ := 0x020B
def machineAmd64 : ℕ := 0x8664

/-- `read_exact`, where the caller gives up with this error. -/
def readExact {ε : Type} (error : ε) (file : PortFile) (offset length : ℕ) :
    Except ε (List UInt8 × PortFile) :=
  match file.demonPortSeek offset with
  | none => .error error
  | some file =>
    let result := file.demonPortRead length
    if result.1.length = length then .ok result else .error error

/-- Gives up with this error where the condition holds. -/
def failIf {ε : Type} (c : Prop) [Decidable c] (error : ε) : Except ε Unit :=
  if c then .error error else .ok ()

/-- A round of the loop of `wine_pe_validate` over the section table. -/
def checkSection (sectionTableOffset : ℕ) (file : PortFile) (index : ℕ) :
    Except WinePeResult PortFile := do
  let (header, file) ←
    readExact .io file (sectionTableOffset + index * sectionHeaderSize) sectionHeaderSize
  let rawSize := readLe32 header 16
  let rawPointer := readLe32 header 20
  failIf (rawPointer ≠ 0 ∧ (file.size < rawPointer ∨ file.size - rawPointer < rawSize))
    .badSectionTable
  .ok file

/-- The data directories; without them their addresses and sizes are 0, as those of no bytes are. -/
def readDirectories (file : PortFile) (optionalOffset optionalHeaderSize : ℕ) :
    Except WinePeResult (List UInt8 × PortFile) :=
  if 240 ≤ optionalHeaderSize then readExact .io file (optionalOffset + 112) 128
  else .ok ([], file)

def winePeValidate (file : PortFile) : Except WinePeResult (WinePeInfo × PortFile) := do
  failIf (file.size < dosHeaderSize) .truncated
  let (dosHeader, file) ← readExact .io file 0 dosHeaderSize
  failIf (dosHeader.take 2 ≠ [0x4D, 0x5A]) .badDosMagic
  let peOffset := readLe32 dosHeader dosELfanewOffset
  failIf (file.size < peOffset ∨ file.size - peOffset < peSignatureSize + coffHeaderSize)
    .badPeOffset
  let (signature, file) ← readExact .io file peOffset peSignatureSize
  failIf (signature ≠ [0x50, 0x45, 0, 0]) .badPeSignature
  let coffOffset := peOffset + peSignatureSize
  let (coff, file) ← readExact .io file coffOffset coffHeaderSize
  let sectionCount := readLe16 coff 2
  let optionalHeaderSize := readLe16 coff 16
  failIf (readLe16 coff 0 ≠ machineAmd64) .unsupportedMachine
  let optionalOffset := coffOffset + coffHeaderSize
  failIf (optionalHeaderSize < 112 ∨ file.size - optionalOffset < optionalHeaderSize) .truncated
  let (optional, file) ← readExact .io file optionalOffset 112
  failIf (readLe16 optional 0 ≠ optionalMagicPe32Plus) .badOptionalMagic
  let (directories, file) ← readDirectories file optionalOffset optionalHeaderSize
  let sectionTableOffset := optionalOffset + optionalHeaderSize
  failIf ((file.size - sectionTableOffset) / sectionHeaderSize < sectionCount) .badSectionTable
  let file ← (List.range sectionCount).foldlM (checkSection sectionTableOffset) file
  .ok ({
    machine := readLe16 coff 0
    sectionCount := sectionCount
    optionalHeaderSize := optionalHeaderSize
    characteristics := readLe16 coff 18
    optionalMagic := readLe16 optional 0
    entryPointRva := readLe32 optional 16
    imageBase := readLe64 optional 24
    sizeOfImage := readLe32 optional 56
    numberOfRvaAndSizes := readLe32 optional 108
    sectionTableOffset := sectionTableOffset % 2 ^ 32
    exportDirectoryRva := readLe32 directories 0
    exportDirectorySize := readLe32 directories 4
    importDirectoryRva := readLe32 directories 8
    importDirectorySize := readLe32 directories 12
    relocDirectoryRva := readLe32 directories 40
    relocDirectorySize := readLe32 directories 44 }, file)

/-! ## The loader -/

inductive WinePeLoadResult
  | validateFailed
  | tooLarge
  | badSection
  | reserveFailed
  | commitFailed
  | readFailed
  deriving DecidableEq

/-- `struct wine_pe_image`. -/
structure WinePeImage where
  base : ℕ
  entryPoint : ℕ
  info : WinePeInfo

def winePeMaxImageBytes : ℕ := 24 * 1024 * 1024

def roundUpPage (bytes : ℕ) : ℕ := sizeT (bytes + 4095) / 4096 * 4096

/-- The fields of a section header that the loader reads. -/
structure PeSection where
  virtualSize : ℕ
  virtualAddress : ℕ
  rawSize : ℕ
  rawPointer : ℕ

def peSection (header : List UInt8) : PeSection :=
  { virtualSize := readLe32 header 8
    virtualAddress := readLe32 header 12
    rawSize := readLe32 header 16
    rawPointer := readLe32 header 20 }

def PeSection.extent (p : PeSection) : ℕ :=
  if p.rawSize < p.virtualSize then p.virtualSize else p.rawSize

def PeSection.copySize (p : PeSection) : ℕ :=
  if p.rawSize < p.virtualSize then p.rawSize else p.virtualSize

/-- The bytes put into memory from this address on. -/
def writeBytes (m : ℕ → UInt8) (a : ℕ) (bytes : List UInt8) : ℕ → UInt8 := fun b =>
  if a ≤ b ∧ b < a + bytes.length then bytes.getD (b - a) 0 else m b

/-- Where the loader is: the file, the memory, how much is committed in how many calls, and where
it has written (first address and length). -/
structure PeLoading where
  file : PortFile
  memory : ℕ → UInt8
  committed : ℕ := 0
  commits : ℕ := 0
  written : List (ℕ × ℕ) := []

/-- What the kernel answers to each `demon_memory_commit`: whether it gives the memory. -/
abbrev CommitAnswers := ℕ → ℕ → Bool → Bool

namespace PeLoading

/-- The memory up to here is committed; nothing where the kernel refuses. -/
def commitTo (answers : CommitAnswers) (s : PeLoading) (neededEnd : ℕ) (writable : Bool) :
    Option PeLoading :=
  if s.committed < neededEnd then
    if answers s.commits (neededEnd - s.committed) writable then
      some { s with committed := neededEnd, commits := s.commits + 1 }
    else none
  else some s

def write (s : PeLoading) (a length : ℕ) (memory : ℕ → UInt8) : PeLoading :=
  { s with memory := memory, written := (a, length) :: s.written }

def copyRaw (s : PeLoading) (sectionMemory : ℕ) (p : PeSection) :
    Except WinePeLoadResult PeLoading :=
  if p.rawPointer ≠ 0 ∧ p.rawSize ≠ 0 then
    match s.file.demonPortSeek p.rawPointer with
    | none => .error .readFailed
    | some file =>
      let result := file.demonPortRead p.copySize
      if result.1.length = p.copySize then
        .ok ({ s with file := result.2 }.write sectionMemory p.copySize
          (writeBytes s.memory sectionMemory result.1))
      else .error .readFailed
  else .ok s

/-- A round of the loop of `wine_pe_load` over the section table. -/
def loadSection (answers : CommitAnswers) (base : ℕ) (info : WinePeInfo) (s : PeLoading)
    (index : ℕ) : Except WinePeLoadResult PeLoading :=
  match readExact WinePeLoadResult.readFailed s.file
      (info.sectionTableOffset + index * sectionHeaderSize) sectionHeaderSize with
  | .error error => .error error
  | .ok (header, file) =>
    let p := peSection header
    if p.virtualAddress < s.committed
        ∨ sizeT (info.sizeOfImage + 2 ^ 64 - p.extent) < p.virtualAddress then
      .error .badSection
    else
      match { s with file := file }.commitTo answers (roundUpPage (p.virtualAddress + p.extent))
          true with
      | none => .error .commitFailed
      | some s =>
        let sectionMemory := sizeT (base + p.virtualAddress)
        (s.write sectionMemory p.virtualSize
          (bytesZero s.memory sectionMemory p.virtualSize)).copyRaw sectionMemory p

end PeLoading

def winePeLoad (answers : CommitAnswers) (file : PortFile) (base : ℕ) (memory : ℕ → UInt8) :
    Except WinePeLoadResult (WinePeImage × PeLoading) :=
  if base = 0 then .error .readFailed
  else
    match winePeValidate file with
    | .error _ => .error .validateFailed
    | .ok (info, file) =>
      if info.sizeOfImage = 0 ∨ winePeMaxImageBytes < info.sizeOfImage then .error .tooLarge
      else
        match (List.range info.sectionCount).foldlM (PeLoading.loadSection answers base info)
            { file := file, memory := memory } with
        | .error error => .error error
        | .ok s =>
          match s.commitTo answers info.sizeOfImage false with
          | none => .error .commitFailed
          | some s =>
            .ok ({ base := base, entryPoint := sizeT (base + info.entryPointRva), info := info }, s)

end DemonOS
