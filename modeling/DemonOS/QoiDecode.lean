import DemonOS.Lib.LittleEndian

/-!
# The texture decoder

`src/ports/butterscotch/platform/qoi_decode.c`: GameMaker's variant of QOI. The input is the memory
from its first byte on, so that what lies behind it can be read as well; where the pixel data has
been read and where the output has been written is kept beside the pixels.
-/

namespace DemonOS

def qoiIndex : ℕ := 0x00
def qoiRun8 : ℕ := 0x40
def qoiRun16 : ℕ := 0x60
def qoiDiff8 : ℕ := 0x80
def qoiDiff16 : ℕ := 0xc0
def qoiDiff24 : ℕ := 0xe0
def qoiColor : ℕ := 0xf0
def qoiMask2 : ℕ := 0xc0
def qoiMask3 : ℕ := 0xe0
def qoiMask4 : ℕ := 0xf0

structure QoiHeader where
  width : ℕ
  height : ℕ
  length : ℕ

def qoiHeader (input : ℕ → UInt8) (inputSize outputCapacity : ℕ) : Option QoiHeader :=
  if inputSize < 12 ∨ input 0 ≠ 0x66 ∨ input 1 ≠ 0x69 ∨ input 2 ≠ 0x6f ∨ input 3 ≠ 0x71 then none
  else
    let w := LittleEndian.load input 4 2
    let h := LittleEndian.load input 6 2
    let length := LittleEndian.load input 8 4
    if w = 0 ∨ h = 0 then none
    else if inputSize < 12 + length then none
    else if outputCapacity < w * h * 4 then none
    else some { width := w, height := h, length := length }

structure QoiState where
  pos : ℕ := 0
  run : ℕ := 0
  r : UInt8 := 0
  g : UInt8 := 0
  b : UInt8 := 0
  a : UInt8 := 255
  index : ℕ → UInt8 := fun _ => 0
  output : ℕ → UInt8
  reads : List ℕ := []
  writes : List ℕ := []

/-- A difference of a channel: shifted to the top of 32 bits and back down with its sign. -/
def qoiDiff (bits : ℕ) (left right right' : ℕ) : UInt8 :=
  UInt8.ofNat (((BitVec.ofNat 32 bits <<< left).sshiftRight right).sshiftRight right').toNat

namespace QoiState

/-- `pixelData[pos++]`. -/
def readByte (input : ℕ → UInt8) (s : QoiState) : UInt8 × QoiState :=
  (input (12 + s.pos), { s with pos := (s.pos + 1) % 2 ^ 32, reads := s.reads ++ [s.pos] })

def fromIndex (s : QoiState) (b1 : ℕ) : QoiState :=
  let indexPos := (b1 ^^^ qoiIndex) <<< 2
  { s with
    r := s.index indexPos
    g := s.index (indexPos + 1)
    b := s.index (indexPos + 2)
    a := s.index (indexPos + 3) }

def run16 (input : ℕ → UInt8) (s : QoiState) (b1 : ℕ) : QoiState :=
  let b2 := s.readByte input
  { b2.2 with run := ((b1 &&& 0x1f) <<< 8 ||| b2.1.toNat) + 32 }

def diff8 (s : QoiState) (b1 : ℕ) : QoiState :=
  { s with
    r := s.r + qoiDiff (b1 &&& 48) 26 30 0
    g := s.g + qoiDiff (b1 &&& 12) 28 22 8
    b := s.b + qoiDiff (b1 &&& 3) 30 14 16 }

def diff16 (input : ℕ → UInt8) (s : QoiState) (b1 : ℕ) : QoiState :=
  let b2 := s.readByte input
  let merged := b1 <<< 8 ||| b2.1.toNat
  { b2.2 with
    r := s.r + qoiDiff (merged &&& 7936) 19 27 0
    g := s.g + qoiDiff (merged &&& 240) 24 20 8
    b := s.b + qoiDiff (merged &&& 15) 28 12 16 }

def diff24 (input : ℕ → UInt8) (s : QoiState) (b1 : ℕ) : QoiState :=
  let b2 := s.readByte input
  let b3 := b2.2.readByte input
  let merged := b1 <<< 16 ||| b2.1.toNat <<< 8 ||| b3.1.toNat
  { b3.2 with
    r := s.r + qoiDiff (merged &&& 1015808) 12 27 0
    g := s.g + qoiDiff (merged &&& 31744) 17 19 8
    b := s.b + qoiDiff (merged &&& 992) 22 11 16
    a := s.a + qoiDiff (merged &&& 31) 27 3 24 }

def channel (input : ℕ → UInt8) (s : QoiState) (bit : ℕ) (set : UInt8 → QoiState → QoiState) :
    QoiState :=
  if bit ≠ 0 then
    let value := s.readByte input
    set value.1 value.2
  else s

def color (input : ℕ → UInt8) (s : QoiState) (b1 : ℕ) : QoiState :=
  let s := s.channel input (b1 &&& 8) fun v s => { s with r := v }
  let s := s.channel input (b1 &&& 4) fun v s => { s with g := v }
  let s := s.channel input (b1 &&& 2) fun v s => { s with b := v }
  s.channel input (b1 &&& 1) fun v s => { s with a := v }

/-- The pixel goes to the place in `index` that its channels make. -/
def remember (s : QoiState) : QoiState :=
  let indexPos2 := ((s.r ^^^ s.g ^^^ s.b ^^^ s.a).toNat &&& 63) <<< 2
  { s with index :=
      Function.update (Function.update (Function.update (Function.update s.index indexPos2 s.r)
        (indexPos2 + 1) s.g) (indexPos2 + 2) s.b) (indexPos2 + 3) s.a }

/-- What the first byte of an opcode asks for. -/
def dispatch (input : ℕ → UInt8) (s : QoiState) (b1 : ℕ) : QoiState :=
  if b1 &&& qoiMask2 = qoiIndex then s.fromIndex b1
  else if b1 &&& qoiMask3 = qoiRun8 then { s with run := b1 &&& 0x1f }
  else if b1 &&& qoiMask3 = qoiRun16 then s.run16 input b1
  else if b1 &&& qoiMask2 = qoiDiff8 then s.diff8 b1
  else if b1 &&& qoiMask3 = qoiDiff16 then s.diff16 input b1
  else if b1 &&& qoiMask4 = qoiDiff24 then s.diff24 input b1
  else if b1 &&& qoiMask4 = qoiColor then s.color input b1
  else s

def opcode (input : ℕ → UInt8) (s : QoiState) : QoiState :=
  let b1 := s.readByte input
  (b1.2.dispatch input b1.1.toNat).remember

def write (s : QoiState) (offset : ℕ) (value : UInt8) : QoiState :=
  { s with output := Function.update s.output offset value, writes := s.writes ++ [offset] }

def writePixel (s : QoiState) (rawPos : ℕ) : QoiState :=
  (((s.write rawPos s.b).write (rawPos + 1) s.g).write (rawPos + 2) s.r).write (rawPos + 3) s.a

/-- A round of the loop over the pixels. -/
def pixel (input : ℕ → UInt8) (length : ℕ) (s : QoiState) (rawPos : ℕ) : QoiState :=
  (if 0 < s.run then { s with run := s.run - 1 }
    else if s.pos < length then s.opcode input
    else s).writePixel rawPos

/-- The loop over the pixels, of which so many are left. -/
def pixels (input : ℕ → UInt8) (length : ℕ) : ℕ → ℕ → QoiState → QoiState
  | 0, _, s => s
  | count + 1, rawPos, s => pixels input length count (rawPos + 4) (s.pixel input length rawPos)

end QoiState

/-- `Qoi_decode`. -/
def qoiDecode (input : ℕ → UInt8) (inputSize : ℕ) (output : ℕ → UInt8) (outputCapacity : ℕ) :
    Option (QoiHeader × QoiState) :=
  (qoiHeader input inputSize outputCapacity).map fun header =>
    (header, QoiState.pixels input header.length (header.width * header.height) 0
      { output := output })

end DemonOS
