import DemonOS.Lib.LittleEndian

/-!
# The framebuffer of the kernel

`src/framebuffer.c`: drawing into the backbuffer, the one rectangle around what has not been
presented yet, and the cursor, which is painted on the scanout memory only. The backbuffer is a
function of the pixel's index, the scanout memory one of the byte's offset from its start. The
images of the cursor are linked in by the build (`Assets`). The result of an `int32_t` operation
that may leave its range is wrapped (`int32`).
-/

namespace DemonOS

def framebufferMaxWidth : ℕ := 640
def framebufferMaxHeight : ℕ := 480
def demonMouseCursorWidth : ℕ := 16
def demonMouseCursorHeight : ℕ := 24
def demonCursorIconCount : ℕ := 13

/-- The `int32_t` of this value. -/
def int32 (value : ℤ) : ℤ := (value + 2 ^ 31) % 2 ^ 32 - 2 ^ 31

/-- The images that the build links in, four bytes for a pixel. -/
structure Assets where
  mouseArgb : List UInt8
  cursorIconsArgb : List UInt8

namespace Assets

def pixelsFrom (bytes : List UInt8) (start : ℕ) : ℕ → UInt32 := fun i =>
  UInt32.ofNat (LittleEndian.load (fun b => bytes.getD b 0) (start + 4 * i) 4)

def demonMouseCursorPixels (assets : Assets) : Option (ℕ → UInt32) :=
  if assets.mouseArgb.length ≠ demonMouseCursorWidth * demonMouseCursorHeight * 4 then none
  else some (pixelsFrom assets.mouseArgb 0)

def demonCursorIconPixels (assets : Assets) (iconIndex : ℕ) : Option (ℕ → UInt32) :=
  let iconBytes := demonMouseCursorWidth * demonMouseCursorHeight * 4
  if assets.cursorIconsArgb.length ≠ iconBytes * demonCursorIconCount then none
  else if iconIndex < 1 ∨ demonCursorIconCount < iconIndex then none
  else some (pixelsFrom assets.cursorIconsArgb ((iconIndex - 1) * iconBytes))

end Assets

/-- The tag of the boot loader. -/
structure TagFramebuffer where
  size : ℕ
  address : ℕ
  pitch : ℕ
  width : ℕ
  height : ℕ
  bitsPerPixel : ℕ
  framebufferType : ℕ
  redPosition : ℕ
  redMaskSize : ℕ
  greenPosition : ℕ
  greenMaskSize : ℕ
  bluePosition : ℕ
  blueMaskSize : ℕ

/-- The bytes of the tag in memory. -/
def sizeofTagFramebuffer : ℕ := 38

structure FramebufferInfo where
  physicalAddress : ℕ := 0
  width : ℕ := 0
  height : ℕ := 0
  pitch : ℕ := 0
  bitsPerPixel : ℕ := 0
  pixelFormat : ℕ := 0
  redPosition : ℕ := 0
  redMaskSize : ℕ := 0
  greenPosition : ℕ := 0
  greenMaskSize : ℕ := 0
  bluePosition : ℕ := 0
  blueMaskSize : ℕ := 0

structure FramebufferRect where
  x : ℤ
  y : ℤ
  width : ℤ
  height : ℤ

structure Framebuffer where
  info : FramebufferInfo := {}
  backbuffer : ℕ → UInt32
  /-- The memory at the virtual address of the framebuffer. -/
  scanout : ℕ → UInt8
  discovered : Bool := false
  enabled : Bool := false
  dirty : Bool := false
  damage : FramebufferRect := ⟨0, 0, 0, 0⟩
  cursorX : ℤ := 0
  cursorY : ℤ := 0
  cursorVisible : Bool := false
  cursorUpdateCount : UInt64 := 0
  cursorIconIndex : ℕ := 0

/-- The pixels of the rectangle, row by row. -/
def FramebufferRect.pixels (rect : FramebufferRect) : List (ℤ × ℤ) :=
  (List.range rect.height.toNat).flatMap fun (row : ℕ) =>
    (List.range rect.width.toNat).map fun (column : ℕ) => (rect.x + column, rect.y + row)

namespace FramebufferInfo

def rectClip (info : FramebufferInfo) (rect : FramebufferRect) : Option FramebufferRect :=
  if rect.width ≤ 0 ∨ rect.height ≤ 0 then none
  else
    let right := rect.x + rect.width
    let bottom := rect.y + rect.height
    if right ≤ 0 ∨ bottom ≤ 0 ∨ (info.width : ℤ) ≤ rect.x ∨ (info.height : ℤ) ≤ rect.y then none
    else
      let x := if rect.x < 0 then 0 else rect.x
      let y := if rect.y < 0 then 0 else rect.y
      let right := if (info.width : ℤ) < right then (info.width : ℤ) else right
      let bottom := if (info.height : ℤ) < bottom then (info.height : ℤ) else bottom
      let clipped : FramebufferRect := ⟨x, y, right - x, bottom - y⟩
      if 0 < clipped.width ∧ 0 < clipped.height then some clipped else none

/-- The index of the pixel in the backbuffer. -/
def index (info : FramebufferInfo) (x y : ℤ) : ℕ := y.toNat * info.width + x.toNat

def bytesPerPixel (info : FramebufferInfo) : ℕ := (info.bitsPerPixel + 7) / 8

def nativeArgb32 (info : FramebufferInfo) : Bool :=
  info.bytesPerPixel = 4 ∧ info.redPosition = 16 ∧ info.greenPosition = 8 ∧ info.bluePosition = 0
    ∧ info.redMaskSize = 8 ∧ info.greenMaskSize = 8 ∧ info.blueMaskSize = 8

end FramebufferInfo

def scaleChannel (value : UInt32) (bits : ℕ) : UInt32 :=
  if 8 ≤ bits then value else (value * ((1 <<< UInt32.ofNat bits) - 1) + 127) / 255

def nativePixel (info : FramebufferInfo) (argb : UInt32) : UInt32 :=
  let red := scaleChannel (argb >>> 16 &&& 0xFF) info.redMaskSize
  let green := scaleChannel (argb >>> 8 &&& 0xFF) info.greenMaskSize
  let blue := scaleChannel (argb &&& 0xFF) info.blueMaskSize
  red <<< UInt32.ofNat info.redPosition ||| green <<< UInt32.ofNat info.greenPosition
    ||| blue <<< UInt32.ofNat info.bluePosition

def blend (destination source : UInt32) : UInt32 :=
  let alpha := source >>> 24
  if alpha = 255 then source
  else if alpha = 0 then destination
  else
    let inverse := 255 - alpha
    let rb := ((source &&& 0x00FF00FF) * alpha + (destination &&& 0x00FF00FF) * inverse) >>> 8
      &&& 0x00FF00FF
    let g := ((source &&& 0x0000FF00) * alpha + (destination &&& 0x0000FF00) * inverse) >>> 8
      &&& 0x0000FF00
    0xFF000000 ||| rb ||| g

/-- `scanout_pixel`: the bytes of the pixel, the lowest first. -/
def scanoutPixel (info : FramebufferInfo) (target : ℕ → UInt8) (x y : ℤ) (argb : UInt32) :
    ℕ → UInt8 :=
  let destination := y.toNat * info.pitch + x.toNat * info.bytesPerPixel
  if info.nativeArgb32 then LittleEndian.store target destination 4 argb.toNat
  else
    let pixel := nativePixel info argb
    let target := LittleEndian.store target destination 3 pixel.toNat
    if info.bytesPerPixel = 4 then
      LittleEndian.store target (destination + 3) 1 (pixel >>> 24).toNat
    else target

/-- The rows of the glyphs of five by seven pixels. -/
def font : List (Char × List ℕ) :=
  [(' ', [0, 0, 0, 0, 0, 0, 0]), ('-', [0, 0, 0, 31, 0, 0, 0]), ('.', [0, 0, 0, 0, 0, 12, 12]),
    ('#', [10, 31, 10, 10, 31, 10, 0]), ('>', [16, 8, 4, 2, 4, 8, 16]),
    ('<', [1, 2, 4, 8, 4, 2, 1]), ('_', [0, 0, 0, 0, 0, 0, 31]), ('[', [14, 8, 8, 8, 8, 8, 14]),
    (']', [14, 2, 2, 2, 2, 2, 14]), ('|', [4, 4, 4, 4, 4, 4, 4]), (':', [0, 12, 12, 0, 12, 12, 0]),
    ('/', [1, 2, 4, 8, 16, 0, 0]), ('0', [14, 17, 19, 21, 25, 17, 14]),
    ('1', [4, 12, 4, 4, 4, 4, 14]), ('2', [14, 17, 1, 2, 4, 8, 31]),
    ('3', [30, 1, 1, 14, 1, 1, 30]), ('4', [2, 6, 10, 18, 31, 2, 2]),
    ('5', [31, 16, 16, 30, 1, 1, 30]), ('6', [14, 16, 16, 30, 17, 17, 14]),
    ('7', [31, 1, 2, 4, 8, 8, 8]), ('8', [14, 17, 17, 14, 17, 17, 14]),
    ('9', [14, 17, 17, 15, 1, 1, 14]), ('A', [14, 17, 17, 31, 17, 17, 17]),
    ('B', [30, 17, 17, 30, 17, 17, 30]), ('C', [14, 17, 16, 16, 16, 17, 14]),
    ('D', [28, 18, 17, 17, 17, 18, 28]), ('E', [31, 16, 16, 30, 16, 16, 31]),
    ('F', [31, 16, 16, 30, 16, 16, 16]), ('G', [14, 17, 16, 23, 17, 17, 15]),
    ('H', [17, 17, 17, 31, 17, 17, 17]), ('I', [14, 4, 4, 4, 4, 4, 14]),
    ('J', [7, 2, 2, 2, 18, 18, 12]), ('K', [17, 18, 20, 24, 20, 18, 17]),
    ('L', [16, 16, 16, 16, 16, 16, 31]), ('M', [17, 27, 21, 21, 17, 17, 17]),
    ('N', [17, 25, 21, 19, 17, 17, 17]), ('O', [14, 17, 17, 17, 17, 17, 14]),
    ('P', [30, 17, 17, 30, 16, 16, 16]), ('Q', [14, 17, 17, 17, 21, 18, 13]),
    ('R', [30, 17, 17, 30, 20, 18, 17]), ('S', [15, 16, 16, 14, 1, 1, 30]),
    ('T', [31, 4, 4, 4, 4, 4, 4]), ('U', [17, 17, 17, 17, 17, 17, 14]),
    ('V', [17, 17, 17, 17, 17, 10, 4]), ('W', [17, 17, 17, 21, 21, 21, 10]),
    ('X', [17, 17, 10, 4, 10, 17, 17]), ('Y', [17, 17, 10, 4, 4, 4, 4]),
    ('Z', [31, 1, 2, 4, 8, 16, 31])]

/-- The rows of the glyphs of four by five pixels. -/
def compactFont : List (Char × List ℕ) :=
  [(' ', [0, 0, 0, 0, 0]), ('-', [0, 0, 15, 0, 0]), ('.', [0, 0, 0, 0, 4]),
    ('#', [5, 15, 5, 15, 5]), ('>', [8, 4, 2, 4, 8]), ('<', [1, 2, 4, 2, 1]),
    ('_', [0, 0, 0, 0, 15]), ('[', [12, 8, 8, 8, 12]), (']', [3, 1, 1, 1, 3]),
    ('|', [4, 4, 4, 4, 4]), (':', [0, 4, 0, 4, 0]), ('/', [1, 2, 4, 8, 0]), ('0', [6, 9, 9, 9, 6]),
    ('1', [2, 6, 2, 2, 7]), ('2', [6, 9, 2, 4, 15]), ('3', [14, 1, 6, 1, 14]),
    ('4', [9, 9, 15, 1, 1]), ('5', [15, 8, 14, 1, 14]), ('6', [6, 8, 14, 9, 6]),
    ('7', [15, 1, 2, 4, 4]), ('8', [6, 9, 6, 9, 6]), ('9', [6, 9, 7, 1, 6]),
    ('A', [6, 9, 15, 9, 9]), ('B', [14, 9, 14, 9, 14]), ('C', [7, 8, 8, 8, 7]),
    ('D', [14, 9, 9, 9, 14]), ('E', [15, 8, 14, 8, 15]), ('F', [15, 8, 14, 8, 8]),
    ('G', [7, 8, 11, 9, 7]), ('H', [9, 9, 15, 9, 9]), ('I', [15, 4, 4, 4, 15]),
    ('J', [3, 1, 1, 9, 6]), ('K', [9, 10, 12, 10, 9]), ('L', [8, 8, 8, 8, 15]),
    ('M', [9, 15, 15, 9, 9]), ('N', [9, 13, 11, 9, 9]), ('O', [6, 9, 9, 9, 6]),
    ('P', [14, 9, 14, 8, 8]), ('Q', [6, 9, 9, 6, 1]), ('R', [14, 9, 14, 10, 9]),
    ('S', [7, 8, 6, 1, 14]), ('T', [15, 4, 4, 4, 4]), ('U', [9, 9, 9, 9, 6]),
    ('V', [9, 9, 9, 6, 4]), ('W', [9, 9, 15, 15, 9]), ('X', [9, 6, 4, 6, 9]),
    ('Y', [9, 9, 6, 4, 4]), ('Z', [15, 2, 4, 8, 15])]

/-- The rows of the letter in the font, those of the first glyph if it has none. -/
def rowsIn (font : List (Char × List ℕ)) (value : Char) : List ℕ :=
  let value := if 'a' ≤ value ∧ value ≤ 'z' then Char.ofNat (value.toNat - 'a'.toNat + 'A'.toNat)
    else value
  ((font.find? fun glyph => glyph.1 == value).or font.head?).elim [] Prod.snd

def glyphRows (value : Char) : List ℕ := rowsIn font value

def compactGlyphRows (value : Char) : List ℕ := rowsIn compactFont value

namespace Framebuffer

def activeCursorPixels (fb : Framebuffer) (assets : Assets) : Option (ℕ → UInt32) :=
  (if fb.cursorIconIndex ≠ 0 then assets.demonCursorIconPixels fb.cursorIconIndex else none).or
    assets.demonMouseCursorPixels

def markDamage (fb : Framebuffer) (rect : FramebufferRect) : Framebuffer :=
  match fb.info.rectClip rect with
  | none => fb
  | some rect =>
    if fb.dirty = false then { fb with damage := rect, dirty := true }
    else
      let left := if rect.x < fb.damage.x then rect.x else fb.damage.x
      let top := if rect.y < fb.damage.y then rect.y else fb.damage.y
      let r0 := rect.x + rect.width
      let r1 := fb.damage.x + fb.damage.width
      let bottom0 := rect.y + rect.height
      let bottom1 := fb.damage.y + fb.damage.height
      let right := if r1 < r0 then r0 else r1
      let bottom := if bottom1 < bottom0 then bottom0 else bottom1
      { fb with damage := ⟨left, top, right - left, bottom - top⟩ }

def framebufferMarkDirty (fb : Framebuffer) (rect : FramebufferRect) : Framebuffer :=
  fb.markDamage rect

def framebufferReset (fb : Framebuffer) : Framebuffer :=
  { fb with
    info := {}
    discovered := false
    enabled := false
    dirty := false
    cursorVisible := false
    cursorUpdateCount := 0
    cursorIconIndex := 0 }

def alignDown2m (value : ℕ) : ℕ := value / 2 ^ 21 * 2 ^ 21

def alignUp2m (value : ℕ) : ℕ :=
  if 2 ^ 64 - 1 - (2 ^ 21 - 1) < value then 0 else (value + 2 ^ 21 - 1) / 2 ^ 21 * 2 ^ 21

def framebufferDiscover (fb : Framebuffer) (tag : TagFramebuffer) : Bool × Framebuffer :=
  if tag.size < sizeofTagFramebuffer ∨ tag.framebufferType ≠ 1
      ∨ (tag.bitsPerPixel ≠ 24 ∧ tag.bitsPerPixel ≠ 32) ∨ tag.width = 0 ∨ tag.height = 0
      ∨ framebufferMaxWidth < tag.width ∨ framebufferMaxHeight < tag.height then (false, fb)
  else
    let bytesPerPixel := (tag.bitsPerPixel + 7) / 8
    if tag.pitch < tag.width * bytesPerPixel ∨ 16384 < tag.pitch ∨ tag.redMaskSize = 0
        ∨ tag.greenMaskSize = 0 ∨ tag.blueMaskSize = 0 ∨ 8 < tag.redMaskSize
        ∨ 8 < tag.greenMaskSize ∨ 8 < tag.blueMaskSize then (false, fb)
    else
      let byteLength := tag.pitch * tag.height
      -- the end of the memory wraps around
      if byteLength = 0 ∨ 2 ^ 64 ≤ tag.address + byteLength then (false, fb)
      else
        let first := alignDown2m tag.address
        let mappedEnd := alignUp2m (tag.address + byteLength)
        if mappedEnd = 0 ∨ first / 2 ^ 30 ≠ (mappedEnd - 1) / 2 ^ 30 ∨ first / 2 ^ 39 ≠ 0 then
          (false, fb)
        else
          (true, { fb with
            info :=
              { physicalAddress := tag.address
                width := tag.width
                height := tag.height
                pitch := tag.pitch
                bitsPerPixel := tag.bitsPerPixel
                pixelFormat := tag.framebufferType
                redPosition := tag.redPosition
                redMaskSize := tag.redMaskSize
                greenPosition := tag.greenPosition
                greenMaskSize := tag.greenMaskSize
                bluePosition := tag.bluePosition
                blueMaskSize := tag.blueMaskSize }
            discovered := true })

def framebufferBackbufferBytes (fb : Framebuffer) : ℕ :=
  if fb.discovered then fb.info.width * fb.info.height * 4 else 0

def fillPixels (info : FramebufferInfo) (pixels : List (ℤ × ℤ)) (argb : UInt32)
    (backbuffer : ℕ → UInt32) : ℕ → UInt32 :=
  pixels.foldl (fun backbuffer p => Function.update backbuffer (info.index p.1 p.2) argb) backbuffer

def framebufferFillRect (fb : Framebuffer) (rect : FramebufferRect) (argb : UInt32) :
    Framebuffer :=
  if fb.enabled = false then fb
  else match fb.info.rectClip rect with
    | none => fb
    | some rect =>
      { fb with backbuffer := fillPixels fb.info rect.pixels argb fb.backbuffer }.markDamage rect

def framebufferClear (fb : Framebuffer) (argb : UInt32) : Framebuffer :=
  if fb.enabled = false then fb
  else fb.framebufferFillRect ⟨0, 0, fb.info.width, fb.info.height⟩ argb

/-- `framebuffer_enable`, without the entries of the page tables that it writes. -/
def framebufferEnable (fb : Framebuffer) (backbufferAddress backbufferCapacity : ℕ)
    (backbuffer : ℕ → UInt32) : Bool × Framebuffer :=
  let required := fb.framebufferBackbufferBytes
  if fb.discovered = false ∨ required = 0 ∨ backbufferCapacity < required
      ∨ backbufferAddress % 4096 ≠ 0 then (false, fb)
  else
    (true, { fb with backbuffer, enabled := true, dirty := false }.framebufferClear 0xFF000000)

def framebufferPixel (fb : Framebuffer) (x y : ℤ) (argb : UInt32) : Framebuffer :=
  if fb.enabled = false ∨ x < 0 ∨ y < 0 ∨ (fb.info.width : ℤ) ≤ x ∨ (fb.info.height : ℤ) ≤ y then fb
  else
    { fb with backbuffer := Function.update fb.backbuffer (fb.info.index x y) argb }.markDamage
      ⟨x, y, 1, 1⟩

def framebufferBorderRect (fb : Framebuffer) (rect : FramebufferRect) (argb : UInt32) :
    Framebuffer :=
  (((fb.framebufferFillRect ⟨rect.x, rect.y, rect.width, 1⟩ argb).framebufferFillRect
    ⟨rect.x, int32 (rect.y + rect.height - 1), rect.width, 1⟩ argb).framebufferFillRect
    ⟨rect.x, rect.y, 1, rect.height⟩ argb).framebufferFillRect
    ⟨int32 (rect.x + rect.width - 1), rect.y, 1, rect.height⟩ argb

/-- Rounds of the loop of `framebuffer_line`, of which it makes as many as it takes to the end. -/
def lineLoop (x1 y1 dx sx dy sy : ℤ) (argb : UInt32) :
    ℕ → ℤ → ℤ → ℤ → Framebuffer → Framebuffer
  | 0, _, _, _, fb => fb
  | rounds + 1, x0, y0, error, fb =>
    let fb := fb.framebufferPixel x0 y0 argb
    if x0 = x1 ∧ y0 = y1 then fb
    else
      let twice := int32 (error * 2)
      let (error, x0) := if dy ≤ twice then (int32 (error + dy), int32 (x0 + sx)) else (error, x0)
      let (error, y0) := if twice ≤ dx then (int32 (error + dx), int32 (y0 + sy)) else (error, y0)
      lineLoop x1 y1 dx sx dy sy argb rounds x0 y0 error fb

def framebufferLine (fb : Framebuffer) (rounds : ℕ) (x0 y0 x1 y1 : ℤ) (argb : UInt32) :
    Framebuffer :=
  let dx := if x0 < x1 then int32 (x1 - x0) else int32 (x0 - x1)
  let sx := if x0 < x1 then 1 else -1
  let dyAbs := if y0 < y1 then int32 (y1 - y0) else int32 (y0 - y1)
  let dy := int32 (-dyAbs)
  let sy := if y0 < y1 then 1 else -1
  lineLoop x1 y1 dx sx dy sy argb rounds x0 y0 (int32 (dx + dy)) fb

/-- The pixel `p` of the loop of `framebuffer_blit`. -/
def blitPixel (info : FramebufferInfo) (x y : ℤ) (pixels : ℕ → UInt32) (sourcePitch : ℕ)
    (backbuffer : ℕ → UInt32) (p : ℤ × ℤ) : ℕ → UInt32 :=
  let sourceX := ((p.1 - x) % 2 ^ 32).toNat
  let sourceY := ((p.2 - y) % 2 ^ 32).toNat
  let destination := info.index p.1 p.2
  Function.update backbuffer destination
    (blend (backbuffer destination) (pixels (sourceY * sourcePitch + sourceX)))

def framebufferBlit (fb : Framebuffer) (x y : ℤ) (pixels : Option (ℕ → UInt32))
    (width height sourcePitch : ℕ) : Framebuffer :=
  match pixels with
  | none => fb
  | some pixels =>
    if fb.enabled = false ∨ width = 0 ∨ height = 0 ∨ sourcePitch < width then fb
    else match fb.info.rectClip ⟨x, y, int32 width, int32 height⟩ with
      | none => fb
      | some clipped =>
        { fb with
          backbuffer := clipped.pixels.foldl (blitPixel fb.info x y pixels sourcePitch)
            fb.backbuffer }.markDamage clipped

def glyphPlaces (rows : List ℕ) (height width : ℕ) : List (ℕ × ℕ) :=
  (List.range height).flatMap fun gy =>
    (List.range width).filterMap fun gx =>
      if (rows.getD gy 0).testBit (width - 1 - gx) then some (gx, gy) else none

/-- The loop of `framebuffer_text` and `framebuffer_text_compact`, for glyphs of this height and
width. -/
def textLoop (rowsOf : Char → List ℕ) (height width : ℕ) (y : ℤ) (scale : ℕ) (argb : UInt32) :
    List Char → ℤ → Framebuffer → Framebuffer
  | [], _, fb => fb
  | value :: text, cursor, fb =>
    let fb := (glyphPlaces (rowsOf value) height width).foldl (fun fb g =>
      fb.framebufferFillRect
        ⟨int32 (cursor + (g.1 * scale : ℕ)), int32 (y + (g.2 * scale : ℕ)), scale, scale⟩ argb) fb
    textLoop rowsOf height width y scale argb text (int32 (cursor + ((width + 1) * scale : ℕ))) fb

def framebufferText (fb : Framebuffer) (x y : ℤ) (text : Option (List Char)) (scale : ℕ)
    (argb : UInt32) : Framebuffer :=
  match text with
  | none => fb
  | some text =>
    if fb.enabled = false ∨ scale = 0 ∨ 8 < scale then fb
    else textLoop glyphRows 7 5 y scale argb text x fb

def framebufferTextCompact (fb : Framebuffer) (x y : ℤ) (text : Option (List Char)) (scale : ℕ)
    (argb : UInt32) : Framebuffer :=
  match text with
  | none => fb
  | some text =>
    if fb.enabled = false ∨ scale = 0 ∨ 8 < scale then fb
    else textLoop compactGlyphRows 5 4 y scale argb text x fb

/-- The pixel `p` of the loop of `scanout_backbuffer_rect`. -/
def scanoutBackbufferPixel (fb : Framebuffer) (target : ℕ → UInt8) (p : ℤ × ℤ) : ℕ → UInt8 :=
  scanoutPixel fb.info target p.1 p.2 (fb.backbuffer (fb.info.index p.1 p.2))

def scanoutBackbufferRect (fb : Framebuffer) (rect : FramebufferRect) : Framebuffer :=
  if fb.enabled = false then fb
  else match fb.info.rectClip rect with
    | none => fb
    | some rect =>
      { fb with scanout := rect.pixels.foldl fb.scanoutBackbufferPixel fb.scanout }

/-- The places of the cursor's image, row by row. -/
def cursorPlaces : List (ℕ × ℕ) :=
  (List.range demonMouseCursorHeight).flatMap fun iy =>
    (List.range demonMouseCursorWidth).map fun ix => (ix, iy)

/-- The place `i` of the loop of `scanout_cursor_overlay`. -/
def scanoutCursorPixel (fb : Framebuffer) (icon : ℕ → UInt32) (target : ℕ → UInt8) (i : ℕ × ℕ) :
    ℕ → UInt8 :=
  let px := fb.cursorX + i.1
  let py := fb.cursorY + i.2
  if px < 0 ∨ py < 0 ∨ (fb.info.width : ℤ) ≤ px ∨ (fb.info.height : ℤ) ≤ py then target
  else
    scanoutPixel fb.info target px py
      (blend (fb.backbuffer (fb.info.index px py)) (icon (i.2 * demonMouseCursorWidth + i.1)))

def scanoutCursorOverlay (fb : Framebuffer) (assets : Assets) : Framebuffer :=
  if fb.enabled = false ∨ fb.cursorVisible = false then fb
  else match fb.activeCursorPixels assets with
    | none => fb
    | some icon =>
      { fb with scanout := cursorPlaces.foldl (fb.scanoutCursorPixel icon) fb.scanout }

def framebufferPresent (fb : Framebuffer) (assets : Assets) : Framebuffer :=
  if fb.enabled = false ∨ fb.dirty = false then fb
  else { (fb.scanoutBackbufferRect fb.damage).scanoutCursorOverlay assets with dirty := false }

/-- The rectangle that the cursor covers. -/
def cursorRect (fb : Framebuffer) : FramebufferRect :=
  ⟨fb.cursorX, fb.cursorY, demonMouseCursorWidth, demonMouseCursorHeight⟩

/-- The pixels under a visible cursor as they are in the backbuffer. -/
def restoreCursor (fb : Framebuffer) : Framebuffer :=
  if fb.cursorVisible then fb.scanoutBackbufferRect fb.cursorRect else fb

def framebufferCursorMove (fb : Framebuffer) (assets : Assets) (x y : ℤ) : Bool × Framebuffer :=
  if fb.enabled = false ∨ (fb.activeCursorPixels assets).isNone then (false, fb)
  else
    let x := if x < 0 then 0 else if (fb.info.width : ℤ) ≤ x then (fb.info.width : ℤ) - 1 else x
    let y := if y < 0 then 0 else if (fb.info.height : ℤ) ≤ y then (fb.info.height : ℤ) - 1 else y
    if fb.cursorVisible ∧ x = fb.cursorX ∧ y = fb.cursorY then (false, fb)
    else
      let restored := fb.restoreCursor
      (true, { restored with
        cursorX := x
        cursorY := y
        cursorVisible := true
        cursorUpdateCount := restored.cursorUpdateCount + 1 }.scanoutCursorOverlay assets)

def framebufferCursorSetIcon (fb : Framebuffer) (assets : Assets) (iconIndex : ℕ) : Framebuffer :=
  if iconIndex = fb.cursorIconIndex then fb
  else
    let restored := fb.restoreCursor
    let chosen := { restored with cursorIconIndex := iconIndex }
    if chosen.cursorVisible = false then chosen else chosen.scanoutCursorOverlay assets

def framebufferCursorHide (fb : Framebuffer) : Framebuffer :=
  if fb.cursorVisible = false then fb
  else { fb.restoreCursor with cursorVisible := false }

end Framebuffer

end DemonOS
