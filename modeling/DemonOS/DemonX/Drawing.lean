import DemonOS.DemonX.Server

/-!
# Drawing in the DemonX server

The drawing routines of `user/demonx_server.c`. Each takes the width of a window or pixmap as the
stride of its surface, clips to it, and writes the surface in rows of at most 48 pixels; a copy
reads the pixels of a surface it has mapped.
-/

namespace DemonOS

namespace DemonX

/-- An `int16_t` field. -/
def int16 (v : UInt16) : ℤ := v.toBitVec.toInt

def opaqueAlpha : UInt32 := 0xFF000000

namespace Server

/-- The places of the rows from `top` to `bottom`, each row from `left` to `right`, in the parts one
write takes: row, first column and length. -/
def cells (top bottom left right : ℕ) : List (ℕ × ℕ × ℕ) :=
  (List.range (bottom - top)).flatMap fun row =>
    (chunks left (right - left)).map fun part => (top + row, part.1, part.2)

def readPixels (s : Server) (sys : Answers) (surface : UInt32) : List ℕ → List UInt32 × Server
  | [] => ([], s)
  | index :: indices =>
    let r := s.call sys (.readPixel surface index)
    let rest := readPixels r.2 sys surface indices
    (r.1.toUInt32 :: rest.1, rest.2)

def setDraw (s : Server) (pixels : List UInt32) : Server :=
  { s with drawPixels := fun i => pixels.getD i (s.drawPixels i) }

/-- The size of what a window's surface holds, of the draw buffer where it has fallen back. -/
def surfaceWidth (w : Window) : ℕ :=
  if w.surfaceHandle = fallbackSurface then min w.width.toNat fallbackWidth else clampedWidth w

def surfaceHeight (w : Window) : ℕ :=
  if w.surfaceHandle = fallbackSurface then min w.height.toNat fallbackHeight else clampedHeight w

/-- The draw buffer written to parts of rows of a surface. -/
def fillCells (s : Server) (sys : Answers) (surface : UInt32) (stride : ℕ)
    (cells : List (ℕ × ℕ × ℕ)) : Bool × Server :=
  forEach (fun cell s => s.surfaceWrite sys surface cell.2.2 (cell.1 * stride + cell.2.1)) cells s

def damage (s : Server) (sys : Answers) (surface : UInt32) (x y width height : ℤ) :
    UInt64 × Server :=
  s.call sys (.surfaceDamage surface (UInt32.ofInt x) (UInt32.ofInt y) (UInt32.ofInt width)
    (UInt32.ofInt height))

def fillRectangle (s : Server) (sys : Answers) (i : ℕ) (foreground : UInt32) (x y : UInt16)
    (width height : UInt16) : ℤ × Server :=
  let created := s.createWindowSurface sys i
  let s := created.2
  if !created.1 then (-1, s)
  else
    let w := s.window i
    let stride := surfaceWidth w
    let left := (int16 x).toNat
    let top := (int16 y).toNat
    let right := (min (int16 x + width.toNat) stride).toNat
    let bottom := (min (int16 y + height.toNat) (surfaceHeight w)).toNat
    if right ≤ left ∨ bottom ≤ top then (1, s)
    else
      let color := foreground ||| opaqueAlpha
      let s := s.fillDraw drawChunkPixels color
      if w.surfaceHandle = fallbackSurface then
        (1, (cells top bottom left right).foldl (fun s cell =>
          { s with drawPixels := fun k =>
              if cell.1 * stride + cell.2.1 ≤ k ∧ k < cell.1 * stride + cell.2.1 + cell.2.2 then
                color else s.drawPixels k }) s)
      else
        let written := s.fillCells sys w.surfaceHandle stride (cells top bottom left right)
        if !written.1 then (-2, written.2)
        else
          let damaged := written.2.damage sys w.surfaceHandle left top (right - left) (bottom - top)
          (if damaged.1 = 0 then 1 else -3, damaged.2)

def fillPixmap (s : Server) (sys : Answers) (i : ℕ) (foreground : UInt32) (x y : UInt16)
    (width height : UInt16) : ℤ × Server :=
  let p := s.pixmaps i
  let stride := p.width.toNat
  let left := (int16 x).toNat
  let top := (int16 y).toNat
  let right := (min (int16 x + width.toNat) stride).toNat
  let bottom := (min (int16 y + height.toNat) p.height.toNat).toNat
  if right ≤ left ∨ bottom ≤ top then (1, s)
  else
    let written := (s.fillDraw drawChunkPixels (foreground ||| opaqueAlpha)).fillCells sys
      p.surfaceHandle stride (cells top bottom left right)
    (if written.1 then 1 else -2, written.2)

/-- A surface to draw on: its handle, the size the server draws with, and its window. -/
structure Drawable where
  surface : UInt32
  width : ℕ
  height : ℕ
  window : Option ℕ

def drawableSurface (s : Server) (sys : Answers) (id : UInt32) : Option Drawable × Server :=
  match s.findPixmap id, s.findWindow id with
  | some p, _ => (some ⟨(s.pixmaps p).surfaceHandle, (s.pixmaps p).width.toNat,
      (s.pixmaps p).height.toNat, none⟩, s)
  | none, none => (none, s)
  | none, some i =>
    let created := s.createWindowSurface sys i
    let w := created.2.window i
    if !created.1 ∨ w.surfaceHandle = fallbackSurface then (none, created.2)
    else (some ⟨w.surfaceHandle, clampedWidth w, clampedHeight w, some i⟩, created.2)

/-- One row of `put_image`. -/
def putRow (sys : Answers) (d : Drawable) (x y : UInt16) (width : ℕ) (data : ℕ → UInt8) (row : ℕ)
    (s : Server) : Bool × Server :=
  let destinationY := int16 y + row
  let sourceColumn := (-int16 x).toNat
  let destinationX := (int16 x).toNat
  if destinationY < 0 ∨ d.height ≤ destinationY ∨ width ≤ sourceColumn ∨ d.width ≤ destinationX then
    (true, s)
  else
    let count := min (width - sourceColumn) (d.width - destinationX)
    (s.setDraw ((List.range count).map fun k =>
      read32 data ((row * width + sourceColumn + k) * 4) ||| opaqueAlpha)).surfaceWrite sys d.surface
        count (destinationY.toNat * d.width + destinationX)

/-- `put_image`. A drawable that is both a pixmap and a window is drawn on as a pixmap and damaged as
a window. -/
def putImage (s : Server) (sys : Answers) (id : UInt32) (x y width height : UInt16)
    (data : ℕ → UInt8) : ℤ × Server :=
  if !s.validDrawable id then (-4, s)
  else
    let isWindow := (s.findWindow id).isSome
    match s.drawableSurface sys id with
    | (none, s) => (-1, s)
    | (some d, s) =>
      let written := forEach (putRow sys d x y width.toNat data) (List.range height.toNat) s
      if !written.1 then (-2, written.2)
      else if isWindow then
        (1, (written.2.damage sys d.surface (max (int16 x) 0) (max (int16 y) 0) width.toNat
          height.toNat).2)
      else (1, written.2)

/-- The region `copy_area` copies once it is clipped to both drawables. -/
structure CopyRegion where
  sx : ℤ
  sy : ℤ
  dx : ℤ
  dy : ℤ
  width : ℤ
  height : ℤ

def clipStart (start other length : ℤ) : ℤ × ℤ × ℤ :=
  if start < 0 then (0, other - start, length + start) else (start, other, length)

def clipAxis (source destination length : ℤ) (sourceLimit destinationLimit : ℕ) : ℤ × ℤ × ℤ :=
  let r := clipStart source destination length
  let q := clipStart r.2.1 r.1 r.2.2
  (q.2.1, q.1, min (min q.2.2 (sourceLimit - q.2.1)) (destinationLimit - q.1))

def clipCopy (source destination : Drawable) (sx sy dx dy width height : UInt16) : CopyRegion :=
  let horizontal := clipAxis (int16 sx) (int16 dx) width.toNat source.width destination.width
  let vertical := clipAxis (int16 sy) (int16 dy) height.toNat source.height destination.height
  { sx := horizontal.1, dx := horizontal.2.1, width := horizontal.2.2
    sy := vertical.1, dy := vertical.2.1, height := vertical.2.2 }

/-- The rows and parts of a copy in the order it makes them: from the far end where source and
destination lie on one surface and the copy would overtake itself. -/
def copyOrder (same : Bool) (r : CopyRegion) : List (ℕ × ℕ × ℕ) :=
  let rows := List.range r.height.toNat
  let rows := if same ∧ r.sy < r.dy then rows.reverse else rows
  rows.flatMap fun row => (chunks 0 r.width.toNat).map fun part =>
    (row, if same ∧ r.dy = r.sy ∧ r.sx < r.dx then r.width.toNat - part.1 - part.2 else part.1,
      part.2)

def copyPart (sys : Answers) (source destination : Drawable) (r : CopyRegion)
    (part : ℕ × ℕ × ℕ) (s : Server) : Bool × Server :=
  let first := (r.sy.toNat + part.1) * source.width + r.sx.toNat + part.2.1
  let pixels := s.readPixels sys source.surface ((List.range part.2.2).map (first + ·))
  (pixels.2.setDraw pixels.1).surfaceWrite sys destination.surface part.2.2
    ((r.dy.toNat + part.1) * destination.width + r.dx.toNat + part.2.1)

def copyArea (s : Server) (sys : Answers) (sourceId destinationId : UInt32)
    (sx sy dx dy width height : UInt16) : ℤ × Server :=
  match s.drawableSurface sys sourceId with
  | (none, s) => (-1, s)
  | (some source, s) =>
    match s.drawableSurface sys destinationId with
    | (none, s) => (-1, s)
    | (some destination, s) =>
      let r := clipCopy source destination sx sy dx dy width height
      if r.width ≤ 0 ∨ r.height ≤ 0 then (1, s)
      else
        let mapped := s.call sys (.surfaceMap source.surface)
        if mapped.1 = failure then (-2, mapped.2)
        else
          let copied := forEach (copyPart sys source destination r)
            (copyOrder (source.surface = destination.surface) r) mapped.2
          let s := copied.2.call' sys (.surfaceUnmap source.surface)
          if !copied.1 then (-3, s)
          else if destination.window.isSome then
            (1, (s.damage sys destination.surface r.dx r.dy r.width r.height).2)
          else (1, s)

/-- The extent of `clear_background`: to the end of the window where none is given. -/
def clearExtent (start extent limit : UInt16) : UInt16 :=
  if extent ≠ 0 then extent
  else if int16 start < 0 ∨ int16 limit ≤ int16 start then 0
  else limit - start

def tilePart (sys : Answers) (p : Pixmap) (surface : UInt32) (stride : ℕ) (cell : ℕ × ℕ × ℕ)
    (s : Server) : Bool × Server :=
  let pixels := s.readPixels sys p.surfaceHandle ((List.range cell.2.2).map fun k =>
    cell.1 % p.height.toNat * p.width.toNat + (cell.2.1 + k) % p.width.toNat)
  (pixels.2.setDraw pixels.1).surfaceWrite sys surface cell.2.2 (cell.1 * stride + cell.2.1)

/-- The tiling of `clear_background` with the pixmap in slot `p`. -/
def tileBackground (s : Server) (sys : Answers) (i p : ℕ) (x y width height : UInt16) :
    ℤ × Server :=
  let created := s.createWindowSurface sys i
  let s := created.2
  let w := s.window i
  if !created.1 ∨ w.surfaceHandle = fallbackSurface then (-1, s)
  else
    let background := s.pixmaps p
    let mapped := s.call sys (.surfaceMap background.surfaceHandle)
    let s := mapped.2
    if mapped.1 = failure then (-2, s)
    else
      let stride := clampedWidth w
      let left := (int16 x).toNat
      let top := (int16 y).toNat
      let right := (min (int16 x + width.toNat) stride).toNat
      let bottom := (min (int16 y + height.toNat) (clampedHeight w)).toNat
      if right ≤ left ∨ bottom ≤ top then (1, s.call' sys (.surfaceUnmap background.surfaceHandle))
      else
        let written := forEach (tilePart sys background w.surfaceHandle stride)
          (cells top bottom left right) s
        let s := written.2.call' sys (.surfaceUnmap background.surfaceHandle)
        if !written.1 then (-3, s)
        else (1, (s.damage sys w.surfaceHandle left top (right - left) (bottom - top)).2)

def clearBackground (s : Server) (sys : Answers) (i : ℕ) (x y width height : UInt16) : ℤ × Server :=
  let w := s.window i
  let width := clearExtent x width w.width
  let height := clearExtent y height w.height
  match s.findPixmap w.backgroundPixmap with
  | none => s.fillRectangle sys i w.backgroundPixel x y width height
  | some p =>
    if (s.pixmaps p).width = 0 ∨ (s.pixmaps p).height = 0 then
      s.fillRectangle sys i w.backgroundPixel x y width height
    else s.tileBackground sys i p x y width height

/-! ## Text -/

/-- The digits and the capital letters, five columns each, the lowest bit on top. -/
def coreFont : List (List UInt8) :=
  [[0x3E, 0x51, 0x49, 0x45, 0x3E], [0x00, 0x42, 0x7F, 0x40, 0x00],
    [0x42, 0x61, 0x51, 0x49, 0x46], [0x21, 0x41, 0x45, 0x4B, 0x31],
    [0x18, 0x14, 0x12, 0x7F, 0x10], [0x27, 0x45, 0x45, 0x45, 0x39],
    [0x3C, 0x4A, 0x49, 0x49, 0x30], [0x01, 0x71, 0x09, 0x05, 0x03],
    [0x36, 0x49, 0x49, 0x49, 0x36], [0x06, 0x49, 0x49, 0x29, 0x1E],
    [0x7E, 0x11, 0x11, 0x11, 0x7E], [0x7F, 0x49, 0x49, 0x49, 0x36],
    [0x3E, 0x41, 0x41, 0x41, 0x22], [0x7F, 0x41, 0x41, 0x22, 0x1C],
    [0x7F, 0x49, 0x49, 0x49, 0x41], [0x7F, 0x09, 0x09, 0x09, 0x01],
    [0x3E, 0x41, 0x49, 0x49, 0x7A], [0x7F, 0x08, 0x08, 0x08, 0x7F],
    [0x00, 0x41, 0x7F, 0x41, 0x00], [0x20, 0x40, 0x41, 0x3F, 0x01],
    [0x7F, 0x08, 0x14, 0x22, 0x41], [0x7F, 0x40, 0x40, 0x40, 0x40],
    [0x7F, 0x02, 0x0C, 0x02, 0x7F], [0x7F, 0x04, 0x08, 0x10, 0x7F],
    [0x3E, 0x41, 0x41, 0x41, 0x3E], [0x7F, 0x09, 0x09, 0x09, 0x06],
    [0x3E, 0x41, 0x51, 0x21, 0x5E], [0x7F, 0x09, 0x19, 0x29, 0x46],
    [0x46, 0x49, 0x49, 0x49, 0x31], [0x01, 0x01, 0x7F, 0x01, 0x01],
    [0x3F, 0x40, 0x40, 0x40, 0x3F], [0x1F, 0x20, 0x40, 0x20, 0x1F],
    [0x3F, 0x40, 0x38, 0x40, 0x3F], [0x63, 0x14, 0x08, 0x14, 0x63],
    [0x07, 0x08, 0x70, 0x08, 0x07], [0x61, 0x51, 0x49, 0x45, 0x43]]

def glyphColumns (character : UInt8) : Option (List UInt8) :=
  let c := character.toNat
  if 0x30 ≤ c ∧ c ≤ 0x39 then coreFont[c - 0x30]?
  else if 0x61 ≤ c ∧ c ≤ 0x7A then coreFont[10 + c - 0x61]?
  else if 0x41 ≤ c ∧ c ≤ 0x5A then coreFont[10 + c - 0x41]?
  else none

/-- The pixels of a run of a glyph row: the color where the glyph is set, else what is there. -/
def glyphPixels (sys : Answers) (surface color : UInt32) (glyph : List UInt8)
    (row scale first : ℕ) : List ℕ → Server → List UInt32 × Server
  | [], s => ([], s)
  | column :: columns, s =>
    if (glyph.getD (column / scale) 0).toNat.testBit row then
      let rest := glyphPixels sys surface color glyph row scale first columns s
      (color :: rest.1, rest.2)
    else
      let r := s.call sys (.readPixel surface (first + column))
      let rest := glyphPixels sys surface color glyph row scale first columns r.2
      (r.1.toUInt32 :: rest.1, rest.2)

/-- One row of pixels of one character, at `scale` pixels for each dot of the font, put together in
the draw buffer or apart from it. -/
def glyphRow (sys : Answers) (d : Drawable) (color : UInt32) (x top : ℤ) (text : ℕ → UInt8)
    (scale : ℕ) (buffered : Bool) (at_ : ℕ × ℕ × ℕ) (s : Server) : Bool × Server :=
  match glyphColumns (text at_.1) with
  | none => (true, s)
  | some glyph =>
    let destinationY := top + at_.2.1 * scale + at_.2.2
    let destinationX := x + at_.1 * 6 * scale
    if destinationY < 0 ∨ d.height ≤ destinationY ∨ destinationX < 0
        ∨ d.width < destinationX + 5 * scale then (true, s)
    else
      let first := destinationY.toNat * d.width + destinationX.toNat
      let r := glyphPixels sys d.surface color glyph at_.2.1 scale first (List.range (5 * scale)) s
      (if buffered then r.2.setDraw r.1 else r.2).surfaceWritePixels sys d.surface r.1 first

def textRows (length scale : ℕ) : List (ℕ × ℕ × ℕ) :=
  (List.range length).flatMap fun character => (List.range 7).flatMap fun row =>
    (List.range scale).map fun sub => (character, row, sub)

/-- The common body of `draw_text` and `draw_text_scaled`. -/
def drawGlyphs (s : Server) (sys : Answers) (id foreground : UInt32) (x baseline : UInt16)
    (text : ℕ → UInt8) (length scale : ℕ) (buffered : Bool) : ℤ × Server :=
  match s.drawableSurface sys id with
  | (none, s) => (-1, s)
  | (some d, s) =>
    let mapped := s.call sys (.surfaceMap d.surface)
    if mapped.1 = failure then (-2, mapped.2)
    else
      let top := int16 baseline - 7 * scale
      let written := forEach (glyphRow sys d (foreground ||| opaqueAlpha) (int16 x) top text scale
        buffered) (textRows length scale) mapped.2
      let s := written.2.call' sys (.surfaceUnmap d.surface)
      if !written.1 then (-3, s)
      else if d.window.isSome then
        (1, (s.damage sys d.surface (max (int16 x) 0) (max top 0) (length * 6 * scale)
          (7 * scale)).2)
      else (1, s)

def drawText (s : Server) (sys : Answers) (id foreground : UInt32) (x baseline : UInt16)
    (text : ℕ → UInt8) (length : UInt8) : ℤ × Server :=
  s.drawGlyphs sys id foreground x baseline text length.toNat 1 true

def drawTextScaled (s : Server) (sys : Answers) (id foreground : UInt32) (x baseline : UInt16)
    (text : ℕ → UInt8) (length scale : UInt8) : ℤ × Server :=
  if scale = 0 ∨ 8 < scale then (-4, s)
  else s.drawGlyphs sys id foreground x baseline text length.toNat scale.toNat false

end Server

end DemonX

end DemonOS
