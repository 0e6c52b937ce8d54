import DemonOS.DemonX.Xlib

/-!
# Drawing in the client library

The graphics contexts and the drawing calls of `lib/demonx/xlib.c`. Lines, arcs and polygons come
down to calls of `XFillRectangle`, which cuts its rectangle to the clip of the context. A call gives
whether it succeeds and the requests it sends, each of which is taken to reach the server; positions
are unbounded where the source has an `int`, but products are checked against their type.
-/

namespace DemonOS

namespace DemonX

structure XPoint where
  x : Int16
  y : Int16

structure XRectangle where
  x : Int16
  y : Int16
  width : UInt16
  height : UInt16
  deriving DecidableEq

/-- What is passed to `XFillRectangle`. -/
structure Area where
  x : ℤ
  y : ℤ
  width : ℕ
  height : ℕ
  deriving DecidableEq

/-- `XImage`: its data is addressed from the first pixel. -/
structure XImage where
  width : Int32
  height : Int32
  format : Int32
  bitsPerPixel : Int32
  bytesPerLine : ℤ
  data : ℤ → UInt8

/-- `struct _XGC`. -/
structure GC where
  id : UInt32 := 0
  drawable : UInt32 := 0
  used : Bool := false
  clipEnabled : Bool := false
  clipX : ℤ := 0
  clipY : ℤ := 0
  clipWidth : ℕ := 0
  clipHeight : ℕ := 0

/-! ## Requests -/

/-- The length of a request and its bytes. -/
structure Message where
  length : ℕ
  payload : ℕ → UInt8

/-- What a call returns, or nothing where it does what C leaves undefined, and what it sends. -/
structure Drawn where
  status : Option Bool
  messages : List Message

namespace Drawn

def refused : Drawn := ⟨some false, []⟩
def undefined : Drawn := ⟨none, []⟩
def nothing : Drawn := ⟨some true, []⟩
def sends (m : Message) : Drawn := ⟨some true, [m]⟩

/-- The second call follows where the first succeeds. -/
def andThen (a b : Drawn) : Drawn :=
  if a.status = some true then ⟨b.status, a.messages ++ b.messages⟩ else a

/-- One call for each member of a list, up to the first that does not succeed. -/
def forAll {α : Type} (f : α → Drawn) : List α → Drawn
  | [] => nothing
  | a :: as => (f a).andThen (forAll f as)

end Drawn

/-- An exact value, where a type of that many bits with a sign holds it. -/
def checked (bits : ℕ) (v : ℤ) : Option ℤ :=
  if -2 ^ (bits - 1) ≤ v ∧ v < 2 ^ (bits - 1) then some v else none

def product (bits : ℕ) (factors : List ℤ) : Option ℤ :=
  factors.foldlM (fun p factor => checked bits (p * factor)) 1

/-! ## Contexts -/

def gcSlots : ℕ := 4

/-- The contexts of a client, and the ids it has left. -/
structure Contexts where
  slots : ℕ → GC := fun _ => {}
  nextResource : UInt32 := 1
  resourceBase : UInt32 := 0
  resourceMask : UInt32 := 0x1FFFFF

structure XGCValues where
  foreground : UInt64 := 0
  font : UInt32 := 0

namespace Contexts

def setSlot (c : Contexts) (i : ℕ) (gc : GC) : Contexts :=
  { c with slots := Function.update c.slots i gc }

/-- The message of `XCreateGC`. -/
def createMessage (id drawable : UInt32) (valueMask : UInt64) (values : XGCValues) : Message :=
  let foreground : Bool := valueMask &&& gcForeground.toUInt64 ≠ 0
  let font : Bool := valueMask &&& gcFont.toUInt64 ≠ 0
  let length := 16 + (foreground.toNat + font.toNat) * 4
  let p := write32 (write32 (requestHead Opcode.createGc 0 length id) 8 drawable) 12
    valueMask.toUInt32
  let p := if foreground then write32 p 16 values.foreground.toUInt32 else p
  ⟨length, if font then write32 p (16 + foreground.toNat * 4) values.font else p⟩

/-- `XCreateGC` takes the first free slot, whose other fields stay as they are; `sent` is whether the
request is taken. -/
def xCreateGC (c : Contexts) (drawable : UInt32) (valueMask : UInt64) (values : XGCValues)
    (sent : Bool) : Option ℕ × Contexts × List Message :=
  match (List.range gcSlots).find? fun i => !(c.slots i).used with
  | none => (none, c, [])
  | some i =>
    if valueMask &&& ~~~(gcForeground ||| gcFont).toUInt64 ≠ 0 ∨ c.resourceMask < c.nextResource then
      (none, c, [])
    else
      let id := c.resourceBase ||| c.nextResource
      let gc := { c.slots i with id := id, drawable := drawable, used := sent }
      (if sent then some i else none,
        { c.setSlot i gc with nextResource := c.nextResource + 1 },
        if sent then [createMessage id drawable valueMask values] else [])

/-- `XFreeGC`: only the flag of the slot changes. -/
def xFreeGC (c : Contexts) (i : ℕ) (sent : Bool) : Bool × Contexts × List Message :=
  if !(c.slots i).used || !sent then (false, c, [])
  else (true, c.setSlot i { c.slots i with used := false },
    [⟨8, requestHead Opcode.freeGc 0 8 (c.slots i).id⟩])

/-- `XSetClipRectangles` takes at most one rectangle; none is no clip. -/
def xSetClipRectangles (c : Contexts) (i : ℕ) (clipXOrigin clipYOrigin : Int32)
    (rectangles : List XRectangle) (ordering : Int32) : Bool × Contexts :=
  if !(c.slots i).used ∨ ordering ≠ 0 then (false, c)
  else match rectangles with
    | [] => (true, c.setSlot i { c.slots i with clipEnabled := false })
    | [r] => (true, c.setSlot i { c.slots i with
        clipEnabled := true
        clipX := clipXOrigin.toInt + r.x.toInt
        clipY := clipYOrigin.toInt + r.y.toInt
        clipWidth := r.width.toNat
        clipHeight := r.height.toNat })
    | _ => (false, c)

end Contexts

/-! ## Rectangles -/

/-- The area cut to the clip of the context; nothing where none of it is left. -/
def GC.clip (gc : GC) (a : Area) : Option Area :=
  if gc.clipEnabled then
    let left := max a.x gc.clipX
    let top := max a.y gc.clipY
    let right := min (a.x + a.width) (gc.clipX + gc.clipWidth)
    let bottom := min (a.y + a.height) (gc.clipY + gc.clipHeight)
    if right ≤ left ∨ bottom ≤ top then none
    else some ⟨left, top, (right - left).toNat, (bottom - top).toNat⟩
  else some a

def writeRectangle (p : ℕ → UInt8) (a : ℕ) (r : XRectangle) : ℕ → UInt8 :=
  write16 (write16 (write16 (write16 p a r.x.toUInt16) (a + 2) r.y.toUInt16) (a + 4) r.width)
    (a + 6) r.height

/-- A `PolyFillRectangle`. -/
def fillMessage (drawable id : UInt32) (rectangles : List XRectangle) : Message :=
  let length := 12 + rectangles.length * 8
  ⟨length, rectangles.zipIdx.foldl (fun p r => writeRectangle p (12 + r.2 * 8) r.1)
    (write32 (requestHead Opcode.polyFillRectangle 0 length drawable) 8 id)⟩

/-- The position and the size as they are sent. -/
def Area.sent (a : Area) : XRectangle :=
  ⟨Int16.ofInt a.x, Int16.ofInt a.y, UInt16.ofNat a.width, UInt16.ofNat a.height⟩

def xFillRectangle (gc : GC) (drawable : UInt32) (a : Area) : Drawn :=
  if !gc.used ∨ 65535 < a.width ∨ 65535 < a.height then .refused
  else match gc.clip a with
    | none => .nothing
    | some a => .sends (fillMessage drawable gc.id [a.sent])

def xFillRectangles (gc : GC) (drawable : UInt32) (rectangles : List XRectangle) : Drawn :=
  if !gc.used ∨ rectangles = [] ∨ (messageBytes - 12) / 8 < rectangles.length then .refused
  else .sends (fillMessage drawable gc.id rectangles)

def dot (x y : ℤ) : Area := ⟨x, y, 1, 1⟩

def xDrawRectangle (gc : GC) (drawable : UInt32) (x y : ℤ) (width height : ℕ) : Drawn :=
  if width = 0 ∨ height = 0 then .nothing
  else Drawn.forAll (xFillRectangle gc drawable) ([⟨x, y, width, 1⟩, ⟨x, y, 1, height⟩]
    ++ (if 1 < height then [⟨x, y + height - 1, width, 1⟩] else [])
    ++ (if width ≤ 1 then [] else [⟨x + width - 1, y, 1, height⟩]))

/-! ## Lines -/

/-- The dots of the loop of `XDrawLine` in so many turns. -/
def lineDots (dx dy sx sy x2 y2 : ℤ) : ℕ → ℤ → ℤ → ℤ → List Area
  | 0, _, _, _ => []
  | turns + 1, x, y, error =>
    dot x y :: if x = x2 ∧ y = y2 then []
      else
        let right : Bool := dy ≤ error * 2
        let down : Bool := error * 2 ≤ dx
        lineDots dx dy sx sy x2 y2 turns (if right then x + sx else x) (if down then y + sy else y)
          (error + (if right then dy else 0) + (if down then dx else 0))

/-- `XDrawLine`, whose turns each go a step at least in one direction. -/
def xDrawLine (gc : GC) (drawable : UInt32) (x1 y1 x2 y2 : ℤ) : Drawn :=
  let dx : ℤ := (x2 - x1).natAbs
  let dy : ℤ := -(y2 - y1).natAbs
  Drawn.forAll (xFillRectangle gc drawable) (lineDots dx dy (if x1 < x2 then 1 else -1)
    (if y1 < y2 then 1 else -1) x2 y2 ((x2 - x1).natAbs + (y2 - y1).natAbs + 1) x1 y1 (dx + dy))

inductive CoordMode where
  | origin | previous
  deriving DecidableEq

/-- The loop of `XDrawLines` from a point on. -/
def drawLines (gc : GC) (drawable : UInt32) (mode : CoordMode) : ℤ → ℤ → List XPoint → Drawn
  | _, _, [] => .nothing
  | x, y, p :: ps =>
    let nextX := p.x.toInt + if mode = .previous then x else 0
    let nextY := p.y.toInt + if mode = .previous then y else 0
    (xDrawLine gc drawable x y nextX nextY).andThen (drawLines gc drawable mode nextX nextY ps)

def xDrawLines (gc : GC) (drawable : UInt32) (points : List XPoint) (mode : CoordMode) : Drawn :=
  match points with
  | p :: q :: ps => drawLines gc drawable mode p.x.toInt p.y.toInt (q :: ps)
  | _ => .refused

/-! ## Arcs -/

/-- The `while` loop of the arcs from `p` on: the last `p` for which `p² a²` is at most
`remain * b²`. -/
def arcReach (a b remain : ℤ) : ℕ → ℤ → Option ℤ
  | 0, _ => none
  | turns + 1, p =>
    match product 64 [p + 1, p + 1, a, a], product 64 [remain, b, b] with
    | some reach, some limit => if reach ≤ limit then arcReach a b remain turns (p + 1) else some p
    | _, _ => none

/-- `remain` for a row or column of an arc. -/
def arcRemain (r p : ℤ) : Option ℤ := do
  checked 64 ((← product 64 [r, r]) - (← product 64 [p, p]))

/-- How far the ellipse goes to both sides in the row or column `p` from its center. -/
def arcHalf (r other p : ℤ) : Option ℤ := do
  arcReach r other (← arcRemain r p) (other.toNat + 2) 0

def fullCircle : Int32 := 360 * 64

/-- `(int)size / 2`. -/
def radius (size : UInt32) : ℤ := size.toInt32.toInt.tdiv 2

/-- `-r, …, r`. -/
def across (r : ℤ) : List ℤ := (List.range (2 * r + 1).toNat).map fun k : ℕ => (k : ℤ) - r

def xDrawArc (gc : GC) (drawable : UInt32) (x y : ℤ) (width height : UInt32)
    (angle1 angle2 : Int32) : Drawn :=
  if angle1 ≠ 0 ∨ angle2 ≠ fullCircle ∨ width < 2 ∨ height < 2 then .refused
  else
    let rx := radius width
    let ry := radius height
    Drawn.forAll (fun px => match arcHalf rx ry px with
      | none => .undefined
      | some py => Drawn.forAll (xFillRectangle gc drawable)
        [dot (x + rx + px) (y + ry - py), dot (x + rx + px) (y + ry + py)]) (across rx)

/-- What `XFillArc` passes to `XFillRectangle` for one row. -/
def arcSpan (x y rx ry py : ℤ) : Option Area :=
  (arcHalf ry rx py).map fun px => ⟨x + rx - px, y + ry + py, (px * 2 + 1).toNat, 1⟩

def xFillArc (gc : GC) (drawable : UInt32) (x y : ℤ) (width height : UInt32)
    (angle1 angle2 : Int32) : Drawn :=
  if angle1 ≠ 0 ∨ angle2 ≠ fullCircle ∨ width < 2 ∨ height < 2 then .refused
  else Drawn.forAll (fun py => match arcSpan x y (radius width) (radius height) py with
    | none => .undefined
    | some a => xFillRectangle gc drawable a) (across (radius height))

/-! ## Polygons -/

structure Corner where
  x : ℤ
  y : ℤ
  deriving DecidableEq

/-- Where the edge from `a` to `b` meets a row: nothing where it does not. -/
def intersection (scan : ℤ) (a b : Corner) : Option (Option ℤ) :=
  if (scan < a.y ↔ scan < b.y) ∨ a.y = b.y then some none
  else (checked 32 ((scan - a.y) * (b.x - a.x))).map fun p => some (a.x + p.tdiv (b.y - a.y))

/-- The row of a triangle, where two edges meet it. -/
def triangleSpan (scan : ℤ) (a b c : Corner) : Option (Option Area) := do
  let found := [← intersection scan a b, ← intersection scan b c, ← intersection scan c a]
  match found.filterMap id with
  | [p, q] => some (some ⟨min p q, scan, (max p q - min p q + 1).toNat, 1⟩)
  | _ => some none

def fillTriangle (gc : GC) (drawable : UInt32) (a b c : Corner) : Drawn :=
  let top := min (min a.y b.y) c.y
  let bottom := max (max a.y b.y) c.y
  Drawn.forAll (fun row : ℕ => match triangleSpan (top + row) a b c with
    | none => .undefined
    | some none => .nothing
    | some (some area) => xFillRectangle gc drawable area) (List.range (bottom - top + 1).toNat)

/-- The corners `XFillPolygon` takes for two points after the first. -/
def fanCorners (mode : CoordMode) (origin : Corner) (p q : XPoint) : Corner × Corner :=
  match mode with
  | .origin => (⟨p.x.toInt, p.y.toInt⟩, ⟨q.x.toInt, q.y.toInt⟩)
  | .previous =>
    let first : Corner := ⟨p.x.toInt + origin.x, p.y.toInt + origin.y⟩
    (first, ⟨q.x.toInt + first.x, q.y.toInt + first.y⟩)

def fillFan (gc : GC) (drawable : UInt32) (mode : CoordMode) (origin : Corner) :
    List XPoint → Drawn
  | p :: q :: ps =>
    let corners := fanCorners mode origin p q
    (fillTriangle gc drawable origin corners.1 corners.2).andThen
      (fillFan gc drawable mode origin (q :: ps))
  | _ => .nothing

def xFillPolygon (gc : GC) (drawable : UInt32) (points : List XPoint) (mode : CoordMode) : Drawn :=
  match points with
  | p :: q :: r :: ps => fillFan gc drawable mode ⟨p.x.toInt, p.y.toInt⟩ (q :: r :: ps)
  | _ => .refused

/-! ## Copies, images and texts -/

def xCopyArea (gc : GC) (source destination : UInt32) (sourceX sourceY : Int32)
    (width height : UInt32) (destinationX destinationY : Int32) : Drawn :=
  if !gc.used ∨ width = 0 ∨ height = 0 ∨ 65535 < width ∨ 65535 < height then .refused
  else
    let p := write32 (write32 (requestHead Opcode.copyArea 0 28 source) 8 destination) 12 gc.id
    let p := write16 (write16 p 16 (UInt16.ofInt sourceX.toInt)) 18 (UInt16.ofInt sourceY.toInt)
    let p := write16 (write16 p 20 (UInt16.ofInt destinationX.toInt)) 22
      (UInt16.ofInt destinationY.toInt)
    .sends ⟨28, write16 (write16 p 24 width.toUInt16) 26 height.toUInt16⟩

def zPixmap : UInt8 := 2

/-- The parts of a row of an image, first column and length, none longer than a request takes. -/
def imageParts (most width : ℕ) : ℕ → ℕ → List (ℕ × ℕ)
  | 0, _ => []
  | turns + 1, column =>
    if width ≤ column then []
    else (column, min (width - column) most) ::
      imageParts most width turns (column + min (width - column) most)

/-- The most pixels one `PutImage` takes. -/
def maxPixels : ℕ := (messageBytes - 24) / 4

/-- The `PutImage` of one part of a row. -/
def imageMessage (gc : GC) (drawable : UInt32) (image : XImage) (srcX srcY destX destY : Int32)
    (row column count : ℕ) : Message :=
  let length := 24 + count * 4
  let p := write32 (requestHead Opcode.putImage zPixmap length drawable) 8 gc.id
  let p := write16 (write16 p 12 (UInt16.ofNat count)) 14 1
  let p := write16 (write16 p 16 (UInt16.ofInt (destX.toInt + column))) 18
    (UInt16.ofInt (destY.toInt + row))
  let source := (srcY.toInt + row) * image.bytesPerLine + (srcX.toInt + column) * 4
  ⟨length, copyBytes (write8 (write8 p 20 0) 21 32) 24 (fun k => image.data (source + k))
    (count * 4)⟩

def xPutImage (gc : GC) (drawable : UInt32) (image : XImage) (srcX srcY destX destY : Int32)
    (width height : UInt32) : Drawn :=
  if !gc.used ∨ image.format ≠ zPixmap.toUInt32.toInt32 ∨ image.bitsPerPixel ≠ 32 ∨ srcX < 0
      ∨ srcY < 0 ∨ width = 0 ∨ height = 0
      ∨ image.width.toUInt32 < srcX.toUInt32 + width
      ∨ image.height.toUInt32 < srcY.toUInt32 + height then .refused
  else Drawn.forAll (fun row => Drawn.forAll
    (fun part : ℕ × ℕ => .sends (imageMessage gc drawable image srcX srcY destX destY row part.1
      part.2)) (imageParts maxPixels width.toNat width.toNat 0)) (List.range height.toNat)

def textHead (opcode : UInt8) (length : ℕ) (gc : GC) (drawable : UInt32) (x y : Int32)
    (count : ℕ) : ℕ → UInt8 :=
  let p := write32 (requestHead opcode 0 length drawable) 8 gc.id
  write8 (write16 (write16 p 12 (UInt16.ofInt x.toInt)) 14 (UInt16.ofInt y.toInt)) 16
    (UInt8.ofNat count)

def xDrawString (gc : GC) (drawable : UInt32) (x y : Int32) (text : List UInt8) : Drawn :=
  if !gc.used ∨ 240 < text.length then .refused
  else
    let length := padded (17 + text.length)
    .sends ⟨length, copyBytes (textHead Opcode.polyText8 length gc drawable x y text.length) 17
      (fun k => text.getD k 0) text.length⟩

def demonxDrawStringScaled (gc : GC) (drawable : UInt32) (x y : Int32) (text : List UInt8)
    (scale : UInt8) : Drawn :=
  if !gc.used ∨ 240 < text.length then .refused
  else
    let length := padded (18 + text.length)
    let head := textHead Opcode.polyText8Scaled length gc drawable x y text.length
    .sends ⟨length, copyBytes (write8 head 17 scale) 18 (fun k => text.getD k 0) text.length⟩

end DemonX

end DemonOS
