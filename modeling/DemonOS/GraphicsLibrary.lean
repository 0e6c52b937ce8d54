import DemonOS.Framebuffer

/-!
# The graphics library

The rectangles and lines of `libs/graphics/graphics.c`, on a surface whose pixels are a function of
their index. Edges are summed as `int64_t` where the source does; what is an `int32_t` is wrapped.
-/

namespace DemonOS

/-- `struct graphics_rect`, which has the fields of `struct framebuffer_rect`. -/
abbrev GraphicsRect := FramebufferRect

/-- The common part of two rectangles. -/
def GraphicsRect.intersect (a b : GraphicsRect) : Option GraphicsRect :=
  let left := if b.x < a.x then a.x else b.x
  let top := if b.y < a.y then a.y else b.y
  let ar := a.x + a.width
  let br := b.x + b.width
  let ab := a.y + a.height
  let bb := b.y + b.height
  let right := if ar < br then ar else br
  let bottom := if ab < bb then ab else bb
  if a.width ≤ 0 ∨ a.height ≤ 0 ∨ b.width ≤ 0 ∨ b.height ≤ 0 ∨ right ≤ left ∨ bottom ≤ top then
    none
  else some ⟨int32 left, int32 top, int32 (right - left), int32 (bottom - top)⟩

structure GraphicsSurface where
  pixels : ℕ → UInt32
  width : ℕ
  height : ℕ
  stride : ℕ
  clip : GraphicsRect
  damage : GraphicsRect
  dirty : Bool

namespace GraphicsSurface

/-- `damage`. -/
def addDamage (s : GraphicsSurface) (rect : GraphicsRect) : GraphicsSurface :=
  match GraphicsRect.intersect rect ⟨0, 0, int32 s.width, int32 s.height⟩ with
  | none => s
  | some rect =>
    if s.dirty = false then { s with damage := rect, dirty := true }
    else
      let left := if rect.x < s.damage.x then rect.x else s.damage.x
      let top := if rect.y < s.damage.y then rect.y else s.damage.y
      let right0 := int32 (rect.x + rect.width)
      let right1 := int32 (s.damage.x + s.damage.width)
      let bottom0 := int32 (rect.y + rect.height)
      let bottom1 := int32 (s.damage.y + s.damage.height)
      let right := if right1 < right0 then right0 else right1
      let bottom := if bottom1 < bottom0 then bottom0 else bottom1
      { s with damage := ⟨left, top, int32 (right - left), int32 (bottom - top)⟩ }

/-- A colour of `blend`, whose byte begins at bit `shift`. -/
def blendByte (dst src a shift : UInt32) : UInt32 :=
  (((src >>> shift) &&& 255) * a + ((dst >>> shift) &&& 255) * (255 - a) + 127) / 255

def blend (dst src : UInt32) : UInt32 :=
  let a := src >>> 24
  if a = 255 then src
  else if a = 0 then dst
  else
    (0xFF000000 : UInt32) ||| blendByte dst src a 16 <<< 16 ||| blendByte dst src a 8 <<< 8
      ||| blendByte dst src a 0

/-- A pixel of the loop of `graphics_line`. -/
def linePixel (argb : UInt32) (s : GraphicsSurface) (p : ℤ × ℤ) : GraphicsSurface :=
  if s.clip.x ≤ p.1 ∧ s.clip.y ≤ p.2 ∧ p.1 < int32 (s.clip.x + s.clip.width)
      ∧ p.2 < int32 (s.clip.y + s.clip.height) then
    let index := (p.2 * s.stride + p.1).toNat
    { s with pixels := Function.update s.pixels index (blend (s.pixels index) argb) }
  else s

/-- Rounds of the loop of `graphics_line`, of which it makes as many as it takes to the end. -/
def lineLoop (x1 y1 dx sx dy sy : ℤ) (argb : UInt32) :
    ℕ → ℤ → ℤ → ℤ → GraphicsSurface → GraphicsSurface
  | 0, _, _, _, s => s
  | rounds + 1, x0, y0, error, s =>
    let s := s.linePixel argb (x0, y0)
    if x0 = x1 ∧ y0 = y1 then s
    else
      let twice := int32 (error * 2)
      let (error, x0) := if dy ≤ twice then (int32 (error + dy), int32 (x0 + sx)) else (error, x0)
      let (error, y0) := if twice ≤ dx then (int32 (error + dx), int32 (y0 + sy)) else (error, y0)
      lineLoop x1 y1 dx sx dy sy argb rounds x0 y0 error s

def graphicsLine (s : GraphicsSurface) (rounds : ℕ) (x0 y0 x1 y1 : ℤ) (argb : UInt32) :
    GraphicsSurface :=
  let dx := if x0 < x1 then int32 (x1 - x0) else int32 (x0 - x1)
  let sx := if x0 < x1 then 1 else -1
  let ay := if y0 < y1 then int32 (y1 - y0) else int32 (y0 - y1)
  let dy := int32 (-ay)
  let sy := if y0 < y1 then 1 else -1
  let s := lineLoop x1 y1 dx sx dy sy argb rounds x0 y0 (int32 (dx + dy)) s
  let left := if x0 < x1 then x0 else x1
  let top := if y0 < y1 then y0 else y1
  let right := if x1 < x0 then x0 else x1
  let bottom := if y1 < y0 then y0 else y1
  s.addDamage ⟨left, top, int32 (right - left + 1), int32 (bottom - top + 1)⟩

end GraphicsSurface

end DemonOS
