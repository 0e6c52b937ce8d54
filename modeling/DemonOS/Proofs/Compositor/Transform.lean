import DemonOS.Compositor.Paint

/-!
# One transform for rendering and input

A surface is fitted into its window: its place lies inside the window and has a pixel at least
(`contentRect_inside`). `client_point` maps the points of that place, and no others, back into the
surface, and the pixel it names is the one that is painted there, whether the surface is copied or
scaled (`transform_shared`). The coordinates are an `i32`, so this holds of surfaces of up to
`2 ^ 31` pixels in either direction, far above those the compositor takes.
-/

namespace DemonOS

namespace Compositor

namespace Window

structure OnScreen (w : Window) : Prop where
  width_pos : 1 ≤ w.width
  height_pos : 1 ≤ w.height
  right : w.x + w.width ≤ screenWidth
  bottom : w.y + w.height ≤ screenHeight

def contentX (w : Window) : ℕ := w.contentRect.1
def contentY (w : Window) : ℕ := w.contentRect.2.1
def contentWidth (w : Window) : ℕ := w.contentRect.2.2.1
def contentHeight (w : Window) : ℕ := w.contentRect.2.2.2

/-- The place of the surface, at the middle of the window. -/
structure ContentInside (w : Window) : Prop where
  width_pos : 1 ≤ w.contentWidth
  height_pos : 1 ≤ w.contentHeight
  left : w.x ≤ w.contentX
  right : w.contentX + w.contentWidth ≤ w.x + w.width
  top : w.y ≤ w.contentY
  bottom : w.contentY + w.contentHeight ≤ w.y + w.height

theorem centred {position extent inner : ℕ} (hinner : inner ≤ extent)
    (hend : position + extent < 2 ^ 32) :
    position ≤ add32 position (sub32 extent inner / 2)
      ∧ add32 position (sub32 extent inner / 2) + inner ≤ position + extent := by
  have hsub : sub32 extent inner = extent - inner := by
    unfold sub32
    omega
  have hadd : add32 position ((extent - inner) / 2) = position + (extent - inner) / 2 := by
    unfold add32
    omega
  rw [hsub, hadd]
  omega

theorem fitted_le {width height surfaceWidth surfaceHeight : ℕ} (hs : 0 < surfaceWidth)
    (hh : 0 < surfaceHeight)
    (hover : height < width * surfaceHeight / surfaceWidth % 2 ^ 32) :
    height * surfaceWidth / surfaceHeight % 2 ^ 32 ≤ width := by
  have hquotient : height < width * surfaceHeight / surfaceWidth :=
    hover.trans_le (Nat.mod_le _ _)
  have hmul : height * surfaceWidth ≤ width * surfaceHeight :=
    (Nat.le_div_iff_mul_le hs).1 hquotient.le
  calc height * surfaceWidth / surfaceHeight % 2 ^ 32
      ≤ height * surfaceWidth / surfaceHeight := Nat.mod_le _ _
    _ ≤ width * surfaceHeight / surfaceHeight := Nat.div_le_div_right hmul
    _ = width := Nat.mul_div_cancel _ hh

theorem contentRect_inside {w : Window} (hw : w.OnScreen) (hs : 0 < w.surfaceWidth)
    (hh : 0 < w.surfaceHeight) : w.ContentInside := by
  obtain ⟨hwidth, hheight, hright, hbottom⟩ := hw
  unfold screenWidth at hright
  unfold screenHeight at hbottom
  have hnot : ¬(w.surfaceWidth = 0 ∨ w.surfaceHeight = 0 ∨ w.width = 0 ∨ w.height = 0) := by omega
  -- the extents before they are raised to 1
  have hextents : ∃ width height, width ≤ w.width ∧ height ≤ w.height
      ∧ w.contentRect = (add32 w.x (sub32 w.width (max width 1) / 2),
        add32 w.y (sub32 w.height (max height 1) / 2), max width 1, max height 1) := by
    unfold contentRect
    rw [if_neg hnot]
    by_cases hover : w.height < w.width * w.surfaceHeight / w.surfaceWidth % 2 ^ 32
    · exact ⟨_, w.height, fitted_le hs hh hover, le_rfl, by simp only [if_pos hover]⟩
    · exact ⟨w.width, _, le_rfl, not_lt.1 hover, by simp only [if_neg hover]⟩
  obtain ⟨width, height, hw', hh', hrect⟩ := hextents
  have hx := @centred w.x w.width (max width 1) (by omega)
    (by omega)
  have hy := @centred w.y w.height (max height 1) (by omega)
    (by omega)
  constructor <;> simp only [contentX, contentY, contentWidth, contentHeight, hrect]
  · exact Nat.le_max_right _ _
  · exact Nat.le_max_right _ _
  · exact hx.1
  · exact hx.2
  · exact hy.1
  · exact hy.2

/-- The point is in the place of the surface. -/
def InContent (w : Window) (x y : ℕ) : Prop :=
  w.contentX ≤ x ∧ x < w.contentX + w.contentWidth
    ∧ w.contentY ≤ y ∧ y < w.contentY + w.contentHeight

/-- The column and the row of the surface that belong to a point. -/
def sourceX (w : Window) (x : ℕ) : ℕ := (x - w.contentX) * w.surfaceWidth / w.contentWidth
def sourceY (w : Window) (y : ℕ) : ℕ := (y - w.contentY) * w.surfaceHeight / w.contentHeight

theorem scaled_lt {offset extent source : ℕ} (ho : offset < extent) (hs : 0 < source) :
    offset * source / extent < source :=
  (Nat.div_lt_iff_lt_mul (by omega)).2 (by
    rw [Nat.mul_comm source]
    exact Nat.mul_lt_mul_of_pos_right ho hs)

theorem clientPoint_eq {w : Window} (hw : w.OnScreen) (hs : 0 < w.surfaceWidth)
    (hh : 0 < w.surfaceHeight) {x y : ℕ} {p : ℤ × ℤ} :
    w.clientPoint x y = some p
      ↔ w.InContent x y ∧ p = (i32 (w.sourceX x), i32 (w.sourceY y)) := by
  have hin := contentRect_inside hw hs hh
  have hright := hin.right.trans hw.right
  have hbottom := hin.bottom.trans hw.bottom
  unfold screenWidth at hright
  unfold screenHeight at hbottom
  have hx : add32 w.contentX w.contentWidth = w.contentX + w.contentWidth := by
    unfold add32
    omega
  have hy : add32 w.contentY w.contentHeight = w.contentY + w.contentHeight := by
    unfold add32
    omega
  change (if x < w.contentX ∨ y < w.contentY ∨ add32 w.contentX w.contentWidth ≤ x
      ∨ add32 w.contentY w.contentHeight ≤ y then none
    else some (i32 (w.sourceX x), i32 (w.sourceY y))) = some p ↔ _
  rw [hx, hy]
  unfold InContent
  split_ifs with hout
  · simp only [false_iff, not_and]
    omega
  · rw [Option.some.injEq]
    exact ⟨fun h => ⟨by omega, h.symm⟩, fun h => h.2.symm⟩

theorem i32_of_lt {n : ℕ} (h : n < 2 ^ 31) : i32 n = n := by
  unfold i32
  omega

end Window

open Window

/-! ## The two ways to draw a surface -/

section Surface

variable {w : Window} (hw : w.OnScreen) (hs : 0 < w.surfaceWidth) (hh : 0 < w.surfaceHeight)

include hw hs hh

theorem copySurface_eq (hwidth : w.contentWidth = w.surfaceWidth)
    (hheight : w.contentHeight = w.surfaceHeight) (frame : Frame) (source : ℕ → UInt32) :
    copySurface frame w source = some (Raster.block screenWidth w.contentX w.contentY
      w.contentWidth w.contentHeight (fun i j => source (j * w.surfaceWidth + i)) frame) := by
  have hin := contentRect_inside hw hs hh
  have hright := hin.right.trans hw.right
  have hbottom := hin.bottom.trans hw.bottom
  refine Raster.loop_rows (x := w.contentX) (y := w.contentY) hright
    fun r hr f => ?_
  change r < w.contentHeight at hr
  have hsource : r * w.surfaceWidth + w.contentWidth ≤ w.surfaceWidth * w.surfaceHeight := by
    rw [hwidth, ← Nat.succ_mul, Nat.mul_comm]
    exact Nat.mul_le_mul_left _ (by omega)
  have hframe := Raster.row_le hright
    (show w.contentY + r < screenHeight by omega)
  change (if r * w.surfaceWidth + w.contentWidth ≤ w.surfaceWidth * w.surfaceHeight then
    Raster.span framePixels f ((w.contentY + r) * screenWidth + w.contentX) w.contentWidth
      fun i => source (r * w.surfaceWidth + i) else none) = _
  rw [if_pos hsource]
  exact Raster.span_of_le hframe

theorem scaleSurface_eq (frame : Frame) (source : ℕ → UInt32) :
    scaleSurface frame w source = some (Raster.block screenWidth w.contentX w.contentY
      w.contentWidth w.contentHeight (fun i j =>
        source (j * w.surfaceHeight / w.contentHeight * w.surfaceWidth
          + i * w.surfaceWidth / w.contentWidth)) frame) := by
  have hin := contentRect_inside hw hs hh
  have hright := hin.right.trans hw.right
  have hbottom := hin.bottom.trans hw.bottom
  refine Raster.loop_rows (x := w.contentX) (y := w.contentY) hright
    fun r hr f => ?_
  change r < w.contentHeight at hr
  have hadd : add32 w.contentY r = w.contentY + r := by
    unfold screenHeight at hbottom
    unfold add32
    omega
  have hframe := Raster.row_le hright
    (show w.contentY + r < screenHeight by omega)
  have hrow := scaled_lt hr hh
  refine Eq.trans (Raster.loop_congr fun i hi g => ?_)
    (Raster.loop_put (show _ ≤ framePixels from hframe))
  change i < w.contentWidth at hi
  have hcolumn := scaled_lt hi hs
  have hread : r * w.surfaceHeight / w.contentHeight * w.surfaceWidth
      + i * w.surfaceWidth / w.contentWidth < w.surfaceWidth * w.surfaceHeight := by
    have := Nat.mul_le_mul_right w.surfaceWidth (Nat.succ_le_of_lt hrow)
    rw [Nat.succ_mul, Nat.mul_comm w.surfaceHeight] at this
    omega
  change (readSource source (w.surfaceWidth * w.surfaceHeight)
    (r * w.surfaceHeight / w.contentHeight * w.surfaceWidth
      + i * w.surfaceWidth / w.contentWidth)).bind (fun pixel => Raster.put framePixels g
        (add32 w.contentY r * screenWidth + w.contentX + i) pixel) = _
  rw [readSource, if_pos hread, Option.bind_some, hadd]

theorem drawSurface_eq (frame : Frame) (source : ℕ → UInt32) :
    ∃ f, drawSurface frame w source = some f ∧ ∀ x y, w.InContent x y →
      f (y * screenWidth + x) = source (w.sourceY y * w.surfaceWidth + w.sourceX x) := by
  have hin := contentRect_inside hw hs hh
  have hright := hin.right.trans hw.right
  have hplace : ∀ (g : ℕ → ℕ → UInt32) (f : Frame) (x y : ℕ), w.InContent x y →
      Raster.block screenWidth w.contentX w.contentY w.contentWidth w.contentHeight g f
        (y * screenWidth + x) = g (x - w.contentX) (y - w.contentY) := by
    rintro g f x y ⟨hx, hx', hy, hy'⟩
    unfold Raster.block
    rw [Raster.index_mod (by omega), Raster.index_div (by omega), if_pos ⟨hx, hx', hy, hy'⟩]
  unfold drawSurface
  change ∃ f, (if w.contentWidth = w.surfaceWidth ∧ w.contentHeight = w.surfaceHeight then
    copySurface _ w source else scaleSurface _ w source) = some f ∧ _
  by_cases hsame : w.contentWidth = w.surfaceWidth ∧ w.contentHeight = w.surfaceHeight
  · obtain ⟨hwidth, hheight⟩ := hsame
    rw [if_pos ⟨hwidth, hheight⟩]
    refine ⟨_, copySurface_eq hw hs hh hwidth hheight _ source, fun x y hp => ?_⟩
    rw [hplace _ _ x y hp]
    -- unscaled, the quotients are the offsets themselves
    unfold sourceX sourceY
    rw [hwidth, hheight, Nat.mul_div_cancel _ hs, Nat.mul_div_cancel _ hh]
  · rw [if_neg hsame]
    exact ⟨_, scaleSurface_eq hw hs hh _ source, fun x y hp => hplace _ _ x y hp⟩

end Surface

/-- What rendering and input make of a window agree. -/
structure SharedTransform (w : Window) : Prop where
  inside : w.ContentInside
  point : ∀ x < screenWidth, ∀ y < screenHeight, (w.clientPoint x y).isSome ↔ w.InContent x y
  bounds : ∀ x < screenWidth, ∀ y < screenHeight, ∀ sx sy : ℤ, w.clientPoint x y = some (sx, sy) →
    0 ≤ sx ∧ sx < w.surfaceWidth ∧ 0 ≤ sy ∧ sy < w.surfaceHeight
  pixel : ∀ (frame : Frame) (source : ℕ → UInt32), ∃ f, drawSurface frame w source = some f ∧
    ∀ x < screenWidth, ∀ y < screenHeight, ∀ sx sy : ℤ, w.clientPoint x y = some (sx, sy) →
      f (y * screenWidth + x) = source (sy.toNat * w.surfaceWidth + sx.toNat)

/-- The surface's place lies in the window, the points of it are the ones that input maps into the
surface, and the pixel that input names is the one that is painted at the point. -/
theorem transform_shared (w : Window) (hw : w.OnScreen) (hs : 0 < w.surfaceWidth)
    (hh : 0 < w.surfaceHeight) (hs' : w.surfaceWidth ≤ 2 ^ 31) (hh' : w.surfaceHeight ≤ 2 ^ 31) :
    SharedTransform w := by
  have hpoint : ∀ {x y : ℕ} {sx sy : ℤ}, w.clientPoint x y = some (sx, sy) →
      w.InContent x y ∧ sx = w.sourceX x ∧ sy = w.sourceY y
        ∧ w.sourceX x < w.surfaceWidth ∧ w.sourceY y < w.surfaceHeight := by
    intro x y sx sy h
    obtain ⟨hp, heq⟩ := (clientPoint_eq hw hs hh).1 h
    obtain ⟨hx, hx', hy, hy'⟩ := hp
    have hsx : w.sourceX x < w.surfaceWidth := scaled_lt (by omega) hs
    have hsy : w.sourceY y < w.surfaceHeight := scaled_lt (by omega) hh
    rw [i32_of_lt (hsx.trans_le hs'), i32_of_lt (hsy.trans_le hh'), Prod.mk.injEq] at heq
    exact ⟨⟨hx, hx', hy, hy'⟩, heq.1, heq.2, hsx, hsy⟩
  refine ⟨contentRect_inside hw hs hh, fun x _ y _ => ?_, fun x _ y _ sx sy h => ?_,
    fun frame source => ?_⟩
  · constructor
    · intro h
      obtain ⟨p, hp⟩ := Option.isSome_iff_exists.1 h
      exact ((clientPoint_eq hw hs hh).1 hp).1
    · intro h
      rw [(clientPoint_eq hw hs hh).2 ⟨h, rfl⟩]
      rfl
  · obtain ⟨-, rfl, rfl, hsx, hsy⟩ := hpoint h
    omega
  · obtain ⟨f, hf, hpixel⟩ := drawSurface_eq hw hs hh frame source
    refine ⟨f, hf, fun x _ y _ sx sy h => ?_⟩
    obtain ⟨hp, rfl, rfl, -, -⟩ := hpoint h
    rw [Int.toNat_natCast, Int.toNat_natCast]
    exact hpixel x y hp

def widestSurface : Window :=
  { Window.empty with
    inUse := true, id := 1, width := 640, height := 480, surfaceWidth := 2 ^ 32 - 1
    surfaceHeight := 1 }

/-- Its rightmost point is mapped to a negative column. -/
theorem widest_surface_negative : widestSurface.OnScreen ∧ 0 < widestSurface.surfaceWidth
    ∧ 0 < widestSurface.surfaceHeight ∧ widestSurface.surfaceWidth < 2 ^ 32
    ∧ widestSurface.clientPoint 639 239 = some (-6710888, 0)
    ∧ ¬SharedTransform widestSurface := by
  have hpoint : widestSurface.clientPoint 639 239 = some (-6710888, 0) := by decide +kernel
  refine ⟨⟨by decide, by decide, by decide, by decide⟩, by decide, by decide, by decide, hpoint,
    fun h => ?_⟩
  have := (h.bounds 639 (by decide) 239 (by decide) _ _ hpoint).1
  omega

def scaledWindow : Window :=
  { Window.empty with
    inUse := true, id := 1, x := 40, y := 100, width := 200, height := 150, surfaceWidth := 640
    surfaceHeight := 480 }

theorem transform_shared_scaled : scaledWindow.OnScreen ∧ SharedTransform scaledWindow :=
  have hw : scaledWindow.OnScreen := ⟨by decide, by decide, by decide, by decide⟩
  ⟨hw, transform_shared scaledWindow hw (by decide) (by decide) (by decide) (by decide)⟩

end Compositor

end DemonOS
