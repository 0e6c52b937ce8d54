import DemonOS.Proofs.Framebuffer

/-!
# Blits of some of the rows

A picture drawn in two parts, the upper rows first and the rest below them, leaves the framebuffer
as one blit of the whole does, down to the damage (`framebufferBlit_rows`). A blit reads no pixel
but those of its rows (`framebufferBlit_congr`).
-/

namespace DemonOS

theorem int32_of_lt {n : ℕ} (h : n < 2 ^ 31) : int32 n = n := by
  unfold int32
  omega

theorem FramebufferRect.pixels_rows (x y width : ℤ) {first rest : ℤ} (hfirst : 0 ≤ first)
    (hrest : 0 ≤ rest) :
    pixels ⟨x, y, width, first + rest⟩
      = pixels ⟨x, y, width, first⟩ ++ pixels ⟨x, y + first, width, rest⟩ := by
  unfold pixels
  dsimp only
  rw [Int.toNat_add hfirst hrest, List.range_add, List.flatMap_append, List.flatMap_map]
  refine congrArg (_ ++ ·) (List.flatMap_congr fun row _ => List.map_congr_left fun column _ => ?_)
  rw [Prod.mk.injEq]
  omega

namespace FramebufferInfo

variable {info : FramebufferInfo}

theorem rectClip_of_nonneg {x y width height : ℤ} (hx : 0 ≤ x) (hy : 0 ≤ y) (hwidth : 0 < width)
    (hheight : 0 < height) :
    info.rectClip ⟨x, y, width, height⟩
      = if x < info.width ∧ y < info.height then
          some ⟨x, y, min (info.width : ℤ) (x + width) - x, min (info.height : ℤ) (y + height) - y⟩
        else none := by
  unfold rectClip
  dsimp only
  rw [if_neg (by omega)]
  by_cases hon : x < info.width ∧ y < info.height
  · rw [if_pos hon, if_neg (by omega), if_neg (by omega : ¬x < 0), if_neg (by omega : ¬y < 0)]
    rw [if_pos (by split_ifs <;> omega)]
    simp only [Option.some.injEq, FramebufferRect.mk.injEq, true_and]
    split_ifs <;> omega
  · rw [if_neg hon, if_pos (by omega)]

end FramebufferInfo

namespace Framebuffer

variable {fb : Framebuffer}

def around (rect other : FramebufferRect) : FramebufferRect :=
  let left := min rect.x other.x
  let top := min rect.y other.y
  ⟨left, top, max (rect.x + rect.width) (other.x + other.width) - left,
    max (rect.y + rect.height) (other.y + other.height) - top⟩

theorem markDamage_of_clip {rect clipped : FramebufferRect}
    (h : fb.info.rectClip rect = some clipped) :
    fb.markDamage rect = { fb with
      damage := if fb.dirty = false then clipped else around clipped fb.damage
      dirty := true } := by
  unfold markDamage
  rw [h]
  dsimp only
  by_cases hdirty : fb.dirty = false
  · rw [if_pos hdirty, if_pos hdirty]
  · rw [if_neg hdirty, if_neg hdirty]
    unfold around
    simp only [Framebuffer.mk.injEq, FramebufferRect.mk.injEq, true_and, and_true]
    refine ⟨by simpa using hdirty, ?_⟩
    split_ifs <;> omega

theorem markDamage_of_visible {x y width height : ℤ} (hx : 0 ≤ x) (hy : 0 ≤ y)
    (hwidth : 0 < width) (hheight : 0 < height) (hright : x + width ≤ fb.info.width)
    (hbottom : y + height ≤ fb.info.height) :
    fb.markDamage ⟨x, y, width, height⟩ = { fb with
      damage :=
        if fb.dirty = false then ⟨x, y, width, height⟩ else around ⟨x, y, width, height⟩ fb.damage
      dirty := true } := by
  refine markDamage_of_clip ?_
  rw [FramebufferInfo.rectClip_of_nonneg hx hy hwidth hheight, if_pos (by omega)]
  simp only [Option.some.injEq, FramebufferRect.mk.injEq, true_and]
  omega

theorem markDamage_rows {x y width first rest : ℤ} (hx : 0 ≤ x) (hy : 0 ≤ y) (hwidth : 0 < width)
    (hfirst : 0 < first) (hrest : 0 < rest) (hright : x + width ≤ fb.info.width)
    (hbottom : y + first + rest ≤ fb.info.height) :
    (fb.markDamage ⟨x, y, width, first⟩).markDamage ⟨x, y + first, width, rest⟩
      = fb.markDamage ⟨x, y, width, first + rest⟩ := by
  rw [markDamage_of_visible hx hy hwidth hfirst hright (by omega),
    markDamage_of_visible hx (by omega) hwidth hrest,
    markDamage_of_visible hx hy hwidth (by omega : 0 < first + rest)]
  · simp only [Framebuffer.mk.injEq, true_and, and_true, Bool.true_eq_false, if_false]
    unfold around
    split_ifs
    all_goals
      simp only [FramebufferRect.mk.injEq]
      omega
  all_goals omega

def paint (fb : Framebuffer) (backbuffer : ℕ → UInt32) : Framebuffer := { fb with backbuffer }

@[simp] theorem paint_info (fb : Framebuffer) (backbuffer : ℕ → UInt32) :
    (fb.paint backbuffer).info = fb.info := rfl

@[simp] theorem paint_enabled (fb : Framebuffer) (backbuffer : ℕ → UInt32) :
    (fb.paint backbuffer).enabled = fb.enabled := rfl

@[simp] theorem paint_dirty (fb : Framebuffer) (backbuffer : ℕ → UInt32) :
    (fb.paint backbuffer).dirty = fb.dirty := rfl

@[simp] theorem paint_backbuffer (fb : Framebuffer) (backbuffer : ℕ → UInt32) :
    (fb.paint backbuffer).backbuffer = backbuffer := rfl

@[simp] theorem paint_paint (fb : Framebuffer) (backbuffer backbuffer' : ℕ → UInt32) :
    (fb.paint backbuffer).paint backbuffer' = fb.paint backbuffer' := rfl

@[simp] theorem markDamage_info (fb : Framebuffer) (rect : FramebufferRect) :
    (fb.markDamage rect).info = fb.info := by
  obtain ⟨damage, dirty, heq⟩ := markDamage_eq fb rect
  rw [heq]

@[simp] theorem markDamage_enabled (fb : Framebuffer) (rect : FramebufferRect) :
    (fb.markDamage rect).enabled = fb.enabled := by
  obtain ⟨damage, dirty, heq⟩ := markDamage_eq fb rect
  rw [heq]

@[simp] theorem markDamage_backbuffer (fb : Framebuffer) (rect : FramebufferRect) :
    (fb.markDamage rect).backbuffer = fb.backbuffer := by
  obtain ⟨damage, dirty, heq⟩ := markDamage_eq fb rect
  rw [heq]

theorem paint_markDamage (fb : Framebuffer) (rect : FramebufferRect) (backbuffer : ℕ → UInt32) :
    (fb.markDamage rect).paint backbuffer = (fb.paint backbuffer).markDamage rect := by
  unfold markDamage
  rw [paint_info]
  rcases fb.info.rectClip rect with _ | clipped
  · rfl
  · dsimp only
    rw [paint_dirty]
    by_cases hdirty : fb.dirty = false
    · rw [if_pos hdirty, if_pos hdirty]
      rfl
    · rw [if_neg hdirty, if_neg hdirty]
      rfl

def blitRect (info : FramebufferInfo) (x y width height : ℕ) : FramebufferRect :=
  ⟨x, y, min (info.width : ℤ) (x + width) - x, min (info.height : ℤ) (y + height) - y⟩

theorem framebufferBlit_eq (fb : Framebuffer) (x y : ℕ) (pixels : ℕ → UInt32) {width height : ℕ}
    (henabled : fb.enabled = true) (hwidth : 0 < width) (hwidthMax : width < 2 ^ 31)
    (hheight : 0 < height) (hheightMax : height < 2 ^ 31) :
    fb.framebufferBlit x y (some pixels) width height width
      = if x < fb.info.width ∧ y < fb.info.height then
          (fb.paint ((blitRect fb.info x y width height).pixels.foldl
            (blitPixel fb.info x y pixels width) fb.backbuffer)).markDamage
              (blitRect fb.info x y width height)
        else fb := by
  unfold framebufferBlit
  dsimp only
  rw [if_neg (by simp [henabled]; omega), int32_of_lt hwidthMax, int32_of_lt hheightMax,
    FramebufferInfo.rectClip_of_nonneg (by omega) (by omega) (by omega) (by omega)]
  by_cases hon : x < fb.info.width ∧ y < fb.info.height
  · rw [if_pos (by omega), if_pos hon]
    rfl
  · rw [if_neg (by omega), if_neg hon]

section Rows

variable {info : FramebufferInfo} {x y width first rest : ℕ}

theorem blitRect_upper (h : y + first ≤ info.height) :
    blitRect info x y width first
      = ⟨x, y, min (info.width : ℤ) (x + width) - x, first⟩ := by
  unfold blitRect
  simp only [FramebufferRect.mk.injEq, true_and]
  omega

theorem blitRect_lower :
    blitRect info x (y + first) width rest
      = ⟨x, y + first, min (info.width : ℤ) (x + width) - x,
        min (info.height : ℤ) (y + first + rest) - (y + first)⟩ := by
  unfold blitRect
  simp

theorem blitRect_whole :
    blitRect info x y width (first + rest)
      = ⟨x, y, min (info.width : ℤ) (x + width) - x,
        first + (min (info.height : ℤ) (y + first + rest) - (y + first))⟩ := by
  unfold blitRect
  simp only [FramebufferRect.mk.injEq, true_and]
  omega

end Rows

theorem mem_blitRect {info : FramebufferInfo} {x y width height : ℕ} {p : ℤ × ℤ}
    (hp : p ∈ (blitRect info x y width height).pixels) :
    ∃ column row : ℕ, column < width ∧ row < height ∧ p.1 = x + column ∧ p.2 = y + row := by
  obtain ⟨px, py⟩ := p
  rw [FramebufferRect.mem_pixels] at hp
  obtain ⟨hleft, hright, htop, hbottom⟩ := hp
  unfold blitRect at hleft hright htop hbottom
  dsimp only at hleft hright htop hbottom ⊢
  exact ⟨(px - x).toNat, (py - y).toNat, by omega, by omega, by omega, by omega⟩

theorem blitPixel_eq (info : FramebufferInfo) {x y : ℤ} {column row : ℕ} {p : ℤ × ℤ}
    (hx : p.1 = x + column) (hy : p.2 = y + row) (hcolumn : column < 2 ^ 32)
    (hrow : row < 2 ^ 32) (pixels : ℕ → UInt32) (pitch : ℕ) (backbuffer : ℕ → UInt32) :
    blitPixel info x y pixels pitch backbuffer p
      = Function.update backbuffer (info.index p.1 p.2)
        (blend (backbuffer (info.index p.1 p.2)) (pixels (row * pitch + column))) := by
  have hcolumn' : ((p.1 - x) % 2 ^ 32).toNat = column := by omega
  have hrow' : ((p.2 - y) % 2 ^ 32).toNat = row := by omega
  unfold blitPixel
  rw [hcolumn', hrow']

/-- A blit reads nothing but the pixels of its rows. -/
theorem framebufferBlit_congr (fb : Framebuffer) (x y : ℕ) {pixels pixels' : ℕ → UInt32}
    {width height : ℕ} (henabled : fb.enabled = true) (hwidth : 0 < width)
    (hwidthMax : width < 2 ^ 31) (hheight : 0 < height) (hheightMax : height < 2 ^ 31)
    (h : ∀ i < width * height, pixels i = pixels' i) :
    fb.framebufferBlit x y (some pixels) width height width
      = fb.framebufferBlit x y (some pixels') width height width := by
  rw [framebufferBlit_eq fb x y pixels henabled hwidth hwidthMax hheight hheightMax,
    framebufferBlit_eq fb x y pixels' henabled hwidth hwidthMax hheight hheightMax,
    List.foldl_ext (blitPixel fb.info x y pixels width) (blitPixel fb.info x y pixels' width)]
  intro backbuffer p hp
  obtain ⟨column, row, hcolumn, hrow, hx, hy⟩ := mem_blitRect hp
  have hindex : row * width + column < width * height := by
    calc row * width + column < row * width + width := by omega
      _ = width * (row + 1) := by ring
      _ ≤ width * height := Nat.mul_le_mul_left _ hrow
  rw [blitPixel_eq fb.info hx hy (by omega) (by omega),
    blitPixel_eq fb.info hx hy (by omega) (by omega), h _ hindex]

/-- The upper rows and then those below them are the whole. -/
theorem framebufferBlit_rows (fb : Framebuffer) (x y : ℕ) (pixels : ℕ → UInt32)
    {width first rest : ℕ} (henabled : fb.enabled = true) (hwidth : 0 < width)
    (hwidthMax : width < 2 ^ 31) (hfirst : 0 < first) (hrest : 0 < rest)
    (hheightMax : first + rest < 2 ^ 31) :
    (fb.framebufferBlit x y (some pixels) width first width).framebufferBlit x (y + first : ℕ)
        (some fun i => pixels (first * width + i)) width rest width
      = fb.framebufferBlit x y (some pixels) width (first + rest) width := by
  rw [framebufferBlit_eq fb x y pixels henabled hwidth hwidthMax hfirst (by omega),
    framebufferBlit_eq fb x y pixels henabled hwidth hwidthMax (by omega) hheightMax]
  by_cases hon : x < fb.info.width ∧ y < fb.info.height
  · rw [if_pos hon, if_pos hon]
    rw [framebufferBlit_eq _ x (y + first) _ (by simpa using henabled) hwidth hwidthMax hrest
      (by omega)]
    simp only [markDamage_info, paint_info, markDamage_backbuffer, paint_backbuffer]
    by_cases hlower : y + first < fb.info.height
    · have hcolumns : 0 < min (fb.info.width : ℤ) (x + width) - x := by omega
      rw [if_pos ⟨hon.1, hlower⟩, paint_markDamage, paint_paint, blitRect_upper hlower.le,
        blitRect_lower, blitRect_whole,
        markDamage_rows (Int.natCast_nonneg x) (Int.natCast_nonneg y) hcolumns (by omega)
          (by omega) (by rw [paint_info]; omega) (by rw [paint_info]; omega),
        FramebufferRect.pixels_rows _ _ _ (by omega) (by omega), List.foldl_append,
        List.foldl_ext (blitPixel fb.info x (y + first : ℕ) (fun i => pixels (first * width + i))
          width) (blitPixel fb.info x y pixels width)]
      intro backbuffer p hp
      rw [← blitRect_lower] at hp
      obtain ⟨column, row, hcolumn, hrow, hpx, hpy⟩ := mem_blitRect hp
      rw [blitPixel_eq fb.info hpx hpy (by omega) (by omega),
        blitPixel_eq fb.info hpx (by push_cast at hpy ⊢; omega : p.2 = y + (first + row : ℕ))
          (by omega) (by omega), Nat.add_mul, Nat.add_assoc]
    · have hcovered : blitRect fb.info x y width (first + rest) = blitRect fb.info x y width first := by
        unfold blitRect
        simp only [FramebufferRect.mk.injEq, true_and]
        omega
      rw [if_neg (by omega), hcovered]
  · rw [if_neg hon, if_neg hon,
      framebufferBlit_eq fb x (y + first) _ henabled hwidth hwidthMax hrest (by omega),
      if_neg (by omega)]

end Framebuffer

end DemonOS
