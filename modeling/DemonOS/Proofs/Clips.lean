import DemonOS.Proofs.BlitRows
import DemonOS.Proofs.Lines

/-!
# Clipped rectangles

Both clippings give the common pixels of two rectangles (`rectClip_clips`, `intersect_clips`); a
filled rectangle and a copied image change just the pixels of theirs that are on the screen
(`fillRect_paints`, `blit_paints`).
-/

namespace DemonOS

/-- The fields are of type `int32_t`. -/
structure FramebufferRect.Int32 (rect : FramebufferRect) : Prop where
  place : Int32Point rect.x rect.y
  size : Int32Point rect.width rect.height

structure Clips (result : Option FramebufferRect) (inside : ℤ → ℤ → Prop) : Prop where
  nothing : result = none ↔ ∀ x y, ¬inside x y
  exactly : ∀ clipped, result = some clipped → clipped.Int32 ∧ ∀ x y,
    clipped.Contains x y ↔ inside x y

theorem rectClip_clips (info : FramebufferInfo) {rect : FramebufferRect} (h : rect.Int32) :
    Clips (info.rectClip rect) fun x y => rect.Contains x y ∧ info.Visible x y := by
  refine ⟨⟨fun hnone x y => FramebufferInfo.rectClip_none hnone, fun hall => ?_⟩,
    fun clipped hsome => ⟨?_, fun x y => FramebufferInfo.rectClip_some hsome⟩⟩
  · by_contra hsome
    obtain ⟨clipped, hsome⟩ := Option.ne_none_iff_exists'.1 hsome
    refine hall clipped.x clipped.y ((FramebufferInfo.rectClip_some hsome).1 ?_)
    unfold FramebufferInfo.rectClip at hsome
    dsimp only at hsome
    split_ifs at hsome <;> obtain rfl := Option.some.inj hsome <;>
      simp only [FramebufferRect.Contains] <;> omega
  · obtain ⟨hplace, hsize⟩ := h
    unfold Int32Point at hplace hsize
    unfold FramebufferInfo.rectClip at hsome
    dsimp only at hsome
    split_ifs at hsome <;> obtain rfl := Option.some.inj hsome <;>
      refine ⟨?_, ?_⟩ <;> unfold Int32Point <;> dsimp only <;> omega

theorem intersect_clips {a b : GraphicsRect} (ha : a.Int32) (hb : b.Int32) :
    Clips (a.intersect b) fun x y => a.Contains x y ∧ b.Contains x y := by
  obtain ⟨hplace, hsize⟩ := ha
  obtain ⟨hplace', hsize'⟩ := hb
  unfold Int32Point at hplace hsize hplace' hsize'
  unfold GraphicsRect.intersect
  dsimp only
  have hleft : (if b.x < a.x then a.x else b.x) = max a.x b.x := by split_ifs <;> omega
  have htop : (if b.y < a.y then a.y else b.y) = max a.y b.y := by split_ifs <;> omega
  have hright : (if a.x + a.width < b.x + b.width then a.x + a.width else b.x + b.width)
      = min (a.x + a.width) (b.x + b.width) := by split_ifs <;> omega
  have hbottom : (if a.y + a.height < b.y + b.height then a.y + a.height else b.y + b.height)
      = min (a.y + a.height) (b.y + b.height) := by split_ifs <;> omega
  rw [hleft, htop, hright, hbottom]
  simp only [FramebufferRect.Contains]
  split_ifs with hempty
  · refine ⟨iff_of_true rfl fun x y => by omega, ?_⟩
    rintro clipped ⟨⟩
  · rw [int32_self (by omega), int32_self (by omega), int32_self (by omega), int32_self (by omega)]
    refine ⟨iff_of_false (Option.some_ne_none _) fun hall =>
      hall (max a.x b.x) (max a.y b.y) (by omega), ?_⟩
    rintro clipped heq
    obtain rfl := Option.some.inj heq
    refine ⟨⟨?_, ?_⟩, fun x y => ?_⟩
    · unfold Int32Point
      dsimp only
      omega
    · unfold Int32Point
      dsimp only
      omega
    · unfold FramebufferRect.Contains
      dsimp only
      omega

/-! ## What is drawn -/

theorem FramebufferRect.nodup_pixels (rect : FramebufferRect) : rect.pixels.Nodup := by
  refine List.nodup_flatMap.2 ⟨fun row _ => ?_, List.nodup_range.imp fun {row row'} hne => ?_⟩
  · exact List.nodup_range.map fun i j hij => by simpa using hij
  · simp only [Function.onFun, List.disjoint_left, List.mem_map]
    rintro p ⟨column, -, rfl⟩ ⟨column', -, heq⟩
    exact hne (by simpa using (Prod.mk.inj heq).2.symm)

namespace FramebufferInfo

variable {info : FramebufferInfo} {turn : (ℕ → UInt32) → ℤ × ℤ → ℕ → UInt32}
  {new : ℤ × ℤ → UInt32 → UInt32}

theorem foldl_of_ne
    (hturn : ∀ b p, turn b p = Function.update b (info.index p.1 p.2) (new p (b (info.index p.1 p.2))))
    {i : ℕ} : ∀ {pixels : List (ℤ × ℤ)} (b : ℕ → UInt32),
      (∀ p ∈ pixels, info.index p.1 p.2 ≠ i) → pixels.foldl turn b i = b i
  | [], _, _ => rfl
  | p :: pixels, b, h => by
    rw [List.foldl_cons, foldl_of_ne hturn _ fun q hq => h q (List.mem_cons_of_mem _ hq), hturn,
      Function.update_of_ne (h p List.mem_cons_self).symm]

theorem foldl_of_mem
    (hturn : ∀ b p, turn b p = Function.update b (info.index p.1 p.2) (new p (b (info.index p.1 p.2))))
    {p : ℤ × ℤ} : ∀ {pixels : List (ℤ × ℤ)} (b : ℕ → UInt32), pixels.Nodup →
      (∀ p ∈ pixels, info.Visible p.1 p.2) → p ∈ pixels →
      pixels.foldl turn b (info.index p.1 p.2) = new p (b (info.index p.1 p.2))
  | q :: pixels, b, hnodup, hvisible, hmem => by
    obtain ⟨hq, hrest⟩ := List.nodup_cons.1 hnodup
    rw [List.foldl_cons]
    rcases List.mem_cons.1 hmem with rfl | hp
    · rw [foldl_of_ne hturn _ fun r hr heq => ?_, hturn, Function.update_self]
      obtain ⟨hx, hy⟩ := index_inj (hvisible r (List.mem_cons_of_mem _ hr)) (hvisible p hmem) heq
      exact hq (Prod.ext hx hy ▸ hr)
    · rw [foldl_of_mem hturn _ hrest (fun r hr => hvisible r (List.mem_cons_of_mem _ hr)) hp, hturn,
        Function.update_of_ne fun heq => ?_]
      obtain ⟨hx, hy⟩ := index_inj (hvisible p hmem) (hvisible q List.mem_cons_self) heq
      exact hq (Prod.ext hx hy ▸ hp)

end FramebufferInfo

namespace Framebuffer

variable {fb : Framebuffer}

/-- The visible pixels take these values, and no other memory of the backbuffer changes. -/
structure Paints (fb fb' : Framebuffer) (value : ℤ → ℤ → UInt32) : Prop where
  visible : ∀ x y, fb.info.Visible x y → fb'.backbuffer (fb.info.index x y) = value x y
  rest : ∀ i, (∀ x y, fb.info.Visible x y → fb.info.index x y ≠ i) →
    fb'.backbuffer i = fb.backbuffer i

/-- A loop over the clipped rectangle changes the pixels of the rectangle that are visible. -/
theorem foldl_paints {rect clipped : FramebufferRect} {turn : (ℕ → UInt32) → ℤ × ℤ → ℕ → UInt32}
    (new : ℤ × ℤ → UInt32 → UInt32) (hclip : fb.info.rectClip rect = some clipped)
    (hturn : ∀ b p, turn b p
      = Function.update b (fb.info.index p.1 p.2) (new p (b (fb.info.index p.1 p.2)))) :
    Paints fb ({ fb with backbuffer := clipped.pixels.foldl turn fb.backbuffer }.markDamage clipped)
      fun x y => if rect.Contains x y then new (x, y) (fb.backbuffer (fb.info.index x y))
        else fb.backbuffer (fb.info.index x y) := by
  have hall : ∀ p ∈ clipped.pixels, fb.info.Visible p.1 p.2 :=
    fun p hp => FramebufferInfo.rectClip_pixels hclip hp
  refine ⟨fun x y hvisible => ?_, fun i hi => ?_⟩ <;> rw [markDamage_backbuffer] <;> dsimp only
  · have hmem : (x, y) ∈ clipped.pixels ↔ rect.Contains x y := by
      rw [FramebufferRect.mem_pixels, FramebufferInfo.rectClip_some hclip, and_iff_left hvisible]
    split_ifs with hinside
    · exact FramebufferInfo.foldl_of_mem (p := (x, y)) hturn _ (FramebufferRect.nodup_pixels _)
        hall (hmem.2 hinside)
    · refine FramebufferInfo.foldl_of_ne hturn _ fun p hp heq => hinside (hmem.1 ?_)
      obtain ⟨rfl, rfl⟩ := FramebufferInfo.index_inj (hall p hp) hvisible heq
      exact hp
  · exact FramebufferInfo.foldl_of_ne hturn _ fun p hp => hi p.1 p.2 (hall p hp)

theorem nothing_paints {rect : FramebufferRect} (hclip : fb.info.rectClip rect = none)
    (new : ℤ × ℤ → UInt32 → UInt32) : Paints fb fb fun x y =>
      if rect.Contains x y then new (x, y) (fb.backbuffer (fb.info.index x y))
      else fb.backbuffer (fb.info.index x y) :=
  ⟨fun _ _ hvisible => (if_neg fun hinside =>
    FramebufferInfo.rectClip_none hclip ⟨hinside, hvisible⟩).symm, fun _ _ => rfl⟩

theorem fillRect_paints (henabled : fb.enabled = true) (rect : FramebufferRect) (argb : UInt32) :
    Paints fb (fb.framebufferFillRect rect argb) fun x y =>
      if rect.Contains x y then argb else fb.backbuffer (fb.info.index x y) := by
  unfold framebufferFillRect
  rw [if_neg (by simp [henabled])]
  rcases hclip : fb.info.rectClip rect with _ | clipped
  · exact nothing_paints hclip fun _ _ => argb
  · exact foldl_paints (fun _ _ => argb) hclip fun _ _ => rfl

variable {x y : ℤ} {width height sourcePitch : ℕ}

/-- The pixel of the image that belongs at a place on the screen. -/
def sourceIndex (x y : ℤ) (sourcePitch : ℕ) (p : ℤ × ℤ) : ℕ :=
  (p.2 - y).toNat * sourcePitch + (p.1 - x).toNat

theorem blitPixel_source {p : ℤ × ℤ} (hwidth : width < 2 ^ 31) (hheight : height < 2 ^ 31)
    (hp : (FramebufferRect.mk x y width height).Contains p.1 p.2) (pixels backbuffer : ℕ → UInt32) :
    blitPixel fb.info x y pixels sourcePitch backbuffer p
      = Function.update backbuffer (fb.info.index p.1 p.2)
        (blend (backbuffer (fb.info.index p.1 p.2)) (pixels (sourceIndex x y sourcePitch p))) := by
  unfold FramebufferRect.Contains at hp
  dsimp only at hp
  exact blitPixel_eq fb.info (by omega) (by omega) (by omega) (by omega) pixels sourcePitch backbuffer

theorem contains_of_clip {rect clipped : FramebufferRect}
    (hclip : fb.info.rectClip rect = some clipped) {p : ℤ × ℤ} (hp : p ∈ clipped.pixels) :
    rect.Contains p.1 p.2 :=
  ((FramebufferInfo.rectClip_some hclip).1 (FramebufferRect.mem_pixels.1 hp)).1

theorem blit_paints (henabled : fb.enabled = true) (hwidth : width < 2 ^ 31)
    (hheight : height < 2 ^ 31) (hpitch : width ≤ sourcePitch) (pixels : ℕ → UInt32) :
    Paints fb (fb.framebufferBlit x y (some pixels) width height sourcePitch) fun x' y' =>
      if (FramebufferRect.mk x y width height).Contains x' y' then
        blend (fb.backbuffer (fb.info.index x' y')) (pixels (sourceIndex x y sourcePitch (x', y')))
      else fb.backbuffer (fb.info.index x' y') := by
  unfold framebufferBlit
  dsimp only
  by_cases hsome : width = 0 ∨ height = 0
  · rw [if_pos (by omega)]
    refine ⟨fun x' y' _ => (if_neg fun hinside => ?_).symm, fun _ _ => rfl⟩
    unfold FramebufferRect.Contains at hinside
    dsimp only at hinside
    omega
  rw [if_neg (by simp only [henabled, reduceCtorEq, false_or]; omega), int32_of_lt hwidth,
    int32_of_lt hheight]
  rcases hclip : fb.info.rectClip ⟨x, y, width, height⟩ with _ | clipped
  · exact nothing_paints hclip fun p old => blend old (pixels (sourceIndex x y sourcePitch p))
  · dsimp only
    rw [List.foldl_ext _ _ _ fun backbuffer p hp => blitPixel_source hwidth hheight
      (contains_of_clip hclip hp) pixels backbuffer]
    exact foldl_paints (fun p old => blend old (pixels (sourceIndex x y sourcePitch p))) hclip
      fun _ _ => rfl

theorem blit_congr (hwidth : width < 2 ^ 31) (hheight : height < 2 ^ 31)
    {pixels pixels' : ℕ → UInt32}
    (h : ∀ i < width, ∀ j < height, pixels (j * sourcePitch + i) = pixels' (j * sourcePitch + i)) :
    fb.framebufferBlit x y (some pixels) width height sourcePitch
      = fb.framebufferBlit x y (some pixels') width height sourcePitch := by
  unfold framebufferBlit
  dsimp only
  rw [int32_of_lt hwidth, int32_of_lt hheight]
  rcases hclip : fb.info.rectClip ⟨x, y, width, height⟩ with _ | clipped
  · rfl
  · dsimp only
    rw [List.foldl_ext (blitPixel fb.info x y pixels sourcePitch)
      (blitPixel fb.info x y pixels' sourcePitch) _ fun backbuffer p hp => ?_]
    have hinside := contains_of_clip hclip hp
    rw [blitPixel_source hwidth hheight hinside, blitPixel_source hwidth hheight hinside]
    unfold FramebufferRect.Contains at hinside
    dsimp only at hinside
    rw [sourceIndex, h _ (by omega) _ (by omega)]

/-- Clipping and drawing on the screen and in the graphics library. -/
theorem clipping_exact (fb : Framebuffer) (henabled : fb.enabled = true) :
    (∀ rect : FramebufferRect, rect.Int32 →
      Clips (fb.info.rectClip rect) fun x y => rect.Contains x y ∧ fb.info.Visible x y)
    ∧ (∀ a b : GraphicsRect, a.Int32 → b.Int32 →
      Clips (a.intersect b) fun x y => a.Contains x y ∧ b.Contains x y)
    ∧ (∀ rect argb, Paints fb (fb.framebufferFillRect rect argb) fun x y =>
      if rect.Contains x y then argb else fb.backbuffer (fb.info.index x y))
    ∧ ∀ (x y : ℤ) (width height sourcePitch : ℕ), width < 2 ^ 31 → height < 2 ^ 31 →
      width ≤ sourcePitch → ∀ pixels,
      Paints fb (fb.framebufferBlit x y (some pixels) width height sourcePitch) (fun x' y' =>
        if (FramebufferRect.mk x y width height).Contains x' y' then
          blend (fb.backbuffer (fb.info.index x' y'))
            (pixels (sourceIndex x y sourcePitch (x', y')))
        else fb.backbuffer (fb.info.index x' y'))
      ∧ ∀ pixels', (∀ i < width, ∀ j < height,
          pixels (j * sourcePitch + i) = pixels' (j * sourcePitch + i)) →
        fb.framebufferBlit x y (some pixels) width height sourcePitch
          = fb.framebufferBlit x y (some pixels') width height sourcePitch :=
  ⟨fun _ => rectClip_clips fb.info, fun _ _ => intersect_clips, fillRect_paints henabled,
    fun _ _ _ _ _ hwidth hheight hpitch pixels =>
      ⟨blit_paints henabled hwidth hheight hpitch pixels, fun _ => blit_congr hwidth hheight⟩⟩

/-- A rectangle that leaves a screen of 8 x 8 pixels at the top left. -/
theorem clipping_exact_corner : (1 : UInt32) = ((Framebuffer.mk { width := 8, height := 8 }
    (fun _ => 0) (fun _ => 0) true true false ⟨0, 0, 0, 0⟩ 0 0 false 0 0).framebufferFillRect
      ⟨-2, -2, 4, 4⟩ 1).backbuffer 9 := by
  have h := (clipping_exact (Framebuffer.mk { width := 8, height := 8 } (fun _ => 0) (fun _ => 0)
    true true false ⟨0, 0, 0, 0⟩ 0 0 false 0 0) rfl).2.2.1 ⟨-2, -2, 4, 4⟩ 1
  exact (h.visible 1 1 ⟨by decide, by decide, by decide, by decide⟩).symm

end Framebuffer

end DemonOS
