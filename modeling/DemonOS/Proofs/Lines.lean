import DemonOS.DemonX.Graphics
import DemonOS.GraphicsLibrary
import DemonOS.Lib.Bresenham

/-!
# Lines

The three loops that draw lines make the turns of one line (`line_plots`): the framebuffer's and the
graphics library's with the arithmetic of `int32_t`, which does not wrap while the endpoints are less
than `2 ^ 29` apart (`error_fits`), and DemonX's with a request for each pixel.
-/

namespace DemonOS

open Bresenham

def Int32Point (x y : ℤ) : Prop := (-2 ^ 31 ≤ x ∧ x < 2 ^ 31) ∧ -2 ^ 31 ≤ y ∧ y < 2 ^ 31

variable {l : Line} {n : ℕ}

theorem int32_self {v : ℤ} (h : -2 ^ 31 ≤ v ∧ v < 2 ^ 31) : int32 v = v := by
  unfold int32
  omega

/-- The endpoints are so near that nothing wraps between them. -/
structure Short (l : Line) : Prop where
  first : Int32Point l.x0 l.y0
  last : Int32Point l.x1 l.y1
  width : l.width < 2 ^ 29
  height : l.height < 2 ^ 29

/-- The error term is far from the limits of `int32_t`. -/
theorem error_fits (h : Short l) (n : ℕ) : -2 ^ 31 ≤ l.error n * 2 ∧ l.error n * 2 < 2 ^ 31 := by
  have herror := error_within l.width l.height n
  have hwidth := h.width
  have hheight := h.height
  have hlong : max l.width l.height < 2 ^ 29 := max_lt hwidth hheight
  unfold Line.error
  omega

theorem point_fits (h : Short l) (hn : n ≤ l.turns) : Int32Point (l.point n).1 (l.point n).2 := by
  obtain ⟨⟨h1, h2⟩, h3, h4⟩ := Line.point_within hn
  obtain ⟨⟨h5, h6⟩, h7, h8⟩ := h.first
  obtain ⟨⟨h9, h10⟩, h11, h12⟩ := h.last
  exact ⟨⟨(le_min h5 h9).trans h1, h2.trans_lt (max_lt h6 h10)⟩,
    (le_min h7 h11).trans h3, h4.trans_lt (max_lt h8 h12)⟩

/-- A turn in the arithmetic of `int32_t`, before what is done with the next point. -/
theorem turn_eq (h : Short l) (hn : n < l.turns) {α : Type*} (f : ℤ → ℤ → ℤ → α) :
    (let twice := int32 (l.error n * 2)
    let (error, x0) := if -(l.height : ℤ) ≤ twice then
      (int32 (l.error n + -(l.height : ℤ)), int32 ((l.point n).1 + l.sx))
      else (l.error n, (l.point n).1)
    let (error, y0) := if twice ≤ l.width then
      (int32 (error + l.width), int32 ((l.point n).2 + l.sy)) else (error, (l.point n).2)
    f x0 y0 error) = f (l.point (n + 1)).1 (l.point (n + 1)).2 (l.error (n + 1)) := by
  have herror := error_fits h n
  have herror' := error_fits h (n + 1)
  obtain ⟨hx, hy⟩ := point_fits h (Nat.succ_le_of_lt hn)
  have hwidth := h.width
  have hheight := h.height
  rw [Line.error_succ] at herror' ⊢
  rw [Line.point_succ] at hx hy ⊢
  dsimp only at hx hy ⊢
  rw [int32_self herror]
  by_cases hright : -(l.height : ℤ) ≤ l.error n * 2 <;>
    by_cases hdown : l.error n * 2 ≤ l.width <;>
    simp only [hright, hdown, if_true, if_false] at hx hy herror' ⊢ <;>
    congr 1 <;> (try simp only [int32]) <;> omega

theorem slopes (h : Short l) : (if l.x0 < l.x1 then int32 (l.x1 - l.x0) else int32 (l.x0 - l.x1))
      = l.width
    ∧ int32 (-if l.y0 < l.y1 then int32 (l.y1 - l.y0) else int32 (l.y0 - l.y1)) = -(l.height : ℤ)
    ∧ int32 (l.width + -(l.height : ℤ)) = l.width - l.height := by
  obtain ⟨-, -, hwidth, hheight⟩ := h
  simp only [Line.width, Line.height, int32] at *
  refine ⟨?_, ?_, ?_⟩ <;> (try split_ifs) <;> omega

theorem lt_end (hn : n ≤ l.turns) (hgo : ¬((l.point n).1 = l.x1 ∧ (l.point n).2 = l.y1)) :
    n < l.turns :=
  lt_of_le_of_ne hn fun heq => hgo (by rw [heq, Line.point_turns]; exact ⟨rfl, rfl⟩)

theorem framebufferLine_eq (h : Short l) {rounds : ℕ} (hrounds : max l.width l.height < rounds)
    (fb : Framebuffer) (argb : UInt32) : fb.framebufferLine rounds l.x0 l.y0 l.x1 l.y1 argb
      = l.points.foldl (fun fb p => fb.framebufferPixel p.1 p.2 argb) fb := by
  obtain ⟨hx, hy, herror⟩ := slopes h
  unfold Framebuffer.framebufferLine
  dsimp only
  rw [hx, hy, herror]
  refine Line.loop_eq _
    (f := Framebuffer.lineLoop l.x1 l.y1 l.width l.sx (-(l.height : ℤ)) l.sy argb)
    (fun more n fb hn => ?_) _ hrounds fb
  rw [Framebuffer.lineLoop]
  refine ite_congr rfl (fun _ => rfl) fun hgo => ?_
  exact turn_eq h (lt_end hn hgo) fun x0 y0 error => Framebuffer.lineLoop l.x1 l.y1 l.width l.sx
    (-(l.height : ℤ)) l.sy argb more x0 y0 error _

theorem graphicsLine_eq (h : Short l) {rounds : ℕ} (hrounds : max l.width l.height < rounds)
    (s : GraphicsSurface) (argb : UInt32) : s.graphicsLine rounds l.x0 l.y0 l.x1 l.y1 argb
      = (l.points.foldl (GraphicsSurface.linePixel argb) s).addDamage
        ⟨min l.x0 l.x1, min l.y0 l.y1, int32 (max l.x0 l.x1 - min l.x0 l.x1 + 1),
          int32 (max l.y0 l.y1 - min l.y0 l.y1 + 1)⟩ := by
  obtain ⟨hx, hy, herror⟩ := slopes h
  unfold GraphicsSurface.graphicsLine
  dsimp only
  rw [hx, hy, herror]
  congr 1
  · refine Line.loop_eq _
      (f := GraphicsSurface.lineLoop l.x1 l.y1 l.width l.sx (-(l.height : ℤ)) l.sy argb)
      (fun more n s hn => ?_) _ hrounds s
    rw [GraphicsSurface.lineLoop]
    refine ite_congr rfl (fun _ => rfl) fun hgo => ?_
    exact turn_eq h (lt_end hn hgo) fun x0 y0 error => GraphicsSurface.lineLoop l.x1 l.y1 l.width
      l.sx (-(l.height : ℤ)) l.sy argb more x0 y0 error _
  · simp only [FramebufferRect.mk.injEq, int32]
    split_ifs <;> omega

theorem xDrawLine_eq (gc : DemonX.GC) (drawable : UInt32) :
    DemonX.xDrawLine gc drawable l.x0 l.y0 l.x1 l.y1
      = DemonX.Drawn.forAll (DemonX.xFillRectangle gc drawable)
        (l.points.map fun p => DemonX.dot p.1 p.2) := by
  have hloop := Line.loop_eq (fun s p => s ++ [DemonX.dot p.1 p.2])
    (f := fun rounds x y error s =>
      s ++ DemonX.lineDots l.width (-(l.height : ℤ)) l.sx l.sy l.x1 l.y1 rounds x y error)
    (l := l) (fun more n s _ => ?_) (l.width + l.height + 1)
    (Nat.lt_succ_of_le (max_le (Nat.le_add_right ..) (Nat.le_add_left ..))) []
  · have hfold : ∀ (points : List (ℤ × ℤ)) (s : List DemonX.Area),
        points.foldl (fun s p => s ++ [DemonX.dot p.1 p.2]) s
          = s ++ points.map fun p => DemonX.dot p.1 p.2 := by
      intro points
      induction points with
      | nil => exact fun s => (List.append_nil s).symm
      | cons p points ih => exact fun s => by simp [ih]
    rw [hfold, List.nil_append, List.nil_append] at hloop
    rw [← hloop]
    rfl
  · rw [DemonX.lineDots, Line.point_succ, Line.error_succ]
    by_cases hend : (l.point n).1 = l.x1 ∧ (l.point n).2 = l.y1
    · rw [if_pos hend, if_pos hend]
    · simp [hend]

/-- All three plot the points of one line. -/
theorem line_plots (x0 y0 x1 y1 : ℤ) (h : Short ⟨x0, y0, x1, y1⟩) (rounds : ℕ)
    (hrounds : max (x1 - x0).natAbs (y1 - y0).natAbs < rounds) :
    ∃ points, Line.Connects ⟨x0, y0, x1, y1⟩ points
      ∧ (∀ (fb : Framebuffer) argb, fb.framebufferLine rounds x0 y0 x1 y1 argb
        = points.foldl (fun fb p => fb.framebufferPixel p.1 p.2 argb) fb)
      ∧ (∀ (s : GraphicsSurface) argb, ∃ box, s.graphicsLine rounds x0 y0 x1 y1 argb
        = (points.foldl (GraphicsSurface.linePixel argb) s).addDamage box)
      ∧ ∀ gc drawable, DemonX.xDrawLine gc drawable x0 y0 x1 y1
        = DemonX.Drawn.forAll (DemonX.xFillRectangle gc drawable)
          (points.map fun p => DemonX.dot p.1 p.2) :=
  ⟨Line.points ⟨x0, y0, x1, y1⟩, Line.points_connects _,
    framebufferLine_eq (l := ⟨x0, y0, x1, y1⟩) h hrounds,
    fun s argb => ⟨_, graphicsLine_eq (l := ⟨x0, y0, x1, y1⟩) h hrounds s argb⟩,
    xDrawLine_eq (l := ⟨x0, y0, x1, y1⟩)⟩

/-- A steep line, upwards and to the left. -/
theorem line_plots_steep : ∃ points, Line.Connects ⟨1, 3, 0, -2⟩ points
    ∧ ∀ (fb : Framebuffer) argb, fb.framebufferLine 6 1 3 0 (-2) argb
      = points.foldl (fun fb p => fb.framebufferPixel p.1 p.2 argb) fb := by
  obtain ⟨points, hpath, hfb, -⟩ := line_plots 1 3 0 (-2)
    ⟨⟨by decide, by decide⟩, ⟨by decide, by decide⟩, by decide, by decide⟩ 6 (by decide)
  exact ⟨points, hpath, hfb⟩

end DemonOS
