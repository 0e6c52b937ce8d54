import DemonOS.Proofs.DemonX.Areas
import DemonOS.Proofs.DemonX.ImageCalls

/-!
# What a drawing request changes

Of a drawable that has its surface, a drawing request that is served changes no pixel but those it
marks (`serve_spares`): the rectangles of a fill, the rectangle of an image or the destination of a
copy, and the dots of a text.
-/

namespace DemonOS

namespace DemonX

open Server (Drawable Dot Painted Picture textPicture putPicture)

/-! ## What a request marks -/

def Message.Texts (m : Message) (d : Drawable) (start scale : ℕ) (px py : ℤ) : Prop :=
  ∃ column < (m.payload 16).toNat, Dot d (int16 (read16 m.payload 12))
    (int16 (read16 m.payload 14) - 7 * scale) (fun k => m.payload (start + k)) scale column px py

/-- The pixels of a drawable that a request may change: those the server writes, where the source of
a copy has them. -/
def Message.Marks (m : Message) (d : Drawable) (px py : ℤ) : Prop :=
  (0 ≤ px ∧ px < d.width ∧ 0 ≤ py ∧ py < d.height)
    ∧ ((m.payload 0 = Opcode.polyFillRectangle ∧ ∃ r ∈ m.rectangles, r.area.Has px py)
      ∨ (m.payload 0 = Opcode.putImage
        ∧ (Area.mk (int16 (read16 m.payload 16)) (int16 (read16 m.payload 18))
          (read16 m.payload 12).toNat (read16 m.payload 14).toNat).Has px py)
      ∨ (m.payload 0 = Opcode.copyArea
        ∧ (Area.mk (int16 (read16 m.payload 20)) (int16 (read16 m.payload 22))
          (read16 m.payload 24).toNat (read16 m.payload 26).toNat).Has px py)
      ∨ (m.payload 0 = Opcode.polyText8 ∧ m.Texts d 17 1 px py)
      ∨ (m.payload 0 = Opcode.polyText8Scaled ∧ (m.payload 17).toNat ≤ 8
        ∧ m.Texts d 18 (m.payload 17).toNat px py))

def Message.DrawsOn (m : Message) (id : UInt32) : Prop :=
  (m.payload 0 = Opcode.copyArea ∧ read32 m.payload 8 = id)
    ∨ (m.payload 0 ∈ [Opcode.polyFillRectangle, Opcode.putImage, Opcode.polyText8,
      Opcode.polyText8Scaled] ∧ read32 m.payload 4 = id)

namespace Server

structure Shown (s : Server) (k : SurfaceKernel) (other : Answers) (id : UInt32) (d : Drawable) :
    Prop where
  ready : s.drawableSurface (k.answers other) id = (some d, s)
  surface : d.surface ≠ 0
  single : s.findWindow id = none ∨ s.findPixmap id = none
  sized : (k.behind other s).Sized d

/-- The surface of the drawable stays where it is, and so do its pixels outside the region. -/
structure Alters (K K' : SurfaceKernel) (d : Drawable) (R : ℤ → ℤ → Prop) : Prop where
  data : K'.data d.surface = K.data d.surface
  pixels : ∀ x y : ℕ, x < d.width → y < d.height → ¬R x y → K'.pixelAt d x y = K.pixelAt d x y

variable {k : SurfaceKernel} {other : Answers} {s t u : Server} {id client : UInt32} {d : Drawable}
  {K K' K'' : SurfaceKernel} {R R' : ℤ → ℤ → Prop} {start : ℕ} {m : Message}

theorem alters_refl (K : SurfaceKernel) (d : Drawable) (R : ℤ → ℤ → Prop) : Alters K K d R :=
  ⟨rfl, fun _ _ _ _ _ => rfl⟩

theorem Alters.trans (h : Alters K K' d R) (h' : Alters K' K'' d R) : Alters K K'' d R where
  data := h'.data.trans h.data
  pixels x y hx hy hout := (h'.pixels x y hx hy hout).trans (h.pixels x y hx hy hout)

theorem Alters.mono (h : Alters K K' d R)
    (hRR' : ∀ x y : ℕ, x < d.width → y < d.height → R x y → R' x y) : Alters K K' d R' where
  data := h.data
  pixels x y hx hy hout := h.pixels x y hx hy fun hin => hout (hRR' x y hx hy hin)

theorem Painted.alters {picture : Picture} (h : Painted K K' d picture) :
    Alters K K' d fun x y => picture x y ≠ none where
  data := h.data d.surface
  pixels x y hx hy hout := by
    rw [h.pixels x y hx hy, not_not.1 hout, Option.getD_none]

theorem alters_of_boxed {r : Box} {m : ℕ → UInt32}
    (hK : K.Places d.surface start d.width d.height) (hm : Boxed K d start r m) :
    Alters K (K.withPixels m) d r.Has where
  data := rfl
  pixels x y hx hy hout := by
    rw [SurfaceKernel.withPixels_pixelAt hK, SurfaceKernel.pixelAt_eq hK, hm.outside x y hx hy hout]

theorem alters_damage (u : Server) (surface : UInt32) (x y width height : ℤ) :
    Alters (k.behind other u)
      (k.behind other (u.damage (k.answers other) surface x y width height).2) d R := by
  obtain ⟨hpixels, hdata⟩ := SurfaceKernel.answer_damage (k.behind other u)
    (other (.surfaceDamage surface (UInt32.ofInt x) (UInt32.ofInt y) (UInt32.ofInt width)
      (UInt32.ofInt height) :: u.calls)) surface (UInt32.ofInt x) (UInt32.ofInt y)
    (UInt32.ofInt width) (UInt32.ofInt height)
  refine ⟨hdata d.surface, fun px py _ _ _ => ?_⟩
  unfold SurfaceKernel.pixelAt SurfaceKernel.pixel
  rw [show (k.behind other (u.damage (k.answers other) surface x y width height).2).data d.surface
    = (k.behind other u).data d.surface from hdata d.surface]
  rcases (k.behind other u).data d.surface with _ | place
  · rfl
  · exact congrFun hpixels _

theorem Shown.later (h : Shown s k other id d) (hleaves : Leaves s t)
    (halters : Alters (k.behind other s) (k.behind other t) d R) : Shown t k other id d where
  ready := drawableSurface_again h.ready h.surface hleaves
  surface := h.surface
  single := by
    have hwindow : t.findWindow id = s.findWindow id := by
      unfold findWindow
      simp only [hleaves.window]
    have hpixmap : t.findPixmap id = s.findPixmap id := by
      unfold findPixmap
      rw [hleaves.pixmaps]
    rw [hwindow, hpixmap]
    exact h.single
  sized := by
    obtain ⟨start, hplaces⟩ := h.sized
    exact ⟨start, halters.data.trans hplaces⟩

theorem Shown.cases (h : Shown s k other id d) :
    (∃ i, DrawnOn s id i ∧ d = s.windowSurface i)
      ∨ ∃ p, s.findPixmap id = some p ∧ s.findWindow id = none
        ∧ d = ⟨(s.pixmaps p).surfaceHandle, (s.pixmaps p).width.toNat, (s.pixmaps p).height.toNat,
          none⟩ := by
  have hready := h.ready
  unfold drawableSurface at hready
  rcases hp : s.findPixmap id with _ | p
  · rcases hw : s.findWindow id with _ | i <;> rw [hp, hw] at hready
    · cases (Prod.mk.inj hready).1
    · left
      dsimp only at hready
      split_ifs at hready with hgood
      · cases (Prod.mk.inj hready).1
      · obtain ⟨hd, hsame⟩ := Prod.mk.inj hready
        rw [not_or] at hgood
        rw [hsame] at hd hgood
        obtain rfl := Option.some.inj hd
        exact ⟨i, ⟨hp, hw, h.surface, hgood.2⟩, rfl⟩
  · right
    rw [hp] at hready
    refine ⟨p, rfl, h.single.resolve_right (by rw [hp]; exact Option.some_ne_none p), ?_⟩
    exact (Option.some.inj (Prod.mk.inj hready).1).symm

/-! ## Fills -/

def cutBox (x y width height : UInt16) (w h : ℕ) : Box :=
  edges (int16 x).toNat (int16 y).toNat (min (int16 x + width.toNat) w).toNat
    (min (int16 y + height.toNat) h).toNat

theorem cutBox_has {x y width height : UInt16} {w h : ℕ} {px py : ℤ}
    (h : (cutBox x y width height w h).Has px py) :
    (Area.mk (int16 x) (int16 y) width.toNat height.toNat).Has px py := by
  unfold cutBox edges Box.Has at h
  unfold Area.Has
  dsimp only at h ⊢
  omega

theorem fillParts_alters (hK : (k.behind other s).Places d.surface start d.width d.height)
    (color : UInt32) {x width : UInt16} (y height : UInt16)
    (hright : (int16 x).toNat ≤ (min (int16 x + width.toNat) d.width).toNat) :
    Alters (k.behind other s) (k.behind other ((s.fillDraw drawChunkPixels color).fillCells
      (k.answers other) d.surface d.width (cells (int16 y).toNat
        (min (int16 y + height.toNat) d.height).toNat (int16 x).toNat
        (min (int16 x + width.toNat) d.width).toNat)).2) d
      (Area.mk (int16 x) (int16 y) width.toNat height.toNat).Has := by
  obtain ⟨m, hm, hboxed⟩ := fillCells_boxed k other (int16 y).toNat
    (min (int16 y + height.toNat) d.height).toNat hK hright (by omega) (by omega)
    (u := s.fillDraw drawChunkPixels color) rfl
  rw [hm]
  exact (alters_of_boxed hK hboxed).mono fun _ _ _ _ hin => cutBox_has hin

theorem fillRectangle_alters {i : ℕ} (hi : DrawnOn s id i) (hd : d = s.windowSurface i)
    (hK : (k.behind other s).Places d.surface start d.width d.height) (color : UInt32)
    (x y width height : UInt16) :
    Alters (k.behind other s)
      (k.behind other (s.fillRectangle (k.answers other) i color x y width height).2) d
      (Area.mk (int16 x) (int16 y) width.toNat height.toNat).Has := by
  have hwidth : surfaceWidth (s.window i) = d.width := hd ▸ if_neg hi.kernel
  have hheight : surfaceHeight (s.window i) = d.height := hd ▸ if_neg hi.kernel
  have hhandle : (s.window i).surfaceHandle = d.surface := hd ▸ rfl
  unfold fillRectangle
  rw [createWindowSurface_ready _ hi.surface]
  dsimp only
  rw [if_neg (by decide), if_neg hi.kernel, hwidth, hheight, hhandle]
  by_cases hempty : (min (int16 x + width.toNat) d.width).toNat ≤ (int16 x).toNat
      ∨ (min (int16 y + height.toNat) d.height).toNat ≤ (int16 y).toNat
  · rw [if_pos hempty]
    exact alters_refl _ _ _
  rw [if_neg hempty]
  rw [not_or, not_le, not_le] at hempty
  have hparts := fillParts_alters hK (color ||| opaqueAlpha) y height hempty.1.le
  split_ifs
  · exact hparts
  · exact hparts.trans (alters_damage _ _ _ _ _ _)
  · exact hparts.trans (alters_damage _ _ _ _ _ _)

theorem fillPixmap_alters {p : ℕ}
    (hd : d = ⟨(s.pixmaps p).surfaceHandle, (s.pixmaps p).width.toNat, (s.pixmaps p).height.toNat,
      none⟩)
    (hK : (k.behind other s).Places d.surface start d.width d.height) (color : UInt32)
    (x y width height : UInt16) :
    Alters (k.behind other s)
      (k.behind other (s.fillPixmap (k.answers other) p color x y width height).2) d
      (Area.mk (int16 x) (int16 y) width.toNat height.toNat).Has := by
  have hwidth : (s.pixmaps p).width.toNat = d.width := hd ▸ rfl
  have hheight : (s.pixmaps p).height.toNat = d.height := hd ▸ rfl
  have hhandle : (s.pixmaps p).surfaceHandle = d.surface := hd ▸ rfl
  unfold fillPixmap
  dsimp only
  rw [hwidth, hheight, hhandle]
  by_cases hempty : (min (int16 x + width.toNat) d.width).toNat ≤ (int16 x).toNat
      ∨ (min (int16 y + height.toNat) d.height).toNat ≤ (int16 y).toNat
  · rw [if_pos hempty]
    exact alters_refl _ _ _
  rw [if_neg hempty]
  rw [not_or, not_le, not_le] at hempty
  exact fillParts_alters hK (color ||| opaqueAlpha) _ _ hempty.1.le

theorem fillRectangles_alters {fill : UInt16 → UInt16 → UInt16 → UInt16 → Server → ℤ × Server}
    {I : Server → Prop} {p : ℕ → UInt8} (hI : ∀ u, I u → u.incoming.payload = p)
    (hfill : ∀ u x y width height, I u → I (fill x y width height u).2
      ∧ Alters (k.behind other u) (k.behind other (fill x y width height u).2) d
        (Area.mk (int16 x) (int16 y) width.toNat height.toNat).Has) {l : List ℕ} {s : Server}
    (hs : I s) : I (fillRectangles (k.answers other) fill l s).2
      ∧ Alters (k.behind other s) (k.behind other (fillRectangles (k.answers other) fill l s).2) d
        fun px py => ∃ index ∈ l, (readRectangle p (12 + index * 8)).area.Has px py := by
  induction l generalizing s with
  | nil => exact ⟨hs, alters_refl _ _ _⟩
  | cons index l ih =>
    have hpayload := hI s hs
    obtain ⟨hnext, halters⟩ := hfill s (s.field16 (12 + index * 8)) (s.field16 (12 + index * 8 + 2))
      (s.field16 (12 + index * 8 + 4)) (s.field16 (12 + index * 8 + 6)) hs
    have hfirst : Alters (k.behind other s) (k.behind other (fill (s.field16 (12 + index * 8))
        (s.field16 (12 + index * 8 + 2)) (s.field16 (12 + index * 8 + 4))
        (s.field16 (12 + index * 8 + 6)) s).2) d
        fun px py => ∃ i ∈ index :: l, (readRectangle p (12 + i * 8)).area.Has px py := by
      refine halters.mono fun px py _ _ hin => ⟨index, List.mem_cons_self, ?_⟩
      rw [← hpayload]
      exact hin
    unfold fillRectangles
    dsimp only
    split_ifs
    · exact ⟨hnext, hfirst⟩
    · obtain ⟨hlast, hrest⟩ := ih hnext
      refine ⟨hlast, hfirst.trans (hrest.mono ?_)⟩
      rintro px py - - ⟨i, hi, hin⟩
      exact ⟨i, List.mem_cons_of_mem index hi, hin⟩

def Amid (k : SurfaceKernel) (other : Answers) (s : Server) (id : UInt32) (d : Drawable)
    (u : Server) : Prop := Leaves s u ∧ Shown u k other id d

theorem Amid.later (h : Amid k other s id d u) (hleaves : Leaves u t)
    (halters : Alters (k.behind other u) (k.behind other t) d R) : Amid k other s id d t :=
  ⟨h.1.trans hleaves, h.2.later hleaves halters⟩

theorem Amid.payload (h : Amid k other s id d u) : u.incoming.payload = s.incoming.payload := by
  unfold incoming
  rw [h.1.assembly]

theorem amid_fillRectangle {i : ℕ} (hi : s.findWindow id = some i) (h : Amid k other s id d u)
    (color : UInt32) (x y width height : UInt16) :
    Amid k other s id d (u.fillRectangle (k.answers other) i color x y width height).2
      ∧ Alters (k.behind other u)
        (k.behind other (u.fillRectangle (k.answers other) i color x y width height).2) d
        (Area.mk (int16 x) (int16 y) width.toNat height.toNat).Has := by
  have hi' : u.findWindow id = some i := by
    rw [← hi]
    unfold findWindow
    simp only [h.1.window]
  obtain ⟨j, hj, hd⟩ | ⟨p, -, hnone, -⟩ := h.2.cases
  · obtain rfl := Option.some.inj (hi'.symm.trans hj.window)
    obtain ⟨start, hK⟩ := h.2.sized
    have halters := fillRectangle_alters hj hd hK color x y width height
    have hleaves := fillRectangle_leaves (k.answers other) u i color x y width height
    rw [createWindowSurface_ready _ hj.surface] at hleaves
    exact ⟨h.later hleaves halters, halters⟩
  · exact nomatch hi'.symm.trans hnone

theorem amid_fillPixmap {p : ℕ} (hp : s.findPixmap id = some p) (h : Amid k other s id d u)
    (color : UInt32) (x y width height : UInt16) :
    Amid k other s id d (u.fillPixmap (k.answers other) p color x y width height).2
      ∧ Alters (k.behind other u)
        (k.behind other (u.fillPixmap (k.answers other) p color x y width height).2) d
        (Area.mk (int16 x) (int16 y) width.toNat height.toNat).Has := by
  have hp' : u.findPixmap id = some p := by
    rw [← hp]
    unfold findPixmap
    rw [h.1.pixmaps]
  obtain ⟨j, hj, -⟩ | ⟨q, hq, -, hd⟩ := h.2.cases
  · exact nomatch hp'.symm.trans hj.pixmap
  · obtain rfl := Option.some.inj (hp'.symm.trans hq)
    obtain ⟨start, hK⟩ := h.2.sized
    have halters := fillPixmap_alters hd hK color x y width height
    exact ⟨h.later (fillPixmap_leaves (k.answers other) u p color x y width height) halters, halters⟩

theorem polyFillRectangle_alters (h : Shown s k other id d)
    (hpass : s.polyFillRectangle (k.answers other) id = (false, t)) :
    Amid k other s id d t ∧ Alters (k.behind other s) (k.behind other t) d fun px py =>
      ∃ index ∈ List.range ((s.incoming.payloadLength.toNat - 12) / 8),
        (readRectangle s.incoming.payload (12 + index * 8)).area.Has px py := by
  have hstart : Amid k other s id d s := ⟨.refl s, h⟩
  unfold polyFillRectangle at hpass
  rcases hgc : s.findGc (s.field32 8) with _ | gc
  · rw [hgc] at hpass
    exact absurd hpass (refuse_unanswered _ _ _ _ _)
  rw [hgc] at hpass
  dsimp only at hpass
  by_cases hdraws : s.drawsWith gc id = true
  swap
  · rw [if_pos (by simpa using hdraws)] at hpass
    exact absurd hpass (refuse_unanswered _ _ _ _ _)
  rw [if_neg (by simpa using hdraws)] at hpass
  rcases hw : s.findWindow id with _ | i
  · rcases hp : s.findPixmap id with _ | p <;> rw [hw, hp] at hpass
    · exact absurd hpass (refuse_unanswered _ _ _ _ _)
    · dsimp only at hpass
      split_ifs at hpass
      · exact absurd hpass (refuse_unanswered _ _ _ _ _)
      · obtain rfl := (Prod.mk.inj hpass).2
        exact fillRectangles_alters (I := Amid k other s id d) (fun u hu => hu.payload)
          (fun u x y width height hu => amid_fillPixmap hp hu _ x y width height) hstart
  · rw [hw] at hpass
    dsimp only at hpass
    split_ifs at hpass
    · exact absurd hpass (refuse_unanswered _ _ _ _ _)
    · obtain rfl := (Prod.mk.inj hpass).2
      exact fillRectangles_alters (I := Amid k other s id d) (fun u hu => hu.payload)
        (fun u x y width height hu => amid_fillRectangle hw hu _ x y width height) hstart

/-! ## Images, texts and copies -/

theorem putImageRequest_alters (h : Shown s k other id d)
    (hpass : s.putImageRequest (k.answers other) id = (false, t)) :
    Amid k other s id d t ∧ Alters (k.behind other s) (k.behind other t) d
      (Area.mk (int16 (s.field16 16)) (int16 (s.field16 18)) (s.field16 12).toNat
        (s.field16 14).toNat).Has := by
  obtain ⟨hdrawn, rfl⟩ := putImageRequest_drawn hpass
  obtain ⟨start, hK⟩ := h.sized
  have hleaves : Leaves (s.drawableSurface (k.answers other) id).2
      (s.putImage (k.answers other) id (s.field16 16) (s.field16 18) (s.field16 12)
        (s.field16 14) fun j => s.payload (24 + j)).2 :=
    putImage_leaves _ s id _ _ _ _ _ (validDrawable_of_surface h.ready)
  rw [h.ready] at hleaves
  have halters : Alters (k.behind other s) (k.behind other (s.putImage (k.answers other) id
      (s.field16 16) (s.field16 18) (s.field16 12) (s.field16 14)
        fun j => s.payload (24 + j)).2) d
      (Area.mk (int16 (s.field16 16)) (int16 (s.field16 18)) (s.field16 12).toNat
        (s.field16 14).toNat).Has :=
    (putImage_paints h.ready hK.starts hdrawn).alters.mono fun px py _ _ hin => by
      unfold putPicture at hin
      split_ifs at hin with hhas
      · unfold Area.Has
        omega
      · exact absurd rfl hin
  exact ⟨⟨hleaves, h.later hleaves halters⟩, halters⟩

theorem drawGlyphs_alters (h : Shown s k other id d) (color : UInt32) (x baseline : UInt16)
    (text : ℕ → UInt8) {length scale : ℕ} (hscale : scale ≤ 8) (buffered : Bool)
    (hpass : ¬(s.drawGlyphs (k.answers other) id color x baseline text length scale buffered).1 < 0) :
    Amid k other s id d
        (s.drawGlyphs (k.answers other) id color x baseline text length scale buffered).2
      ∧ Alters (k.behind other s) (k.behind other
        (s.drawGlyphs (k.answers other) id color x baseline text length scale buffered).2) d
        fun px py => ∃ column < length,
          Dot d (int16 x) (int16 baseline - 7 * scale) text scale column px py := by
  obtain ⟨start, hK⟩ := h.sized
  have hleaves := drawGlyphs_leaves (k.answers other) s id color x baseline text length scale buffered
  rw [h.ready] at hleaves
  have halters : Alters (k.behind other s) (k.behind other
      (s.drawGlyphs (k.answers other) id color x baseline text length scale buffered).2) d
      fun px py => ∃ column < length,
        Dot d (int16 x) (int16 baseline - 7 * scale) text scale column px py := by
    unfold drawGlyphs at hpass ⊢
    rw [h.ready] at hpass ⊢
    dsimp only at hpass ⊢
    have hmapped : k.behind other (s.call (k.answers other) (.surfaceMap d.surface)).2
      = k.behind other s := rfl
    generalize s.call (k.answers other) (.surfaceMap d.surface) = mapped at hmapped hpass ⊢
    by_cases hmap : mapped.1 = failure
    · rw [if_pos hmap] at hpass
      exact absurd (show (-2 : ℤ) < 0 by decide) hpass
    rw [if_neg hmap] at hpass ⊢
    have hpaints := fun hpass => textRows_paint (d := d) hscale hK hmapped
      (show (forEach (glyphRow (k.answers other) d (color ||| opaqueAlpha) (int16 x)
        (int16 baseline - 7 * scale) text scale buffered) (textRows length scale) mapped.2).1 = true
        from hpass)
    generalize forEach (glyphRow (k.answers other) d (color ||| opaqueAlpha) (int16 x)
      (int16 baseline - 7 * scale) text scale buffered) (textRows length scale) mapped.2
        = written at hpass hpaints ⊢
    rcases hwritten : written.1 with _ | _
    · rw [hwritten] at hpass
      exact absurd (show (-3 : ℤ) < 0 by decide) hpass
    obtain ⟨m, hm, hpicture, -⟩ := hpaints hwritten
    have hunmapped : k.behind other (written.2.call' (k.answers other) (.surfaceUnmap d.surface))
      = (k.behind other s).withPixels m := hm
    have hdots : Alters (k.behind other s) ((k.behind other s).withPixels m) d
        fun px py => ∃ column < length,
          Dot d (int16 x) (int16 baseline - 7 * scale) text scale column px py := by
      have hpainted : Painted (k.behind other s) ((k.behind other s).withPixels m) d _ :=
        painted_of_paints hK.starts hpicture rfl rfl fun _ => rfl
      exact hpainted.alters.mono fun px py _ _ hin => by
        unfold textPicture at hin
        split_ifs at hin with hdot
        · exact hdot
        · exact absurd rfl hin
    rw [← hunmapped] at hdots
    rw [if_neg (by decide)]
    split_ifs
    · exact hdots.trans (alters_damage _ _ _ _ _ _)
    · exact hdots
  exact ⟨⟨hleaves, h.later hleaves halters⟩, halters⟩

theorem drawableSurface_finds (sys : Answers) (s : Server) (source : UInt32) :
    (s.drawableSurface sys source).2.pixmaps = s.pixmaps
      ∧ ∀ id, (s.drawableSurface sys source).2.findWindow id = s.findWindow id := by
  by_cases hbare : s.BareDrawable source
  · obtain ⟨i, hi, heq⟩ := drawableSurface_bare sys hbare
    obtain ⟨-, j, hj, hzero⟩ := hbare
    obtain rfl := Option.some.inj (hi.symm.trans hj)
    obtain ⟨surface, hwindow⟩ := createWindowSurface_window sys s hzero
    rw [heq, createWindowSurface_pixmaps]
    refine ⟨rfl, fun id => ?_⟩
    have hsame : ∀ l, ((s.createWindowSurface sys i).2.window l).used = (s.window l).used
        ∧ ((s.createWindowSurface sys i).2.window l).id = (s.window l).id := fun l => by
      rw [hwindow]
      split_ifs with hl
      · subst hl
        exact ⟨rfl, rfl⟩
      · exact ⟨rfl, rfl⟩
    unfold findWindow
    simp only [hsame]
  · rw [drawableSurface_ready hbare]
    exact ⟨rfl, fun _ => rfl⟩

theorem Shown.looked (h : Shown s k other id d) (harena : ArenaInv (k.behind other s).surfaces)
    (source : UInt32) :
    Shown (s.drawableSurface (k.answers other) source).2 k other id d
      ∧ Alters (k.behind other s)
        (k.behind other (s.drawableSurface (k.answers other) source).2) d R := by
  obtain ⟨start, hK⟩ := h.sized
  obtain ⟨g, _, hgrant, -⟩ := hK.object
  have hkept := drawableSurface_undisturbed source
    (⟨harena, hgrant, hK, fun _ _ _ => rfl⟩ : Undisturbed (k.behind other s) d start g
      (k.behind other s))
  obtain ⟨hpixmaps, hfinds⟩ := drawableSurface_finds (k.answers other) s source
  have hfind : (s.drawableSurface (k.answers other) source).2.findPixmap id = s.findPixmap id := by
    unfold findPixmap
    rw [hpixmaps]
  refine ⟨⟨?_, h.surface, ?_, start, hkept.places⟩, hkept.places.trans hK.symm, fun x y hx hy _ => ?_⟩
  · obtain ⟨i, hi, rfl⟩ | ⟨p, hp, hw, hd⟩ := h.cases
    · obtain ⟨hlater, hsame⟩ := hi.after (k.answers other) source
      rw [hlater.drawable (k.answers other), hsame]
    · rw [hd]
      generalize hlooked : s.drawableSurface (k.answers other) source = looked at hfind hpixmaps ⊢
      unfold drawableSurface
      rw [hfind, hp]
      rw [hpixmaps]
  · rw [hfinds, hfind]
    exact h.single
  · have hplace := place_le hy (show x + 1 ≤ d.width from hx)
    rw [SurfaceKernel.pixelAt_eq hkept.places, SurfaceKernel.pixelAt_eq hK]
    exact hkept.pixels _ (by unfold Drawable.place; omega) (by unfold Drawable.place; omega)

theorem clipAxis_within (source destination length : ℤ) (sourceLimit destinationLimit : ℕ) :
    destination ≤ (clipAxis source destination length sourceLimit destinationLimit).2.1
      ∧ (clipAxis source destination length sourceLimit destinationLimit).2.1
        + (clipAxis source destination length sourceLimit destinationLimit).2.2
        ≤ destination + length := by
  by_cases hsource : source < 0
  · simp only [clipAxis, clipStart, if_pos hsource]
    split_ifs <;> dsimp only <;> omega
  · simp only [clipAxis, clipStart, if_neg hsource]
    split_ifs <;> dsimp only <;> omega

theorem copyParts_alters {a : Drawable} (hK : (k.behind other s).Places d.surface start d.width d.height)
    {sx sy dx dy width height : UInt16} {u : Server} (hu : k.behind other u = k.behind other s)
    (hempty : ¬((clipCopy a d sx sy dx dy width height).width ≤ 0
      ∨ (clipCopy a d sx sy dx dy width height).height ≤ 0)) (same : Bool) :
    Alters (k.behind other s) (k.behind other (forEach (copyPart (k.answers other) a d
      (clipCopy a d sx sy dx dy width height)) (copyOrder same
        (clipCopy a d sx sy dx dy width height)) u).2) d
      (Area.mk (int16 dx) (int16 dy) width.toNat height.toNat).Has := by
  have hr := clipCopy_inside hempty
  obtain ⟨m, hm, hboxed⟩ := forEach_boxed (k := k) hK
    (fun part (hpart : part ∈ copyOrder same (clipCopy a d sx sy dx dy width height)) v =>
      copyPart_writes hr hpart v) hu boxed_self
  obtain ⟨hleft, hright⟩ := clipAxis_within (int16 sx) (int16 dx) width.toNat a.width d.width
  obtain ⟨htop, hbottom⟩ := clipAxis_within (int16 sy) (int16 dy) height.toNat a.height d.height
  rw [hm]
  refine (alters_of_boxed hK hboxed).mono fun px py _ _ hin => ?_
  unfold Box.Has clipCopy at hin
  unfold Area.Has
  dsimp only at hin ⊢
  omega

theorem copyArea_alters (h : Shown s k other id d) (harena : ArenaInv (k.behind other s).surfaces)
    (source : UInt32) (sx sy dx dy width height : UInt16) :
    Shown (s.copyArea (k.answers other) source id sx sy dx dy width height).2 k other id d
      ∧ Alters (k.behind other s)
        (k.behind other (s.copyArea (k.answers other) source id sx sy dx dy width height).2) d
        (Area.mk (int16 dx) (int16 dy) width.toNat height.toNat).Has := by
  obtain ⟨hlooked, hkept⟩ := h.looked harena source
  have hleaves := copyArea_leaves (k.answers other) s source id sx sy dx dy width height
  suffices hlast : Alters (k.behind other (s.drawableSurface (k.answers other) source).2)
      (k.behind other (s.copyArea (k.answers other) source id sx sy dx dy width height).2) d
      (Area.mk (int16 dx) (int16 dy) width.toNat height.toNat).Has by
    rw [hlooked.ready, ite_self] at hleaves
    exact ⟨hlooked.later hleaves hlast, hkept.trans hlast⟩
  obtain ⟨start, hK⟩ := hlooked.sized
  have hready := hlooked.ready
  unfold copyArea
  rcases hdrawable : s.drawableSurface (k.answers other) source with ⟨_ | a, v⟩
  · exact alters_refl _ _ _
  rw [hdrawable] at hready hK
  dsimp only at hready hK ⊢
  rw [hready]
  dsimp only
  by_cases hempty : (clipCopy a d sx sy dx dy width height).width ≤ 0
      ∨ (clipCopy a d sx sy dx dy width height).height ≤ 0
  · rw [if_pos hempty]
    exact alters_refl _ _ _
  have hmapped : k.behind other (v.call (k.answers other) (.surfaceMap a.surface)).2
    = k.behind other v := rfl
  have hparts := copyParts_alters (a := a) hK hmapped hempty (a.surface = d.surface)
  split_ifs
  · exact alters_refl _ _ _
  · exact hparts
  · exact hparts.trans (alters_damage _ _ _ _ _ _)
  · exact hparts

/-! ## Served requests -/

theorem Shown.requested (h : Shown s k other id d) (p : Packet) :
    Shown (s.requested p) k other id d where
  ready := by rw [drawableSurface_requested, h.ready]
  surface := h.surface
  single := h.single
  sized := h.sized

theorem parsed_of_serve {sys : Answers} (h : s.serve sys client m = some t) :
    (s.requested (m.packet client)).parseRequest sys = some (false, t) := by
  obtain ⟨⟨bad, u⟩, hparse, hgood⟩ := Option.bind_eq_some_iff.1 h
  dsimp only at hgood
  split_ifs at hgood with hbad
  obtain rfl := Option.some.inj hgood
  rw [Bool.eq_false_of_not_eq_true hbad] at hparse
  exact hparse

theorem text_alters (h : Shown s k other id d) (a : ℕ) {scale : ℕ} (hscale : scale ≤ 8)
    (buffered : Bool) (hpass : ¬(s.drawGlyphs (k.answers other) id s.foreground (s.field16 12)
      (s.field16 14) (fun j => s.payload (a + j)) (s.payload 16).toNat scale buffered).1 < 0) :
    Shown (s.drawGlyphs (k.answers other) id s.foreground (s.field16 12) (s.field16 14)
        (fun j => s.payload (a + j)) (s.payload 16).toNat scale buffered).2 k other id d
      ∧ Alters (k.behind other s) (k.behind other (s.drawGlyphs (k.answers other) id s.foreground
        (s.field16 12) (s.field16 14) (fun j => s.payload (a + j)) (s.payload 16).toNat scale
        buffered).2) d fun px py => ∃ column < (s.payload 16).toNat, Dot d (int16 (s.field16 12))
          (int16 (s.field16 14) - 7 * scale) (fun j => s.payload (a + j)) scale column px py := by
  obtain ⟨hamid, halters⟩ := drawGlyphs_alters h s.foreground (s.field16 12) (s.field16 14)
    (fun j => s.payload (a + j)) hscale buffered hpass
  exact ⟨hamid.2, halters⟩

/-- A drawing request that is served changes no pixel of the drawable but those it marks. -/
theorem serve_spares (harena : ArenaInv k.surfaces) (h : Shown s k other id d)
    (hlength : m.length < 65536) (hdraws : m.DrawsOn id)
    (hserve : s.serve (k.answers other) client m = some t) :
    Shown t k other id d ∧ Alters (k.behind other s) (k.behind other t) d (m.Marks d) := by
  have hparse := parsed_of_serve hserve
  have h' := h.requested (m.packet client)
  have hvisible : ∀ {x y : ℕ}, x < d.width → y < d.height →
      (0 : ℤ) ≤ x ∧ (x : ℤ) < d.width ∧ (0 : ℤ) ≤ y ∧ (y : ℤ) < d.height := by omega
  rcases hdraws with ⟨hop, hid⟩ | ⟨hop, hid⟩
  · obtain ⟨hpass, hlast⟩ := copyAreaRequest_drawn (handled_of_answered hparse 31 rfl hop)
    rw [show (s.requested (m.packet client)).field32 8 = id from hid] at hlast
    obtain ⟨hshown, halters⟩ := copyArea_alters h' (replay_inv harena other _)
      ((s.requested (m.packet client)).field32 4) ((s.requested (m.packet client)).field16 16)
      ((s.requested (m.packet client)).field16 18) ((s.requested (m.packet client)).field16 20)
      ((s.requested (m.packet client)).field16 22) ((s.requested (m.packet client)).field16 24)
      ((s.requested (m.packet client)).field16 26)
    rw [hlast] at hshown halters
    exact ⟨hshown, halters.mono fun x y hx hy hin =>
      ⟨hvisible hx hy, .inr (.inr (.inl ⟨hop, hin⟩))⟩⟩
  have hid' : (s.requested (m.packet client)).field32 4 = id := hid
  simp only [List.mem_cons, List.not_mem_nil, or_false] at hop
  obtain hop | hop | hop | hop := hop
  · have hhandled : (s.requested (m.packet client)).polyFillRectangle (k.answers other) id
        = (false, t) := hid' ▸ handled_of_answered hparse 29 rfl hop
    obtain ⟨⟨-, hshown⟩, halters⟩ := polyFillRectangle_alters h' hhandled
    have hcount : (s.requested (m.packet client)).incoming.payloadLength.toNat = m.length := by
      show (UInt16.ofNat m.length).toNat = m.length
      rw [UInt16.toNat_ofNat', Nat.mod_eq_of_lt hlength]
    rw [hcount] at halters
    refine ⟨hshown, halters.mono fun x y hx hy ⟨index, hindex, hin⟩ =>
      ⟨hvisible hx hy, .inl ⟨hop, _, List.mem_map_of_mem hindex, hin⟩⟩⟩
  · have hhandled : (s.requested (m.packet client)).putImageRequest (k.answers other) id
        = (false, t) := hid' ▸ handled_of_answered hparse 30 rfl hop
    obtain ⟨⟨-, hshown⟩, halters⟩ := putImageRequest_alters h' hhandled
    exact ⟨hshown, halters.mono fun x y hx hy hin =>
      ⟨hvisible hx hy, .inr (.inl ⟨hop, hin⟩)⟩⟩
  · have hhandled : (s.requested (m.packet client)).polyText8 (k.answers other) id
        = (false, t) := hid' ▸ handled_of_answered hparse 33 rfl hop
    obtain ⟨hpass, rfl⟩ := polyText_drawn hhandled
    obtain ⟨hshown, halters⟩ := text_alters h' 17 (by decide) true hpass
    exact ⟨hshown, halters.mono fun x y hx hy hin =>
      ⟨hvisible hx hy, .inr (.inr (.inr (.inl ⟨hop, hin⟩)))⟩⟩
  · have hhandled : (s.requested (m.packet client)).polyText8Scaled (k.answers other) id
        = (false, t) := hid' ▸ handled_of_answered hparse 34 rfl hop
    obtain ⟨hpass, rfl⟩ := polyText_drawn hhandled
    unfold drawTextScaled at hpass ⊢
    by_cases hscale : (s.requested (m.packet client)).payload 17 = 0
        ∨ 8 < (s.requested (m.packet client)).payload 17
    · rw [if_pos hscale] at hpass
      exact absurd (show (-4 : ℤ) < 0 by decide) hpass
    rw [if_neg hscale] at hpass ⊢
    rw [not_or, UInt8.not_lt] at hscale
    have hsmall := UInt8.le_iff_toNat_le.1 hscale.2
    obtain ⟨hshown, halters⟩ := text_alters h' 18 hsmall false hpass
    exact ⟨hshown, halters.mono fun x y hx hy hin =>
      ⟨hvisible hx hy, .inr (.inr (.inr (.inr ⟨hop, hsmall, hin⟩)))⟩⟩

end Server

end DemonX

end DemonOS
