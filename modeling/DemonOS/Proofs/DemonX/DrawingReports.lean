import DemonOS.Proofs.DemonX.Pictures
import DemonOS.Proofs.DemonX.SurfaceCreation

/-!
# Drawing requests report what they draw

`clear_background` and `copy_area` report the rectangle they have clipped and written, so all they
change is covered (`clearBackground_covers`, `copyArea_covers`). `put_image` and the text routines
report theirs unclipped, so what they change is covered just when it fits the window, or each pixel
that changes was in the damage before (`putImage_covers_iff`, `drawGlyphs_covers_iff`). The requests
do as the routines (`drawing_reported_iff`); an image one pixel wider than what the window has room
for is drawn and reported to nobody (`image_not_reported`).
-/

namespace DemonOS

namespace DemonX

namespace Server

variable {d : Drawable} {t : Server}

def windowSurface (s : Server) (i : ℕ) : Drawable :=
  ⟨(s.window i).surfaceHandle, clampedWidth (s.window i), clampedHeight (s.window i), some i⟩

theorem windowSurface_small (s : Server) (i : ℕ) :
    (s.windowSurface i).width ≤ 65535 ∧ (s.windowSurface i).height ≤ 65535 := by
  have := (s.window i).width.toNat_lt
  have := (s.window i).height.toNat_lt
  unfold windowSurface clampedWidth clampedHeight
  dsimp only
  omega

variable {k : SurfaceKernel} {other : Answers} {s : Server} {i : ℕ} {start : ℕ}

def FailsOrCovers (k : SurfaceKernel) (other : Answers) (K : SurfaceKernel) (d : Drawable)
    (result : ℤ × Server) : Prop :=
  result.1 < 0 ∨ K.Covers (k.behind other result.2) d

/-! ## Clears -/

def edges (left top right bottom : ℕ) : Box := ⟨left, top, right - left, bottom - top⟩

theorem edges_reported {left top right bottom : ℕ}
    (hsmall : d.width ≤ 65535 ∧ d.height ≤ 65535) (hlr : left < right) (htb : top < bottom)
    (hright : right ≤ d.width) (hbottom : bottom ≤ d.height) :
    (edges left top right bottom).Reported ∧ (edges left top right bottom).Fits d := by
  unfold edges
  refine ⟨⟨?_, ?_, ?_, ?_⟩, ⟨?_, ?_, ?_, ?_⟩⟩ <;> dsimp only <;> omega

theorem cell_writes {left top right bottom : ℕ} (hlr : left ≤ right)
    (hright : right ≤ d.width) (hbottom : bottom ≤ d.height) {cell : ℕ × ℕ × ℕ}
    (hcell : cell ∈ cells top bottom left right) {u v : Server} {pixels : List UInt32}
    (hv : k.behind other v = k.behind other u) (hlength : pixels.length = cell.2.2) :
    WritesRow k other d (edges left top right bottom) u
      (v.surfaceWritePixels (k.answers other) d.surface pixels (cell.1 * d.width + cell.2.1)) := by
  obtain ⟨row, hrow, hparts⟩ := List.mem_flatMap.1 hcell
  obtain ⟨part, hpart, rfl⟩ := List.mem_map.1 hparts
  rw [List.mem_range] at hrow
  have hin := mem_chunks hpart
  have hshort := mem_chunks_short hpart
  dsimp only at hlength ⊢
  unfold drawChunkPixels at hshort
  unfold WritesRow surfaceMaxWidth surfaceMaxHeight edges Box.Has
  exact ⟨v, pixels, top + row, part.1, rfl, hv, by omega, by omega, by omega,
    fun c hlo hhi => by dsimp only; omega⟩

variable (k other) in
theorem fillCells_boxed {K : SurfaceKernel} {left right : ℕ} (top bottom : ℕ)
    (hK : K.Places d.surface start d.width d.height) (hlr : left ≤ right)
    (hright : right ≤ d.width) (hbottom : bottom ≤ d.height) {u : Server}
    (hu : k.behind other u = K) :
    ∃ m, k.behind other (u.fillCells (k.answers other) d.surface d.width
        (cells top bottom left right)).2 = K.withPixels m
      ∧ Boxed K d start (edges left top right bottom) m :=
  forEach_boxed hK (fun _ hcell _ => cell_writes hlr hright hbottom hcell rfl
    (by rw [List.length_map, List.length_range])) hu boxed_self

theorem fillRectangle_covers (hsurface : (s.window i).surfaceHandle ≠ 0)
    (hkernel : (s.window i).surfaceHandle ≠ fallbackSurface)
    (hK : (k.behind other s).Places (s.windowSurface i).surface start (s.windowSurface i).width
      (s.windowSurface i).height) (color : UInt32) (x y width height : UInt16) :
    FailsOrCovers k other (k.behind other s) (s.windowSurface i)
      (s.fillRectangle (k.answers other) i color x y width height) := by
  have hwidth : surfaceWidth (s.window i) = (s.windowSurface i).width := if_neg hkernel
  have hheight : surfaceHeight (s.window i) = (s.windowSurface i).height := if_neg hkernel
  have hhandle : (s.window i).surfaceHandle = (s.windowSurface i).surface := rfl
  have hsmall := windowSurface_small s i
  unfold fillRectangle
  rw [createWindowSurface_ready _ hsurface]
  dsimp only
  rw [if_neg (by decide), if_neg hkernel, hwidth, hheight, hhandle]
  generalize s.windowSurface i = d at *
  generalize (int16 x).toNat = left
  generalize (int16 y).toNat = top
  generalize hr : (min (int16 x + width.toNat) d.width).toNat = right
  generalize hb : (min (int16 y + height.toNat) d.height).toNat = bottom
  by_cases hempty : right ≤ left ∨ bottom ≤ top
  · rw [if_pos hempty]
    exact .inr covers_self
  rw [if_neg hempty]
  rw [not_or, not_le, not_le] at hempty
  obtain ⟨hreported, hfits⟩ := edges_reported hsmall hempty.1 hempty.2 (by omega) (by omega)
  obtain ⟨m, hm, hboxed⟩ := fillCells_boxed k other top bottom hK hempty.1.le (by omega) (by omega)
    (u := s.fillDraw drawChunkPixels (color ||| opaqueAlpha)) rfl
  have hcovers := covers_of_boxed hK hsmall hm hboxed hreported hfits
  split_ifs
  · exact .inl (show (-2 : ℤ) < 0 by decide)
  · exact .inr hcovers
  · exact .inl (show (-3 : ℤ) < 0 by decide)

theorem tilePart_writes (p : Pixmap) {left top right bottom : ℕ} (hlr : left ≤ right)
    (hright : right ≤ d.width) (hbottom : bottom ≤ d.height) {cell : ℕ × ℕ × ℕ}
    (hcell : cell ∈ cells top bottom left right) (u : Server) :
    WritesRow k other d (edges left top right bottom) u
      (tilePart (k.answers other) p d.surface d.width cell u) := by
  obtain ⟨hread, hbehind⟩ := readPixels_behind k other p.surfaceHandle
    ((List.range cell.2.2).map fun j =>
      cell.1 % p.height.toNat * p.width.toNat + (cell.2.1 + j) % p.width.toNat) u
  have hlength : (u.readPixels (k.answers other) p.surfaceHandle ((List.range cell.2.2).map fun j =>
      cell.1 % p.height.toNat * p.width.toNat + (cell.2.1 + j) % p.width.toNat)).1.length
        = cell.2.2 := by
    rw [hread, List.length_map, List.length_map, List.length_range]
  have hpart : tilePart (k.answers other) p d.surface d.width cell u = _ :=
    setDraw_surfaceWrite _ (k.answers other) d.surface _ hlength _
  rw [hpart]
  exact cell_writes hlr hright hbottom hcell hbehind hlength

theorem tileBackground_covers (hsurface : (s.window i).surfaceHandle ≠ 0)
    (hkernel : (s.window i).surfaceHandle ≠ fallbackSurface)
    (hK : (k.behind other s).Places (s.windowSurface i).surface start (s.windowSurface i).width
      (s.windowSurface i).height) (p : ℕ) (x y width height : UInt16) :
    FailsOrCovers k other (k.behind other s) (s.windowSurface i)
      (s.tileBackground (k.answers other) i p x y width height) := by
  have hwidth : clampedWidth (s.window i) = (s.windowSurface i).width := rfl
  have hheight : clampedHeight (s.window i) = (s.windowSurface i).height := rfl
  have hhandle : (s.window i).surfaceHandle = (s.windowSurface i).surface := rfl
  have hsmall := windowSurface_small s i
  unfold tileBackground
  rw [createWindowSurface_ready _ hsurface]
  dsimp only
  rw [if_neg (by simpa using hkernel), hwidth, hheight, hhandle]
  generalize s.windowSurface i = d at *
  generalize (int16 x).toNat = left
  generalize (int16 y).toNat = top
  generalize hr : (min (int16 x + width.toNat) d.width).toNat = right
  generalize hb : (min (int16 y + height.toNat) d.height).toNat = bottom
  have hmapped : k.behind other (s.call (k.answers other)
    (.surfaceMap (s.pixmaps p).surfaceHandle)).2 = k.behind other s := rfl
  generalize s.call (k.answers other) (.surfaceMap (s.pixmaps p).surfaceHandle) = mapped at hmapped ⊢
  by_cases hmap : mapped.1 = failure
  · rw [if_pos hmap]
    exact .inl (show (-2 : ℤ) < 0 by decide)
  rw [if_neg hmap]
  by_cases hempty : right ≤ left ∨ bottom ≤ top
  · rw [if_pos hempty]
    refine .inr ?_
    have hunmapped : k.behind other (mapped.2.call' (k.answers other)
      (.surfaceUnmap (s.pixmaps p).surfaceHandle)) = k.behind other s := hmapped
    rw [hunmapped]
    exact covers_self
  rw [if_neg hempty]
  rw [not_or, not_le, not_le] at hempty
  obtain ⟨hreported, hfits⟩ := edges_reported hsmall hempty.1 hempty.2 (by omega) (by omega)
  obtain ⟨m, hm, hboxed⟩ := forEach_boxed (k := k) (r := edges left top right bottom) hK
    (fun cell hcell u => tilePart_writes (s.pixmaps p) hempty.1.le (by omega) (by omega) hcell u)
    hmapped boxed_self
  generalize forEach (tilePart (k.answers other) (s.pixmaps p) d.surface d.width)
    (cells top bottom left right) mapped.2 = written at hm ⊢
  have hunmapped : k.behind other (written.2.call' (k.answers other)
    (.surfaceUnmap (s.pixmaps p).surfaceHandle)) = (k.behind other s).withPixels m := hm
  have hcovers := covers_of_boxed hK hsmall hunmapped hboxed hreported hfits
  split_ifs
  · exact .inl (show (-3 : ℤ) < 0 by decide)
  · exact .inr hcovers

/-- A clear reports what it clears. -/
theorem clearBackground_covers (hsurface : (s.window i).surfaceHandle ≠ 0)
    (hkernel : (s.window i).surfaceHandle ≠ fallbackSurface)
    (hK : (k.behind other s).Places (s.windowSurface i).surface start (s.windowSurface i).width
      (s.windowSurface i).height) (x y width height : UInt16) :
    FailsOrCovers k other (k.behind other s) (s.windowSurface i)
      (s.clearBackground (k.answers other) i x y width height) := by
  unfold clearBackground
  dsimp only
  rcases s.findPixmap (s.window i).backgroundPixmap with _ | p
  · exact fillRectangle_covers hsurface hkernel hK _ _ _ _ _
  · dsimp only
    split_ifs
    · exact fillRectangle_covers hsurface hkernel hK _ _ _ _ _
    · exact tileBackground_covers hsurface hkernel hK _ _ _ _ _

/-! ## Copies -/

structure DrawnOn (s : Server) (id : UInt32) (i : ℕ) : Prop where
  pixmap : s.findPixmap id = none
  window : s.findWindow id = some i
  surface : (s.window i).surfaceHandle ≠ 0
  kernel : (s.window i).surfaceHandle ≠ fallbackSurface

variable {id : UInt32} {sys : Answers}

variable (sys) in
theorem DrawnOn.drawable (h : DrawnOn s id i) :
    s.drawableSurface sys id = (some (s.windowSurface i), s) := by
  unfold drawableSurface
  rw [h.pixmap, h.window]
  dsimp only
  rw [createWindowSurface_ready sys h.surface, if_neg (by simpa using h.kernel)]
  rfl

variable (sys) in
theorem createWindowSurface_window (s : Server) {j : ℕ} (hj : (s.window j).surfaceHandle = 0) :
    ∃ surface, ∀ l, (s.createWindowSurface sys j).2.window l
      = if l = j then { s.window j with surfaceHandle := surface } else s.window l := by
  obtain ⟨t, surface, hleft, hset, -⟩ := createWindowSurface_sets sys s j hj
  refine ⟨surface, fun l => ?_⟩
  rw [hset.window, window_setWindow]
  split_ifs
  · rfl
  · exact hleft.window l

variable (sys) in
/-- Another drawable being looked up changes nothing for it. -/
theorem DrawnOn.after (h : DrawnOn s id i) (other : UInt32) :
    DrawnOn (s.drawableSurface sys other).2 id i
      ∧ (s.drawableSurface sys other).2.windowSurface i = s.windowSurface i := by
  by_cases hbare : s.BareDrawable other
  swap
  · rw [drawableSurface_ready hbare]
    exact ⟨h, rfl⟩
  obtain ⟨j, hj, heq⟩ := drawableSurface_bare sys hbare
  obtain ⟨-, j', hj', hzero⟩ := hbare
  obtain rfl := Option.some.inj (hj.symm.trans hj')
  obtain ⟨surface, hwindow⟩ := createWindowSurface_window sys s hzero
  rw [← heq] at hwindow
  have hne : i ≠ j := by
    rintro rfl
    exact h.surface hzero
  have hi : (s.drawableSurface sys other).2.window i = s.window i := by rw [hwindow, if_neg hne]
  have hpixmaps : (s.drawableSurface sys other).2.pixmaps = s.pixmaps := by
    rw [heq, createWindowSurface_pixmaps]
  have hfind : (s.drawableSurface sys other).2.findWindow id = s.findWindow id := by
    have hsame : ∀ l, ((s.drawableSurface sys other).2.window l).used = (s.window l).used
        ∧ ((s.drawableSurface sys other).2.window l).id = (s.window l).id := fun l => by
      rw [hwindow]
      split_ifs with hl
      · subst hl
        exact ⟨rfl, rfl⟩
      · exact ⟨rfl, rfl⟩
    unfold findWindow
    simp only [hsame]
  refine ⟨⟨?_, hfind.trans h.window, by rw [hi]; exact h.surface, by rw [hi]; exact h.kernel⟩, ?_⟩
  · have hpixmap := h.pixmap
    unfold findPixmap at hpixmap ⊢
    rw [hpixmaps]
    exact hpixmap
  · unfold windowSurface
    rw [hi]

theorem copyPart_writes {a d : Drawable} {r : CopyRegion} {same : Bool} (hr : r.Inside a d)
    {part : ℕ × ℕ × ℕ} (hpart : part ∈ copyOrder same r) (u : Server) :
    WritesRow k other d ⟨r.dx, r.dy, r.width, r.height⟩ u
      (copyPart (k.answers other) a d r part u) := by
  obtain ⟨v, pixels, hcopy, hv, hlength, -⟩ := copyPart_read k other (a := a) (b := d) (r := r) u part
  obtain ⟨hrow, hcolumn⟩ := mem_copyOrder hpart
  have hshort := hlength ▸ copyOrder_short hpart
  have := hr.wide
  have := hr.dx
  have := hr.dy
  have := hr.right'
  have := hr.bottom'
  have hplace : (r.dy.toNat + part.1) * d.width + r.dx.toNat + part.2.1
      = (r.dy.toNat + part.1) * d.width + (r.dx.toNat + part.2.1) := Nat.add_assoc _ _ _
  rw [hplace] at hcopy
  unfold WritesRow Box.Has
  exact ⟨v, pixels, _, _, hcopy, hv, hshort, by omega, by omega,
    fun c hlo hhi => by dsimp only; omega⟩

theorem Undisturbed.covers {K K' K'' : SurfaceKernel} {g : SurfaceGrant}
    (h : Undisturbed K d start g K') (hK : K.Places d.surface start d.width d.height)
    (hcovers : K'.Covers K'' d) : K.Covers K'' d := by
  intro px py hpx hpy hne
  refine hcovers px py hpx hpy ?_
  have hplace := place_le hpy (show px + 1 ≤ d.width from hpx)
  rw [SurfaceKernel.pixelAt_eq hK] at hne
  rw [SurfaceKernel.pixelAt_eq h.places, h.pixels _ (by unfold Drawable.place; omega)
    (by unfold Drawable.place; omega)]
  exact hne

/-- A copy reports what it copies. -/
theorem copyArea_covers (h : DrawnOn s id i) (harena : ArenaInv (k.behind other s).surfaces)
    (hK : (k.behind other s).Places (s.windowSurface i).surface start (s.windowSurface i).width
      (s.windowSurface i).height) (source : UInt32) (sx sy dx dy width height : UInt16) :
    FailsOrCovers k other (k.behind other s) (s.windowSurface i)
      (s.copyArea (k.answers other) source id sx sy dx dy width height) := by
  obtain ⟨g, _, hgrant, -⟩ := hK.object
  have hbefore : Undisturbed (k.behind other s) (s.windowSurface i) start g (k.behind other s) :=
    ⟨harena, hgrant, hK, fun _ _ _ => rfl⟩
  have hkept := drawableSurface_undisturbed source hbefore
  obtain ⟨hlater, hsame⟩ := h.after (k.answers other) source
  have hfound := hlater.drawable (k.answers other)
  rw [hsame] at hfound
  have hsmall := windowSurface_small s i
  have hwindow : (s.windowSurface i).window.isSome = true := rfl
  unfold copyArea
  rcases hdrawable : s.drawableSurface (k.answers other) source with ⟨_ | a, t⟩
  · exact .inl (show (-1 : ℤ) < 0 by decide)
  rw [hdrawable] at hkept hfound
  dsimp only at hkept hfound ⊢
  rw [hfound]
  dsimp only
  generalize s.windowSurface i = d at *
  generalize hregion : clipCopy a d sx sy dx dy width height = r
  by_cases hempty : r.width ≤ 0 ∨ r.height ≤ 0
  · rw [if_pos hempty]
    exact .inr (hkept.covers hK covers_self)
  have hr : r.Inside a d := by
    rw [← hregion] at hempty ⊢
    exact clipCopy_inside hempty
  have hmapped : k.behind other (t.call (k.answers other) (.surfaceMap a.surface)).2
    = k.behind other t := rfl
  generalize t.call (k.answers other) (.surfaceMap a.surface) = mapped at hmapped ⊢
  obtain ⟨m, hm, hboxed⟩ := forEach_boxed (k := k) hkept.places
    (fun part (hpart : part ∈ copyOrder (a.surface = d.surface) r) u => copyPart_writes hr hpart u)
    hmapped boxed_self
  generalize forEach (copyPart (k.answers other) a d r) (copyOrder (a.surface = d.surface) r) mapped.2
    = copied at hm ⊢
  have hunmapped : k.behind other (copied.2.call' (k.answers other) (.surfaceUnmap a.surface))
    = (k.behind other t).withPixels m := hm
  have hfits : (⟨r.dx, r.dy, r.width, r.height⟩ : Box).Fits d :=
    ⟨hr.wide, hr.high, hr.right', hr.bottom'⟩
  have hreported : (⟨r.dx, r.dy, r.width, r.height⟩ : Box).Reported := by
    obtain ⟨hwide, hhigh, -, -, hdx, hdy, -, -, hright, hbottom⟩ := hr
    refine ⟨?_, ?_, ?_, ?_⟩ <;> dsimp only <;> omega
  have hcovers := hkept.covers hK
    (covers_of_boxed hkept.places hsmall hunmapped hboxed hreported hfits)
  split_ifs
  · exact .inl (show (-2 : ℤ) < 0 by decide)
  · exact .inl (show (-3 : ℤ) < 0 by decide)
  · exact .inr hcovers

/-! ## Images and texts -/

def Pends (K : SurfaceKernel) (d : Drawable) (picture : Picture) : Prop :=
  ∀ px py : ℕ, px < d.width → py < d.height → ∀ c, picture px py = some c →
    K.pixelAt d px py ≠ c → K.Pending d.surface px py

theorem drawn_covers_iff {K : SurfaceKernel} {r : Box} {picture : Picture}
    {u : Server} {m : ℕ → UInt32} (hK : K.Places d.surface start d.width d.height)
    (hsmall : d.width ≤ 65535 ∧ d.height ≤ 65535) (hr : r.Reported)
    (hu : k.behind other u = K.withPixels m) (hpaints : Paints d start K.surfaces.pixels m picture)
    (hfrozen : K.writable d.surface = none → m = K.surfaces.pixels)
    (hin : ∀ px py : ℕ, ∀ c, picture px py = some c → r.Has px py) :
    K.Covers (k.behind other
        (u.damage (k.answers other) d.surface r.x r.y r.width r.height).2) d
      ↔ r.Fits d ∨ Pends K d picture := by
  have hchanged : ∀ px py : ℕ, px < d.width → py < d.height →
      (m (d.place start px py) ≠ K.surfaces.pixels (d.place start px py)
        ↔ ∃ c, picture px py = some c ∧ K.pixelAt d px py ≠ c) := fun px py hpx hpy => by
    rw [hpaints px py hpx hpy, SurfaceKernel.pixelAt_eq hK]
    rcases picture px py with _ | c
    · exact iff_of_false (fun hne => hne rfl) fun ⟨c, hc, _⟩ => nomatch hc
    · exact ⟨fun hne => ⟨c, rfl, hne.symm⟩, fun ⟨c', hc, hne⟩ => by
        obtain rfl := Option.some.inj hc
        exact hne.symm⟩
  have hcovers := SurfaceKernel.damage_covers_iff hK hsmall hr (m := m)
    (fun _ px py hpx hpy hne => by
      obtain ⟨c, hc, -⟩ := (hchanged px py hpx hpy).1 hne
      exact hin px py c hc)
    hfrozen (other (.surfaceDamage d.surface (UInt32.ofInt r.x) (UInt32.ofInt r.y)
      (UInt32.ofInt r.width) (UInt32.ofInt r.height) :: u.calls))
  rw [← hu] at hcovers
  refine hcovers.trans (or_congr_right ?_)
  constructor
  · exact fun h px py hpx hpy c hc hne => h px py hpx hpy ((hchanged px py hpx hpy).2 ⟨c, hc, hne⟩)
  · intro h px py hpx hpy hne
    obtain ⟨c, hc, hne⟩ := (hchanged px py hpx hpy).1 hne
    exact h px py hpx hpy c hc hne

def putBox (x y width height : UInt16) : Box :=
  ⟨max (int16 x) 0, max (int16 y) 0, width.toNat, height.toNat⟩

theorem int16_lt (v : UInt16) : int16 v < 2 ^ 15 := by
  have := v.toBitVec.toInt_lt
  unfold int16
  omega

theorem putBox_reported (x y width height : UInt16) : (putBox x y width height).Reported := by
  have := int16_lt x
  have := int16_lt y
  have := width.toNat_lt
  have := height.toNat_lt
  unfold putBox
  refine ⟨?_, ?_, ?_, ?_⟩ <;> dsimp only <;> omega

/-- An image is covered where its rectangle fits, or what it changes was in the damage before. -/
theorem putImage_covers_iff (h : DrawnOn s id i)
    (hK : (k.behind other s).Places (s.windowSurface i).surface start (s.windowSurface i).width
      (s.windowSurface i).height) (x y width height : UInt16) (data : ℕ → UInt8)
    (hpass : ¬(s.putImage (k.answers other) id x y width height data).1 < 0) :
    (k.behind other s).Covers
        (k.behind other (s.putImage (k.answers other) id x y width height data).2)
        (s.windowSurface i)
      ↔ (putBox x y width height).Fits (s.windowSurface i)
        ∨ Pends (k.behind other s) (s.windowSurface i)
          (putPicture (int16 x) (int16 y) width.toNat height.toNat data) := by
  have hsmall := windowSurface_small s i
  have hfound := h.drawable (k.answers other)
  have hwindow : (s.findWindow id).isSome = true := by rw [h.window]; rfl
  unfold putImage at hpass ⊢
  rw [hfound, hwindow] at hpass ⊢
  dsimp only at hpass ⊢
  generalize s.windowSurface i = d at *
  by_cases hvalid : s.validDrawable id = true
  swap
  · rw [Bool.eq_false_of_not_eq_true hvalid] at hpass
    exact absurd (show (-4 : ℤ) < 0 by decide) hpass
  rw [hvalid] at hpass ⊢
  have hpaints := fun hpass => putRows_paint (d := d) (x := x) (y := y) width.toNat_lt hK.starts
    (rfl : k.behind other s = _) (show (forEach (putRow (k.answers other) d x y width.toNat data)
      (List.range height.toNat) s).1 = true from hpass)
  generalize forEach (putRow (k.answers other) d x y width.toNat data) (List.range height.toNat) s
    = written at hpass hpaints ⊢
  rcases hwritten : written.1 with _ | _
  · rw [hwritten] at hpass
    exact absurd (show (-2 : ℤ) < 0 by decide) hpass
  obtain ⟨m, hm, hpicture, hfrozen⟩ := hpaints hwritten
  have hcovers := drawn_covers_iff (r := putBox x y width height) hK hsmall
    (putBox_reported x y width height) hm hpicture hfrozen fun px py c hc => by
      unfold putPicture at hc
      split_ifs at hc with hin
      unfold putBox Box.Has
      dsimp only
      omega
  exact hcovers

def textBox (x baseline : UInt16) (length scale : ℕ) : Box :=
  ⟨max (int16 x) 0, max (int16 baseline - 7 * scale) 0, length * 6 * scale, 7 * scale⟩

theorem textBox_reported (x baseline : UInt16) {length scale : ℕ} (hlength : length < 256)
    (hscale : scale ≤ 8) : (textBox x baseline length scale).Reported := by
  have := int16_lt x
  have := int16_lt baseline
  have harea : length * 6 * scale ≤ 255 * 6 * 8 := Nat.mul_le_mul (by omega) hscale
  have hcast : ((length * 6 * scale : ℕ) : ℤ) = (length : ℤ) * 6 * scale := by push_cast; rfl
  unfold textBox
  refine ⟨?_, ?_, ?_, ?_⟩ <;> dsimp only <;> omega

theorem textBox_has {x baseline : UInt16} {text : ℕ → UInt8}
    {length scale column px py : ℕ} (hcolumn : column < length)
    (hdot : Dot d (int16 x) (int16 baseline - 7 * scale) text scale column px py) :
    (textBox x baseline length scale).Has px py := by
  have hin := hdot.columns
  have hrows := hdot.rows
  have hend : (column + 1) * (6 * scale) ≤ length * (6 * scale) := Nat.mul_le_mul_right _ hcolumn
  rw [Nat.succ_mul] at hend
  have hcast : ((length * (6 * scale) : ℕ) : ℤ) = (length : ℤ) * 6 * scale := by push_cast; ring
  have hcast' : ((column * (6 * scale) : ℕ) : ℤ) = (column : ℤ) * 6 * scale := by push_cast; ring
  unfold textBox Box.Has
  dsimp only
  omega

/-- A text is covered where its rectangle fits, or what it changes was in the damage before. -/
theorem drawGlyphs_covers_iff (h : DrawnOn s id i)
    (hK : (k.behind other s).Places (s.windowSurface i).surface start (s.windowSurface i).width
      (s.windowSurface i).height) (color : UInt32) (x baseline : UInt16) (text : ℕ → UInt8)
    {length scale : ℕ} (hlength : length < 256) (hscale : scale ≤ 8) (buffered : Bool)
    (hpass : ¬(s.drawGlyphs (k.answers other) id color x baseline text length scale buffered).1
      < 0) :
    (k.behind other s).Covers (k.behind other
        (s.drawGlyphs (k.answers other) id color x baseline text length scale buffered).2)
        (s.windowSurface i)
      ↔ (textBox x baseline length scale).Fits (s.windowSurface i)
        ∨ Pends (k.behind other s) (s.windowSurface i)
          (textPicture (s.windowSurface i) (color ||| opaqueAlpha) (int16 x)
            (int16 baseline - 7 * scale) text length scale) := by
  have hsmall := windowSurface_small s i
  have hfound := h.drawable (k.answers other)
  have hwindow : (s.windowSurface i).window.isSome = true := rfl
  unfold drawGlyphs at hpass ⊢
  rw [hfound] at hpass ⊢
  dsimp only at hpass ⊢
  generalize s.windowSurface i = d at *
  have hmapped : k.behind other (s.call (k.answers other) (.surfaceMap d.surface)).2
    = k.behind other s := rfl
  generalize s.call (k.answers other) (.surfaceMap d.surface) = mapped at hmapped hpass ⊢
  by_cases hmap : mapped.1 = failure
  · rw [if_pos hmap] at hpass
    exact absurd (show (-2 : ℤ) < 0 by decide) hpass
  rw [if_neg hmap, hwindow] at hpass ⊢
  have hpaints := fun hpass => textRows_paint (d := d) hscale hK hmapped
    (show (forEach (glyphRow (k.answers other) d (color ||| opaqueAlpha) (int16 x)
      (int16 baseline - 7 * scale) text scale buffered) (textRows length scale) mapped.2).1 = true
      from hpass)
  generalize forEach (glyphRow (k.answers other) d (color ||| opaqueAlpha) (int16 x)
    (int16 baseline - 7 * scale) text scale buffered) (textRows length scale) mapped.2
      = written at hpass hpaints ⊢
  rcases hwritten : written.1 with _ | _
  · rw [hwritten] at hpass
    exact absurd (show (-3 : ℤ) < 0 by decide) hpass
  obtain ⟨m, hm, hpicture, hfrozen⟩ := hpaints hwritten
  have hunmapped : k.behind other (written.2.call' (k.answers other) (.surfaceUnmap d.surface))
    = (k.behind other s).withPixels m := hm
  have hcovers := drawn_covers_iff (r := textBox x baseline length scale) hK hsmall
    (textBox_reported x baseline hlength hscale) hunmapped hpicture hfrozen fun px py c hc => by
      unfold textPicture at hc
      split_ifs at hc with hdot
      obtain ⟨column, hcolumn, hdot⟩ := hdot
      exact textBox_has hcolumn hdot
  exact hcovers

/-! ## Requests -/

theorem handled_of_answered (h : s.parseRequest sys = some (false, t))
    {r : Request (Server → Answers → UInt32 → Bool × Server)} (n : ℕ)
    (hn : resourceRequests[n]? = some r) (hop : s.payload 0 = r.opcode) :
    r.handle s sys (s.field32 4) = (false, t) := by
  have hmem : ∀ op ∈ resourceRequests.map Request.opcode,
      op ≠ Opcode.grabServer ∧ op ≠ Opcode.ungrabServer := by decide +kernel
  obtain ⟨hgrab, hungrab⟩ := hmem _ (List.mem_map_of_mem (List.mem_of_getElem? hn))
  by_cases hadmitted : s.Admitted
  swap
  · obtain ⟨code, bad, hrefused⟩ :=
      parseRequest_unadmitted sys hadmitted (hop ▸ hgrab) (hop ▸ hungrab)
    exact nomatch h.symm.trans hrefused
  rcases htakes : r.takes s.incoming.payloadLength.toNat with _ | _
  · obtain ⟨code, bad, hrefused⟩ := parseRequest_misfit sys hadmitted n hn hop htakes
    exact nomatch h.symm.trans hrefused
  · exact Option.some.inj ((parseRequest_resource hadmitted n hn hop htakes).symm.trans h)

theorem cleared_of_answered (h : s.parseRequest sys = some (false, t))
    (hop : s.payload 0 = Opcode.clearArea) (hi : s.findWindow (s.field32 4) = some i) :
    s.clearArea sys i (s.field32 4) = (false, t) := by
  by_cases hadmitted : s.Admitted
  swap
  · obtain ⟨code, bad, hrefused⟩ :=
      parseRequest_unadmitted sys hadmitted (hop ▸ by decide) (hop ▸ by decide)
    exact nomatch h.symm.trans hrefused
  by_cases hlength : s.incoming.payloadLength.toNat = 16
  · exact Option.some.inj ((parseRequest_clearArea hadmitted hop hlength hi).symm.trans h)
  · have hnodup : (windowRequests.map Request.opcode).Nodup := by decide +kernel
    have hmisfit := find_misfit_eq_none hnodup (r := ⟨Opcode.clearArea, (· = 16), fun s sys i id => some (s.clearArea sys i id)⟩)
      (List.mem_cons_of_mem _ List.mem_cons_self) (decide_eq_false hlength)
    rw [parseRequest_admitted hadmitted (hop ▸ by decide) (hop ▸ by decide)] at h
    unfold ungrabbedRequest at h
    dsimp only at h
    rw [hop, Request.find_eq_none (by decide +kernel)] at h
    unfold windowRequest at h
    dsimp only at h hmisfit
    rw [Request.find_eq_none (by decide +kernel), hi, hmisfit] at h
    exact nomatch h

theorem refuse_unanswered (s t : Server) (code opcode : UInt8) (bad : UInt32) :
    s.refuse code opcode bad ≠ (false, t) := fun h =>
  Bool.false_ne_true (congrArg Prod.fst h).symm

theorem putImageRequest_drawn (h : s.putImageRequest sys id = (false, t)) :
    ¬(s.putImage sys id (s.field16 16) (s.field16 18) (s.field16 12) (s.field16 14)
        fun j => s.payload (24 + j)).1 < 0
      ∧ (s.putImage sys id (s.field16 16) (s.field16 18) (s.field16 12) (s.field16 14)
        fun j => s.payload (24 + j)).2 = t := by
  unfold putImageRequest at h
  rcases hgc : s.findGc (s.field32 8) with _ | gc
  · rw [hgc] at h
    exact absurd h (refuse_unanswered _ _ _ _ _)
  rw [hgc] at h
  dsimp only at h
  split_ifs at h with hbad hfail
  · exact absurd h (refuse_unanswered _ _ _ _ _)
  · exact absurd h (refuse_unanswered _ _ _ _ _)
  · exact absurd h (refuse_unanswered _ _ _ _ _)
  · exact ⟨hfail, congrArg Prod.snd h⟩

theorem copyAreaRequest_drawn (h : s.copyAreaRequest sys id = (false, t)) :
    ¬(s.copyArea sys id (s.field32 8) (s.field16 16) (s.field16 18) (s.field16 20) (s.field16 22)
        (s.field16 24) (s.field16 26)).1 < 0
      ∧ (s.copyArea sys id (s.field32 8) (s.field16 16) (s.field16 18) (s.field16 20) (s.field16 22)
        (s.field16 24) (s.field16 26)).2 = t := by
  unfold copyAreaRequest at h
  dsimp only at h
  split_ifs at h with h₁ h₂ h₃ hfail
  · exact absurd h (refuse_unanswered _ _ _ _ _)
  · exact absurd h (refuse_unanswered _ _ _ _ _)
  · exact absurd h (refuse_unanswered _ _ _ _ _)
  · exact absurd h (refuse_unanswered _ _ _ _ _)
  · exact absurd h (refuse_unanswered _ _ _ _ _)
  · exact ⟨hfail, congrArg Prod.snd h⟩

def foreground (s : Server) : UInt32 :=
  match s.findGc (s.field32 8) with
  | none => 0
  | some gc => (s.gcs gc).foreground

theorem polyText_drawn {opcode : UInt8} {first : ℕ}
    {draw : UInt32 → UInt16 → UInt16 → (ℕ → UInt8) → UInt8 → ℤ × Server}
    (h : s.polyText opcode id first draw = (false, t)) :
    ¬(draw s.foreground (s.field16 12) (s.field16 14) (fun j => s.payload (first + j))
        (s.payload 16)).1 < 0
      ∧ (draw s.foreground (s.field16 12) (s.field16 14) (fun j => s.payload (first + j))
        (s.payload 16)).2 = t := by
  unfold polyText at h
  unfold foreground
  rcases hgc : s.findGc (s.field32 8) with _ | gc
  · rw [hgc] at h
    exact absurd h (refuse_unanswered _ _ _ _ _)
  rw [hgc] at h
  dsimp only at h ⊢
  split_ifs at h with hbad hfail
  · exact absurd h (refuse_unanswered _ _ _ _ _)
  · exact absurd h (refuse_unanswered _ _ _ _ _)
  · exact ⟨hfail, congrArg Prod.snd h⟩

theorem clearArea_drawn (h : s.clearArea sys i id = (false, t)) :
    ¬(s.clearBackground sys i (s.field16 8) (s.field16 10) (s.field16 12) (s.field16 14)).1 < 0
      ∧ (s.clearBackground sys i (s.field16 8) (s.field16 10) (s.field16 12) (s.field16 14)).2
        = t := by
  unfold clearArea at h
  dsimp only at h
  split_ifs at h with hfail
  · exact absurd h (refuse_unanswered _ _ _ _ _)
  · exact ⟨hfail, congrArg Prod.snd h⟩

def DrawsOn (s : Server) (id : UInt32) : Prop :=
  (s.payload 0 = Opcode.copyArea ∧ id = s.field32 8)
    ∨ (s.payload 0 ∈ [Opcode.putImage, Opcode.polyText8, Opcode.polyText8Scaled, Opcode.clearArea]
      ∧ id = s.field32 4)

/-- What an image or a text reports, and what it draws. -/
noncomputable def unclipped (s : Server) (d : Drawable) : Option (Box × Picture) :=
  if s.payload 0 = Opcode.putImage then
    some (putBox (s.field16 16) (s.field16 18) (s.field16 12) (s.field16 14),
      putPicture (int16 (s.field16 16)) (int16 (s.field16 18)) (s.field16 12).toNat
        (s.field16 14).toNat fun j => s.payload (24 + j))
  else if s.payload 0 = Opcode.polyText8 then
    some (textBox (s.field16 12) (s.field16 14) (s.payload 16).toNat 1,
      textPicture d (s.foreground ||| opaqueAlpha) (int16 (s.field16 12))
        (int16 (s.field16 14) - 7 * (1 : ℕ)) (fun j => s.payload (17 + j)) (s.payload 16).toNat 1)
  else if s.payload 0 = Opcode.polyText8Scaled then
    some (textBox (s.field16 12) (s.field16 14) (s.payload 16).toNat (s.payload 17).toNat,
      textPicture d (s.foreground ||| opaqueAlpha) (int16 (s.field16 12))
        (int16 (s.field16 14) - 7 * ((s.payload 17).toNat : ℕ)) (fun j => s.payload (18 + j))
        (s.payload 16).toNat (s.payload 17).toNat)
  else none

def WellReported (s : Server) (K : SurfaceKernel) (d : Drawable) : Prop :=
  ∀ box picture, s.unclipped d = some (box, picture) → box.Fits d ∨ Pends K d picture

/-- Whatever has been done to the surfaces, and whatever the server has called: where a window's
surface has the size the server takes it to have, after a drawing request that succeeds each pixel of
the window that has changed is in the pending damage just when the request is a copy or a clear, or
the rectangle it reports fits the window, or the pixels it changes were in the damage before. -/
theorem drawing_reported_iff (arena arenaBytes : ℕ) (ops : List SurfaceOp) (pid : ℕ)
    (grant : UInt32 → Option SurfaceGrant) (other : Answers) (k : SurfaceKernel)
    (hk : k = ⟨Machine.run surfaceStep (Surfaces.freshArena arena arenaBytes) ops, pid, grant⟩)
    (s t : Server) (hrequest : s.parseRequest (k.answers other) = some (false, t))
    (id : UInt32) (i : ℕ) (hid : DrawnOn s id i) (hdraws : s.DrawsOn id)
    (hsized : (k.behind other s).Sized (s.windowSurface i)) :
    (k.behind other s).Covers (k.behind other t) (s.windowSurface i)
      ↔ s.WellReported (k.behind other s) (s.windowSurface i) := by
  have harena : ArenaInv (k.behind other s).surfaces := by
    refine replay_inv ?_ other s.calls
    rw [hk]
    exact run_arenaInv arena arenaBytes ops
  obtain ⟨start, hK⟩ := hsized
  have hclipped : s.unclipped (s.windowSurface i) = none →
      s.WellReported (k.behind other s) (s.windowSurface i) := fun hnone box picture hsome =>
    nomatch hnone.symm.trans hsome
  have hunclipped : ∀ box picture, s.unclipped (s.windowSurface i) = some (box, picture) →
      (s.WellReported (k.behind other s) (s.windowSurface i)
        ↔ box.Fits (s.windowSurface i) ∨ Pends (k.behind other s) (s.windowSurface i) picture) :=
    fun box picture hsome => ⟨fun h => h box picture hsome, fun h box' picture' hsome' => by
      obtain ⟨rfl, rfl⟩ := Prod.mk.inj (Option.some.inj (hsome.symm.trans hsome'))
      exact h⟩
  rcases hdraws with ⟨hop, rfl⟩ | ⟨hop, rfl⟩
  · obtain ⟨hpass, rfl⟩ :=
      copyAreaRequest_drawn (handled_of_answered hrequest 31 rfl hop)
    refine iff_of_true ?_ (hclipped ?_)
    · exact (copyArea_covers hid harena hK _ _ _ _ _ _ _).resolve_left hpass
    · unfold unclipped
      rw [hop, if_neg (by decide), if_neg (by decide), if_neg (by decide)]
  simp only [List.mem_cons, List.not_mem_nil, or_false] at hop
  obtain hop | hop | hop | hop := hop
  · obtain ⟨hpass, rfl⟩ := putImageRequest_drawn (handled_of_answered hrequest 30 rfl hop)
    refine (putImage_covers_iff hid hK _ _ _ _ _ hpass).trans (hunclipped _ _ ?_).symm
    exact if_pos hop
  · obtain ⟨hpass, rfl⟩ := polyText_drawn (handled_of_answered hrequest 33 rfl hop)
    refine (drawGlyphs_covers_iff hid hK _ _ _ _ (s.payload 16).toNat_lt (by decide) _ hpass).trans
      (hunclipped _ _ ?_).symm
    unfold unclipped
    rw [hop, if_neg (by decide), if_pos rfl]
  · have hhandled : s.polyText Opcode.polyText8Scaled (s.field32 4) 18
        (fun foreground x y text length => s.drawTextScaled (k.answers other) (s.field32 4)
          foreground x y text length (s.payload 17)) = (false, t) :=
      handled_of_answered hrequest 34 rfl hop
    obtain ⟨hpass, rfl⟩ := polyText_drawn hhandled
    unfold drawTextScaled at hpass ⊢
    by_cases hscale : s.payload 17 = 0 ∨ 8 < s.payload 17
    · rw [if_pos hscale] at hpass
      exact absurd (show (-4 : ℤ) < 0 by decide) hpass
    rw [if_neg hscale] at hpass ⊢
    rw [not_or, UInt8.not_lt] at hscale
    refine (drawGlyphs_covers_iff hid hK _ _ _ _ (s.payload 16).toNat_lt
      (UInt8.le_iff_toNat_le.1 hscale.2) _ hpass).trans (hunclipped _ _ ?_).symm
    unfold unclipped
    rw [hop, if_neg (by decide), if_neg (by decide), if_pos rfl]
  · obtain ⟨hpass, rfl⟩ := clearArea_drawn (cleared_of_answered hrequest hop hid.window)
    refine iff_of_true ?_ (hclipped ?_)
    · exact (clearBackground_covers hid.surface hid.kernel hK _ _ _ _).resolve_left hpass
    · unfold unclipped
      rw [hop, if_neg (by decide), if_neg (by decide), if_neg (by decide)]

def imagePacket (x : UInt16) : Packet where
  clientId := 2
  payloadLength := 32
  payload := write8 (write16 (write16 (write16 (write32 (write32 (write16 (write8 (write8
    (fun _ => 0x55) 0 Opcode.putImage) 1 2) 2 8) 4 0x400001) 8 0x400002) 12 2) 14 1) 16 x) 21 32

def imageServer (x : UInt16) : Server :=
  ((({} : Server).setWindow 0
    { id := 0x400001, parent := rootWindow, width := 8, height := 8, used := 1
      surfaceHandle := 5 }).setGc 0
    { id := 0x400002, drawable := 0x400001, ownerClient := 2, used := true }).requested
      { imagePacket x with payload := write8 (write16 (imagePacket x).payload 18 0) 20 0 }

def imageKernel : SurfaceKernel :=
  ⟨Machine.run surfaceStep (Surfaces.freshArena 0x100000 1048576) [.create 1 8 8], 1,
    fun surface => if surface = 5 then some ⟨1, true⟩ else none⟩

theorem imageServer_answered {x : UInt16} (hx : x = 6 ∨ x = 7) :
    ∃ t, (imageServer x).parseRequest (imageKernel.answers fun _ => 1) = some (false, t) := by
  have hanswered : ((imageServer x).parseRequest (imageKernel.answers fun _ => 1)).map Prod.fst
      = some false := by
    rcases hx with rfl | rfl <;> decide +kernel
  obtain ⟨⟨_, t⟩, hparse, rfl⟩ := Option.map_eq_some_iff.1 hanswered
  exact ⟨t, hparse⟩

theorem imageServer_drawn {x : UInt16} (hx : x = 6 ∨ x = 7) :
    DrawnOn (imageServer x) 0x400001 0 ∧ (imageServer x).DrawsOn 0x400001
      ∧ (imageKernel.behind (fun _ => 1) (imageServer x)).Sized ((imageServer x).windowSurface 0) := by
  have hdata : imageKernel.data 5 = some (0, 8 * 8, 8, 8) := by decide +kernel
  refine ⟨⟨rfl, ?_, ?_, ?_⟩, .inr ⟨?_, ?_⟩, 0, ?_⟩
  · rcases hx with rfl | rfl <;> decide +kernel
  · rcases hx with rfl | rfl <;> decide +kernel
  · rcases hx with rfl | rfl <;> decide +kernel
  · rcases hx with rfl | rfl <;> decide +kernel
  · rcases hx with rfl | rfl <;> decide +kernel
  · have hfields : ((imageServer x).windowSurface 0).surface = 5
        ∧ ((imageServer x).windowSurface 0).height = 8 := by
      rcases hx with rfl | rfl <;> decide +kernel
    exact hdata

/-- The image fits at the column 6. -/
theorem image_reported :
    ∃ t, (imageServer 6).parseRequest (imageKernel.answers fun _ => 1) = some (false, t)
      ∧ ((imageKernel.behind (fun _ => 1) (imageServer 6)).Covers
          (imageKernel.behind (fun _ => 1) t) ((imageServer 6).windowSurface 0)
        ↔ (imageServer 6).WellReported (imageKernel.behind (fun _ => 1) (imageServer 6))
          ((imageServer 6).windowSurface 0)) := by
  obtain ⟨t, ht⟩ := imageServer_answered (.inl rfl)
  obtain ⟨hdrawn, hdraws, hsized⟩ := imageServer_drawn (x := 6) (.inl rfl)
  exact ⟨t, ht, drawing_reported_iff 0x100000 1048576 [.create 1 8 8] 1
    (fun surface => if surface = 5 then some ⟨1, true⟩ else none) (fun _ => 1) imageKernel rfl
    (imageServer 6) t ht 0x400001 0 hdrawn hdraws hsized⟩

/-- At the column 7 the window has room for one of its two pixels. That one is drawn, and the surface
has no damage. -/
theorem image_not_reported :
    ¬∀ (arena arenaBytes : ℕ) (ops : List SurfaceOp) (pid : ℕ)
      (grant : UInt32 → Option SurfaceGrant) (other : Answers) (k : SurfaceKernel),
      k = ⟨Machine.run surfaceStep (Surfaces.freshArena arena arenaBytes) ops, pid, grant⟩ →
      ∀ s t : Server, s.parseRequest (k.answers other) = some (false, t) →
      ∀ (id : UInt32) (i : ℕ), DrawnOn s id i → s.DrawsOn id →
        (k.behind other s).Covers (k.behind other t) (s.windowSurface i) := by
  intro h
  obtain ⟨t, ht⟩ := imageServer_answered (x := 7) (.inr rfl)
  obtain ⟨hdrawn, hdraws, -⟩ := imageServer_drawn (x := 7) (.inr rfl)
  have hcovers := h 0x100000 1048576 [.create 1 8 8] 1
    (fun surface => if surface = 5 then some ⟨1, true⟩ else none) (fun _ => 1) imageKernel rfl
    (imageServer 7) t ht 0x400001 0 hdrawn hdraws
  have hpixel : ((imageServer 7).parseRequest (imageKernel.answers fun _ => 1)).map (fun r =>
      (imageKernel.behind (fun _ => 1) r.2).pixelAt ((imageServer 7).windowSurface 0) 7 0)
        = some 0xFF555555 := by decide +kernel
  have hbefore : (imageKernel.behind (fun _ => 1) (imageServer 7)).pixelAt
      ((imageServer 7).windowSurface 0) 7 0 = 0 := by decide +kernel
  have hdamage : ((imageServer 7).parseRequest (imageKernel.answers fun _ => 1)).map (fun r =>
      (List.range surfaceLimit).any fun i =>
        ((imageKernel.behind (fun _ => 1) r.2).surfaces.objects i).damagePending)
        = some false := by decide +kernel
  rw [ht, Option.map_some, Option.some.injEq] at hpixel hdamage
  obtain ⟨g, i, -, hresolve, hpending, -⟩ := hcovers 7 0 (by decide +kernel) (by decide +kernel)
    fun heq => absurd ((hpixel.symm.trans heq).trans hbefore) (by decide)
  obtain ⟨-, hi, -⟩ := Surfaces.resolve_eq_some.1 hresolve
  exact absurd hpending (List.any_eq_false.1 hdamage i (List.mem_range.2 hi))

end Server

end DemonX

end DemonOS
