import DemonOS.Proofs.DemonX.Effects

/-!
# Drawing stays inside the size the server draws with

Each drawing routine clips to the width and height of its window or pixmap, so every pixel it reads
or writes lies in a surface of that size (`Within`). Whether the surface has that size is another
matter.
-/

namespace DemonOS

namespace DemonX

namespace Server

variable {height i p width : ℕ} {s t : Server} {surface : UInt32}

variable (sys : Answers)

/-! ## The parts of a row -/

theorem mem_chunks {start count : ℕ} {part : ℕ × ℕ} (h : part ∈ chunks start count) :
    start ≤ part.1 ∧ part.1 + part.2 ≤ start + count := by
  obtain ⟨k, hk, rfl⟩ := List.mem_map.1 h
  have := List.mem_range.1 hk
  simp only [drawChunkPixels] at *
  omega

theorem mem_cells {top bottom left right : ℕ} {cell : ℕ × ℕ × ℕ}
    (h : cell ∈ cells top bottom left right) :
    cell.1 < bottom ∧ (left ≤ right → cell.2.1 + cell.2.2 ≤ right) := by
  obtain ⟨row, hrow, hcell⟩ := List.mem_flatMap.1 h
  obtain ⟨part, hpart, rfl⟩ := List.mem_map.1 hcell
  have := List.mem_range.1 hrow
  have := mem_chunks hpart
  simp only
  omega

theorem place_le {row column length width height : ℕ} (hrow : row < height)
    (hcolumn : column + length ≤ width) : row * width + column + length ≤ width * height := by
  have : (row + 1) * width ≤ height * width := Nat.mul_le_mul_right _ hrow
  rw [Nat.mul_comm width]
  rw [Nat.add_mul, Nat.one_mul] at this
  omega

/-! ## Pixels -/

section

variable {P : SystemCall → Prop}

theorem setDraw_beside (s : Server) (pixels : List UInt32) : Beside P s (s.setDraw pixels) :=
  .aside rfl rfl rfl

theorem surfaceWritePixels_within (s : Server)
    {pixels : List UInt32} {offset : ℕ} (h : offset + pixels.length ≤ width * height) :
    Beside (Within surface width height) s (s.surfaceWritePixels sys surface pixels offset).2 :=
  call_beside s sys ⟨rfl, h⟩

theorem surfaceWrite_within (s : Server) (surface : UInt32) (width height count offset : ℕ)
    (h : offset + count ≤ width * height) :
    Beside (Within surface width height) s (s.surfaceWrite sys surface count offset).2 :=
  surfaceWritePixels_within sys s (by simpa using h)

theorem readPixels_within (surface : UInt32) (width height : ℕ) :
    ∀ (indices : List ℕ) (s : Server), (∀ index ∈ indices, index < width * height) →
      Beside (Within surface width height) s (s.readPixels sys surface indices).2
  | [], s, _ => .refl s
  | index :: indices, s, h =>
    (call_beside s sys ⟨rfl, h index (by simp)⟩).trans
      (readPixels_within surface width height indices _ fun i hi => h i (by simp [hi]))

theorem damage_quiet (s : Server) (surface : UInt32) (x y width height : ℤ) :
    Quiet s (s.damage sys surface x y width height).2 := call_beside s sys rfl

end

theorem Beside.drawn
    (h : Beside (Within surface width height) s t)
    (hshows : Distinct sys → s.Shows surface width height) : Path sys EditKind.plain s t :=
  .single (.draw (fun _ hc hsys _ => ⟨surface, width, height, hshows hsys, hc⟩) h) trivial

theorem Beside.shows {P : SystemCall → Prop} (h : Beside P s t)
    (hshows : s.Shows surface width height) :
    t.Shows surface width height := by
  unfold Shows at *
  simpa only [h.window, h.pixmaps] using hshows

/-! ## Windows keep their place -/

theorem Path.place (h : Path sys EditKind.plain s t) (i : ℕ) :
    (t.window i).place = (s.window i).place := by
  refine h.keeps (I := fun u => (u.window i).place = (s.window i).place) ?_ rfl
  intro k a b hk he ha
  cases he with
  | quiet hq => rw [hq.window]; exact ha
  | draw _ hq => rw [hq.window]; exact ha
  | adjust hplace _ =>
    rw [window_setWindow]
    split_ifs with hi
    · rw [hplace, ← hi, ha]
    · exact ha
  | surface hplace _ _ _ =>
    rw [window_setWindow]
    split_ifs with hi
    · rw [hplace, ← hi, ha]
    · exact ha
  | pixmap _ => exact ha
  | link _ => cases hk
  | retire => cases hk
  | release => cases hk

theorem Path.used (h : Path sys EditKind.plain s t) (i : ℕ) :
    (t.window i).used = (s.window i).used := congrArg Place.used (h.place sys i)

/-! ## The surface of a window -/

def ShowsWindow (s : Server) (i : ℕ) : Prop :=
  (s.window i).surfaceHandle ≠ fallbackSurface → s.Shows (s.window i).surfaceHandle
    (clampedWidth (s.window i)) (clampedHeight (s.window i))

theorem toUInt32_ne {r : UInt64} {v : UInt32} (h : r ≤ 0xFFFFFFFF) (hne : r ≠ v.toUInt64) :
    r.toUInt32 ≠ v := by
  rintro rfl
  have : r.toNat ≤ 0xFFFFFFFF := h
  refine hne (UInt64.toNat_inj.1 ?_)
  simp
  omega

theorem fallBack_surface (s : Server) (i : ℕ) :
    ((s.fallBack i).window i).surfaceHandle = fallbackSurface := by
  unfold fallBack
  rw [(fillDraw_quiet (P := fun _ => True) _ _ _).window, window_setWindow_self]

theorem paintBackground_within (s : Server) (surface : UInt32) (width height : ℕ) :
    Beside (Within surface width height) s
      (s.paintBackground sys surface (width * height)).2 := by
  have hpaint := (fillDraw_quiet s drawChunkPixels backgroundColor).trans
    (forEach_beside (chunks 0 (width * height)) _ fun part hpart s =>
      surfaceWrite_within sys s surface width height part.2 part.1
        (by have := mem_chunks hpart; omega))
  unfold paintBackground
  dsimp only
  split_ifs
  · exact hpaint
  · exact hpaint.trans (.aside rfl rfl rfl)

theorem makeSurface_spec (s : Server) (hi : i < windowLimit)
    (hused : (s.window i).used ≠ 0) :
    Path sys EditKind.plain s (s.makeSurface sys i).2
      ∧ (Distinct sys → ShowsWindow (s.makeSurface sys i).2 i) := by
  have hcall : Quiet s (s.call sys (.surfaceCreate s.surfaceFactoryHandle
      (clampedWidth (s.window i)) (clampedHeight (s.window i)))).2 := call_beside s sys rfl
  unfold makeSurface
  dsimp only
  split_ifs with hfail
  · exact ⟨hcall.plain.trans (fallBack_path sys _ i),
      fun _ h => absurd (fallBack_surface _ i) h⟩
  · set r := s.call sys (.surfaceCreate s.surfaceFactoryHandle (clampedWidth (s.window i))
      (clampedHeight (s.window i))) with hr
    rw [not_or, UInt64.not_lt] at hfail
    set t := r.2.setWindow i { r.2.window i with surfaceHandle := r.1.toUInt32 } with ht
    have hwindow : t.window i = { s.window i with surfaceHandle := r.1.toUInt32 } := by
      rw [ht, window_setWindow_self, hcall.window]
    have hcreated : Created sys r.1.toUInt32 (clampedWidth (r.2.window i))
        (clampedHeight (r.2.window i)) := by
      exact ⟨_, _, hfail.1, hfail.2, rfl⟩
    have hshows : Distinct sys → t.Shows r.1.toUInt32 (clampedWidth (s.window i))
        (clampedHeight (s.window i)) := fun hsys => by
      obtain ⟨h0, hfallback⟩ := hsys _ _ _ _
      refine .inl ⟨i, hi, ?_, ?_, toUInt32_ne hfail.2 h0, toUInt32_ne hfail.2 hfallback, ?_, ?_⟩ <;>
        rw [hwindow]
      · exact hused
      · rfl
      · rfl
    have hpaint := paintBackground_within sys t r.1.toUInt32 (clampedWidth (s.window i))
      (clampedHeight (s.window i))
    have hset : Edit sys .surface r.2 t :=
      .surface (i := i) (w := { r.2.window i with surfaceHandle := r.1.toUInt32 }) rfl rfl rfl
        (.inr (.inr hcreated))
    refine ⟨hcall.plain.trans ((Path.single hset trivial).trans (hpaint.drawn sys hshows)),
      fun hsys _ => ?_⟩
    rw [hpaint.window, hwindow]
    exact hpaint.shows (hshows hsys)

/-- `create_window_surface` leaves windows where they are; where it says that there is a surface
and it is not the draw buffer, the server shows it. -/
theorem createWindowSurface_spec (s : Server) (hi : i < windowLimit)
    (hused : (s.window i).used ≠ 0) :
    Path sys EditKind.plain s (s.createWindowSurface sys i).2
      ∧ (Distinct sys → ShowsWindow (s.createWindowSurface sys i).2 i) := by
  have hopen := openFactory_quiet sys s
  unfold createWindowSurface
  dsimp only
  split_ifs with hsurface hfactory
  · exact ⟨.refl s, fun _ hne => .inl ⟨i, hi, hused, rfl, hsurface, hne, rfl, rfl⟩⟩
  · exact ⟨hopen.plain.trans (fallBack_path sys _ i), fun _ h => absurd (fallBack_surface _ i) h⟩
  · have hmake := makeSurface_spec sys (s.openFactory sys) hi (by rw [hopen.window]; exact hused)
    exact ⟨hopen.plain.trans hmake.1, hmake.2⟩

/-! ## Rectangles -/

theorem fillCells_within (s : Server) (surface : UInt32) (width height top bottom left right : ℕ)
    (hleft : left ≤ right) (hright : right ≤ width) (hbottom : bottom ≤ height) :
    Beside (Within surface width height) s
      (s.fillCells sys surface width (cells top bottom left right)).2 := by
  refine forEach_beside _ s fun cell hcell s => surfaceWrite_within sys s surface width height _ _ ?_
  obtain ⟨hrow, hcolumn⟩ := mem_cells hcell
  exact place_le (hrow.trans_le hbottom) ((hcolumn hleft).trans hright)

theorem fillRectangle_path (s : Server) (hi : i < windowLimit)
    (hused : (s.window i).used ≠ 0) (foreground : UInt32) (x y width height : UInt16) :
    Path sys EditKind.plain s (s.fillRectangle sys i foreground x y width height).2 := by
  obtain ⟨hpath, hshows⟩ := createWindowSurface_spec sys s hi hused
  unfold fillRectangle
  dsimp only
  set t := (s.createWindowSurface sys i).2 with ht
  set w := t.window i with hw
  have hfill : ∀ count color, Path sys EditKind.plain s (t.fillDraw count color) :=
    fun count color => hpath.trans (Quiet.plain (fillDraw_quiet t count color))
  split_ifs with hcreated hempty hfallback hwritten
  · exact hpath
  · exact hpath
  · exact (hfill _ _).trans (Quiet.plain (foldl_beside _ _ fun _ _ _ => .aside rfl rfl rfl))
  all_goals
    have hshown : Distinct sys → (t.fillDraw drawChunkPixels (foreground ||| opaqueAlpha)).Shows
        w.surfaceHandle (surfaceWidth w) (surfaceHeight w) := fun hsys => by
      rw [surfaceWidth, if_neg hfallback, surfaceHeight, if_neg hfallback]
      exact (fillDraw_quiet (P := fun _ => True) t _ _).shows (hshows hsys hfallback)
    have hwithin := fillCells_within sys (t.fillDraw drawChunkPixels (foreground ||| opaqueAlpha))
      w.surfaceHandle (surfaceWidth w) (surfaceHeight w) (int16 y).toNat
      (min (int16 y + height.toNat) (surfaceHeight w)).toNat (int16 x).toNat
      (min (int16 x + width.toNat) (surfaceWidth w)).toNat (by omega) (by omega) (by omega)
    have hdrawn := (hfill _ _).trans (hwithin.drawn sys hshown)
  · exact hdrawn
  all_goals exact hdrawn.trans (damage_quiet sys _ _ _ _ _ _).plain

theorem shows_pixmap (s : Server) (hp : p < pixmapLimit)
    (hused : (s.pixmaps p).used = true) : s.Shows (s.pixmaps p).surfaceHandle
      (s.pixmaps p).width.toNat (s.pixmaps p).height.toNat := .inr ⟨p, hp, hused, rfl, rfl, rfl⟩

theorem fillPixmap_within (s : Server) (p : ℕ) (foreground : UInt32)
    (x y width height : UInt16) :
    Beside (Within (s.pixmaps p).surfaceHandle (s.pixmaps p).width.toNat
      (s.pixmaps p).height.toNat) s (s.fillPixmap sys p foreground x y width height).2 := by
  have hfill := fillDraw_quiet (P := Within (s.pixmaps p).surfaceHandle
    (s.pixmaps p).width.toNat (s.pixmaps p).height.toNat) s drawChunkPixels
    (foreground ||| opaqueAlpha)
  unfold fillPixmap
  dsimp only
  split_ifs with hempty
  · exact .refl s
  all_goals exact hfill.trans (fillCells_within sys _ _ _ _ _ _ _ _ (by omega) (by omega) (by omega))

theorem fillPixmap_path (s : Server) (hp : p < pixmapLimit)
    (hused : (s.pixmaps p).used = true) (foreground : UInt32) (x y width height : UInt16) :
    Path sys EditKind.plain s (s.fillPixmap sys p foreground x y width height).2 :=
  (fillPixmap_within sys s p foreground x y width height).drawn sys fun _ =>
    shows_pixmap s hp hused

/-! ## Drawables -/

theorem findWindow_some {id : UInt32} (h : s.findWindow id = some i) :
    i < windowLimit ∧ (s.window i).used ≠ 0 ∧ (s.window i).id = id := by
  obtain ⟨hi, hp, -⟩ := Table.firstIndex_eq_some.1 h
  exact ⟨hi, (of_decide_eq_true hp).1, (of_decide_eq_true hp).2⟩

theorem findPixmap_some {id : UInt32} (h : s.findPixmap id = some p) :
    p < pixmapLimit ∧ (s.pixmaps p).used = true := by
  obtain ⟨hp, hused, -⟩ := Table.firstIndex_eq_some.1 h
  exact ⟨hp, (of_decide_eq_true hused).1⟩

theorem drawableSurface_spec (s : Server) (id : UInt32) :
    Path sys EditKind.plain s (s.drawableSurface sys id).2
      ∧ (Distinct sys → ∀ d, (s.drawableSurface sys id).1 = some d →
        (s.drawableSurface sys id).2.Shows d.surface d.width d.height) := by
  unfold drawableSurface
  rcases hp : s.findPixmap id with _ | p
  · rcases hw : s.findWindow id with _ | i
    · exact ⟨.refl s, by simp⟩
    · obtain ⟨hi, hused, -⟩ := findWindow_some hw
      obtain ⟨hpath, hshows⟩ := createWindowSurface_spec sys s hi hused
      dsimp only
      split_ifs with hfail
      · exact ⟨hpath, by simp⟩
      · refine ⟨hpath, ?_⟩
        rintro hsys d ⟨rfl⟩
        exact hshows hsys fun h => hfail (.inr h)
  · obtain ⟨hlt, hused⟩ := findPixmap_some hp
    refine ⟨.refl s, ?_⟩
    rintro _ d ⟨rfl⟩
    exact shows_pixmap s hlt hused

/-! ## Images -/

theorem putRow_within (d : Drawable) (x y : UInt16) (width : ℕ) (data : ℕ → UInt8) (row : ℕ)
    (s : Server) :
    Beside (Within d.surface d.width d.height) s (putRow sys d x y width data row s).2 := by
  unfold putRow
  dsimp only
  split_ifs with hout
  · exact .refl s
  · refine (setDraw_beside s _).trans (surfaceWrite_within sys _ _ _ _ _ _ ?_)
    have hplace : (int16 y + row).toNat * d.width + (int16 x).toNat
        + min (width - (-int16 x).toNat) (d.width - (int16 x).toNat) ≤ d.width * d.height :=
      place_le (by omega) (by omega)
    omega

theorem putImage_path (s : Server) (id : UInt32) (x y width height : UInt16) (data : ℕ → UInt8) :
    Path sys EditKind.plain s (s.putImage sys id x y width height data).2 := by
  obtain ⟨hpath, hshows⟩ := drawableSurface_spec sys s id
  unfold putImage
  split_ifs with hvalid
  · exact .refl s
  rcases hd : s.drawableSurface sys id with ⟨_ | d, t⟩
  · rw [hd] at hpath
    exact hpath
  · rw [hd] at hpath hshows
    dsimp only
    have hwithin := forEach_beside (List.range height.toNat) t fun row _ s =>
      putRow_within sys d x y width.toNat data row s
    have hdrawn := hpath.trans (hwithin.drawn sys fun hsys => hshows hsys d rfl)
    split_ifs
    · exact hdrawn
    · exact hdrawn.trans (damage_quiet sys _ _ _ _ _ _).plain
    · exact hdrawn

/-! ## Copies -/

theorem clipAxis_shift (source destination length : ℤ) (sourceLimit destinationLimit : ℕ) :
    ∃ shift : ℤ, (0 ≤ shift ∧ 0 ≤ source + shift ∧ 0 ≤ destination + shift)
      ∧ (shift = 0 ∨ source + shift = 0 ∨ destination + shift = 0)
      ∧ clipAxis source destination length sourceLimit destinationLimit
        = (source + shift, destination + shift,
          min (min (length - shift) (sourceLimit - (source + shift)))
            (destinationLimit - (destination + shift))) := by
  have htriple : ∀ s d l shift : ℤ, s = source + shift → d = destination + shift →
      l = length - shift → (s, d, min (min l (sourceLimit - s)) (destinationLimit - d))
        = (source + shift, destination + shift,
          min (min (length - shift) (sourceLimit - (source + shift)))
            (destinationLimit - (destination + shift))) := by
    rintro _ _ _ shift rfl rfl rfl
    rfl
  unfold clipAxis clipStart
  dsimp only
  by_cases hsource : source < 0
  · rw [if_pos hsource]
    by_cases hdestination : destination - source < 0
    · rw [if_pos hdestination]
      exact ⟨-destination, by omega, by omega, htriple _ _ _ _ (by dsimp only; omega)
        (by dsimp only; omega) (by dsimp only; omega)⟩
    · rw [if_neg hdestination]
      exact ⟨-source, by omega, by omega, htriple _ _ _ _ (by dsimp only; omega)
        (by dsimp only; omega) (by dsimp only; omega)⟩
  · rw [if_neg hsource]
    by_cases hdestination : destination < 0
    · rw [if_pos hdestination]
      exact ⟨-destination, by omega, by omega, htriple _ _ _ _ (by dsimp only; omega)
        (by dsimp only; omega) (by dsimp only; omega)⟩
    · rw [if_neg hdestination]
      exact ⟨0, by omega, by omega, htriple _ _ _ _ (by dsimp only; omega)
        (by dsimp only; omega) (by dsimp only; omega)⟩

theorem clipAxis_le (source destination length : ℤ) (sourceLimit destinationLimit : ℕ) :
    let r := clipAxis source destination length sourceLimit destinationLimit
    0 ≤ r.1 ∧ 0 ≤ r.2.1 ∧ r.1 + r.2.2 ≤ sourceLimit ∧ r.2.1 + r.2.2 ≤ destinationLimit := by
  obtain ⟨shift, hstart, -, heq⟩ :=
    clipAxis_shift source destination length sourceLimit destinationLimit
  rw [heq]
  dsimp only
  omega

theorem mem_copyOrder {same : Bool} {r : CopyRegion} {part : ℕ × ℕ × ℕ}
    (h : part ∈ copyOrder same r) :
    part.1 < r.height.toNat ∧ part.2.1 + part.2.2 ≤ r.width.toNat := by
  obtain ⟨row, hrow, hpart⟩ := List.mem_flatMap.1 h
  have hlt : row < r.height.toNat := by
    split_ifs at hrow
    · exact List.mem_range.1 (List.mem_reverse.1 hrow)
    · exact List.mem_range.1 hrow
  obtain ⟨c, hc, rfl⟩ := List.mem_map.1 hpart
  have := mem_chunks hc
  refine ⟨hlt, ?_⟩
  dsimp only
  split_ifs <;> omega

def WithinEither (a b : Drawable) (c : SystemCall) : Prop :=
  Within a.surface a.width a.height c ∨ Within b.surface b.width b.height c

theorem copyPart_within (source destination : Drawable) (sx sy dx dy width height : UInt16)
    {r : CopyRegion} (hr : r = clipCopy source destination sx sy dx dy width height)
    (hempty : ¬(r.width ≤ 0 ∨ r.height ≤ 0)) {same : Bool}
    {part : ℕ × ℕ × ℕ} (hpart : part ∈ copyOrder same r) (s : Server) :
    Beside (WithinEither source destination) s (copyPart sys source destination r part s).2 := by
  obtain ⟨hrow, hcolumn⟩ := mem_copyOrder hpart
  have hx := clipAxis_le (int16 sx) (int16 dx) width.toNat source.width destination.width
  have hy := clipAxis_le (int16 sy) (int16 dy) height.toNat source.height destination.height
  have hsource : (r.sy.toNat + part.1) * source.width + (r.sx.toNat + part.2.1) + part.2.2
      ≤ source.width * source.height := place_le
    (by subst hr; dsimp only [clipCopy] at *; omega)
    (by subst hr; dsimp only [clipCopy] at *; omega)
  have hdestination : (r.dy.toNat + part.1) * destination.width + (r.dx.toNat + part.2.1)
      + part.2.2 ≤ destination.width * destination.height := place_le
    (by subst hr; dsimp only [clipCopy] at *; omega)
    (by subst hr; dsimp only [clipCopy] at *; omega)
  have hread := readPixels_within sys source.surface source.width source.height
    ((List.range part.2.2).map
      ((r.sy.toNat + part.1) * source.width + r.sx.toNat + part.2.1 + ·)) s fun index hindex => by
    obtain ⟨k, hk, rfl⟩ := List.mem_map.1 hindex
    have := List.mem_range.1 hk
    omega
  exact (hread.mono fun _ => .inl).trans ((setDraw_beside _ _).trans
    ((surfaceWrite_within sys _ _ _ _ _ _ (by omega)).mono fun _ => .inr))

/-! ## Surfaces already shown -/

theorem setWindow_shows (s : Server) (w : Window) (h0 : (s.window i).surfaceHandle = 0)
    (h : s.Shows surface width height) :
    (s.setWindow i w).Shows surface width height := by
  rcases h with ⟨j, hj, hused, hsurface, hne, hrest⟩ | hpixmap
  · have hji : j ≠ i := by
      rintro rfl
      exact hne (hsurface ▸ h0)
    refine .inl ⟨j, hj, ?_⟩
    rw [window_setWindow_ne s w hji]
    exact ⟨hused, hsurface, hne, hrest⟩
  · exact .inr hpixmap

theorem fallBack_shows (s : Server) (h0 : (s.window i).surfaceHandle = 0)
    (h : s.Shows surface width height) :
    (s.fallBack i).Shows surface width height :=
  (fillDraw_quiet (P := fun _ => True) _ _ _).shows (setWindow_shows s _ h0 h)

theorem createWindowSurface_shows (s : Server) (i : ℕ)
    (h : s.Shows surface width height) :
    (s.createWindowSurface sys i).2.Shows surface width height := by
  have hopen := openFactory_quiet sys s
  unfold createWindowSurface
  dsimp only
  split_ifs with hsurface hfactory
  · exact h
  · exact fallBack_shows _ (by rw [hopen.window]; exact not_not.1 hsurface) (hopen.shows h)
  · have hcall : Quiet (s.openFactory sys) _ := call_beside (s.openFactory sys) sys
      (c := .surfaceCreate (s.openFactory sys).surfaceFactoryHandle
        (clampedWidth ((s.openFactory sys).window i))
        (clampedHeight ((s.openFactory sys).window i))) rfl
    have h0 : ((s.openFactory sys).window i).surfaceHandle = 0 := by
      rw [hopen.window]; exact not_not.1 hsurface
    have hcalled := hcall.shows (hopen.shows h)
    unfold makeSurface
    dsimp only
    split_ifs
    · exact fallBack_shows _ (by rw [hcall.window]; exact h0) hcalled
    · exact (paintBackground_within sys _ _ _ _).shows
        (setWindow_shows _ _ (by rw [hcall.window]; exact h0) hcalled)

theorem drawableSurface_shows (s : Server) (id : UInt32)
    (h : s.Shows surface width height) :
    (s.drawableSurface sys id).2.Shows surface width height := by
  unfold drawableSurface
  rcases s.findPixmap id with _ | p
  · rcases s.findWindow id with _ | i
    · exact h
    · dsimp only
      split_ifs <;> exact createWindowSurface_shows sys s i h
  · exact h

theorem copyArea_path (s : Server) (sourceId destinationId : UInt32)
    (sx sy dx dy width height : UInt16) :
    Path sys EditKind.plain s
      (s.copyArea sys sourceId destinationId sx sy dx dy width height).2 := by
  obtain ⟨hpath, hshows⟩ := drawableSurface_spec sys s sourceId
  unfold copyArea
  rcases hsource : s.drawableSurface sys sourceId with ⟨_ | source, t⟩
  · rw [hsource] at hpath
    exact hpath
  rw [hsource] at hpath hshows
  dsimp only
  obtain ⟨hpath', hshows'⟩ := drawableSurface_spec sys t destinationId
  have hkeeps := fun hsys => drawableSurface_shows sys t destinationId (hshows hsys source rfl)
  rcases hdestination : t.drawableSurface sys destinationId with ⟨_ | destination, u⟩
  · rw [hdestination] at hpath'
    exact hpath.trans hpath'
  rw [hdestination] at hpath' hshows' hkeeps
  have hboth := hpath.trans hpath'
  dsimp only
  set r := clipCopy source destination sx sy dx dy width height with hr
  by_cases hempty : r.width ≤ 0 ∨ r.height ≤ 0
  · rw [if_pos hempty]
    exact hboth
  have hmap : Quiet u (u.call sys (.surfaceMap source.surface)).2 := call_beside u sys rfl
  have hcopy := forEach_beside (copyOrder (source.surface = destination.surface) r)
    (u.call sys (.surfaceMap source.surface)).2 fun part hpart s =>
      copyPart_within sys source destination sx sy dx dy width height hr hempty hpart s
  have hdrawn : Path sys EditKind.plain s _ := hboth.trans (hmap.plain.trans
    (.single (.draw (fun c hc hsys _ => ?_) hcopy) trivial))
  · have hunmap := fun t : Server => (call'_quiet sys t (c := .surfaceUnmap source.surface) rfl)
    split_ifs
    · exact hboth.trans hmap.plain
    · exact hdrawn.trans (hunmap _).plain
    · exact hdrawn.trans ((hunmap _).plain.trans (damage_quiet sys _ _ _ _ _ _).plain)
    · exact hdrawn.trans (hunmap _).plain
  · rcases hc with hc | hc
    · exact ⟨_, _, _, hmap.shows (hkeeps hsys), hc⟩
    · exact ⟨_, _, _, hmap.shows (hshows' hsys destination rfl), hc⟩

/-! ## Backgrounds -/

theorem tilePart_within {p : Pixmap} (hwidth : p.width ≠ 0) (hheight : p.height ≠ 0)
    (surface : UInt32) (width height : ℕ) {left top right bottom : ℕ} (hleft : left ≤ right)
    (hright : right ≤ width) (hbottom : bottom ≤ height) {cell : ℕ × ℕ × ℕ}
    (hcell : cell ∈ cells top bottom left right) (s : Server) :
    Beside (WithinEither ⟨p.surfaceHandle, p.width.toNat, p.height.toNat, none⟩
      ⟨surface, width, height, none⟩) s (tilePart sys p surface width cell s).2 := by
  obtain ⟨hrow, hcolumn⟩ := mem_cells hcell
  have hplace := place_le (hrow.trans_le hbottom) ((hcolumn hleft).trans hright)
  have hw : 0 < p.width.toNat := Nat.pos_of_ne_zero fun h => hwidth (UInt16.toNat_inj.1 h)
  have hh : 0 < p.height.toNat := Nat.pos_of_ne_zero fun h => hheight (UInt16.toNat_inj.1 h)
  have hread := readPixels_within sys p.surfaceHandle p.width.toNat p.height.toNat
    ((List.range cell.2.2).map fun k =>
      cell.1 % p.height.toNat * p.width.toNat + (cell.2.1 + k) % p.width.toNat) s
    fun index hindex => by
      obtain ⟨k, -, rfl⟩ := List.mem_map.1 hindex
      have : cell.1 % p.height.toNat * p.width.toNat + (cell.2.1 + k) % p.width.toNat + 1
          ≤ p.width.toNat * p.height.toNat :=
        place_le (Nat.mod_lt cell.1 hh) (Nat.succ_le_of_lt (Nat.mod_lt (cell.2.1 + k) hw))
      omega
  exact (hread.mono fun _ => .inl).trans ((setDraw_beside _ _).trans
    ((surfaceWrite_within sys _ _ _ _ _ _ hplace).mono fun _ => .inr))

theorem createWindowSurface_pixmaps (s : Server) (i : ℕ) :
    (s.createWindowSurface sys i).2.pixmaps = s.pixmaps := by
  have hopen := (openFactory_quiet sys s).pixmaps
  have hfall : ∀ t : Server, (t.fallBack i).pixmaps = t.pixmaps := fun _ => rfl
  unfold createWindowSurface
  dsimp only
  split_ifs
  · rfl
  · rw [hfall, hopen]
  · unfold makeSurface
    dsimp only
    split_ifs
    · exact hopen
    · rw [(paintBackground_within sys _ _ _ _).pixmaps]
      exact hopen

theorem tileBackground_path (s : Server) (hi : i < windowLimit)
    (hused : (s.window i).used ≠ 0) (hp : p < pixmapLimit) (hpused : (s.pixmaps p).used = true)
    (hwidth : (s.pixmaps p).width ≠ 0) (hheight : (s.pixmaps p).height ≠ 0)
    (x y width height : UInt16) :
    Path sys EditKind.plain s (s.tileBackground sys i p x y width height).2 := by
  obtain ⟨hpath, hshows⟩ := createWindowSurface_spec sys s hi hused
  have hpixmaps := createWindowSurface_pixmaps sys s i
  unfold tileBackground
  dsimp only
  rw [hpixmaps]
  set t := (s.createWindowSurface sys i).2 with ht
  set w := t.window i with hw
  have hmap : Quiet t (t.call sys (.surfaceMap (s.pixmaps p).surfaceHandle)).2 :=
    call_beside t sys rfl
  have hunmap : ∀ t : Server, Path sys EditKind.plain t
      (t.call' sys (.surfaceUnmap (s.pixmaps p).surfaceHandle)) :=
    fun t => (call'_quiet sys t rfl).plain
  split_ifs with hfail hmapped hempty
  · exact hpath
  · exact hpath.trans hmap.plain
  · exact hpath.trans (hmap.plain.trans (hunmap _))
  all_goals
    have htiled := forEach_beside (cells (int16 y).toNat
        (min (int16 y + height.toNat) (clampedHeight w)).toNat (int16 x).toNat
        (min (int16 x + width.toNat) (clampedWidth w)).toNat)
      (t.call sys (.surfaceMap (s.pixmaps p).surfaceHandle)).2 fun cell hcell s' =>
        tilePart_within sys hwidth hheight w.surfaceHandle (clampedWidth w) (clampedHeight w)
          (by omega) (by omega) (by omega) hcell s'
    have hdrawn : Path sys EditKind.plain s _ := hpath.trans (hmap.plain.trans
      (.single (.draw (fun c hc hsys _ => by
        rcases hc with hc | hc
        · exact ⟨_, _, _, hmap.shows (hpixmaps ▸ shows_pixmap t (p := p) hp (hpixmaps ▸ hpused)),
            hc⟩
        · exact ⟨_, _, _, hmap.shows (hshows hsys fun h => hfail (.inr h)), hc⟩) htiled) trivial))
  · exact hdrawn.trans (hunmap _)
  · exact hdrawn.trans ((hunmap _).trans (damage_quiet sys _ _ _ _ _ _).plain)

theorem clearBackground_path (s : Server) (hi : i < windowLimit)
    (hused : (s.window i).used ≠ 0) (x y width height : UInt16) :
    Path sys EditKind.plain s (s.clearBackground sys i x y width height).2 := by
  unfold clearBackground
  dsimp only
  rcases hp : s.findPixmap (s.window i).backgroundPixmap with _ | p
  · exact fillRectangle_path sys s hi hused _ _ _ _ _
  · obtain ⟨hlt, hpused⟩ := findPixmap_some hp
    dsimp only
    split_ifs with hempty
    · exact fillRectangle_path sys s hi hused _ _ _ _ _
    · rw [not_or] at hempty
      exact tileBackground_path sys s hi hused hlt hpused hempty.1 hempty.2 _ _ _ _

/-! ## Text -/

theorem glyphPixels_spec (surface color : UInt32) (glyph : List UInt8) (row scale first width height : ℕ) :
    ∀ (columns : List ℕ) (s : Server),
      (∀ column ∈ columns, first + column < width * height) →
      Beside (Within surface width height) s
          (glyphPixels sys surface color glyph row scale first columns s).2
        ∧ (glyphPixels sys surface color glyph row scale first columns s).1.length
          = columns.length
  | [], s, _ => ⟨.refl s, rfl⟩
  | column :: columns, s, h => by
    have htail : ∀ c ∈ columns, first + c < width * height := fun c hc => h c (by simp [hc])
    unfold glyphPixels
    split_ifs
    · obtain ⟨hrest, hlength⟩ := glyphPixels_spec surface color glyph row scale first width height columns s htail
      exact ⟨hrest, congrArg (· + 1) hlength⟩
    · obtain ⟨hrest, hlength⟩ := glyphPixels_spec surface color glyph row scale first width height columns
        (s.call sys (.readPixel surface (first + column))).2 htail
      exact ⟨(call_beside s sys ⟨rfl, h column (by simp)⟩).trans hrest,
        congrArg (· + 1) hlength⟩

theorem glyphRow_within (d : Drawable) (color : UInt32) (x top : ℤ) (text : ℕ → UInt8)
    (scale : ℕ) (buffered : Bool) (part : ℕ × ℕ × ℕ) (s : Server) :
    Beside (Within d.surface d.width d.height) s
      (glyphRow sys d color x top text scale buffered part s).2 := by
  unfold glyphRow
  rcases glyphColumns (text part.1) with _ | glyph
  · exact .refl s
  dsimp only
  by_cases hout : top + part.2.1 * scale + part.2.2 < 0
      ∨ d.height ≤ top + part.2.1 * scale + part.2.2 ∨ x + part.1 * 6 * scale < 0
      ∨ d.width < x + part.1 * 6 * scale + 5 * scale
  · rw [if_pos hout]
    exact .refl s
  rw [if_neg hout]
  have hplace : (top + part.2.1 * scale + part.2.2).toNat * d.width
      + (x + part.1 * 6 * scale).toNat + 5 * scale ≤ d.width * d.height :=
    place_le (by omega) (by omega)
  obtain ⟨hpixels, hlength⟩ := glyphPixels_spec sys d.surface color glyph part.2.1 scale
    ((top + part.2.1 * scale + part.2.2).toNat * d.width + (x + part.1 * 6 * scale).toNat)
    d.width d.height (List.range (5 * scale)) s fun column hcolumn => by
      have := List.mem_range.1 hcolumn
      omega
  rw [List.length_range] at hlength
  refine hpixels.trans (Beside.trans (.ite (fun _ => setDraw_beside _ _) fun _ => .refl _)
    (surfaceWritePixels_within sys _ ?_))
  rw [hlength]
  exact hplace

theorem drawGlyphs_path (s : Server) (id foreground : UInt32) (x baseline : UInt16)
    (text : ℕ → UInt8) (length scale : ℕ) (buffered : Bool) :
    Path sys EditKind.plain s
      (s.drawGlyphs sys id foreground x baseline text length scale buffered).2 := by
  obtain ⟨hpath, hshows⟩ := drawableSurface_spec sys s id
  unfold drawGlyphs
  rcases hd : s.drawableSurface sys id with ⟨_ | d, t⟩
  · rw [hd] at hpath
    exact hpath
  rw [hd] at hpath hshows
  dsimp only
  have hmap : Quiet t (t.call sys (.surfaceMap d.surface)).2 := call_beside t sys rfl
  have hwritten := forEach_beside (textRows length scale) (t.call sys (.surfaceMap d.surface)).2
    fun part _ s => glyphRow_within sys d (foreground ||| opaqueAlpha) (int16 x)
      (int16 baseline - 7 * scale) text scale buffered part s
  have hdrawn := hpath.trans (hmap.plain.trans
    (hwritten.drawn sys fun hsys => hmap.shows (hshows hsys d rfl)))
  have hunmap := fun t : Server => (call'_quiet sys t (c := .surfaceUnmap d.surface) rfl)
  split_ifs
  · exact hpath.trans hmap.plain
  · exact hdrawn.trans (hunmap _).plain
  · exact hdrawn.trans ((hunmap _).plain.trans (damage_quiet sys _ _ _ _ _ _).plain)
  · exact hdrawn.trans (hunmap _).plain

theorem drawText_path (s : Server) (id foreground : UInt32) (x baseline : UInt16)
    (text : ℕ → UInt8) (length : UInt8) :
    Path sys EditKind.plain s (s.drawText sys id foreground x baseline text length).2 :=
  drawGlyphs_path sys s _ _ _ _ _ _ _ _

theorem drawTextScaled_path (s : Server) (id foreground : UInt32) (x baseline : UInt16)
    (text : ℕ → UInt8) (length scale : UInt8) :
    Path sys EditKind.plain s
      (s.drawTextScaled sys id foreground x baseline text length scale).2 := by
  unfold drawTextScaled
  split_ifs
  · exact .refl s
  · exact drawGlyphs_path sys s _ _ _ _ _ _ _ _

end Server

end DemonX

end DemonOS
