import DemonOS.Framebuffer
import DemonOS.Lib.Damage
import DemonOS.Lib.Machine

/-!
# What the display shows

A drawing call changes no pixel of the backbuffer outside the damage that it leaves (`Drawn`), and
the cursor's calls bring the pixels that the cursor leaves and those that it covers up to date in
the scanout memory. So over every run the scanout memory shows the backbuffer with the cursor over
it, but for the damage, and a present leaves no damage (`scanout_consistent`). The backbuffer is
that of the drawing calls alone.
-/

namespace DemonOS

def FramebufferRect.Contains (rect : FramebufferRect) (x y : ℤ) : Prop :=
  rect.x ≤ x ∧ x < rect.x + rect.width ∧ rect.y ≤ y ∧ y < rect.y + rect.height

instance (rect : FramebufferRect) (x y : ℤ) : Decidable (rect.Contains x y) :=
  inferInstanceAs (Decidable (_ ∧ _ ∧ _ ∧ _))

theorem FramebufferRect.mem_pixels {rect : FramebufferRect} {x y : ℤ} :
    (x, y) ∈ rect.pixels ↔ rect.Contains x y := by
  unfold pixels Contains
  simp only [List.mem_flatMap, List.mem_map, List.mem_range, Prod.mk.injEq]
  constructor
  · rintro ⟨row, hrow, column, hcolumn, rfl, rfl⟩
    omega
  · rintro ⟨hleft, hright, htop, hbottom⟩
    exact ⟨(y - rect.y).toNat, by omega, (x - rect.x).toNat, by omega, by omega, by omega⟩

namespace FramebufferInfo

def Visible (info : FramebufferInfo) (x y : ℤ) : Prop :=
  0 ≤ x ∧ x < info.width ∧ 0 ≤ y ∧ y < info.height

/-- A mode that `framebuffer_discover` accepts. -/
structure Valid (info : FramebufferInfo) : Prop where
  bytesPerPixel : info.bytesPerPixel = 3 ∨ info.bytesPerPixel = 4
  pitch : info.width * info.bytesPerPixel ≤ info.pitch

variable {info : FramebufferInfo} {rect clipped : FramebufferRect} {x y x' y' : ℤ}

theorem rectClip_some (h : info.rectClip rect = some clipped) :
    clipped.Contains x y ↔ rect.Contains x y ∧ info.Visible x y := by
  unfold rectClip at h
  dsimp only at h
  split_ifs at h
  all_goals
    obtain rfl := Option.some.inj h
    simp only [FramebufferRect.Contains, Visible]
    omega

theorem rectClip_none (h : info.rectClip rect = none) :
    ¬(rect.Contains x y ∧ info.Visible x y) := by
  unfold rectClip at h
  dsimp only at h
  simp only [FramebufferRect.Contains, Visible]
  split_ifs at h
  all_goals omega

theorem index_inj (h : info.Visible x y) (h' : info.Visible x' y')
    (heq : info.index x y = info.index x' y') : x = x' ∧ y = y' := by
  obtain ⟨hx, hxw, hy, -⟩ := h
  obtain ⟨hx', hxw', hy', -⟩ := h'
  have hmod : ∀ a b : ℕ, b < info.width → (a * info.width + b) % info.width = b := fun a b hb => by
    rw [Nat.add_comm, Nat.add_mul_mod_self_right, Nat.mod_eq_of_lt hb]
  have hdiv : ∀ a b : ℕ, b < info.width → (a * info.width + b) / info.width = a := fun a b hb => by
    rw [Nat.add_comm, Nat.add_mul_div_right _ _ (by omega), Nat.div_eq_of_lt hb, Nat.zero_add]
  have hcolumn := congrArg (· % info.width) heq
  have hrow := congrArg (· / info.width) heq
  simp only [index] at hcolumn hrow
  rw [hmod _ _ (by omega), hmod _ _ (by omega)] at hcolumn
  rw [hdiv _ _ (by omega), hdiv _ _ (by omega)] at hrow
  omega

/-- The offset of the pixel in the scanout memory. -/
def address (info : FramebufferInfo) (x y : ℤ) : ℕ :=
  y.toNat * info.pitch + x.toNat * info.bytesPerPixel

theorem address_apart (hinfo : info.Valid) (h : info.Visible x y) (h' : info.Visible x' y')
    (hne : (x, y) ≠ (x', y')) :
    info.address x y + info.bytesPerPixel ≤ info.address x' y'
      ∨ info.address x' y' + info.bytesPerPixel ≤ info.address x y := by
  have hrow : ∀ {u v u' v' : ℤ}, info.Visible u v → v.toNat < v'.toNat →
      info.address u v + info.bytesPerPixel ≤ info.address u' v' := by
    intro u v u' v' hu hlt
    obtain ⟨hu0, huw, -, -⟩ := hu
    have hend : (u.toNat + 1) * info.bytesPerPixel ≤ info.pitch :=
      (Nat.mul_le_mul_right _ (by omega)).trans hinfo.pitch
    have hnext : (v.toNat + 1) * info.pitch ≤ v'.toNat * info.pitch :=
      Nat.mul_le_mul_right _ (by omega)
    rw [Nat.add_mul, Nat.one_mul] at hend hnext
    unfold address
    omega
  have hcolumn : ∀ {u u' : ℤ}, u.toNat < u'.toNat →
      info.address u y + info.bytesPerPixel ≤ info.address u' y := by
    intro u u' hlt
    have hnext : (u.toNat + 1) * info.bytesPerPixel ≤ u'.toNat * info.bytesPerPixel :=
      Nat.mul_le_mul_right _ (by omega)
    rw [Nat.add_mul, Nat.one_mul] at hnext
    unfold address
    omega
  rcases lt_trichotomy y.toNat y'.toNat with hlt | heq | hgt
  · exact .inl (hrow h hlt)
  · obtain ⟨hx, -, hy, -⟩ := h
    obtain ⟨hx', -, hy', -⟩ := h'
    obtain rfl : y = y' := by omega
    have hxne : x ≠ x' := fun heq => hne (by rw [heq])
    rcases Nat.lt_or_gt_of_ne (show x.toNat ≠ x'.toNat by omega) with hlt | hgt
    · exact .inl (hcolumn hlt)
    · exact .inr (hcolumn hgt)
  · exact .inr (hrow h' hgt)

/-- What the bytes of a pixel of this colour read as. -/
def encoding (info : FramebufferInfo) (argb : UInt32) : ℕ :=
  if info.nativeArgb32 then argb.toNat
  else (nativePixel info argb).toNat % 256 ^ info.bytesPerPixel

/-- What the bytes of the pixel read as. -/
def shown (info : FramebufferInfo) (scanout : ℕ → UInt8) (x y : ℤ) : ℕ :=
  LittleEndian.load scanout (info.address x y) info.bytesPerPixel

theorem bytesPerPixel_of_native (h : info.nativeArgb32 = true) : info.bytesPerPixel = 4 := by
  simp only [nativeArgb32, decide_eq_true_eq] at h
  exact h.1

theorem scanoutPixel_eq (hinfo : info.Valid) (target : ℕ → UInt8) (x y : ℤ) (argb : UInt32) :
    scanoutPixel info target x y argb = LittleEndian.store target (info.address x y)
      info.bytesPerPixel (if info.nativeArgb32 then argb else nativePixel info argb).toNat := by
  unfold scanoutPixel
  by_cases hnative : info.nativeArgb32 = true
  · rw [if_pos hnative, if_pos hnative]
    unfold address
    rw [bytesPerPixel_of_native hnative]
  · rw [if_neg hnative, if_neg hnative]
    rcases hinfo.bytesPerPixel with hthree | hfour
    · rw [if_neg (by omega)]
      unfold address
      rw [hthree]
    · rw [if_pos hfour]
      unfold address
      rw [hfour]
      funext b
      unfold LittleEndian.store
      by_cases hlast : b = y.toNat * info.pitch + x.toNat * 4 + 3
      · subst hlast
        have hshift : (nativePixel info argb >>> 24).toNat
            = (nativePixel info argb).toNat / 256 ^ 3 := by
          rw [UInt32.toNat_shiftRight, Nat.shiftRight_eq_div_pow]
          rfl
        rw [if_pos (by omega), if_pos (by omega), Nat.sub_self, Nat.add_sub_cancel_left, hshift,
          pow_zero, Nat.div_one]
      · rw [if_neg (by omega)]
        by_cases hb : y.toNat * info.pitch + x.toNat * 4 ≤ b
            ∧ b < y.toNat * info.pitch + x.toNat * 4 + 4
        · rw [if_pos (by omega), if_pos hb]
        · rw [if_neg (by omega), if_neg hb]

theorem shown_scanoutPixel (hinfo : info.Valid) (h : info.Visible x y) (h' : info.Visible x' y')
    (target : ℕ → UInt8) (argb : UInt32) :
    info.shown (scanoutPixel info target x y argb) x' y'
      = if (x, y) = (x', y') then info.encoding argb else info.shown target x' y' := by
  rw [scanoutPixel_eq hinfo, shown]
  by_cases hsame : (x, y) = (x', y')
  · obtain ⟨rfl, rfl⟩ := Prod.mk.inj hsame
    rw [if_pos rfl, LittleEndian.load_store, encoding]
    split_ifs with hnative
    · rw [bytesPerPixel_of_native hnative]
      exact Nat.mod_eq_of_lt argb.toNat_lt
    · rfl
  · rw [if_neg hsame,
      LittleEndian.load_store_of_disjoint _ _ (address_apart hinfo h h' hsame).symm, shown]

theorem rectClip_pixels (h : info.rectClip rect = some clipped) {p : ℤ × ℤ}
    (hp : p ∈ clipped.pixels) : info.Visible p.1 p.2 :=
  ((rectClip_some h).1 (FramebufferRect.mem_pixels.1 hp)).2

theorem foldl_update_apart {turn : (ℕ → UInt32) → ℤ × ℤ → ℕ → UInt32}
    (hturn : ∀ b p i, i ≠ info.index p.1 p.2 → turn b p i = b i) (h : info.Visible x y) :
    ∀ {pixels : List (ℤ × ℤ)} {backbuffer : ℕ → UInt32}, (∀ p ∈ pixels, info.Visible p.1 p.2) →
      (x, y) ∉ pixels → pixels.foldl turn backbuffer (info.index x y) = backbuffer (info.index x y) := by
  intro pixels
  induction pixels with
  | nil => exact fun _ _ => rfl
  | cons p pixels ih =>
    intro backbuffer hvisible hnot
    rw [List.foldl_cons, ih (fun q hq => hvisible q (List.mem_cons_of_mem p hq))
      fun hmem => hnot (List.mem_cons_of_mem p hmem)]
    refine hturn _ _ _ fun heq => ?_
    obtain ⟨hx, hy⟩ := index_inj h (hvisible p List.mem_cons_self) heq
    exact hnot (List.mem_cons.2 (.inl (Prod.ext hx hy)))

end FramebufferInfo

namespace Framebuffer

variable {fb fb' fb'' : Framebuffer} {assets : Assets} {rect clipped : FramebufferRect}
  {x y : ℤ} {argb : UInt32}

/-- The pixel is in the damage that has not been presented. -/
def Pending (fb : Framebuffer) (x y : ℤ) : Prop := fb.dirty = true ∧ fb.damage.Contains x y

/-- What a drawing call does: it leaves everything but the backbuffer and the damage, and a pixel
outside the damage that it leaves is as it was. -/
structure Drawn (fb fb' : Framebuffer) : Prop where
  info : fb'.info = fb.info
  scanout : fb'.scanout = fb.scanout
  enabled : fb'.enabled = fb.enabled
  cursorRect : fb'.cursorRect = fb.cursorRect
  cursorVisible : fb'.cursorVisible = fb.cursorVisible
  cursorIconIndex : fb'.cursorIconIndex = fb.cursorIconIndex
  kept : ∀ x y, fb.info.Visible x y → ¬fb'.Pending x y →
    ¬fb.Pending x y ∧ fb'.backbuffer (fb.info.index x y) = fb.backbuffer (fb.info.index x y)

theorem Drawn.refl (fb : Framebuffer) : Drawn fb fb :=
  ⟨rfl, rfl, rfl, rfl, rfl, rfl, fun _ _ _ h => ⟨h, rfl⟩⟩

theorem Drawn.trans (h : Drawn fb fb') (h' : Drawn fb' fb'') : Drawn fb fb'' := by
  refine ⟨h'.info.trans h.info, h'.scanout.trans h.scanout, h'.enabled.trans h.enabled,
    h'.cursorRect.trans h.cursorRect, h'.cursorVisible.trans h.cursorVisible,
    h'.cursorIconIndex.trans h.cursorIconIndex, fun x y hvisible hpending => ?_⟩
  obtain ⟨hpending', hsame'⟩ := h'.kept x y (h.info.symm ▸ hvisible) hpending
  obtain ⟨hpending, hsame⟩ := h.kept x y hvisible hpending'
  rw [h.info] at hsame'
  exact ⟨hpending, hsame'.trans hsame⟩

theorem markDamage_eq (fb : Framebuffer) (rect : FramebufferRect) :
    ∃ damage dirty, fb.markDamage rect = { fb with damage, dirty } := by
  unfold markDamage
  rcases fb.info.rectClip rect with _ | clipped
  · exact ⟨fb.damage, fb.dirty, rfl⟩
  · dsimp only
    split_ifs <;> exact ⟨_, _, rfl⟩

theorem pending_markDamage (fb : Framebuffer) {rect : FramebufferRect}
    (h : fb.Pending x y ∨ rect.Contains x y ∧ fb.info.Visible x y) :
    (fb.markDamage rect).Pending x y := by
  unfold markDamage
  rcases hclip : fb.info.rectClip rect with _ | clipped
  · exact h.resolve_right (FramebufferInfo.rectClip_none hclip)
  · rw [← FramebufferInfo.rectClip_some hclip] at h
    dsimp only
    by_cases hdirty : fb.dirty = false
    · rw [if_pos hdirty]
      exact ⟨rfl, h.resolve_left fun hpending => Bool.false_ne_true (hdirty.symm.trans hpending.1)⟩
    · rw [if_neg hdirty]
      refine ⟨by simpa using hdirty, ?_⟩
      have hcontains : fb.damage.Contains x y ∨ clipped.Contains x y := h.imp_left fun h => h.2
      simp only [FramebufferRect.Contains] at hcontains ⊢
      split_ifs <;> omega

theorem drawn_markDamage {backbuffer : ℕ → UInt32}
    (h : ∀ x y, fb.info.Visible x y → ¬rect.Contains x y →
      backbuffer (fb.info.index x y) = fb.backbuffer (fb.info.index x y)) :
    Drawn fb ({ fb with backbuffer }.markDamage rect) := by
  obtain ⟨damage, dirty, heq⟩ := markDamage_eq { fb with backbuffer } rect
  have hpending : ∀ x y, fb.info.Visible x y → ¬({ fb with backbuffer }.markDamage rect).Pending x y →
      ¬fb.Pending x y ∧ ¬rect.Contains x y := by
    intro x y hvisible hnot
    have hmark : fb.Pending x y ∨ rect.Contains x y ∧ fb.info.Visible x y → False := fun h =>
      hnot (pending_markDamage { fb with backbuffer } h)
    exact ⟨fun h => hmark (.inl h), fun h => hmark (.inr ⟨h, hvisible⟩)⟩
  rw [heq] at hpending ⊢
  exact ⟨rfl, rfl, rfl, rfl, rfl, rfl, fun x y hvisible hnot =>
    ⟨(hpending x y hvisible hnot).1, h x y hvisible (hpending x y hvisible hnot).2⟩⟩

theorem drawn_framebufferMarkDirty (fb : Framebuffer) (rect : FramebufferRect) :
    Drawn fb (fb.framebufferMarkDirty rect) := drawn_markDamage fun _ _ _ _ => rfl

theorem drawn_framebufferFillRect (fb : Framebuffer) (rect : FramebufferRect) (argb : UInt32) :
    Drawn fb (fb.framebufferFillRect rect argb) := by
  unfold framebufferFillRect
  split_ifs
  · exact .refl fb
  rcases hclip : fb.info.rectClip rect with _ | clipped
  · exact .refl fb
  · exact drawn_markDamage fun x y hvisible hnot =>
      FramebufferInfo.foldl_update_apart (fun _ _ _ hi => Function.update_of_ne hi _ _) hvisible
        (fun p hp => FramebufferInfo.rectClip_pixels hclip hp)
        fun hmem => hnot (FramebufferRect.mem_pixels.1 hmem)

theorem drawn_framebufferClear (fb : Framebuffer) (argb : UInt32) :
    Drawn fb (fb.framebufferClear argb) := by
  unfold framebufferClear
  split_ifs
  · exact .refl fb
  · exact drawn_framebufferFillRect ..

theorem drawn_framebufferPixel (fb : Framebuffer) (x y : ℤ) (argb : UInt32) :
    Drawn fb (fb.framebufferPixel x y argb) := by
  unfold framebufferPixel
  split_ifs with hout
  · exact .refl fb
  · refine drawn_markDamage fun x' y' hvisible hnot => Function.update_of_ne (fun heq => ?_) _ _
    have hpixel : fb.info.Visible x y := by
      unfold FramebufferInfo.Visible
      omega
    obtain ⟨rfl, rfl⟩ := FramebufferInfo.index_inj hvisible hpixel heq
    simp only [FramebufferRect.Contains] at hnot
    omega

theorem drawn_framebufferBorderRect (fb : Framebuffer) (rect : FramebufferRect) (argb : UInt32) :
    Drawn fb (fb.framebufferBorderRect rect argb) :=
  (((drawn_framebufferFillRect ..).trans (drawn_framebufferFillRect ..)).trans
    (drawn_framebufferFillRect ..)).trans (drawn_framebufferFillRect ..)

theorem drawn_lineLoop (x1 y1 dx sx dy sy : ℤ) (argb : UInt32) :
    ∀ (rounds : ℕ) (x0 y0 error : ℤ) (fb : Framebuffer),
      Drawn fb (lineLoop x1 y1 dx sx dy sy argb rounds x0 y0 error fb)
  | 0, _, _, _, fb => .refl fb
  | rounds + 1, x0, y0, error, fb => by
    rw [lineLoop]
    dsimp only
    split_ifs
    · exact drawn_framebufferPixel ..
    all_goals exact (drawn_framebufferPixel ..).trans (drawn_lineLoop ..)

theorem drawn_framebufferLine (fb : Framebuffer) (rounds : ℕ) (x0 y0 x1 y1 : ℤ) (argb : UInt32) :
    Drawn fb (fb.framebufferLine rounds x0 y0 x1 y1 argb) := drawn_lineLoop ..

theorem blitPixel_of_ne (info : FramebufferInfo) (x y : ℤ) (pixels : ℕ → UInt32)
    (sourcePitch : ℕ) (backbuffer : ℕ → UInt32) (p : ℤ × ℤ) (i : ℕ)
    (h : i ≠ info.index p.1 p.2) :
    blitPixel info x y pixels sourcePitch backbuffer p i = backbuffer i := by
  exact Function.update_of_ne h _ _

theorem drawn_framebufferBlit (fb : Framebuffer) (x y : ℤ) (pixels : Option (ℕ → UInt32))
    (width height sourcePitch : ℕ) :
    Drawn fb (fb.framebufferBlit x y pixels width height sourcePitch) := by
  unfold framebufferBlit
  rcases pixels with _ | pixels
  · exact .refl fb
  split_ifs
  · exact .refl fb
  rcases hclip : fb.info.rectClip ⟨x, y, int32 width, int32 height⟩ with _ | clipped
  · exact .refl fb
  · exact drawn_markDamage fun x' y' hvisible hnot =>
      FramebufferInfo.foldl_update_apart (blitPixel_of_ne fb.info x y pixels sourcePitch) hvisible
        (fun p hp => FramebufferInfo.rectClip_pixels hclip hp)
        fun hmem => hnot (FramebufferRect.mem_pixels.1 hmem)

theorem drawn_foldl {ι : Type*} {f : Framebuffer → ι → Framebuffer}
    (h : ∀ fb i, Drawn fb (f fb i)) : ∀ (l : List ι) (fb : Framebuffer), Drawn fb (l.foldl f fb)
  | [], fb => .refl fb
  | i :: l, fb => (h fb i).trans (drawn_foldl h l (f fb i))

theorem drawn_textLoop (rowsOf : Char → List ℕ) (height width : ℕ) (y : ℤ) (scale : ℕ)
    (argb : UInt32) : ∀ (text : List Char) (cursor : ℤ) (fb : Framebuffer),
      Drawn fb (textLoop rowsOf height width y scale argb text cursor fb)
  | [], _, fb => .refl fb
  | value :: text, cursor, fb => by
    rw [textLoop]
    exact (drawn_foldl (fun fb g => drawn_framebufferFillRect ..) _ fb).trans
      (drawn_textLoop rowsOf height width y scale argb text _ _)

theorem drawn_framebufferText (fb : Framebuffer) (x y : ℤ) (text : Option (List Char))
    (scale : ℕ) (argb : UInt32) : Drawn fb (fb.framebufferText x y text scale argb) := by
  unfold framebufferText
  rcases text with _ | text
  · exact .refl fb
  · dsimp only
    split_ifs
    · exact .refl fb
    · exact drawn_textLoop ..

theorem drawn_framebufferTextCompact (fb : Framebuffer) (x y : ℤ) (text : Option (List Char))
    (scale : ℕ) (argb : UInt32) : Drawn fb (fb.framebufferTextCompact x y text scale argb) := by
  unfold framebufferTextCompact
  rcases text with _ | text
  · exact .refl fb
  · dsimp only
    split_ifs
    · exact .refl fb
    · exact drawn_textLoop ..

/-- The backbuffer with the image of the cursor over it. -/
def overlaid (fb : Framebuffer) (assets : Assets) (x y : ℤ) : UInt32 :=
  let pixel := fb.backbuffer (fb.info.index x y)
  if fb.cursorVisible = true ∧ fb.cursorRect.Contains x y then
    match fb.activeCursorPixels assets with
    | none => pixel
    | some icon =>
      blend pixel (icon ((y - fb.cursorY).toNat * demonMouseCursorWidth + (x - fb.cursorX).toNat))
  else pixel

/-- What the scanout memory shows at the pixel. -/
def shown (fb : Framebuffer) (x y : ℤ) : ℕ := fb.info.shown fb.scanout x y

theorem scanoutBackbufferRect_eq (fb : Framebuffer) (rect : FramebufferRect) :
    ∃ scanout, fb.scanoutBackbufferRect rect = { fb with scanout } := by
  unfold scanoutBackbufferRect
  split_ifs
  · exact ⟨fb.scanout, rfl⟩
  rcases fb.info.rectClip rect with _ | clipped
  · exact ⟨fb.scanout, rfl⟩
  · exact ⟨_, rfl⟩

theorem shown_scanoutBackbufferRect (henabled : fb.enabled = true) (hinfo : fb.info.Valid)
    (h : fb.info.Visible x y) (rect : FramebufferRect) :
    (fb.scanoutBackbufferRect rect).shown x y = if rect.Contains x y then
      fb.info.encoding (fb.backbuffer (fb.info.index x y)) else fb.shown x y := by
  unfold scanoutBackbufferRect
  rw [if_neg (by simp [henabled])]
  rcases hclip : fb.info.rectClip rect with _ | clipped
  · rw [if_neg fun hmem => FramebufferInfo.rectClip_none hclip ⟨hmem, h⟩]
  · dsimp only [shown]
    have hturn : ∀ p ∈ clipped.pixels, ∀ target,
        fb.info.shown (fb.scanoutBackbufferPixel target p) x y = if id p = (x, y) then
          fb.info.encoding (fb.backbuffer (fb.info.index x y)) else fb.info.shown target x y := by
      intro p hp target
      rw [scanoutBackbufferPixel,
        FramebufferInfo.shown_scanoutPixel hinfo (FramebufferInfo.rectClip_pixels hclip hp) h]
      by_cases hsame : p = (x, y)
      · subst hsame
        rfl
      · rw [if_neg hsame, if_neg (show ¬id p = (x, y) from hsame)]
    obtain ⟨hin, hout⟩ := Damage.foldl_shows fb.scanoutBackbufferPixel
      (fun target => fb.info.shown target x y) id (x, y) _ clipped.pixels fb.scanout hturn
    rw [List.map_id, FramebufferRect.mem_pixels, FramebufferInfo.rectClip_some hclip] at hin hout
    split_ifs with hmem
    · exact hin ⟨hmem, h⟩
    · exact hout fun hmem' => hmem hmem'.1

theorem scanoutCursorOverlay_eq (fb : Framebuffer) (assets : Assets) :
    ∃ scanout, fb.scanoutCursorOverlay assets = { fb with scanout } := by
  unfold scanoutCursorOverlay
  split_ifs
  · exact ⟨fb.scanout, rfl⟩
  rcases fb.activeCursorPixels assets with _ | icon
  · exact ⟨fb.scanout, rfl⟩
  · exact ⟨_, rfl⟩

theorem mem_cursorPlaces {i : ℕ × ℕ} :
    i ∈ cursorPlaces ↔ i.1 < demonMouseCursorWidth ∧ i.2 < demonMouseCursorHeight := by
  obtain ⟨ix, iy⟩ := i
  simp only [cursorPlaces, List.mem_flatMap, List.mem_map, List.mem_range, Prod.mk.injEq]
  constructor
  · rintro ⟨iy', hiy, ix', hix, rfl, rfl⟩
    exact ⟨hix, hiy⟩
  · rintro ⟨hix, hiy⟩
    exact ⟨iy, hiy, ix, hix, rfl, rfl⟩

theorem overlaid_of_place {icon : ℕ → UInt32} {i : ℕ × ℕ} (hvisible : fb.cursorVisible = true)
    (hicon : fb.activeCursorPixels assets = some icon) (hi : i ∈ cursorPlaces)
    (hx : fb.cursorX + i.1 = x) (hy : fb.cursorY + i.2 = y) :
    fb.cursorRect.Contains x y ∧ fb.overlaid assets x y
      = blend (fb.backbuffer (fb.info.index x y)) (icon (i.2 * demonMouseCursorWidth + i.1)) := by
  obtain ⟨hix, hiy⟩ := mem_cursorPlaces.1 hi
  have hcontains : fb.cursorRect.Contains x y := by
    simp only [FramebufferRect.Contains, cursorRect]
    omega
  refine ⟨hcontains, ?_⟩
  unfold overlaid
  rw [if_pos ⟨hvisible, hcontains⟩, hicon, show (y - fb.cursorY).toNat = i.2 by omega,
    show (x - fb.cursorX).toNat = i.1 by omega]

theorem shown_scanoutCursorPixel {icon : ℕ → UInt32} (hinfo : fb.info.Valid)
    (h : fb.info.Visible x y) (hvisible : fb.cursorVisible = true)
    (hicon : fb.activeCursorPixels assets = some icon) (target : ℕ → UInt8) {i : ℕ × ℕ}
    (hi : i ∈ cursorPlaces) :
    fb.info.shown (fb.scanoutCursorPixel icon target i) x y
      = if (fb.cursorX + i.1, fb.cursorY + i.2) = (x, y) then
        fb.info.encoding (fb.overlaid assets x y) else fb.info.shown target x y := by
  unfold scanoutCursorPixel
  dsimp only
  by_cases hsame : (fb.cursorX + i.1, fb.cursorY + i.2) = (x, y)
  · obtain ⟨hx, hy⟩ := Prod.mk.inj hsame
    have hplace := overlaid_of_place hvisible hicon hi hx hy
    have hin : ¬(x < 0 ∨ y < 0 ∨ (fb.info.width : ℤ) ≤ x ∨ (fb.info.height : ℤ) ≤ y) := by
      obtain ⟨hx0, hxw, hy0, hyh⟩ := h
      omega
    rw [hplace.2, hx, hy, if_pos rfl, if_neg hin, FramebufferInfo.shown_scanoutPixel hinfo h h,
      if_pos rfl]
  · rw [if_neg hsame]
    split_ifs with hout
    · rfl
    · have hplace : fb.info.Visible (fb.cursorX + i.1) (fb.cursorY + i.2) := by
        unfold FramebufferInfo.Visible
        omega
      rw [FramebufferInfo.shown_scanoutPixel hinfo hplace h, if_neg hsame]

theorem shown_scanoutCursorOverlay (henabled : fb.enabled = true) (hinfo : fb.info.Valid)
    (h : fb.info.Visible x y) (assets : Assets) :
    (fb.scanoutCursorOverlay assets).shown x y
      = if fb.cursorVisible = true ∧ fb.cursorRect.Contains x y
          ∧ (fb.activeCursorPixels assets).isSome then
        fb.info.encoding (fb.overlaid assets x y) else fb.shown x y := by
  unfold scanoutCursorOverlay
  by_cases hvisible : fb.cursorVisible = true
  · rw [if_neg (by simp [henabled, hvisible])]
    rcases hicon : fb.activeCursorPixels assets with _ | icon
    · simp
    · obtain ⟨hin, hout⟩ := Damage.foldl_shows (fb.scanoutCursorPixel icon)
        (fun target => fb.info.shown target x y)
        (fun i : ℕ × ℕ => (fb.cursorX + i.1, fb.cursorY + i.2)) (x, y) _ cursorPlaces fb.scanout
        fun i hi target => shown_scanoutCursorPixel hinfo h hvisible hicon target hi
      dsimp only [shown] at hin hout ⊢
      by_cases hcontains : fb.cursorRect.Contains x y
      · rw [if_pos ⟨hvisible, hcontains, rfl⟩]
        refine hin (List.mem_map.2 ⟨((x - fb.cursorX).toNat, (y - fb.cursorY).toNat), ?_, ?_⟩)
        all_goals
          obtain ⟨hleft, hright, htop, hbottom⟩ := hcontains
          dsimp only [cursorRect] at hleft hright htop hbottom
        · exact mem_cursorPlaces.2 ⟨by omega, by omega⟩
        · refine Prod.ext ?_ ?_ <;> dsimp only <;> omega
      · rw [if_neg fun hmem => hcontains hmem.2.1]
        refine hout fun hmem => hcontains ?_
        obtain ⟨i, hi, hplace⟩ := List.mem_map.1 hmem
        obtain ⟨hx, hy⟩ := Prod.mk.inj hplace
        exact (overlaid_of_place hvisible hicon hi hx hy).1
  · rw [if_pos (.inr (by simpa using hvisible)), if_neg fun h => hvisible h.1]

/-- The colours that the display is to show. -/
def want (fb : Framebuffer) (assets : Assets) (p : ℤ × ℤ) : ℕ :=
  fb.info.encoding (fb.overlaid assets p.1 p.2)

/-- The colours of the backbuffer alone. -/
def scene (fb : Framebuffer) (p : ℤ × ℤ) : ℕ :=
  fb.info.encoding (fb.backbuffer (fb.info.index p.1 p.2))

def showing (fb : Framebuffer) (p : ℤ × ℤ) : ℕ := fb.shown p.1 p.2

/-- The pixels that are not on the screen. -/
def outside (fb : Framebuffer) : Set (ℤ × ℤ) := {p | ¬fb.info.Visible p.1 p.2}

/-- The pixels that need not show what is wanted. -/
def stale (fb : Framebuffer) : Set (ℤ × ℤ) := {p | fb.info.Visible p.1 p.2 → fb.Pending p.1 p.2}

def covered (fb : Framebuffer) (assets : Assets) : Set (ℤ × ℤ) :=
  {p | fb.cursorVisible = true ∧ fb.cursorRect.Contains p.1 p.2
    ∧ (fb.activeCursorPixels assets).isSome}

/-- The display shows the backbuffer with the cursor over it but for the damage. -/
structure InOrder (assets : Assets) (fb : Framebuffer) : Prop where
  enabled : fb.enabled = true
  info : fb.info.Valid
  shows : Damage.Synced fb.stale (fb.want assets) fb.showing

theorem want_of_not_covered {p : ℤ × ℤ} (h : p ∉ fb.covered assets) :
    fb.want assets p = fb.scene p := by
  unfold want scene overlaid
  split_ifs with hcursor
  · rcases hicon : fb.activeCursorPixels assets with _ | icon
    · rfl
    · exact absurd ⟨hcursor.1, hcursor.2, by rw [hicon]; rfl⟩ h
  · rfl

theorem Drawn.inOrder (h : Drawn fb fb') (hfb : InOrder assets fb) : InOrder assets fb' := by
  refine ⟨h.enabled.trans hfb.enabled, h.info ▸ hfb.info, ?_⟩
  have hshowing : fb'.showing = fb.showing := by
    unfold showing shown
    rw [h.info, h.scanout]
  rw [hshowing]
  refine hfb.shows.draw (fun p hstale hvisible => ?_) fun p hp => ?_
  · rw [h.info] at hvisible
    by_contra hpending
    exact (h.kept p.1 p.2 hvisible hpending).1 (hstale hvisible)
  · obtain ⟨hvisible, hpending⟩ := Classical.not_imp.1 hp
    rw [h.info] at hvisible
    have hrect := h.cursorRect
    simp only [Framebuffer.cursorRect, FramebufferRect.mk.injEq] at hrect
    unfold want overlaid activeCursorPixels
    rw [h.cursorRect, h.cursorVisible, h.cursorIconIndex, h.info, hrect.1, hrect.2.1,
      (h.kept p.1 p.2 hvisible hpending).2]

theorem scanoutCursorOverlay_shows {damage : Set (ℤ × ℤ)} (henabled : fb.enabled = true)
    (hinfo : fb.info.Valid) (hdamage : fb.outside ⊆ damage)
    (h : Damage.Synced (damage ∪ fb.covered assets) (fb.want assets) fb.showing) :
    Damage.Synced damage (fb.want assets) (fb.scanoutCursorOverlay assets).showing := by
  have hrepaint : Damage.Synced ((damage ∪ fb.covered assets) \ (fb.covered assets \ fb.outside))
      (fb.want assets) (fb.scanoutCursorOverlay assets).showing := by
    refine h.repaint ?_ ?_
    · rintro p ⟨hcovered, hvisible⟩
      exact (shown_scanoutCursorOverlay henabled hinfo (not_not.1 hvisible) assets).trans
        (if_pos hcovered)
    · intro p hp _
      refine ⟨rfl, (shown_scanoutCursorOverlay henabled hinfo ?_ assets).trans
        (if_neg fun hcovered => hp (.inr hcovered))⟩
      exact not_not.1 fun hout => hp (.inl (hdamage hout))
  refine hrepaint.draw (fun p hp => ?_) fun _ _ => rfl
  by_contra hnot
  exact hp.2 ⟨hp.1.resolve_left hnot, fun hout => hnot (hdamage hout)⟩

theorem restoreCursor_eq (fb : Framebuffer) : ∃ scanout, fb.restoreCursor = { fb with scanout } := by
  unfold restoreCursor
  split_ifs
  · exact scanoutBackbufferRect_eq fb fb.cursorRect
  · exact ⟨fb.scanout, rfl⟩

theorem restoreCursor_shows (h : InOrder assets fb) :
    Damage.Synced fb.stale fb.scene fb.restoreCursor.showing := by
  have hshown : ∀ p : ℤ × ℤ, fb.info.Visible p.1 p.2 → fb.restoreCursor.showing p
      = if fb.cursorVisible = true ∧ fb.cursorRect.Contains p.1 p.2 then fb.scene p
        else fb.showing p := by
    intro p hp
    unfold restoreCursor
    by_cases hvisible : fb.cursorVisible = true
    · simp only [hvisible, if_true, true_and]
      exact shown_scanoutBackbufferRect h.enabled h.info hp fb.cursorRect
    · simp only [hvisible, if_false, false_and, Bool.false_eq_true]
  have hrepaint : Damage.Synced (fb.stale \ {p | fb.info.Visible p.1 p.2
      ∧ fb.cursorVisible = true ∧ fb.cursorRect.Contains p.1 p.2}) fb.scene
      fb.restoreCursor.showing := by
    refine h.shows.repaint (fun p hp => (hshown p hp.1).trans (if_pos hp.2)) fun p hp hnot => ?_
    have hp : fb.info.Visible p.1 p.2 := (Classical.not_imp.1 hp).1
    have hcursor : ¬(fb.cursorVisible = true ∧ fb.cursorRect.Contains p.1 p.2) := fun hmem =>
      hnot ⟨hp, hmem⟩
    exact ⟨(want_of_not_covered fun hmem => hcursor ⟨hmem.1, hmem.2.1⟩).symm,
      (hshown p hp).trans (if_neg hcursor)⟩
  exact hrepaint.draw Set.sdiff_subset fun _ _ => rfl

theorem moved_inOrder (h : InOrder assets fb) (cursorX cursorY : ℤ) (cursorVisible : Bool)
    (cursorUpdateCount : UInt64) (cursorIconIndex : ℕ) :
    InOrder assets ({ fb.restoreCursor with
      cursorX, cursorY, cursorVisible, cursorUpdateCount, cursorIconIndex }.scanoutCursorOverlay
        assets) := by
  have hshows := restoreCursor_shows h
  obtain ⟨scanout, hrestored⟩ := restoreCursor_eq fb
  rw [hrestored] at hshows ⊢
  set moved : Framebuffer := { fb with
    scanout, cursorX, cursorY, cursorVisible, cursorUpdateCount, cursorIconIndex } with hmoved
  have hmovedShows : Damage.Synced fb.stale (moved.want assets)
      (moved.scanoutCursorOverlay assets).showing := by
    refine scanoutCursorOverlay_shows h.enabled h.info (fun p hp hvisible => absurd hvisible hp) ?_
    exact hshows.draw Set.subset_union_left fun p hp =>
      want_of_not_covered fun hmem => hp (.inr hmem)
  obtain ⟨scanout', heq⟩ := scanoutCursorOverlay_eq moved assets
  rw [heq] at hmovedShows ⊢
  exact ⟨h.enabled, h.info, hmovedShows⟩

theorem framebufferCursorMove_inOrder (h : InOrder assets fb) (x y : ℤ) :
    InOrder assets (fb.framebufferCursorMove assets x y).2 := by
  unfold framebufferCursorMove
  dsimp only
  split_ifs
  all_goals first | exact h | exact moved_inOrder h ..

theorem scanoutCursorOverlay_of_hidden (fb : Framebuffer) (assets : Assets)
    (h : fb.cursorVisible = false) : fb.scanoutCursorOverlay assets = fb := if_pos (.inr h)

theorem framebufferCursorSetIcon_inOrder (h : InOrder assets fb) (iconIndex : ℕ) :
    InOrder assets (fb.framebufferCursorSetIcon assets iconIndex) := by
  unfold framebufferCursorSetIcon
  dsimp only
  split_ifs with hsame hhidden
  · exact h
  · have hchosen := moved_inOrder h fb.restoreCursor.cursorX fb.restoreCursor.cursorY
      fb.restoreCursor.cursorVisible fb.restoreCursor.cursorUpdateCount iconIndex
    rwa [scanoutCursorOverlay_of_hidden _ assets
      (show ({ fb.restoreCursor with cursorIconIndex := iconIndex } : Framebuffer).cursorVisible
        = false from hhidden)] at hchosen
  · exact moved_inOrder h ..

theorem framebufferCursorHide_inOrder (h : InOrder assets fb) :
    InOrder assets fb.framebufferCursorHide := by
  unfold framebufferCursorHide
  split_ifs with hhidden
  · exact h
  · have hhide := moved_inOrder h fb.restoreCursor.cursorX fb.restoreCursor.cursorY false
      fb.restoreCursor.cursorUpdateCount fb.restoreCursor.cursorIconIndex
    rwa [scanoutCursorOverlay_of_hidden _ assets rfl] at hhide

theorem framebufferPresent_shows (h : InOrder assets fb) :
    Damage.Synced fb.outside (fb.want assets)
      ((fb.scanoutBackbufferRect fb.damage).scanoutCursorOverlay assets).showing := by
  obtain ⟨scanout, heq⟩ := scanoutBackbufferRect_eq fb fb.damage
  have hshown : ∀ p : ℤ × ℤ, fb.info.Visible p.1 p.2 → ({ fb with scanout } : Framebuffer).showing p
      = if fb.damage.Contains p.1 p.2 then fb.scene p else fb.showing p := fun p hp => by
    rw [← heq]
    exact shown_scanoutBackbufferRect h.enabled h.info hp fb.damage
  rw [heq]
  refine scanoutCursorOverlay_shows h.enabled h.info subset_rfl fun p hp => ?_
  have hvisible : fb.info.Visible p.1 p.2 := not_not.1 fun hout => hp (.inl hout)
  have hcovered : p ∉ fb.covered assets := fun hmem => hp (.inr hmem)
  rw [hshown p hvisible]
  split_ifs with hdamage
  · exact (want_of_not_covered hcovered).symm
  · exact h.shows p fun hstale => hdamage (hstale hvisible).2

theorem framebufferPresent_inOrder (h : InOrder assets fb) :
    InOrder assets (fb.framebufferPresent assets)
      ∧ (fb.framebufferPresent assets).dirty = false := by
  unfold framebufferPresent
  by_cases hdirty : fb.dirty = true
  · rw [if_neg (by simp [h.enabled, hdirty])]
    have hshows := framebufferPresent_shows h
    obtain ⟨scanout, heq⟩ := scanoutBackbufferRect_eq fb fb.damage
    rw [heq] at hshows ⊢
    obtain ⟨scanout', heq'⟩ := scanoutCursorOverlay_eq { fb with scanout } assets
    rw [heq'] at hshows ⊢
    exact ⟨⟨h.enabled, h.info, hshows.draw (fun p hp hvisible => absurd hvisible hp)
      fun _ _ => rfl⟩, rfl⟩
  · have hclean : fb.dirty = false := by simpa using hdirty
    rw [if_pos (.inr hclean)]
    exact ⟨h, hclean⟩

theorem framebufferDiscover_valid {tag : TagFramebuffer}
    (h : (fb.framebufferDiscover tag).1 = true) : (fb.framebufferDiscover tag).2.info.Valid := by
  unfold framebufferDiscover at h ⊢
  dsimp only at h ⊢
  split_ifs at h ⊢ with hmode hmask hlength hrange
  constructor
  · unfold FramebufferInfo.bytesPerPixel
    dsimp only
    omega
  · unfold FramebufferInfo.bytesPerPixel
    dsimp only
    omega

theorem pending_framebufferFillRect (henabled : fb.enabled = true) (argb : UInt32)
    (h : rect.Contains x y) (hvisible : fb.info.Visible x y) :
    (fb.framebufferFillRect rect argb).Pending x y := by
  unfold framebufferFillRect
  rw [if_neg (by simp [henabled])]
  rcases hclip : fb.info.rectClip rect with _ | clipped
  · exact absurd ⟨h, hvisible⟩ (FramebufferInfo.rectClip_none hclip)
  · exact pending_markDamage _ (.inr ⟨(FramebufferInfo.rectClip_some hclip).2 ⟨h, hvisible⟩,
      hvisible⟩)

theorem framebufferEnable_inOrder {backbufferAddress backbufferCapacity : ℕ}
    {backbuffer : ℕ → UInt32} (hinfo : fb.info.Valid)
    (h : (fb.framebufferEnable backbufferAddress backbufferCapacity backbuffer).1 = true) :
    InOrder assets (fb.framebufferEnable backbufferAddress backbufferCapacity backbuffer).2 := by
  unfold framebufferEnable at h ⊢
  dsimp only at h ⊢
  split_ifs at h ⊢ with hrefused
  dsimp only [framebufferClear]
  rw [if_neg (by simp)]
  have hdrawn := drawn_framebufferFillRect { fb with backbuffer, enabled := true, dirty := false }
    ⟨0, 0, fb.info.width, fb.info.height⟩ 0xFF000000
  refine ⟨hdrawn.enabled, ?_, fun p hp => absurd (fun hvisible => ?_) hp⟩
  · rw [hdrawn.info]
    exact hinfo
  rw [hdrawn.info] at hvisible
  refine pending_framebufferFillRect rfl _ ?_ hvisible
  obtain ⟨hx, hxw, hy, hyh⟩ := hvisible
  simp only [FramebufferRect.Contains]
  dsimp only at hxw hyh
  omega

/-- What a drawing call reads of the state and changes, but for the damage. -/
structure SameScene (fb fb' : Framebuffer) : Prop where
  info : fb'.info = fb.info
  enabled : fb'.enabled = fb.enabled
  backbuffer : fb'.backbuffer = fb.backbuffer

theorem SameScene.markDamage (h : SameScene fb fb') (rect rect' : FramebufferRect) :
    SameScene (fb.markDamage rect) (fb'.markDamage rect') := by
  obtain ⟨damage, dirty, heq⟩ := markDamage_eq fb rect
  obtain ⟨damage', dirty', heq'⟩ := markDamage_eq fb' rect'
  rw [heq, heq']
  exact ⟨h.info, h.enabled, h.backbuffer⟩

theorem SameScene.fillRect (h : SameScene fb fb') (rect : FramebufferRect) (argb : UInt32) :
    SameScene (fb.framebufferFillRect rect argb) (fb'.framebufferFillRect rect argb) := by
  unfold framebufferFillRect
  rw [h.info, h.enabled, h.backbuffer]
  split_ifs
  · exact h
  rcases fb.info.rectClip rect with _ | clipped
  · exact h
  · refine SameScene.markDamage ?_ _ _
    exact ⟨rfl, rfl, rfl⟩

theorem SameScene.pixel (h : SameScene fb fb') (x y : ℤ) (argb : UInt32) :
    SameScene (fb.framebufferPixel x y argb) (fb'.framebufferPixel x y argb) := by
  unfold framebufferPixel
  rw [h.info, h.enabled, h.backbuffer]
  split_ifs
  · exact h
  · refine SameScene.markDamage ?_ _ _
    exact ⟨rfl, rfl, rfl⟩

theorem SameScene.clear (h : SameScene fb fb') (argb : UInt32) :
    SameScene (fb.framebufferClear argb) (fb'.framebufferClear argb) := by
  unfold framebufferClear
  rw [h.info, h.enabled]
  split_ifs
  · exact h
  · exact h.fillRect ..

theorem SameScene.lineLoop {x1 y1 dx sx dy sy : ℤ} : ∀ (rounds : ℕ) (x0 y0 error : ℤ)
    {fb fb' : Framebuffer}, SameScene fb fb' →
    SameScene (lineLoop x1 y1 dx sx dy sy argb rounds x0 y0 error fb)
      (Framebuffer.lineLoop x1 y1 dx sx dy sy argb rounds x0 y0 error fb')
  | 0, _, _, _, _, _, h => h
  | rounds + 1, x0, y0, error, fb, fb', h => by
    rw [Framebuffer.lineLoop, Framebuffer.lineLoop]
    dsimp only
    split_ifs
    · exact h.pixel ..
    all_goals exact SameScene.lineLoop rounds _ _ _ (h.pixel ..)

theorem SameScene.line (h : SameScene fb fb') (rounds : ℕ) (x0 y0 x1 y1 : ℤ) (argb : UInt32) :
    SameScene (fb.framebufferLine rounds x0 y0 x1 y1 argb)
      (fb'.framebufferLine rounds x0 y0 x1 y1 argb) := by
  exact SameScene.lineLoop rounds _ _ _ h

theorem SameScene.blit (h : SameScene fb fb') (x y : ℤ) (pixels : Option (ℕ → UInt32))
    (width height sourcePitch : ℕ) :
    SameScene (fb.framebufferBlit x y pixels width height sourcePitch)
      (fb'.framebufferBlit x y pixels width height sourcePitch) := by
  unfold framebufferBlit
  rw [h.info, h.enabled, h.backbuffer]
  rcases pixels with _ | pixels
  · exact h
  split_ifs
  · exact h
  rcases fb.info.rectClip ⟨x, y, int32 width, int32 height⟩ with _ | clipped
  · exact h
  · refine SameScene.markDamage ?_ _ _
    exact ⟨rfl, rfl, rfl⟩

theorem SameScene.foldl {ι : Type*} {f : Framebuffer → ι → Framebuffer}
    (hf : ∀ {fb fb'} i, SameScene fb fb' → SameScene (f fb i) (f fb' i)) :
    ∀ (l : List ι) {fb fb' : Framebuffer}, SameScene fb fb' →
      SameScene (l.foldl f fb) (l.foldl f fb')
  | [], _, _, h => h
  | i :: l, _, _, h => SameScene.foldl hf l (hf i h)

theorem SameScene.textLoop {rowsOf : Char → List ℕ} {height width : ℕ} {scale : ℕ} :
    ∀ (text : List Char) (cursor : ℤ) {fb fb' : Framebuffer}, SameScene fb fb' →
      SameScene (textLoop rowsOf height width y scale argb text cursor fb)
        (Framebuffer.textLoop rowsOf height width y scale argb text cursor fb')
  | [], _, _, _, h => h
  | value :: text, cursor, fb, fb', h => by
    rw [Framebuffer.textLoop, Framebuffer.textLoop]
    refine SameScene.textLoop text _ (SameScene.foldl ?_ _ h)
    intro fb fb' g h
    exact h.fillRect ..

theorem SameScene.text (h : SameScene fb fb') (x y : ℤ) (text : Option (List Char)) (scale : ℕ)
    (argb : UInt32) :
    SameScene (fb.framebufferText x y text scale argb) (fb'.framebufferText x y text scale argb)
      ∧ SameScene (fb.framebufferTextCompact x y text scale argb)
        (fb'.framebufferTextCompact x y text scale argb) := by
  unfold framebufferText framebufferTextCompact
  rw [h.enabled]
  rcases text with _ | text
  · exact ⟨h, h⟩
  · dsimp only
    split_ifs
    · exact ⟨h, h⟩
    · exact ⟨SameScene.textLoop text x h, SameScene.textLoop text x h⟩

inductive FramebufferEvent
  | pixel (x y : ℤ) (argb : UInt32)
  | fillRect (rect : FramebufferRect) (argb : UInt32)
  | clear (argb : UInt32)
  | borderRect (rect : FramebufferRect) (argb : UInt32)
  | line (x0 y0 x1 y1 : ℤ) (argb : UInt32)
  | blit (x y : ℤ) (pixels : Option (ℕ → UInt32)) (width height sourcePitch : ℕ)
  | text (x y : ℤ) (text : Option (List Char)) (scale : ℕ) (argb : UInt32)
  | textCompact (x y : ℤ) (text : Option (List Char)) (scale : ℕ) (argb : UInt32)
  | markDirty (rect : FramebufferRect)
  | present
  | cursorMove (x y : ℤ)
  | cursorSetIcon (iconIndex : ℕ)
  | cursorHide

def FramebufferEvent.isDrawing : FramebufferEvent → Bool
  | .present | .cursorMove .. | .cursorSetIcon .. | .cursorHide => false
  | _ => true

/-- The calls, a line's loop making this many rounds at most. -/
def step (assets : Assets) (rounds : ℕ) (fb : Framebuffer) : FramebufferEvent → Framebuffer
  | .pixel x y argb => fb.framebufferPixel x y argb
  | .fillRect rect argb => fb.framebufferFillRect rect argb
  | .clear argb => fb.framebufferClear argb
  | .borderRect rect argb => fb.framebufferBorderRect rect argb
  | .line x0 y0 x1 y1 argb => fb.framebufferLine rounds x0 y0 x1 y1 argb
  | .blit x y pixels width height sourcePitch =>
    fb.framebufferBlit x y pixels width height sourcePitch
  | .text x y text scale argb => fb.framebufferText x y text scale argb
  | .textCompact x y text scale argb => fb.framebufferTextCompact x y text scale argb
  | .markDirty rect => fb.framebufferMarkDirty rect
  | .present => fb.framebufferPresent assets
  | .cursorMove x y => (fb.framebufferCursorMove assets x y).2
  | .cursorSetIcon iconIndex => fb.framebufferCursorSetIcon assets iconIndex
  | .cursorHide => fb.framebufferCursorHide

variable {rounds : ℕ}

theorem step_inOrder (fb : Framebuffer) (event : FramebufferEvent) (h : InOrder assets fb) :
    InOrder assets (step assets rounds fb event) := by
  cases event with
  | pixel x y argb => exact (drawn_framebufferPixel ..).inOrder h
  | fillRect rect argb => exact (drawn_framebufferFillRect ..).inOrder h
  | clear argb => exact (drawn_framebufferClear ..).inOrder h
  | borderRect rect argb => exact (drawn_framebufferBorderRect ..).inOrder h
  | line x0 y0 x1 y1 argb => exact (drawn_framebufferLine fb rounds x0 y0 x1 y1 argb).inOrder h
  | blit x y pixels width height sourcePitch =>
    exact (drawn_framebufferBlit fb x y pixels width height sourcePitch).inOrder h
  | text x y text scale argb => exact (drawn_framebufferText ..).inOrder h
  | textCompact x y text scale argb => exact (drawn_framebufferTextCompact ..).inOrder h
  | markDirty rect => exact (drawn_framebufferMarkDirty ..).inOrder h
  | present => exact (framebufferPresent_inOrder h).1
  | cursorMove x y => exact framebufferCursorMove_inOrder h x y
  | cursorSetIcon iconIndex => exact framebufferCursorSetIcon_inOrder h iconIndex
  | cursorHide => exact framebufferCursorHide_inOrder h

/-- Drawing does not see the cursor, the damage or the scanout memory. -/
theorem SameScene.step {assets' : Assets} {event : FramebufferEvent} (h : SameScene fb fb')
    (hdrawing : event.isDrawing = true) :
    SameScene (step assets rounds fb event) (Framebuffer.step assets' rounds fb' event) := by
  cases event with
  | pixel x y argb => exact h.pixel ..
  | fillRect rect argb => exact h.fillRect ..
  | clear argb => exact h.clear argb
  | borderRect rect argb =>
    exact (((h.fillRect _ argb).fillRect _ argb).fillRect _ argb).fillRect _ argb
  | line x0 y0 x1 y1 argb => exact h.line rounds x0 y0 x1 y1 argb
  | blit x y pixels width height sourcePitch => exact h.blit x y pixels width height sourcePitch
  | text x y text scale argb => exact (h.text x y text scale argb).1
  | textCompact x y text scale argb => exact (h.text x y text scale argb).2
  | markDirty rect => exact h.markDamage ..
  | present => cases hdrawing
  | cursorMove x y => cases hdrawing
  | cursorSetIcon iconIndex => cases hdrawing
  | cursorHide => cases hdrawing

theorem framebufferPresent_scene (fb : Framebuffer) (assets : Assets) :
    SameScene fb (fb.framebufferPresent assets) := by
  unfold framebufferPresent
  split_ifs
  · exact ⟨rfl, rfl, rfl⟩
  · obtain ⟨scanout, heq⟩ := scanoutBackbufferRect_eq fb fb.damage
    obtain ⟨scanout', heq'⟩ := scanoutCursorOverlay_eq { fb with scanout } assets
    rw [heq, heq']
    exact ⟨rfl, rfl, rfl⟩

theorem moved_scene (fb : Framebuffer) (assets : Assets) (cursorX cursorY : ℤ)
    (cursorVisible : Bool) (cursorUpdateCount : UInt64) (cursorIconIndex : ℕ) :
    SameScene fb ({ fb.restoreCursor with
      cursorX, cursorY, cursorVisible, cursorUpdateCount, cursorIconIndex }.scanoutCursorOverlay
        assets) := by
  obtain ⟨scanout, hrestored⟩ := restoreCursor_eq fb
  rw [hrestored]
  obtain ⟨scanout', heq⟩ := scanoutCursorOverlay_eq { fb with
    scanout, cursorX, cursorY, cursorVisible, cursorUpdateCount, cursorIconIndex } assets
  rw [heq]
  exact ⟨rfl, rfl, rfl⟩

theorem step_scene {event : FramebufferEvent} (hdrawing : event.isDrawing = false) :
    SameScene fb (step assets rounds fb event) := by
  cases event with
  | present => exact framebufferPresent_scene fb assets
  | cursorMove x y =>
    simp only [step, framebufferCursorMove]
    split_ifs
    all_goals first | exact ⟨rfl, rfl, rfl⟩ | exact moved_scene ..
  | cursorSetIcon iconIndex =>
    simp only [step, framebufferCursorSetIcon]
    split_ifs
    · exact ⟨rfl, rfl, rfl⟩
    · obtain ⟨scanout, heq⟩ := restoreCursor_eq fb
      rw [heq]
      exact ⟨rfl, rfl, rfl⟩
    · exact moved_scene ..
  | cursorHide =>
    simp only [step, framebufferCursorHide]
    split_ifs
    · exact ⟨rfl, rfl, rfl⟩
    · obtain ⟨scanout, heq⟩ := restoreCursor_eq fb
      rw [heq]
      exact ⟨rfl, rfl, rfl⟩
  | pixel | fillRect | clear | borderRect | line | blit | text | textCompact | markDirty =>
    cases hdrawing

theorem run_scene (assets assets' : Assets) : ∀ (events : List FramebufferEvent)
    {fb fb' : Framebuffer}, SameScene fb fb' →
    SameScene (Machine.run (step assets' rounds) fb (events.filter FramebufferEvent.isDrawing))
      (Machine.run (step assets rounds) fb' events)
  | [], _, _, h => h
  | event :: events, fb, fb', h => by
    by_cases hdrawing : event.isDrawing = true
    · rw [List.filter_cons_of_pos hdrawing]
      exact run_scene assets assets' events (h.step hdrawing)
    · rw [List.filter_cons_of_neg hdrawing]
      have hstep : SameScene fb' (step assets rounds fb' event) :=
        step_scene (by simpa using hdrawing)
      exact run_scene assets assets' events ⟨hstep.info.trans h.info,
        hstep.enabled.trans h.enabled, hstep.backbuffer.trans h.backbuffer⟩

/-- Whatever is called after `framebuffer_enable`, the display shows the backbuffer with the cursor
over it but for the pending damage, after a present everywhere; and the backbuffer is what the
drawing calls alone make of it, whatever the images of the cursor. -/
theorem scanout_consistent (assets : Assets) (rounds : ℕ) (before : Framebuffer)
    (tag : TagFramebuffer) (backbufferAddress backbufferCapacity : ℕ) (backbuffer : ℕ → UInt32)
    (events : List FramebufferEvent)
    (hdiscover : (before.framebufferReset.framebufferDiscover tag).1 = true)
    (henable : ((before.framebufferReset.framebufferDiscover tag).2.framebufferEnable
      backbufferAddress backbufferCapacity backbuffer).1 = true) :
    let started := ((before.framebufferReset.framebufferDiscover tag).2.framebufferEnable
      backbufferAddress backbufferCapacity backbuffer).2
    let fb := Machine.run (step assets rounds) started events
    let presented := fb.framebufferPresent assets
    (∀ x y, fb.info.Visible x y → ¬fb.Pending x y →
        fb.shown x y = fb.info.encoding (fb.overlaid assets x y))
      ∧ (∀ x y, presented.info.Visible x y →
        presented.shown x y = presented.info.encoding (presented.overlaid assets x y))
      ∧ presented.backbuffer = fb.backbuffer
      ∧ ∀ assets', (Machine.run (step assets' rounds) started
          (events.filter FramebufferEvent.isDrawing)).backbuffer = fb.backbuffer := by
  intro started fb presented
  have hstarted : InOrder assets started :=
    framebufferEnable_inOrder (framebufferDiscover_valid hdiscover) henable
  have hfb : InOrder assets fb :=
    Machine.run_inv (step assets rounds) step_inOrder events started hstarted
  obtain ⟨hpresented, hclean⟩ := framebufferPresent_inOrder hfb
  refine ⟨fun x y hvisible hpending => ?_, fun x y hvisible => ?_, ?_, fun assets' => ?_⟩
  · exact hfb.shows (x, y) fun hstale => hpending (hstale hvisible)
  · refine hpresented.shows (x, y) fun hstale => ?_
    exact Bool.false_ne_true (hclean.symm.trans (hstale hvisible).1)
  · exact (framebufferPresent_scene fb assets).backbuffer
  · exact (run_scene assets assets' events ⟨rfl, rfl, rfl⟩).backbuffer.symm

theorem scanout_consistent_twoPixels :
    let tag : TagFramebuffer := ⟨38, 0xFD000000, 8, 2, 1, 32, 1, 16, 8, 8, 8, 0, 8⟩
    let assets : Assets := ⟨List.replicate 1536 0xFF, []⟩
    let before : Framebuffer := { backbuffer := fun _ => 0, scanout := fun _ => 0 }
    let started := ((before.framebufferReset.framebufferDiscover tag).2.framebufferEnable
      4096 4096 fun _ => 0).2
    let fb := Machine.run (step assets 0) started [.pixel 1 0 0xFFAABBCC, .cursorMove 0 0]
    let presented := fb.framebufferPresent assets
    presented.shown 1 0 = presented.info.encoding (presented.overlaid assets 1 0) := by
  intro tag assets before started fb presented
  exact (scanout_consistent assets 0 before tag 4096 4096 (fun _ => 0)
    [.pixel 1 0 0xFFAABBCC, .cursorMove 0 0] (by decide +kernel) (by decide +kernel)).2.1 1 0
      ⟨by decide +kernel, by decide +kernel, by decide +kernel, by decide +kernel⟩

end Framebuffer

end DemonOS
