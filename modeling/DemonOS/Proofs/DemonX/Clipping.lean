import DemonOS.Proofs.DemonX.Marks

/-!
# Clips

A client's calls on its graphics contexts, and the clip last set on each since it was created, kept
beside the run. The clip of the context is that one, and no request of a drawing call marks a pixel
outside it, in every run whose calls are proper (`clips_kept`): no context is created in a slot that
was freed with a clip, and the calls that do not look at the clip are made without one or draw inside
it. A slot that was freed with a clip hands it to its next context, and `XFillRectangles` fills
outside the clip (`clip_lost`).
-/

namespace DemonOS

namespace DemonX

open Server (Drawable Dot)

/-! ## Calls -/

inductive DrawCall where
  | fillRectangle (a : Area)
  | fillRectangles (rectangles : List XRectangle)
  | drawRectangle (x y : ℤ) (width height : ℕ)
  | drawLine (x1 y1 x2 y2 : ℤ)
  | drawLines (points : List XPoint) (mode : CoordMode)
  | drawArc (x y : ℤ) (width height : UInt32) (angle1 angle2 : Int32)
  | fillArc (x y : ℤ) (width height : UInt32) (angle1 angle2 : Int32)
  | fillPolygon (points : List XPoint) (mode : CoordMode)
  | copyArea (source : UInt32) (sourceX sourceY : Int32) (width height : UInt32)
      (destinationX destinationY : Int32)
  | putImage (image : XImage) (srcX srcY destX destY : Int32) (width height : UInt32)
  | drawString (x y : Int32) (text : List UInt8)
  | drawStringScaled (x y : Int32) (text : List UInt8) (scale : UInt8)

def DrawCall.drawn (gc : GC) (drawable : UInt32) : DrawCall → Drawn
  | .fillRectangle a => xFillRectangle gc drawable a
  | .fillRectangles rectangles => xFillRectangles gc drawable rectangles
  | .drawRectangle x y width height => xDrawRectangle gc drawable x y width height
  | .drawLine x1 y1 x2 y2 => xDrawLine gc drawable x1 y1 x2 y2
  | .drawLines points mode => xDrawLines gc drawable points mode
  | .drawArc x y width height angle1 angle2 => xDrawArc gc drawable x y width height angle1 angle2
  | .fillArc x y width height angle1 angle2 => xFillArc gc drawable x y width height angle1 angle2
  | .fillPolygon points mode => xFillPolygon gc drawable points mode
  | .copyArea source sourceX sourceY width height destinationX destinationY =>
    xCopyArea gc source drawable sourceX sourceY width height destinationX destinationY
  | .putImage image srcX srcY destX destY width height =>
    xPutImage gc drawable image srcX srcY destX destY width height
  | .drawString x y text => xDrawString gc drawable x y text
  | .drawStringScaled x y text scale => demonxDrawStringScaled gc drawable x y text scale

inductive GcCall where
  | create (drawable : UInt32) (valueMask : UInt64) (values : XGCValues) (sent : Bool)
  | free (i : ℕ) (sent : Bool)
  | setClip (i : ℕ) (clipXOrigin clipYOrigin : Int32) (rectangles : List XRectangle)
      (ordering : Int32)
  | draw (i : ℕ) (drawable : UInt32) (call : DrawCall)

def Contexts.step (c : Contexts) : GcCall → Contexts
  | .create drawable valueMask values sent => (c.xCreateGC drawable valueMask values sent).2.1
  | .free i sent => (c.xFreeGC i sent).2.1
  | .setClip i clipXOrigin clipYOrigin rectangles ordering =>
    (c.xSetClipRectangles i clipXOrigin clipYOrigin rectangles ordering).2
  | .draw _ _ _ => c

def GC.clipArea (gc : GC) : Option Area :=
  if gc.clipEnabled then some ⟨gc.clipX, gc.clipY, gc.clipWidth, gc.clipHeight⟩ else none

def setArea (clipXOrigin clipYOrigin : Int32) : List XRectangle → Option Area
  | [] => none
  | r :: _ => some ⟨clipXOrigin.toInt + r.x.toInt, clipYOrigin.toInt + r.y.toInt, r.width.toNat,
      r.height.toNat⟩

abbrev LastSet := ℕ → Option Area

def trackClips (t : Contexts × LastSet) (e : GcCall) : Contexts × LastSet :=
  (t.1.step e,
    match e with
    | .create drawable valueMask values sent =>
      match (t.1.xCreateGC drawable valueMask values sent).1 with
      | some i => Function.update t.2 i none
      | none => t.2
    | .setClip i clipXOrigin clipYOrigin rectangles ordering =>
      if (t.1.xSetClipRectangles i clipXOrigin clipYOrigin rectangles ordering).1 then
        Function.update t.2 i (setArea clipXOrigin clipYOrigin rectangles)
      else t.2
    | _ => t.2)

/-! ## Proper calls -/

def largest : Drawable := ⟨0, windowMaxWidth, windowMaxHeight, none⟩

def Visible (px py : ℤ) : Prop :=
  0 ≤ px ∧ px < windowMaxWidth ∧ 0 ≤ py ∧ py < windowMaxHeight

/-- No other pixel of the clip has the position of a visible one in the 16 bits of a request. -/
def Area.Unwrapped (clip : Area) : Prop :=
  ∀ x y : ℤ, clip.Has x y → Visible (x % 65536) (y % 65536) → x % 65536 = x ∧ y % 65536 = y

def sentAt (z : ℤ) : ℤ := int16 (UInt16.ofInt z)

def XImage.Takes (image : XImage) (srcX srcY : Int32) (width height : UInt32) : Prop :=
  image.format = zPixmap.toUInt32.toInt32 ∧ image.bitsPerPixel = 32 ∧ 0 ≤ srcX ∧ 0 ≤ srcY
    ∧ srcX.toUInt32 + width ≤ image.width.toUInt32 ∧ srcY.toUInt32 + height ≤ image.height.toUInt32

def TextShows (x y : ℤ) (text : List UInt8) (scale : ℕ) (px py : ℤ) : Prop :=
  ∃ column < text.length, Dot largest (sentAt x) (sentAt y - 7 * scale) (fun k => text.getD k 0) scale
    column px py

/-- The call honours the clip as long as that does not wrap, or all that it draws is in the clip. -/
def DrawCall.Within (clip : Area) : DrawCall → Prop
  | .fillRectangles rectangles => rectangles.length ≤ (messageBytes - 12) / 8 →
    ∀ r ∈ rectangles, ∀ px py, Visible px py → r.area.Has px py → clip.Has px py
  | .copyArea _ _ _ width height destinationX destinationY => width ≤ 65535 → height ≤ 65535 →
    ∀ px py, Visible px py → (Area.mk (sentAt destinationX.toInt) (sentAt destinationY.toInt)
      width.toNat height.toNat).Has px py → clip.Has px py
  | .putImage image srcX srcY destX destY width height => image.Takes srcX srcY width height →
    ∀ column row : ℕ, column < width.toNat → row < height.toNat →
      Visible (sentAt (destX.toInt + column)) (sentAt (destY.toInt + row)) →
      clip.Has (sentAt (destX.toInt + column)) (sentAt (destY.toInt + row))
  | .drawString x y text => text.length ≤ 240 →
    ∀ px py, Visible px py → TextShows x.toInt y.toInt text 1 px py → clip.Has px py
  | .drawStringScaled x y text scale => text.length ≤ 240 → scale ≤ 8 →
    ∀ px py, Visible px py → TextShows x.toInt y.toInt text scale.toNat px py → clip.Has px py
  | _ => clip.Unwrapped

namespace Contexts

def freeSlot (c : Contexts) : Option ℕ := (List.range gcSlots).find? fun i => !(c.slots i).used

def Proper (c : Contexts) : GcCall → Prop
  | .create _ valueMask _ sent => sent = true → valueMask &&& ~~~(gcForeground ||| gcFont).toUInt64 = 0 →
    c.nextResource ≤ c.resourceMask → ∀ i, c.freeSlot = some i → (c.slots i).clipArea = none
  | .draw i _ call => (c.slots i).used = true → ∀ clip, (c.slots i).clipArea = some clip →
    call.Within clip
  | _ => True

end Contexts

def Kept (t : Contexts × LastSet) : Prop :=
  ∀ i, (t.1.slots i).used = true → (t.1.slots i).clipArea = t.2 i

def Message.Spares (m : Message) (clip : Area) (drawable : UInt32) : Prop :=
  ∀ (k : SurfaceKernel) (other : Answers) (s t : Server) (client : UInt32) (d : Drawable),
    ArenaInv k.surfaces → s.PixmapsWithin → s.Shown k other drawable d →
    s.serve (k.answers other) client m = some t →
    ∀ x y : ℕ, x < d.width → y < d.height → ¬clip.Has x y →
      (k.behind other t).pixelAt d x y = (k.behind other s).pixelAt d x y

def Clipped (t : Contexts × LastSet) (e : GcCall) : Prop :=
  Kept (trackClips t e) ∧ ∀ i drawable call, e = .draw i drawable call →
    ∀ clip, t.2 i = some clip → (t.1.slots i).used = true →
      ∀ m ∈ (call.drawn (t.1.slots i) drawable).messages, m.Spares clip drawable

/-! ## Clips and slots -/

variable {t : Contexts × LastSet} {e : GcCall}

theorem Contexts.xCreateGC_cases (c : Contexts) (drawable : UInt32) (valueMask : UInt64)
    (values : XGCValues) (sent : Bool) :
    ((c.xCreateGC drawable valueMask values sent).1 = none ∧ ∀ j,
        ((c.xCreateGC drawable valueMask values sent).2.1.slots j).used = true →
        (c.xCreateGC drawable valueMask values sent).2.1.slots j = c.slots j)
      ∨ ∃ i id, (c.xCreateGC drawable valueMask values sent).1 = some i ∧ sent = true
        ∧ valueMask &&& ~~~(gcForeground ||| gcFont).toUInt64 = 0
        ∧ c.nextResource ≤ c.resourceMask ∧ c.freeSlot = some i
        ∧ (c.xCreateGC drawable valueMask values sent).2.1.slots
          = Function.update c.slots i { c.slots i with id := id, drawable := drawable, used := true } := by
  unfold xCreateGC
  rcases hfree : (List.range gcSlots).find? fun i => !(c.slots i).used with _ | i
  · exact .inl ⟨rfl, fun j _ => rfl⟩
  split_ifs with hbad hsent
  · exact .inl ⟨rfl, fun j _ => rfl⟩
  · rw [not_or, not_not, UInt32.not_lt] at hbad
    subst hsent
    exact .inr ⟨i, _, rfl, rfl, hbad.1, hbad.2, hfree, rfl⟩
  · refine .inl ⟨rfl, fun j hj => ?_⟩
    have hset : ∀ gc, (c.setSlot i gc).slots j = if j = i then gc else c.slots j := fun gc =>
      Function.update_apply _ _ _ _
    rw [hset] at hj ⊢
    split_ifs at hj ⊢ with hji
    · exact absurd hj hsent
    · rfl

theorem Contexts.xSetClipRectangles_cases (c : Contexts) (i : ℕ) (clipXOrigin clipYOrigin : Int32)
    (rectangles : List XRectangle) (ordering : Int32) :
    c.xSetClipRectangles i clipXOrigin clipYOrigin rectangles ordering = (false, c)
      ∨ ∃ gc : GC, gc.clipArea = setArea clipXOrigin clipYOrigin rectangles
        ∧ c.xSetClipRectangles i clipXOrigin clipYOrigin rectangles ordering
          = (true, c.setSlot i gc) := by
  unfold xSetClipRectangles
  split_ifs with hbad
  · exact .inl rfl
  · rcases rectangles with _ | ⟨r, _ | ⟨q, rest⟩⟩
    · exact .inr ⟨_, rfl, rfl⟩
    · exact .inr ⟨_, rfl, rfl⟩
    · exact .inl rfl

theorem step_kept (h : Kept t) (he : t.1.Proper e) : Kept (trackClips t e) := by
  intro j hj
  cases e with
  | create drawable valueMask values sent =>
    unfold trackClips at hj ⊢
    dsimp only [Contexts.step] at hj ⊢
    rcases t.1.xCreateGC_cases drawable valueMask values sent with
      ⟨hnone, hslots⟩ | ⟨i, id, hsome, hsent, hmask, hroom, hfree, hslots⟩
    · rw [hnone]
      have hsame := hslots j hj
      rw [hsame] at hj ⊢
      exact h j hj
    · rw [hsome]
      dsimp only
      rw [hslots, Function.update_apply] at hj ⊢
      rw [Function.update_apply]
      split_ifs at hj ⊢ with hji
      · exact he hsent hmask hroom i hfree
      · exact h j hj
  | free i sent =>
    unfold trackClips at hj ⊢
    dsimp only [Contexts.step, Contexts.xFreeGC] at hj ⊢
    split_ifs at hj ⊢
    · exact h j hj
    · have hset : ∀ gc, (t.1.setSlot i gc).slots j = if j = i then gc else t.1.slots j := fun gc =>
        Function.update_apply _ _ _ _
      rw [hset] at hj ⊢
      split_ifs at hj ⊢
      · exact h j hj
  | setClip i clipXOrigin clipYOrigin rectangles ordering =>
    unfold trackClips at hj ⊢
    dsimp only [Contexts.step] at hj ⊢
    rcases t.1.xSetClipRectangles_cases i clipXOrigin clipYOrigin rectangles ordering with
      heq | ⟨gc, hclip, heq⟩
    · rw [heq] at hj ⊢
      exact h j hj
    · rw [heq] at hj ⊢
      dsimp only [Contexts.setSlot] at hj ⊢
      rw [if_pos rfl, Function.update_apply]
      rw [Function.update_apply] at hj ⊢
      split_ifs at hj ⊢
      · exact hclip
      · exact h j hj
  | draw i drawable call => exact h j hj

/-! ## The messages of a call -/

def Drawn.All (P : Message → Prop) (d : Drawn) : Prop := ∀ m ∈ d.messages, P m

namespace Drawn

variable {P : Message → Prop} {a b : Drawn}

theorem all_refused : refused.All P := fun _ h => absurd h List.not_mem_nil

theorem all_undefined : undefined.All P := fun _ h => absurd h List.not_mem_nil

theorem all_nothing : nothing.All P := fun _ h => absurd h List.not_mem_nil

theorem all_sends {m : Message} (h : P m) : (sends m).All P := fun _ hm => by
  rw [List.mem_singleton.1 hm]
  exact h

theorem All.andThen (ha : a.All P) (hb : b.All P) : (a.andThen b).All P := by
  unfold Drawn.andThen
  split_ifs
  · intro m hm
    rcases List.mem_append.1 hm with hm | hm
    · exact ha m hm
    · exact hb m hm
  · exact ha

theorem all_forAll {α : Type} {f : α → Drawn} : ∀ {l : List α}, (∀ x ∈ l, (f x).All P) →
    (forAll f l).All P
  | [], _ => all_nothing
  | x :: _, h => (h x List.mem_cons_self).andThen
      (all_forAll fun y hy => h y (List.mem_cons_of_mem x hy))

end Drawn

section

variable {gc : GC} {drawable : UInt32} {P : Message → Prop}
  (h : ∀ a, (xFillRectangle gc drawable a).All P)

include h

theorem xDrawLine_all (x1 y1 x2 y2 : ℤ) : (xDrawLine gc drawable x1 y1 x2 y2).All P :=
  Drawn.all_forAll fun a _ => h a

theorem drawLines_all (mode : CoordMode) : ∀ (x y : ℤ) (points : List XPoint),
    (drawLines gc drawable mode x y points).All P
  | _, _, [] => Drawn.all_nothing
  | x, y, _ :: ps => (xDrawLine_all h x y _ _).andThen (drawLines_all mode _ _ ps)

theorem fillTriangle_all (a b c : Corner) : (fillTriangle gc drawable a b c).All P := by
  refine Drawn.all_forAll fun row _ => ?_
  rcases triangleSpan (min (min a.y b.y) c.y + row) a b c with _ | _ | area
  · exact Drawn.all_undefined
  · exact Drawn.all_nothing
  · exact h area

theorem fillFan_all (mode : CoordMode) (origin : Corner) : ∀ points : List XPoint,
    (fillFan gc drawable mode origin points).All P
  | [] => Drawn.all_nothing
  | [_] => Drawn.all_nothing
  | _ :: q :: ps => (fillTriangle_all h _ _ _).andThen (fillFan_all mode origin (q :: ps))

theorem xDrawRectangle_all (x y : ℤ) (width height : ℕ) :
    (xDrawRectangle gc drawable x y width height).All P := by
  unfold xDrawRectangle
  split_ifs
  · exact Drawn.all_nothing
  all_goals exact Drawn.all_forAll fun a _ => h a

theorem xDrawLines_all (points : List XPoint) (mode : CoordMode) :
    (xDrawLines gc drawable points mode).All P := by
  rcases points with _ | ⟨p, _ | ⟨q, ps⟩⟩
  · exact Drawn.all_refused
  · exact Drawn.all_refused
  · exact drawLines_all h mode _ _ _

theorem xDrawArc_all (x y : ℤ) (width height : UInt32) (angle1 angle2 : Int32) :
    (xDrawArc gc drawable x y width height angle1 angle2).All P := by
  unfold xDrawArc
  split_ifs
  · exact Drawn.all_refused
  · refine Drawn.all_forAll fun px _ => ?_
    rcases arcHalf (radius width) (radius height) px with _ | py
    · exact Drawn.all_undefined
    · exact Drawn.all_forAll fun a _ => h a

theorem xFillArc_all (x y : ℤ) (width height : UInt32) (angle1 angle2 : Int32) :
    (xFillArc gc drawable x y width height angle1 angle2).All P := by
  unfold xFillArc
  split_ifs
  · exact Drawn.all_refused
  · refine Drawn.all_forAll fun py _ => ?_
    rcases arcSpan x y (radius width) (radius height) py with _ | a
    · exact Drawn.all_undefined
    · exact h a

theorem xFillPolygon_all (points : List XPoint) (mode : CoordMode) :
    (xFillPolygon gc drawable points mode).All P := by
  rcases points with _ | ⟨p, _ | ⟨q, _ | ⟨r, ps⟩⟩⟩
  · exact Drawn.all_refused
  · exact Drawn.all_refused
  · exact Drawn.all_refused
  · exact fillFan_all h mode _ _

end

/-! ## Inside the clip -/

def Message.InClip (clip : Area) (m : Message) : Prop :=
  ∀ d : Drawable, d.width ≤ windowMaxWidth → d.height ≤ windowMaxHeight →
    ∀ px py, m.Marks d px py → clip.Has px py

theorem Message.Marks.visible {m : Message} {d : Drawable} {px py : ℤ} (h : m.Marks d px py)
    (hwidth : d.width ≤ windowMaxWidth) (hheight : d.height ≤ windowMaxHeight) : Visible px py := by
  obtain ⟨⟨hx, hx', hy, hy'⟩, -⟩ := h
  exact ⟨hx, by omega, hy, by omega⟩

theorem GC.clip_has {gc : GC} {clip a b : Area} (hclip : gc.clipArea = some clip)
    (h : gc.clip a = some b) : b.width ≤ a.width ∧ b.height ≤ a.height
      ∧ ∀ x y, b.Has x y → clip.Has x y := by
  unfold clipArea at hclip
  unfold GC.clip at h
  split_ifs at hclip with henabled
  obtain rfl := Option.some.inj hclip
  dsimp only at h
  split_ifs at h with hempty
  obtain rfl := Option.some.inj h
  unfold Area.Has
  dsimp only
  refine ⟨by omega, by omega, fun x y hin => ?_⟩
  omega

theorem Area.sent_has {a : Area} (hwidth : a.width ≤ 65535) (hheight : a.height ≤ 65535) {px py : ℤ}
    (h : a.sent.area.Has px py) :
    ∃ x y, a.Has x y ∧ x % 65536 = px % 65536 ∧ y % 65536 = py % 65536 := by
  have hx : (Int16.ofInt a.x).toInt = a.x.bmod (2 ^ 16) := Int16.toInt_ofInt
  have hy : (Int16.ofInt a.y).toInt = a.y.bmod (2 ^ 16) := Int16.toInt_ofInt
  have hw : (UInt16.ofNat a.width).toNat = a.width % 65536 := UInt16.toNat_ofNat'
  have hh : (UInt16.ofNat a.height).toNat = a.height % 65536 := UInt16.toNat_ofNat'
  unfold Area.Has XRectangle.area Area.sent at h
  rw [hx, hy, hw, hh] at h
  unfold Int.bmod at h
  dsimp only at h
  refine ⟨a.x + (px - a.x.bmod (2 ^ 16)), a.y + (py - a.y.bmod (2 ^ 16)), ?_⟩
  unfold Area.Has Int.bmod
  dsimp only
  omega

theorem writeRectangle_before (p : ℕ → UInt8) {a b : ℕ} (r : XRectangle) (h : b < a) :
    writeRectangle p a r b = p b := by
  rw [← read8_eq (writeRectangle p a r) b, ← read8_eq p b]
  simp (disch := omega) only [writeRectangle, write16, read8_store_of_disjoint]

theorem foldl_writeRectangle_before {b : ℕ} (hb : b < 12) : ∀ (rs : List (XRectangle × ℕ))
    (p : ℕ → UInt8), rs.foldl (fun p r => writeRectangle p (12 + r.2 * 8) r.1) p b = p b
  | [], _ => rfl
  | r :: rs, p => by
    rw [List.foldl_cons, foldl_writeRectangle_before hb rs, writeRectangle_before _ _ (by omega)]

theorem fillMessage_opcode (drawable id : UInt32) (rs : List XRectangle) :
    (fillMessage drawable id rs).payload 0 = Opcode.polyFillRectangle := by
  unfold fillMessage
  dsimp only
  rw [foldl_writeRectangle_before (by decide), ← read8_eq (write32 _ _ _) 0]
  simp (disch := omega) only [write32, read8_store_of_disjoint]
  rw [read8_eq, requestHead_opcode]

theorem fillMessage_marks {drawable id : UInt32} {rs : List XRectangle} {d : Drawable} {px py : ℤ}
    (h : (fillMessage drawable id rs).Marks d px py) : ∃ r ∈ rs, r.area.Has px py := by
  obtain ⟨-, ⟨-, hin⟩ | ⟨hop, -⟩ | ⟨hop, -⟩ | ⟨hop, -⟩ | ⟨hop, -⟩⟩ := h
  · rw [fillMessage_rectangles] at hin
    exact hin
  all_goals exact absurd ((fillMessage_opcode drawable id rs).symm.trans hop) (by decide)

theorem xFillRectangle_inClip {gc : GC} {clip : Area} (drawable : UInt32)
    (hclip : gc.clipArea = some clip) (hunwrapped : clip.Unwrapped) (a : Area) :
    (xFillRectangle gc drawable a).All (Message.InClip clip) := by
  unfold xFillRectangle
  split_ifs with hbad
  · exact Drawn.all_refused
  rcases hcut : gc.clip a with _ | b
  · exact Drawn.all_nothing
  refine Drawn.all_sends fun d hwidth hheight px py hmarks => ?_
  obtain ⟨hw, hh, hin⟩ := GC.clip_has hclip hcut
  obtain ⟨hx, hx', hy, hy'⟩ := hmarks.visible hwidth hheight
  obtain ⟨r, hr, hhas⟩ := fillMessage_marks hmarks
  rw [List.mem_singleton.1 hr] at hhas
  obtain ⟨x, y, hb, hxmod, hymod⟩ := Area.sent_has (by omega) (by omega) hhas
  have hxsmall : px % 65536 = px := Int.emod_eq_of_lt hx (by unfold windowMaxWidth at hx'; omega)
  have hysmall : py % 65536 = py := Int.emod_eq_of_lt hy (by unfold windowMaxHeight at hy'; omega)
  rw [hxsmall] at hxmod
  rw [hysmall] at hymod
  obtain ⟨hxeq, hyeq⟩ := hunwrapped x y (hin x y hb) (by
    rw [hxmod, hymod]
    exact ⟨hx, hx', hy, hy'⟩)
  rw [hxmod] at hxeq
  rw [hymod] at hyeq
  rw [hxeq, hyeq]
  exact hin x y hb

/-! ## Calls that do not look at the clip -/

theorem sentAt_mod (z : ℤ) : (sentAt z - z) % 65536 = 0 ∧ -32768 ≤ sentAt z ∧ sentAt z < 32768 := by
  have hvalue : (UInt16.ofInt z).toBitVec.toNat = (z % 65536).toNat % 65536 := rfl
  unfold sentAt int16
  rw [BitVec.toInt_eq_toNat_cond, hvalue]
  split_ifs <;> omega

theorem sentAt_eq {z p : ℤ} (h : (p - z) % 65536 = 0) (hlow : -32768 ≤ p) (hhigh : p < 32768) :
    sentAt z = p := by
  obtain ⟨hmod, hlow', hhigh'⟩ := sentAt_mod z
  omega

section

variable {m : Message} {d : Drawable} {px py : ℤ}

theorem marks_copyArea (hop : m.payload 0 = Opcode.copyArea) (h : m.Marks d px py) :
    (Area.mk (int16 (read16 m.payload 20)) (int16 (read16 m.payload 22))
      (read16 m.payload 24).toNat (read16 m.payload 26).toNat).Has px py := by
  obtain ⟨-, ⟨hop', -⟩ | ⟨hop', -⟩ | ⟨-, hin⟩ | ⟨hop', -⟩ | ⟨hop', -⟩⟩ := h
  · exact absurd (hop.symm.trans hop') (by decide)
  · exact absurd (hop.symm.trans hop') (by decide)
  · exact hin
  · exact absurd (hop.symm.trans hop') (by decide)
  · exact absurd (hop.symm.trans hop') (by decide)

theorem marks_putImage (hop : m.payload 0 = Opcode.putImage) (h : m.Marks d px py) :
    (Area.mk (int16 (read16 m.payload 16)) (int16 (read16 m.payload 18))
      (read16 m.payload 12).toNat (read16 m.payload 14).toNat).Has px py := by
  obtain ⟨-, ⟨hop', -⟩ | ⟨-, hin⟩ | ⟨hop', -⟩ | ⟨hop', -⟩ | ⟨hop', -⟩⟩ := h
  · exact absurd (hop.symm.trans hop') (by decide)
  · exact hin
  · exact absurd (hop.symm.trans hop') (by decide)
  · exact absurd (hop.symm.trans hop') (by decide)
  · exact absurd (hop.symm.trans hop') (by decide)

theorem marks_polyText8 (hop : m.payload 0 = Opcode.polyText8) (h : m.Marks d px py) :
    m.Texts d 17 1 px py := by
  obtain ⟨-, ⟨hop', -⟩ | ⟨hop', -⟩ | ⟨hop', -⟩ | ⟨-, hin⟩ | ⟨hop', -⟩⟩ := h
  · exact absurd (hop.symm.trans hop') (by decide)
  · exact absurd (hop.symm.trans hop') (by decide)
  · exact absurd (hop.symm.trans hop') (by decide)
  · exact hin
  · exact absurd (hop.symm.trans hop') (by decide)

theorem marks_polyText8Scaled (hop : m.payload 0 = Opcode.polyText8Scaled) (h : m.Marks d px py) :
    (m.payload 17).toNat ≤ 8 ∧ m.Texts d 18 (m.payload 17).toNat px py := by
  obtain ⟨-, ⟨hop', -⟩ | ⟨hop', -⟩ | ⟨hop', -⟩ | ⟨hop', -⟩ | ⟨-, hin⟩⟩ := h
  · exact absurd (hop.symm.trans hop') (by decide)
  · exact absurd (hop.symm.trans hop') (by decide)
  · exact absurd (hop.symm.trans hop') (by decide)
  · exact absurd (hop.symm.trans hop') (by decide)
  · exact hin

end

section

variable {clip : Area} (gc : GC) (drawable : UInt32)

theorem xFillRectangles_inClip {rectangles : List XRectangle}
    (h : (DrawCall.fillRectangles rectangles).Within clip) :
    (xFillRectangles gc drawable rectangles).All (Message.InClip clip) := by
  unfold xFillRectangles
  split_ifs with hbad
  · exact Drawn.all_refused
  rw [not_or, not_or, Nat.not_lt] at hbad
  refine Drawn.all_sends fun d hwidth hheight px py hmarks => ?_
  obtain ⟨r, hr, hhas⟩ := fillMessage_marks hmarks
  exact h hbad.2.2 r hr px py (hmarks.visible hwidth hheight) hhas

theorem xCopyArea_inClip {source : UInt32} {sourceX sourceY : Int32} {width height : UInt32}
    {destinationX destinationY : Int32}
    (h : (DrawCall.copyArea source sourceX sourceY width height destinationX destinationY).Within
      clip) :
    (xCopyArea gc source drawable sourceX sourceY width height destinationX destinationY).All
      (Message.InClip clip) := by
  unfold xCopyArea
  split_ifs with hbad
  · exact Drawn.all_refused
  simp only [not_or, UInt32.not_lt] at hbad
  obtain ⟨-, -, -, hwide, hhigh⟩ := hbad
  refine Drawn.all_sends fun d hwidth hheight px py hmarks => ?_
  refine h hwide hhigh px py (hmarks.visible hwidth hheight) ?_
  have hin := marks_copyArea ?_ hmarks
  · rw [UInt32.le_iff_toNat_le] at hwide hhigh
    have hmost : (65535 : UInt32).toNat = 65535 := rfl
    simp (disch := omega) only [write16, read16_store_of_disjoint, read16_store_self] at hin
    rw [UInt32.toNat_toUInt16, UInt32.toNat_toUInt16, Nat.mod_eq_of_lt (by omega),
      Nat.mod_eq_of_lt (by omega)] at hin
    exact hin
  · dsimp only
    rw [← read8_eq (write16 _ _ _) 0]
    simp (disch := omega) only [write16, write32, read8_store_of_disjoint]
    rw [read8_eq, requestHead_opcode]

theorem xPutImage_inClip {image : XImage} {srcX srcY destX destY : Int32} {width height : UInt32}
    (h : (DrawCall.putImage image srcX srcY destX destY width height).Within clip) :
    (xPutImage gc drawable image srcX srcY destX destY width height).All (Message.InClip clip) := by
  unfold xPutImage
  split_ifs with hbad
  · exact Drawn.all_refused
  simp only [not_or, not_not, UInt32.not_lt, Int32.not_lt, ne_eq] at hbad
  obtain ⟨-, hformat, hbits, hx, hy, -, -, hwide, hhigh⟩ := hbad
  refine Drawn.all_forAll fun row hrow => Drawn.all_forAll fun part hpart => Drawn.all_sends ?_
  intro d hwidth hheight px py hmarks
  have hputs := imageMessage_puts gc drawable image srcX srcY destX destY row part.1 part.2
  obtain ⟨hpart', -, hmost⟩ := imageParts_inside (by decide) part hpart
  have hin := marks_putImage hputs.opcode hmarks
  have hone : (1 : UInt16).toNat = 1 := rfl
  rw [hputs.x, hputs.y, hputs.width, hputs.height, UInt16.toNat_ofNat', hone] at hin
  obtain ⟨hleft, hright, htop, hbottom⟩ := hin
  dsimp only at hleft hright htop hbottom
  obtain ⟨hvx, hvx', hvy, hvy'⟩ := hmarks.visible hwidth hheight
  unfold windowMaxWidth at hvx'
  obtain ⟨hmod, hlow, -⟩ := sentAt_mod (destX.toInt + part.1)
  have hpart : int16 (UInt16.ofInt (destX.toInt + part.1)) = sentAt (destX.toInt + part.1) := rfl
  have hline : int16 (UInt16.ofInt (destY.toInt + row)) = sentAt (destY.toInt + row) := rfl
  rw [hpart] at hleft hright
  generalize sentAt (destX.toInt + part.1) = left at hmod hlow hleft hright
  have hcolumn : sentAt (destX.toInt + (part.1 + (px - left).toNat : ℕ)) = px :=
    sentAt_eq (by omega) (by omega) (by omega)
  have hrow' : sentAt (destY.toInt + row) = py := by omega
  have hin := h ⟨hformat, hbits, hx, hy, hwide, hhigh⟩ (part.1 + (px - left).toNat) row (by omega)
    (List.mem_range.1 hrow)
  rw [hcolumn, hrow'] at hin
  exact hin (hmarks.visible hwidth hheight)

theorem TextShows.of_texts {m : Message} {d : Drawable} {x y : ℤ} {text : List UInt8}
    {start scale : ℕ} {px py : ℤ} (h : m.Texts d start scale px py)
    (hwidth : d.width ≤ windowMaxWidth) (hcount : (m.payload 16).toNat = text.length)
    (hx : read16 m.payload 12 = UInt16.ofInt x) (hy : read16 m.payload 14 = UInt16.ofInt y)
    (htext : ∀ k < text.length, m.payload (start + k) = text.getD k 0) :
    TextShows x y text scale px py := by
  obtain ⟨column, hcolumn, hdot⟩ := h
  rw [hcount] at hcolumn
  rw [hx, hy] at hdot
  have hright := hdot.right
  refine ⟨column, hcolumn, hdot.left, ?_, hdot.columns, hdot.rows, ?_⟩
  · unfold largest
    exact hright.trans (by exact_mod_cast hwidth)
  · obtain ⟨glyph, hglyph, hset⟩ := hdot.set
    rw [htext column hcolumn] at hglyph
    exact ⟨glyph, hglyph, hset⟩

theorem textHead_fields (opcode : UInt8) (length : ℕ) (x y : Int32) (count : ℕ) :
    textHead opcode length gc drawable x y count 0 = opcode
      ∧ read16 (textHead opcode length gc drawable x y count) 12 = UInt16.ofInt x.toInt
      ∧ read16 (textHead opcode length gc drawable x y count) 14 = UInt16.ofInt y.toInt
      ∧ textHead opcode length gc drawable x y count 16 = UInt8.ofNat count := by
  unfold textHead
  refine ⟨?_, ?_, ?_, ?_⟩
  · rw [← read8_eq (write8 _ _ _) 0]
    simp (disch := omega) only [write8, write16, write32, read8_store_of_disjoint]
    rw [read8_eq, requestHead_opcode]
  · simp (disch := omega) only [write8, write16, read16_store_of_disjoint, read16_store_self]
  · simp (disch := omega) only [write8, write16, read16_store_of_disjoint, read16_store_self]
  · rw [← read8_eq (write8 _ _ _) 16]
    simp (disch := omega) only [write8, read8_store_self]

theorem xDrawString_inClip {x y : Int32} {text : List UInt8}
    (h : (DrawCall.drawString x y text).Within clip) :
    (xDrawString gc drawable x y text).All (Message.InClip clip) := by
  unfold xDrawString
  split_ifs with hbad
  · exact Drawn.all_refused
  rw [not_or, Nat.not_lt] at hbad
  refine Drawn.all_sends fun d hwidth hheight px py hmarks => ?_
  obtain ⟨hop, hx, hy, hcount⟩ := textHead_fields gc drawable Opcode.polyText8
    (padded (17 + text.length)) x y text.length
  refine h hbad.2 px py (hmarks.visible hwidth hheight) ?_
  refine .of_texts (marks_polyText8 ?_ hmarks) hwidth ?_ ?_ ?_ fun k hk => ?_
  · dsimp only
    rw [copyBytes_before _ _ (by omega), hop]
  · dsimp only
    rw [copyBytes_before _ _ (by omega), hcount, UInt8.toNat_ofNat']
    omega
  · dsimp only
    rw [read16_copyBytes_before _ _ (by omega), hx]
  · dsimp only
    rw [read16_copyBytes_before _ _ (by omega), hy]
  · exact (if_pos (by omega)).trans (by rw [Nat.add_sub_cancel_left])

theorem demonxDrawStringScaled_inClip {x y : Int32} {text : List UInt8} {scale : UInt8}
    (h : (DrawCall.drawStringScaled x y text scale).Within clip) :
    (demonxDrawStringScaled gc drawable x y text scale).All (Message.InClip clip) := by
  unfold demonxDrawStringScaled
  split_ifs with hbad
  · exact Drawn.all_refused
  rw [not_or, Nat.not_lt] at hbad
  refine Drawn.all_sends fun d hwidth hheight px py hmarks => ?_
  obtain ⟨hop, hx, hy, hcount⟩ := textHead_fields gc drawable Opcode.polyText8Scaled
    (padded (18 + text.length)) x y text.length
  have hbefore : ∀ {p : ℕ → UInt8} {b : ℕ}, b < 17 → write8 p 17 scale b = p b := fun {p b} hb => by
    rw [← read8_eq (write8 p 17 scale) b, ← read8_eq p b]
    simp (disch := omega) only [write8, read8_store_of_disjoint]
  have hself : ∀ p : ℕ → UInt8, write8 p 17 scale 17 = scale := fun p => by
    rw [← read8_eq (write8 p 17 scale) 17]
    simp (disch := omega) only [write8, read8_store_self]
  obtain ⟨hsmall, htexts⟩ := marks_polyText8Scaled (by
    dsimp only
    rw [copyBytes_before _ _ (by omega), hbefore (by omega), hop]) hmarks
  dsimp only at hsmall htexts
  rw [copyBytes_before _ _ (by omega), hself] at hsmall htexts
  refine h hbad.2 (UInt8.le_iff_toNat_le.2 hsmall) px py (hmarks.visible hwidth hheight) ?_
  refine .of_texts htexts hwidth ?_ ?_ ?_ fun k hk => ?_
  · dsimp only
    rw [copyBytes_before _ _ (by omega), hbefore (by omega), hcount, UInt8.toNat_ofNat']
    omega
  · dsimp only
    simp (disch := omega) only [write8]
    exact hx
  · dsimp only
    simp (disch := omega) only [write8]
    exact hy
  · exact (if_pos (by omega)).trans (by rw [Nat.add_sub_cancel_left])

theorem drawn_inClip {call : DrawCall} (hclip : gc.clipArea = some clip) (h : call.Within clip) :
    (call.drawn gc drawable).All (Message.InClip clip) := by
  have hfill := fun h : clip.Unwrapped => xFillRectangle_inClip drawable hclip h
  cases call with
  | fillRectangle a => exact hfill h a
  | fillRectangles rectangles => exact xFillRectangles_inClip gc drawable h
  | drawRectangle x y width height => exact xDrawRectangle_all (hfill h) x y width height
  | drawLine x1 y1 x2 y2 => exact xDrawLine_all (hfill h) x1 y1 x2 y2
  | drawLines points mode => exact xDrawLines_all (hfill h) points mode
  | drawArc x y width height angle1 angle2 =>
    exact xDrawArc_all (hfill h) x y width height angle1 angle2
  | fillArc x y width height angle1 angle2 =>
    exact xFillArc_all (hfill h) x y width height angle1 angle2
  | fillPolygon points mode => exact xFillPolygon_all (hfill h) points mode
  | copyArea source sourceX sourceY width height destinationX destinationY =>
    exact xCopyArea_inClip gc drawable h
  | putImage image srcX srcY destX destY width height => exact xPutImage_inClip gc drawable h
  | drawString x y text => exact xDrawString_inClip gc drawable h
  | drawStringScaled x y text scale => exact demonxDrawStringScaled_inClip gc drawable h

end

/-! ## Requests for the drawable -/

/-- The request is one to draw on the drawable, of a length its header can tell. -/
def Message.Asks (drawable : UInt32) (m : Message) : Prop :=
  m.DrawsOn drawable ∧ m.length < 65536

theorem fillMessage_asks {drawable id : UInt32} {rs : List XRectangle} (h : rs.length ≤ 30) :
    (fillMessage drawable id rs).Asks drawable := by
  refine ⟨.inr ⟨?_, ?_⟩, ?_⟩
  · rw [fillMessage_opcode]
    decide
  · have hbefore : read32 (fillMessage drawable id rs).payload 4
        = read32 (write32 (requestHead Opcode.polyFillRectangle 0 (12 + rs.length * 8) drawable) 8
          id) 4 := by
      exact congrArg _ (LittleEndian.load_congr fun b _ hb =>
        foldl_writeRectangle_before (by omega) _ _)
    rw [hbefore]
    simp (disch := omega) only [write32, read32_store_of_disjoint, requestHead_id]
  · show 12 + rs.length * 8 < 65536
    omega

section

variable (gc : GC) (drawable : UInt32)

theorem xFillRectangle_asks (a : Area) : (xFillRectangle gc drawable a).All (Message.Asks drawable) := by
  unfold xFillRectangle
  split_ifs
  · exact Drawn.all_refused
  rcases gc.clip a with _ | b
  · exact Drawn.all_nothing
  · exact Drawn.all_sends (fillMessage_asks (by simp))

theorem text_asks (opcode : UInt8) (hop : opcode ∈ [Opcode.polyText8, Opcode.polyText8Scaled])
    {length a count : ℕ} (hlength : length < 65536) (ha : 17 ≤ a) (x y : Int32) (n : ℕ)
    {p source : ℕ → UInt8} (hp : ∀ b < 17, p b = textHead opcode length gc drawable x y n b) :
    (Message.mk length (copyBytes p a source count)).Asks drawable := by
  obtain ⟨hopcode, -, -, -⟩ := textHead_fields gc drawable opcode length x y n
  refine ⟨.inr ⟨?_, ?_⟩, hlength⟩
  · dsimp only
    rw [copyBytes_before _ _ (by omega), hp 0 (by omega), hopcode]
    simp only [List.mem_cons, List.not_mem_nil, or_false] at hop ⊢
    obtain rfl | rfl := hop
    · decide
    · decide
  · dsimp only
    have hsame : read32 (copyBytes p a source count) 4
        = read32 (textHead opcode length gc drawable x y n) 4 := by
      refine congrArg _ (LittleEndian.load_congr fun b _ hb => ?_)
      rw [copyBytes_before _ _ (by omega), hp b (by omega)]
    rw [hsame]
    unfold textHead
    simp (disch := omega) only [write8, write16, write32, read32_store_of_disjoint, requestHead_id]

theorem drawn_asks (call : DrawCall) : (call.drawn gc drawable).All (Message.Asks drawable) := by
  have hfill := xFillRectangle_asks gc drawable
  cases call with
  | fillRectangle a => exact hfill a
  | fillRectangles rectangles =>
    unfold DrawCall.drawn xFillRectangles
    dsimp only
    split_ifs with hbad
    · exact Drawn.all_refused
    · rw [not_or, not_or, Nat.not_lt] at hbad
      exact Drawn.all_sends (fillMessage_asks hbad.2.2)
  | drawRectangle x y width height => exact xDrawRectangle_all hfill x y width height
  | drawLine x1 y1 x2 y2 => exact xDrawLine_all hfill x1 y1 x2 y2
  | drawLines points mode => exact xDrawLines_all hfill points mode
  | drawArc x y width height angle1 angle2 => exact xDrawArc_all hfill x y width height angle1 angle2
  | fillArc x y width height angle1 angle2 => exact xFillArc_all hfill x y width height angle1 angle2
  | fillPolygon points mode => exact xFillPolygon_all hfill points mode
  | copyArea source sourceX sourceY width height destinationX destinationY =>
    unfold DrawCall.drawn xCopyArea
    dsimp only
    split_ifs
    · exact Drawn.all_refused
    refine Drawn.all_sends ⟨.inl ⟨?_, ?_⟩, show 28 < 65536 by decide⟩
    · dsimp only
      rw [← read8_eq (write16 _ _ _) 0]
      simp (disch := omega) only [write16, write32, read8_store_of_disjoint]
      rw [read8_eq, requestHead_opcode]
    · dsimp only
      simp (disch := omega) only [write16, write32, read32_store_of_disjoint, read32_store_self]
  | putImage image srcX srcY destX destY width height =>
    unfold DrawCall.drawn xPutImage
    dsimp only
    split_ifs
    · exact Drawn.all_refused
    refine Drawn.all_forAll fun row _ => Drawn.all_forAll fun part hpart => Drawn.all_sends ?_
    have hputs := imageMessage_puts gc drawable image srcX srcY destX destY row part.1 part.2
    obtain ⟨-, -, hmost⟩ := imageParts_inside (by decide) part hpart
    have hmost' : maxPixels = 58 := rfl
    refine ⟨.inr ⟨?_, hputs.drawable⟩, ?_⟩
    · rw [hputs.opcode]
      decide
    · rw [hputs.length]
      omega
  | drawString x y text =>
    unfold DrawCall.drawn xDrawString
    dsimp only
    split_ifs with hbad
    · exact Drawn.all_refused
    exact Drawn.all_sends (text_asks gc drawable Opcode.polyText8 (by decide)
      (by unfold padded; omega) (by decide) x y text.length fun _ _ => rfl)
  | drawStringScaled x y text scale =>
    unfold DrawCall.drawn demonxDrawStringScaled
    dsimp only
    split_ifs with hbad
    · exact Drawn.all_refused
    refine Drawn.all_sends (text_asks gc drawable Opcode.polyText8Scaled (by decide)
      (by unfold padded; omega) (by decide) x y text.length fun b hb => ?_)
    rw [← read8_eq (write8 _ 17 scale) b, ← read8_eq (textHead _ _ _ _ _ _ _) b]
    simp (disch := omega) only [write8, read8_store_of_disjoint]

end

/-! ## Runs -/

theorem Message.Asks.spares {m : Message} {clip : Area} {drawable : UInt32} (h : m.Asks drawable)
    (hin : m.InClip clip) : m.Spares clip drawable := by
  intro k other s t client d harena hwithin hshown hserve x y hx hy hout
  obtain ⟨-, halters⟩ := Server.serve_spares harena hshown h.2 h.1 hserve
  obtain ⟨hwide, hhigh⟩ := Server.drawable_within hshown.ready hwithin
    (show d.width - 1 < d.width by omega) (show d.height - 1 < d.height by omega)
  exact halters.pixels x y hx hy fun hmarks => hout (hin d (by omega) (by omega) x y hmarks)

theorem clipped_of_proper (h : Kept t) (he : t.1.Proper e) : Clipped t e := by
  refine ⟨step_kept h he, ?_⟩
  rintro i drawable call rfl clip hlast hused m hm
  have hclip : (t.1.slots i).clipArea = some clip := (h i hused).trans hlast
  exact (drawn_asks _ drawable call m hm).spares (drawn_inClip _ drawable hclip (he hused clip hclip) m hm)

/-- In every run of calls that are all proper, the clip of each context is the one last set on it since
it was created, and no drawing call changes a pixel outside it. -/
theorem clips_kept (base mask next : UInt32) (last : LastSet) (calls : List GcCall)
    (h : Machine.Meets trackClips (fun t e => t.1.Proper e)
      ({ resourceBase := base, resourceMask := mask, nextResource := next }, last) calls) :
    Machine.Meets trackClips Clipped
      ({ resourceBase := base, resourceMask := mask, nextResource := next }, last) calls :=
  Machine.meets_imp trackClips (I := Kept) (fun _ _ => clipped_of_proper) (fun _ _ => step_kept)
    calls _ (fun _ hused => absurd hused Bool.false_ne_true) h

/-- A context for a window, and a clip of one pixel. -/
def clippedCalls : List GcCall :=
  [.create 0x400001 0 {} true, .setClip 0 0 0 [⟨5, 5, 1, 1⟩] 0]

/-- A rectangle is filled inside a clip. -/
theorem clips_kept_fill :
    Machine.Meets trackClips Clipped
      ({ resourceBase := 0x400000, resourceMask := 0x1FFFFF, nextResource := 2 }, fun _ => none)
      (clippedCalls ++ [.draw 0 0x400001 (.fillRectangle ⟨0, 0, 10, 10⟩)]) := by
  refine clips_kept _ _ _ _ _ ⟨?_, trivial, ?_, trivial⟩
  · intro _ _ _ i _
    rfl
  · intro _ clip hclip
    obtain rfl : (⟨5, 5, 1, 1⟩ : Area) = clip := Option.some.inj hclip
    intro x y hin _
    unfold Area.Has at hin
    dsimp only at hin
    omega

def cornerFill : Message := fillMessage 0x400001 0x400002 [⟨0, 0, 1, 1⟩]

theorem corner_filled : ∃ s t d, ArenaInv Server.blankKernel.surfaces ∧ s.PixmapsWithin
    ∧ s.Shown Server.blankKernel (fun _ => 5) 0x400001 d ∧ d.width = 10 ∧ d.height = 10
    ∧ s.serve (Server.blankKernel.answers fun _ => 5) 2 cornerFill = some t
    ∧ (Server.blankKernel.behind (fun _ => 5) t).pixelAt d (0 : ℕ) (0 : ℕ)
      ≠ (Server.blankKernel.behind (fun _ => 5) s).pixelAt d (0 : ℕ) (0 : ℕ) := by
  have hsurface : Server.imageClient.server.map (fun s =>
      (s.drawableSurface (Server.blankKernel.answers fun _ => 5) 0x400001).1.map
        fun d => (d.surface, d.width, d.height)) = some (some (5, 10, 10)) := by decide +kernel
  have hkernel : Server.imageClient.server.map (fun s =>
      ((Server.blankKernel.behind (fun _ => 5)
        (s.drawableSurface (Server.blankKernel.answers fun _ => 5) 0x400001).2).data 5,
        (s.drawableSurface (Server.blankKernel.answers fun _ => 5) 0x400001).2.findPixmap 0x400001))
      = some (some (0, 10 * 10, 10, 10), none) := by decide +kernel
  have hpixels : Server.imageClient.server.map (fun s =>
      ((((s.drawableSurface (Server.blankKernel.answers fun _ => 5) 0x400001).2.serve
        (Server.blankKernel.answers fun _ => 5) 2 cornerFill).map fun t =>
          (Server.blankKernel.behind (fun _ => 5) t).pixel 5 0),
        (Server.blankKernel.behind (fun _ => 5)
          (s.drawableSurface (Server.blankKernel.answers fun _ => 5) 0x400001).2).pixel 5 0))
      = some (some 0xFF000000, 0xFF101722) := by decide +kernel
  rcases hrun : Server.imageClient with s | code | _ <;> rw [hrun] at hsurface hkernel hpixels
  · simp only [Process.server, Option.map_some, Option.some.injEq, Prod.mk.injEq]
      at hsurface hkernel hpixels
    rcases hfound : s.drawableSurface (Server.blankKernel.answers fun _ => 5) 0x400001
      with ⟨_ | d, v⟩ <;> rw [hfound] at hsurface hkernel hpixels
    · cases hsurface
    obtain ⟨hdata, hpixmap⟩ := hkernel
    obtain ⟨hafter, hbefore⟩ := hpixels
    simp only [Option.map_some, Option.some.injEq, Prod.mk.injEq] at hsurface
    obtain ⟨hsurface, hwidth, hheight⟩ := hsurface
    have hne : d.surface ≠ 0 := by
      rw [hsurface]
      decide
    have hplaces : (Server.blankKernel.behind (fun _ => 5) v).Places d.surface 0 d.width d.height := by
      rw [hwidth, hheight, hsurface]
      exact hdata
    have hready := Server.drawableSurface_again hfound hne (.refl v)
    have hpixmaps := (Server.drawableSurface_finds (Server.blankKernel.answers fun _ => 5) s
      0x400001).1
    rw [hfound] at hpixmaps
    obtain ⟨t, ht, hafter⟩ := Option.map_eq_some_iff.1 hafter
    refine ⟨v, t, d, Server.run_arenaInv 0x100000 1048576 [],
      (Process.run_within hrun).of_eq hpixmaps, ⟨hready, hne, .inr hpixmap, 0, hplaces⟩, hwidth,
      hheight, ht, ?_⟩
    unfold SurfaceKernel.pixelAt
    rw [hsurface, hwidth]
    show (Server.blankKernel.behind (fun _ => 5) t).pixel 5 0
      ≠ (Server.blankKernel.behind (fun _ => 5) v).pixel 5 0
    rw [hafter, hbefore]
    decide
  · cases hsurface
  · cases hsurface

/-- A clip that is left in a slot is that of its next context, and `XFillRectangles` fills outside the
clip. -/
theorem clip_lost :
    ¬Machine.Meets trackClips Clipped
        ({ resourceBase := 0x400000, resourceMask := 0x1FFFFF, nextResource := 2 }, fun _ => none)
        (clippedCalls ++ [.free 0 true, .create 0x400001 0 {} true])
      ∧ ¬Machine.Meets trackClips Clipped
        ({ resourceBase := 0x400000, resourceMask := 0x1FFFFF, nextResource := 2 }, fun _ => none)
        (clippedCalls ++ [.draw 0 0x400001 (.fillRectangles [⟨0, 0, 1, 1⟩])]) := by
  constructor
  · rintro ⟨-, -, -, ⟨hkept, -⟩, -⟩
    exact absurd (hkept 0 rfl) (by decide +kernel)
  · rintro ⟨-, -, ⟨-, hdraw⟩, -⟩
    have hspares := hdraw 0 0x400001 _ rfl ⟨5, 5, 1, 1⟩ rfl rfl cornerFill List.mem_cons_self
    obtain ⟨s, t, d, harena, hwithin, hshown, hwidth, hheight, hserve, hne⟩ := corner_filled
    exact hne (hspares _ _ s t 2 d harena hwithin hshown hserve 0 0 (by omega) (by omega) (by decide))

end DemonX

end DemonOS
