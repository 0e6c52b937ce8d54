import DemonOS.DemonX.Graphics
import DemonOS.Proofs.DemonX.DrawingReports
import DemonOS.Proofs.DemonX.Exchanges
import DemonOS.Proofs.DemonX.Pixmaps
import DemonOS.Proofs.DemonX.PropertyReplies

/-!
# Images from the client to the surface

`XPutImage` cuts its rectangle into requests of at most 58 pixels of a row, and the server clips each
on its own. Served one after the other they draw the rectangle of the image, clipped to the drawable
(`xPutImage_draws`): the parts cover each row, and a position that does not fit 16 bits wraps to one
that is left of or above the drawable.
-/

namespace DemonOS

namespace DemonX

open LittleEndian (load_congr load_shift)

variable {height width : ℕ} {α : Type}

/-! ## The requests -/

structure Message.Puts (m : Message) (drawable gc : UInt32) (x y : UInt16) (count : ℕ)
    (data : ℕ → UInt8) : Prop where
  opcode : m.payload 0 = Opcode.putImage
  format : m.payload 1 = 2
  words : read16 m.payload 2 = UInt16.ofNat ((24 + count * 4) / 4)
  drawable : read32 m.payload 4 = drawable
  gc : read32 m.payload 8 = gc
  width : read16 m.payload 12 = UInt16.ofNat count
  height : read16 m.payload 14 = 1
  x : read16 m.payload 16 = x
  y : read16 m.payload 18 = y
  leftPad : m.payload 20 = 0
  depth : m.payload 21 = 32
  length : m.length = 24 + count * 4
  data : ∀ k < count * 4, m.payload (24 + k) = data k

theorem copyBytes_before (bytes source : ℕ → UInt8) {a count i : ℕ} (h : i < a) :
    copyBytes bytes a source count i = bytes i := if_neg (by omega)

theorem read16_copyBytes_before (bytes source : ℕ → UInt8) {a count b : ℕ} (h : b + 2 ≤ a) :
    read16 (copyBytes bytes a source count) b = read16 bytes b := by
  rw [read16, load_copyBytes_of_disjoint bytes source (.inl h), read16]

/-- The first byte of the data of a part of a row. -/
def XImage.source (image : XImage) (x y : ℤ) : ℤ := y * image.bytesPerLine + x * 4

def XImage.pixel (image : XImage) (x y : ℤ) : UInt32 :=
  read32 (fun k => image.data (image.source x y + k)) 0

theorem imageMessage_puts (gc : GC) (drawable : UInt32) (image : XImage)
    (srcX srcY destX destY : Int32) (row column count : ℕ) :
    (imageMessage gc drawable image srcX srcY destX destY row column count).Puts drawable gc.id
      (UInt16.ofInt (destX.toInt + column)) (UInt16.ofInt (destY.toInt + row)) count
      fun k => image.data (image.source (srcX.toInt + column) (srcY.toInt + row) + k) := by
  constructor
  all_goals dsimp only [imageMessage]
  · rw [copyBytes_before _ _ (by omega)]
    rw [← read8_eq (write8 _ _ _) 0]
    simp (disch := omega) only [write32, write16, write8, read8_store_of_disjoint]
    rw [read8_eq, requestHead_opcode]
  · rw [copyBytes_before _ _ (by omega)]
    rfl
  · rw [read16_copyBytes_before _ _ (by omega)]
    simp (disch := omega) only [write32, write16, write8, read16_store_of_disjoint,
      requestHead_words]
  · rw [Server.read32_copyBytes_of_disjoint _ _ (by omega)]
    simp (disch := omega) only [write32, write16, write8, read32_store_of_disjoint, requestHead_id]
  · rw [Server.read32_copyBytes_of_disjoint _ _ (by omega)]
    simp (disch := omega) only [write32, write16, write8, read32_store_of_disjoint,
      read32_store_self]
  · rw [read16_copyBytes_before _ _ (by omega)]
    simp (disch := omega) only [write32, write16, write8, read16_store_of_disjoint,
      read16_store_self]
  · rw [read16_copyBytes_before _ _ (by omega)]
    simp (disch := omega) only [write32, write16, write8, read16_store_of_disjoint,
      read16_store_self]
  · rw [read16_copyBytes_before _ _ (by omega)]
    simp (disch := omega) only [write32, write16, write8, read16_store_of_disjoint,
      read16_store_self]
  · rw [read16_copyBytes_before _ _ (by omega)]
    simp (disch := omega) only [write32, write16, write8, read16_store_of_disjoint,
      read16_store_self]
  · rw [copyBytes_before _ _ (by omega)]
    rw [← read8_eq (write8 _ _ _) 20]
    simp (disch := omega) only [write8, read8_store_of_disjoint, read8_store_self]
  · rw [copyBytes_before _ _ (by omega)]
    rw [← read8_eq (write8 _ _ _) 21]
    simp (disch := omega) only [write8, read8_store_self]
  · intro k hk
    unfold copyBytes
    rw [if_pos (by omega), Nat.add_sub_cancel_left]
    rfl

theorem imageParts_inside {most width : ℕ} (hmost : 0 < most) : ∀ {turns column : ℕ},
    ∀ part ∈ imageParts most width turns column,
      part.1 + part.2 ≤ width ∧ 0 < part.2 ∧ part.2 ≤ most
  | 0, _, _, h => by cases h
  | turns + 1, column, part, h => by
    unfold imageParts at h
    split_ifs at h with hend
    · cases h
    · rcases List.mem_cons.1 h with rfl | h
      · dsimp only
        omega
      · exact imageParts_inside hmost part h

theorem imageParts_cover {most width : ℕ} (hmost : 0 < most) : ∀ {turns column : ℕ},
    width ≤ column + turns → ∀ {k : ℕ}, column ≤ k → k < width →
      ∃ part ∈ imageParts most width turns column, part.1 ≤ k ∧ k < part.1 + part.2
  | 0, column, hturns, k, hk, hlt => by omega
  | turns + 1, column, hturns, k, hk, hlt => by
    unfold imageParts
    rw [if_neg (by omega)]
    by_cases hfirst : k < column + min (width - column) most
    · exact ⟨_, List.mem_cons_self, hk, hfirst⟩
    · obtain ⟨part, hpart, hin⟩ := imageParts_cover hmost
        (show width ≤ column + min (width - column) most + turns by omega) (not_lt.1 hfirst) hlt
      exact ⟨part, List.mem_cons_of_mem _ hpart, hin⟩

/-- Row, first column and length of every request. -/
def imageCells (width height : ℕ) : List (ℕ × ℕ × ℕ) :=
  (List.range height).flatMap fun row =>
    (imageParts maxPixels width width 0).map fun part => (row, part.1, part.2)

theorem forAll_sends (f : α → Message) : ∀ l : List α,
    Drawn.forAll (fun a => .sends (f a)) l = ⟨some true, l.map f⟩
  | [] => rfl
  | a :: l => by
    rw [Drawn.forAll, forAll_sends f l]
    rfl

theorem forAll_succeeds (f : α → List Message) : ∀ l : List α,
    Drawn.forAll (fun a => ⟨some true, f a⟩) l = ⟨some true, l.flatMap f⟩
  | [] => rfl
  | a :: l => by
    rw [Drawn.forAll, forAll_succeeds f l]
    rfl

theorem xPutImage_messages {gc : GC} {drawable : UInt32} {image : XImage}
    {srcX srcY destX destY : Int32} {width height : UInt32}
    (h : (xPutImage gc drawable image srcX srcY destX destY width height).status = some true) :
    (xPutImage gc drawable image srcX srcY destX destY width height).messages
      = (imageCells width.toNat height.toNat).map fun cell =>
        imageMessage gc drawable image srcX srcY destX destY cell.1 cell.2.1 cell.2.2 := by
  unfold xPutImage at h ⊢
  split_ifs at h ⊢ with hbad
  · cases h
  · simp only [forAll_sends, forAll_succeeds, imageCells, List.map_flatMap, List.map_map]
    rfl

theorem xPutImage_sized {gc : GC} {drawable : UInt32} {image : XImage}
    {srcX srcY destX destY : Int32} {width height : UInt32}
    (h : (xPutImage gc drawable image srcX srcY destX destY width height).status = some true) :
    0 < width.toNat ∧ 0 < height.toNat := by
  unfold xPutImage at h
  split_ifs at h with hbad
  · cases h
  · simp only [not_or] at hbad
    obtain ⟨-, -, -, -, -, hwide, hhigh, -⟩ := hbad
    exact ⟨Nat.pos_of_ne_zero fun hzero => hwide (UInt32.toNat_inj.1 hzero),
      Nat.pos_of_ne_zero fun hzero => hhigh (UInt32.toNat_inj.1 hzero)⟩

theorem imageCells_ne_nil (hwidth : 0 < width) (hheight : 0 < height) :
    imageCells width height ≠ [] := by
  have hcover : ∃ part ∈ imageParts maxPixels width width 0,
      part.1 ≤ 0 ∧ 0 < part.1 + part.2 :=
    imageParts_cover (by decide) (by omega) (Nat.zero_le 0) hwidth
  obtain ⟨part, hpart, -⟩ := hcover
  exact List.ne_nil_of_mem (List.mem_flatMap.2
    ⟨0, List.mem_range.2 hheight, List.mem_map_of_mem hpart⟩)

/-! ## One request at the server -/

/-- The request as the server has put it together. -/
def Message.packet (m : Message) (client : UInt32) : Packet where
  payloadLength := UInt16.ofNat m.length
  clientId := client
  payload := m.payload

namespace Server

def serve (sys : Answers) (client : UInt32) (s : Server) (m : Message) : Option Server :=
  ((s.requested (m.packet client)).parseRequest sys).bind fun r => if r.1 then none else some r.2

variable {sys : Answers} {s t u v : Server} {p : Packet} {id gc client : UInt32} {d : Drawable}
  {x y : UInt16} {count : ℕ} {data : ℕ → UInt8} {m : Message}

theorem forEach_requested {f : α → Server → Bool × Server}
    (hf : ∀ a s, f a (s.requested p) = ((f a s).1, (f a s).2.requested p)) :
    ∀ (l : List α) (s : Server),
      forEach f l (s.requested p) = ((forEach f l s).1, (forEach f l s).2.requested p)
  | [], _ => rfl
  | a :: l, s => by
    unfold forEach
    rw [hf]
    dsimp only
    split_ifs
    · exact forEach_requested hf l _
    · rfl

theorem openFactory_requested (s : Server) :
    (s.requested p).openFactory sys = (s.openFactory sys).requested p := by
  unfold openFactory
  by_cases hzero : s.surfaceFactoryHandle = 0
  · rw [if_pos hzero, if_pos (show (s.requested p).surfaceFactoryHandle = 0 from hzero)]
    rfl
  · rw [if_neg hzero, if_neg (show ¬ (s.requested p).surfaceFactoryHandle = 0 from hzero)]

theorem paintBackground_requested (s : Server) (surface : UInt32) (n : ℕ) :
    (s.requested p).paintBackground sys surface n
      = ((s.paintBackground sys surface n).1, (s.paintBackground sys surface n).2.requested p) := by
  have hloop := forEach_requested (p := p)
    (f := fun part s => s.surfaceWrite sys surface part.2 part.1) (fun a s => rfl) (chunks 0 n)
  have hfill : (s.requested p).fillDraw drawChunkPixels backgroundColor
    = (s.fillDraw drawChunkPixels backgroundColor).requested p := rfl
  unfold paintBackground
  dsimp only
  rw [hfill, hloop]
  split_ifs <;> rfl

theorem makeSurface_requested (s : Server) (i : ℕ) :
    (s.requested p).makeSurface sys i
      = ((s.makeSurface sys i).1, (s.makeSurface sys i).2.requested p) := by
  have hcall : ∀ c, (s.requested p).call sys c = ((s.call sys c).1, (s.call sys c).2.requested p) :=
    fun _ => rfl
  have hwindow : ∀ (u : Server) (j : ℕ), (u.requested p).window j = u.window j := fun _ _ => rfl
  have hset : ∀ (u : Server) (j : ℕ) (w : Window),
      (u.requested p).setWindow j w = (u.setWindow j w).requested p := fun _ _ _ => rfl
  have hfactory : (s.requested p).surfaceFactoryHandle = s.surfaceFactoryHandle := rfl
  unfold makeSurface
  dsimp only
  rw [hwindow, hfactory, hcall]
  split_ifs
  · rfl
  · rw [hwindow, hset]
    exact paintBackground_requested _ _ _

theorem createWindowSurface_requested (s : Server) (i : ℕ) :
    (s.requested p).createWindowSurface sys i
      = ((s.createWindowSurface sys i).1, (s.createWindowSurface sys i).2.requested p) := by
  have hwindow : (s.requested p).window i = s.window i := rfl
  unfold createWindowSurface
  dsimp only
  rw [hwindow, openFactory_requested]
  have hfactory : ((s.openFactory sys).requested p).surfaceFactoryHandle
    = (s.openFactory sys).surfaceFactoryHandle := rfl
  rw [hfactory]
  split_ifs
  · rfl
  · rfl
  · exact makeSurface_requested _ _

theorem drawableSurface_requested (s : Server) (id : UInt32) :
    (s.requested p).drawableSurface sys id
      = ((s.drawableSurface sys id).1, (s.drawableSurface sys id).2.requested p) := by
  have hpixmap : (s.requested p).findPixmap id = s.findPixmap id := rfl
  have hwindow : (s.requested p).findWindow id = s.findWindow id := rfl
  have hpixmaps : (s.requested p).pixmaps = s.pixmaps := rfl
  have hlooked : ∀ (u : Server) (j : ℕ), (u.requested p).window j = u.window j := fun _ _ => rfl
  unfold drawableSurface
  rw [hpixmap, hwindow, hpixmaps]
  rcases s.findPixmap id with _ | q
  · rcases s.findWindow id with _ | i
    · rfl
    · dsimp only
      rw [createWindowSurface_requested]
      rw [hlooked]
      split_ifs <;> rfl
  · rfl

theorem drawableSurface_again (h : s.drawableSurface sys id = (some d, v)) (hd : d.surface ≠ 0)
    (hleaves : Leaves v t) : t.drawableSurface sys id = (some d, t) := by
  have hfound : ∀ {a b : Server}, b.pixmaps = a.pixmaps → b.findPixmap id = a.findPixmap id :=
    fun hab => by unfold findPixmap; rw [hab]
  rcases hp : s.findPixmap id with _ | q
  · rcases hw : s.findWindow id with _ | i
    · unfold drawableSurface at h
      rw [hp, hw] at h
      cases h
    · have hsame : (s.createWindowSurface sys i).2.pixmaps = s.pixmaps :=
        createWindowSurface_pixmaps sys s i
      have hwindows : ∀ l, ((s.createWindowSurface sys i).2.window l).used = (s.window l).used
          ∧ ((s.createWindowSurface sys i).2.window l).id = (s.window l).id := fun l => by
        by_cases hzero : (s.window i).surfaceHandle = 0
        · obtain ⟨surface, hset⟩ := createWindowSurface_window sys s hzero
          rw [hset]
          split_ifs with hl
          · rw [hl]
            exact ⟨rfl, rfl⟩
          · exact ⟨rfl, rfl⟩
        · rw [createWindowSurface_ready sys hzero]
          exact ⟨rfl, rfl⟩
      unfold drawableSurface at h
      rw [hp, hw] at h
      dsimp only at h
      split_ifs at h with hgood
      · cases (Prod.mk.inj h).1
      obtain ⟨rfl, rfl⟩ := h
      rw [not_or] at hgood
      have hpt : t.findPixmap id = none := by
        rw [hfound (hleaves.pixmaps.trans hsame), hp]
      have hwt : t.findWindow id = some i := by
        rw [← hw]
        unfold findWindow
        simp only [hleaves.window, hwindows]
      unfold drawableSurface
      rw [hpt, hwt]
      dsimp only
      rw [createWindowSurface_ready sys (by rw [hleaves.window]; exact hd)]
      rw [if_neg (by simp [hleaves.window, hgood.2]), hleaves.window]
  · unfold drawableSurface at h
    rw [hp] at h
    obtain ⟨rfl, rfl⟩ := h
    unfold drawableSurface
    rw [hfound hleaves.pixmaps, hp, hleaves.pixmaps]

/-! ## What a request draws -/

/-- The picture over what the drawable showed; the handles and the surfaces behind them stay. -/
structure Painted (K K' : SurfaceKernel) (d : Drawable) (picture : Picture) : Prop where
  grant : K'.grant = K.grant
  data : ∀ surface, K'.data surface = K.data surface
  pixels : ∀ x y : ℕ, x < d.width → y < d.height →
    K'.pixelAt d x y = (picture x y).getD (K.pixelAt d x y)

variable {K K' K'' : SurfaceKernel} {picture picture' : Picture} {k : SurfaceKernel}
  {other : Answers} {start : ℕ}

theorem Painted.trans (h : Painted K K' d picture) (h' : Painted K' K'' d picture') :
    Painted K K'' d fun x y => (picture' x y).or (picture x y) where
  grant := h'.grant.trans h.grant
  data surface := (h'.data surface).trans (h.data surface)
  pixels x y hx hy := by
    rw [h'.pixels x y hx hy, h.pixels x y hx hy]
    rcases picture' x y with _ | c
    · simp
    · simp

theorem Painted.congr (h : Painted K K' d picture)
    (heq : ∀ x y : ℕ, x < d.width → y < d.height → picture x y = picture' x y) :
    Painted K K' d picture' where
  grant := h.grant
  data := h.data
  pixels x y hx hy := by rw [← heq x y hx hy, h.pixels x y hx hy]

theorem Painted.starts (h : Painted K K' d picture) {surface : UInt32}
    (hK : K.Starts surface start) : K'.Starts surface start := by
  obtain ⟨rest, hrest⟩ := hK
  exact ⟨rest, (h.data surface).trans hrest⟩

theorem painted_refl (K : SurfaceKernel) (d : Drawable) : Painted K K d fun _ _ => none :=
  ⟨rfl, fun _ => rfl, fun _ _ _ _ => rfl⟩

theorem painted_of_paints (hK : K.Starts d.surface start) {m : ℕ → UInt32}
    (hpaints : Paints d start K.surfaces.pixels m picture) (hgrant : K'.grant = K.grant)
    (hpixels : K'.surfaces.pixels = m) (hdata : ∀ surface, K'.data surface = K.data surface) :
    Painted K K' d picture where
  grant := hgrant
  data := hdata
  pixels x y hx hy := by
    have hK' : K'.Starts d.surface start := by
      obtain ⟨rest, hrest⟩ := hK
      exact ⟨rest, (hdata d.surface).trans hrest⟩
    unfold SurfaceKernel.pixelAt
    rw [hK'.pixel, hK.pixel, hpixels]
    exact hpaints x y hx hy

theorem damage_grant (K : SurfaceKernel) (o : UInt64) (surface x y w h : UInt32) :
    (K.answer o (.surfaceDamage surface x y w h)).2.grant = K.grant := by
  dsimp only [SurfaceKernel.answer]
  rcases hdamage : K.damage surface x y w h with _ | K'
  · rfl
  · obtain ⟨g, i, -, -, -, rfl⟩ := SurfaceKernel.damage_spec hdamage
    rfl

theorem putImage_paints {width height : UInt16}
    (h : s.drawableSurface (k.answers other) id = (some d, v))
    (hK : (k.behind other v).Starts d.surface start)
    (hpass : ¬(s.putImage (k.answers other) id x y width height data).1 < 0) :
    Painted (k.behind other v)
      (k.behind other (s.putImage (k.answers other) id x y width height data).2) d
      (putPicture (int16 x) (int16 y) width.toNat height.toNat data) := by
  unfold putImage at hpass ⊢
  by_cases hvalid : s.validDrawable id = true
  swap
  · rw [Bool.eq_false_of_not_eq_true hvalid] at hpass
    exact absurd (show (-4 : ℤ) < 0 by decide) hpass
  rw [hvalid, h] at hpass ⊢
  rw [if_neg (by decide)] at hpass ⊢
  dsimp only at hpass ⊢
  have hpaints := fun hpass => putRows_paint (d := d) (x := x) (y := y) width.toNat_lt hK
    (rfl : k.behind other v = _) (show (forEach (putRow (k.answers other) d x y width.toNat data)
      (List.range height.toNat) v).1 = true from hpass)
  generalize forEach (putRow (k.answers other) d x y width.toNat data) (List.range height.toNat) v
    = written at hpass hpaints ⊢
  rcases hwritten : written.1 with _ | _
  · rw [hwritten] at hpass
    exact absurd (show (-2 : ℤ) < 0 by decide) hpass
  obtain ⟨m, hm, hpicture, -⟩ := hpaints hwritten
  rw [if_neg (by decide)]
  by_cases hwindow : (s.findWindow id).isSome = true
  · rw [if_pos hwindow]
    have hdamage : ∀ c, k.behind other (written.2.call (k.answers other) c).2
        = ((k.behind other written.2).answer (other (c :: written.2.calls)) c).2 := fun _ => rfl
    unfold damage
    rw [hdamage, hm]
    exact painted_of_paints hK hpicture (damage_grant _ _ _ _ _ _ _)
      (SurfaceKernel.answer_damage _ _ _ _ _ _ _).1
      (SurfaceKernel.answer_damage _ _ _ _ _ _ _).2
  · rw [if_neg hwindow, hm]
    exact painted_of_paints hK hpicture rfl rfl fun _ => rfl

theorem putPicture_congr {x y px py : ℤ} {data data' : ℕ → UInt8}
    (h : ∀ j < width * height * 4, data j = data' j) :
    putPicture x y width height data px py = putPicture x y width height data' px py := by
  unfold putPicture
  split_ifs with hin
  · have hrow : (py - y).toNat + 1 ≤ height := by omega
    have hend := Nat.mul_le_mul_right width hrow
    rw [Nat.add_mul, Nat.mul_comm height, Nat.one_mul] at hend
    rw [read32, read32, load_congr fun b hb hlt => h b (by omega)]
  · rfl

def putOne (s : Server) (sys : Answers) (id : UInt32) (x y : UInt16) (count : ℕ) (m : Message) :
    ℤ × Server := s.putImage sys id x y (UInt16.ofNat count) 1 fun j => m.payload (24 + j)

theorem putOne_of_serve (hm : m.Puts id gc x y count data) (hserve : s.serve sys client m = some t) :
    ¬((s.requested (m.packet client)).putOne sys id x y count m).1 < 0
      ∧ ((s.requested (m.packet client)).putOne sys id x y count m).2 = t := by
  obtain ⟨⟨bad, t'⟩, hparse, hgood⟩ := Option.bind_eq_some_iff.1 hserve
  dsimp only at hgood
  split_ifs at hgood with hbad
  obtain rfl := Option.some.inj hgood
  rw [Bool.eq_false_of_not_eq_true hbad] at hparse
  have hhandled : (s.requested (m.packet client)).putImageRequest sys id = (false, t') := by
    rw [← show (s.requested (m.packet client)).field32 4 = id from hm.drawable]
    exact handled_of_answered hparse 30 rfl hm.opcode
  have hdrawn := putImageRequest_drawn hhandled
  have hx : (s.requested (m.packet client)).field16 16 = x := hm.x
  have hy : (s.requested (m.packet client)).field16 18 = y := hm.y
  have hwidth : (s.requested (m.packet client)).field16 12 = UInt16.ofNat count := hm.width
  have hheight : (s.requested (m.packet client)).field16 14 = 1 := hm.height
  rw [hx, hy, hwidth, hheight] at hdrawn
  exact hdrawn

theorem drawableSurface_served (h : s.drawableSurface sys id = (some d, v)) :
    (s.requested (m.packet client)).drawableSurface sys id
      = (some d, v.requested (m.packet client)) := by
  rw [drawableSurface_requested, h]

theorem putOne_leaves (h : s.drawableSurface sys id = (some d, v))
    (hpass : ¬((s.requested (m.packet client)).putOne sys id x y count m).1 < 0) :
    Leaves (v.requested (m.packet client))
      ((s.requested (m.packet client)).putOne sys id x y count m).2 := by
  have hvalid : (s.requested (m.packet client)).validDrawable id = true := by
    by_contra hinvalid
    unfold putOne putImage at hpass
    rw [Bool.eq_false_of_not_eq_true hinvalid] at hpass
    exact hpass (show (-4 : ℤ) < 0 by decide)
  have hleaves : Leaves ((s.requested (m.packet client)).drawableSurface sys id).2
      ((s.requested (m.packet client)).putOne sys id x y count m).2 :=
    putImage_leaves _ _ id x y (UInt16.ofNat count) 1 (fun j => m.payload (24 + j)) hvalid
  rw [drawableSurface_served h] at hleaves
  exact hleaves

theorem serve_paints (hm : m.Puts id gc x y count data) (hcount : count < 65536)
    (h : s.drawableSurface (k.answers other) id = (some d, v)) (hd : d.surface ≠ 0)
    (hK : (k.behind other v).Starts d.surface start)
    (hserve : s.serve (k.answers other) client m = some t) :
    Painted (k.behind other v) (k.behind other t) d (putPicture (int16 x) (int16 y) count 1 data)
      ∧ t.drawableSurface (k.answers other) id = (some d, t) ∧ t.gcs = v.gcs
      ∧ t.rest = v.rest := by
  obtain ⟨hpass, rfl⟩ := putOne_of_serve hm hserve
  have hleaves := putOne_leaves h hpass
  have hbehind : k.behind other (v.requested (m.packet client)) = k.behind other v := rfl
  have hcount' : (UInt16.ofNat count).toNat = count := by
    rw [UInt16.toNat_ofNat']
    omega
  have hone : (1 : UInt16).toNat = 1 := rfl
  have hpainted := putImage_paints (drawableSurface_served h) hK hpass
  rw [hbehind, hcount', hone] at hpainted
  refine ⟨hpainted.congr fun px py _ _ => ?_, ?_, hleaves.gcs, hleaves.rest⟩
  · exact putPicture_congr fun j hj => hm.data j (by omega)
  · exact drawableSurface_again (drawableSurface_served h) hd hleaves

theorem served_paint {f : α → Message} {P : α → Picture} (hd : d.surface ≠ 0) :
    ∀ {l : List α} {s v : Server},
    (∀ a ∈ l, ∃ x y count data, (f a).Puts id gc x y count data ∧ count < 65536
      ∧ ∀ px py : ℕ, px < d.width → py < d.height →
        putPicture (int16 x) (int16 y) count 1 data px py = P a px py) →
    s.drawableSurface (k.answers other) id = (some d, v) →
    (k.behind other v).Starts d.surface start →
    (l.map f).foldlM (serve (k.answers other) client) s = some u →
      ∃ w, u.drawableSurface (k.answers other) id = (some d, w)
        ∧ Painted (k.behind other v) (k.behind other w) d (overlay P l) ∧ (l ≠ [] → w = u)
  | [], s, v, _, hs, _, hrun => by
    obtain rfl := Option.some.inj hrun
    exact ⟨v, hs, painted_refl _ d, fun hne => absurd rfl hne⟩
  | a :: l, s, v, hparts, hs, hK, hrun => by
    rw [List.map_cons, List.foldlM_cons] at hrun
    obtain ⟨t, ht, hrest⟩ := Option.bind_eq_some_iff.1 hrun
    obtain ⟨x, y, count, data, hm, hcount, hpicture⟩ := hparts a List.mem_cons_self
    obtain ⟨hpainted, hready, -⟩ := serve_paints hm hcount hs hd hK ht
    obtain ⟨w, hw, hlater, hlast⟩ := served_paint hd
      (fun b hb => hparts b (List.mem_cons_of_mem a hb)) hready (hpainted.starts hK) hrest
    refine ⟨w, hw, ?_, fun _ => ?_⟩
    · refine ((hpainted.congr hpicture).trans hlater).congr fun px py _ _ => ?_
      rw [overlay_cons]
    · rcases l with _ | ⟨b, l⟩
      · obtain rfl := Option.some.inj hrest
        exact (Prod.mk.inj (hw.symm.trans hready)).2
      · exact hlast (List.cons_ne_nil b l)

/-! ## What is served -/

structure MayDraw (s : Server) (client gc id : UInt32) : Prop where
  granted : s.serverGrabClient = 0 ∨ s.serverGrabClient = client
  context : ∃ g, s.findGc gc = some g ∧ (s.gcs g).ownerClient = client ∧ (s.gcs g).drawable = id

theorem MayDraw.kept (h : s.MayDraw client gc id) (hgcs : t.gcs = s.gcs) (hrest : t.rest = s.rest) :
    t.MayDraw client gc id where
  granted := by
    rw [show t.serverGrabClient = s.serverGrabClient from congrArg Rest.serverGrabClient hrest]
    exact h.granted
  context := by
    unfold findGc
    rw [hgcs]
    exact h.context

/-- The surface of a drawable may be written, and is as large as the server takes it to be. -/
structure Roomy (K : SurfaceKernel) (d : Drawable) : Prop where
  writable : (K.writable d.surface).isSome
  room : ∃ start width height, K.Places d.surface start width height
    ∧ d.width * d.height ≤ width * height

theorem Roomy.painted (h : Roomy K d) (hpainted : Painted K K' d picture) : Roomy K' d where
  writable := by
    unfold SurfaceKernel.writable
    rw [hpainted.grant]
    exact h.writable
  room := by
    obtain ⟨start, width, height, hplaces, hle⟩ := h.room
    exact ⟨start, width, height, (hpainted.data d.surface).trans hplaces, hle⟩

theorem drawableSurface_tables (h : s.drawableSurface sys id = (some d, v)) :
    v.gcs = s.gcs ∧ v.rest = s.rest := by
  have hv : (s.drawableSurface sys id).2 = v := congrArg Prod.snd h
  by_cases hbare : s.BareDrawable id
  · obtain ⟨i, hi, heq⟩ := drawableSurface_bare sys hbare
    obtain ⟨-, j, hj, hzero⟩ := hbare
    obtain rfl := Option.some.inj (hi.symm.trans hj)
    obtain ⟨u, surface, hsu, huv, -⟩ := createWindowSurface_sets sys s i hzero
    rw [← hv, heq]
    exact ⟨huv.gcs.trans hsu.gcs, huv.rest.trans hsu.rest⟩
  · rw [drawableSurface_ready hbare] at hv
    rw [hv]
    exact ⟨rfl, rfl⟩

theorem validDrawable_of_surface (h : s.drawableSurface sys id = (some d, v)) :
    s.validDrawable id = true := by
  unfold drawableSurface at h
  unfold validDrawable
  rcases hp : s.findPixmap id with _ | p
  · rcases hw : s.findWindow id with _ | i
    · rw [hp, hw] at h
      cases (Prod.mk.inj h).1
    · rfl
  · simp

theorem putRow_passes (hroomy : Roomy K d) {width row : ℕ} (hwidth : width < 65536)
    (hu : k.behind other u = K) : (putRow (k.answers other) d x y width data row u).1 = true := by
  obtain ⟨-, hrow⟩ | ⟨hvisible, hrow⟩ := putRow_cases (k.answers other) d x y width data row u
  · rw [hrow]
  · obtain ⟨start, w, h, hplaces, hle⟩ := hroomy.room
    have hshort : (rowPixels d x width data row).length ≤ surfaceMaxWidth * surfaceMaxHeight :=
      rowPixels_short hwidth
    have hlength : (rowPixels d x width data row).length
        = min (width - (-int16 x).toNat) (d.width - (int16 x).toNat) := by
      rw [rowPixels, List.length_map, List.length_range]
    have hline := Nat.mul_le_mul_right d.width (show (int16 y + row).toNat + 1 ≤ d.height by omega)
    rw [Nat.add_mul, Nat.one_mul, Nat.mul_comm d.height] at hline
    obtain ⟨hanswer, -⟩ := surfaceWritePixels_behind k other
      (u.setDraw (rowPixels d x width data row)) d.surface hshort
      ((int16 y + row).toNat * d.width + (int16 x).toNat)
    rw [setDraw_behind, hu, SurfaceKernel.write_eq hplaces hroomy.writable hshort (by omega)]
      at hanswer
    rw [hrow, hanswer]
    rfl

theorem putImage_passes {width height : UInt16} (hheight : height = 1)
    (h : s.drawableSurface (k.answers other) id = (some d, v)) (hroomy : Roomy (k.behind other v) d)
    (hvalid : s.validDrawable id = true) :
    ¬(s.putImage (k.answers other) id x y width height data).1 < 0 := by
  subst hheight
  have hpasses : (putRow (k.answers other) d x y width.toNat data 0 v).1 = true :=
    putRow_passes hroomy width.toNat_lt rfl
  have hrows : (forEach (putRow (k.answers other) d x y width.toNat data)
      (List.range (1 : UInt16).toNat) v).1 = true := by
    show (forEach (putRow (k.answers other) d x y width.toNat data) [0] v).1 = true
    unfold forEach
    rw [if_pos hpasses]
    rfl
  unfold putImage
  rw [hvalid, h, if_neg (by decide)]
  dsimp only
  rw [hrows, if_neg (by decide)]
  split_ifs
  · exact (show ¬(1 : ℤ) < 0 by decide)
  · exact (show ¬(1 : ℤ) < 0 by decide)

theorem serve_serves (hm : m.Puts id gc x y count data) (hcount : 0 < count ∧ count ≤ maxPixels)
    (h : s.drawableSurface (k.answers other) id = (some d, v)) (hmay : s.MayDraw client gc id)
    (hroomy : Roomy (k.behind other v) d) :
    ∃ t, s.serve (k.answers other) client m = some t := by
  have hmost : maxPixels = 58 := rfl
  have hlength : (s.requested (m.packet client)).incoming.payloadLength.toNat = 24 + count * 4 := by
    show (UInt16.ofNat m.length).toNat = 24 + count * 4
    rw [hm.length, UInt16.toNat_ofNat']
    omega
  have hcount' : (UInt16.ofNat count).toNat = count := by
    rw [UInt16.toNat_ofNat']
    omega
  have hwords : (s.requested (m.packet client)).field16 2 = UInt16.ofNat ((24 + count * 4) / 4) :=
    hm.words
  have hwords' : (UInt16.ofNat ((24 + count * 4) / 4)).toNat = 6 + count := by
    rw [UInt16.toNat_ofNat']
    omega
  have hadmitted : (s.requested (m.packet client)).Admitted := by
    refine ⟨rfl, ?_, rfl, decide_eq_true hmay.granted⟩
    rw [hwords, hlength, hwords']
    refine ⟨fun hzero => ?_, by omega⟩
    rw [hzero] at hwords'
    have : (0 : UInt16).toNat = 0 := rfl
    omega
  have hid : (s.requested (m.packet client)).field32 4 = id := hm.drawable
  have hparse : (s.requested (m.packet client)).parseRequest (k.answers other)
      = some ((s.requested (m.packet client)).putImageRequest (k.answers other)
        ((s.requested (m.packet client)).field32 4)) :=
    parseRequest_resource hadmitted 30 rfl hm.opcode (decide_eq_true (by omega))
  have hvalid : (s.requested (m.packet client)).validDrawable id = true :=
    validDrawable_of_surface (drawableSurface_served h)
  have hroomy' : Roomy (k.behind other (v.requested (m.packet client))) d := hroomy
  have hput : ¬((s.requested (m.packet client)).putImage (k.answers other) id x y
      (UInt16.ofNat count) 1
      fun j => (s.requested (m.packet client)).payload (24 + j)).1 < 0 :=
    putImage_passes rfl (drawableSurface_served h) hroomy' hvalid
  have hhandled : ∃ t, (s.requested (m.packet client)).putImageRequest (k.answers other) id
      = (false, t) := by
    obtain ⟨g, hg, howner, hdrawable⟩ := hmay.context
    have hgc : (s.requested (m.packet client)).findGc
        ((s.requested (m.packet client)).field32 8) = some g := by
      rw [show (s.requested (m.packet client)).field32 8 = gc from hm.gc]
      exact hg
    have hdraws : (s.requested (m.packet client)).drawsWith g id = true :=
      decide_eq_true ⟨howner, hdrawable⟩
    have hx : (s.requested (m.packet client)).field16 16 = x := hm.x
    have hy : (s.requested (m.packet client)).field16 18 = y := hm.y
    have hwidth : (s.requested (m.packet client)).field16 12 = UInt16.ofNat count := hm.width
    have hheight : (s.requested (m.packet client)).field16 14 = 1 := hm.height
    have hformat : (s.requested (m.packet client)).payload 1 = 2 := hm.format
    have hpad : (s.requested (m.packet client)).payload 20 = 0 := hm.leftPad
    have hdepth : (s.requested (m.packet client)).payload 21 = 32 := hm.depth
    have hone : (1 : UInt16).toNat = 1 := rfl
    have hmost' : (messageBytes - 24) / 4 = 58 := rfl
    have hsome : UInt16.ofNat count ≠ 0 := fun hzero => by
      rw [hzero] at hcount'
      have : (0 : UInt16).toNat = 0 := rfl
      omega
    unfold putImageRequest
    rw [hgc]
    dsimp only
    rw [hx, hy, hwidth, hheight, hformat, hpad, hdepth, hlength, hcount', hone, hmost', hdraws,
      hvalid, if_neg, if_neg hput]
    · exact ⟨_, rfl⟩
    · simp only [ne_eq, not_true_eq_false, false_or, hsome, Bool.not_true, Bool.false_eq_true,
        or_false]
      refine not_or.2 ⟨by decide, ?_⟩
      omega
  obtain ⟨t, ht⟩ := hhandled
  refine ⟨t, ?_⟩
  unfold serve
  rw [hparse, hid]
  rw [ht]
  rfl

theorem run_serves {f : α → Message} (hd : d.surface ≠ 0) :
    ∀ {l : List α} {s v : Server},
    (∀ a ∈ l, ∃ x y count data, (f a).Puts id gc x y count data ∧ 0 < count ∧ count ≤ maxPixels) →
    s.drawableSurface (k.answers other) id = (some d, v) → s.MayDraw client gc id →
    Roomy (k.behind other v) d →
      ∃ u, (l.map f).foldlM (serve (k.answers other) client) s = some u
  | [], s, _, _, _, _, _ => ⟨s, rfl⟩
  | a :: l, s, v, hparts, hs, hmay, hroomy => by
    obtain ⟨x, y, count, data, hm, hpos, hmost⟩ := hparts a List.mem_cons_self
    obtain ⟨t, ht⟩ := serve_serves hm ⟨hpos, hmost⟩ hs hmay hroomy
    obtain ⟨start, w, h, hplaces, -⟩ := hroomy.room
    have hmax : maxPixels = 58 := rfl
    obtain ⟨hpainted, hready, hgcs, hrest⟩ :=
      serve_paints hm (by omega) hs hd hplaces.starts ht
    have htables := drawableSurface_tables hs
    obtain ⟨u, hu⟩ := run_serves hd (fun b hb => hparts b (List.mem_cons_of_mem a hb)) hready
      (hmay.kept (hgcs.trans htables.1) (hrest.trans htables.2)) (hroomy.painted hpainted)
    refine ⟨u, ?_⟩
    rw [List.map_cons, List.foldlM_cons]
    exact Option.bind_eq_some_iff.2 ⟨t, ht, hu⟩

/-! ## The image -/

def cellPicture (image : XImage) (srcX srcY destX destY : ℤ) (cell : ℕ × ℕ × ℕ) : Picture :=
  fun px py =>
    if py = destY + cell.1 ∧ destX + cell.2.1 ≤ px ∧ px < destX + cell.2.1 + cell.2.2 then
      some (image.pixel (srcX + (px - destX)) (srcY + (py - destY)) ||| opaqueAlpha)
    else none

def imagePicture (image : XImage) (srcX srcY destX destY : ℤ) (width height : ℕ) : Picture :=
  fun px py =>
    if destX ≤ px ∧ px < destX + width ∧ destY ≤ py ∧ py < destY + height then
      some (image.pixel (srcX + (px - destX)) (srcY + (py - destY)) ||| opaqueAlpha)
    else none

theorem mem_imageCells {cell : ℕ × ℕ × ℕ} (h : cell ∈ imageCells width height) :
    cell.1 < height ∧ cell.2.1 + cell.2.2 ≤ width ∧ 0 < cell.2.2 ∧ cell.2.2 ≤ maxPixels := by
  obtain ⟨row, hrow, hparts⟩ := List.mem_flatMap.1 h
  obtain ⟨part, hpart, rfl⟩ := List.mem_map.1 hparts
  exact ⟨List.mem_range.1 hrow, imageParts_inside (by decide) part hpart⟩

theorem overlay_cells (image : XImage) (srcX srcY destX destY : ℤ) (width height : ℕ)
    (px py : ℤ) : overlay (cellPicture image srcX srcY destX destY) (imageCells width height) px py
      = imagePicture image srcX srcY destX destY width height px py := by
  refine overlay_eq (fun cell hcell c hc => ?_) fun c hc => ?_
  · obtain ⟨hrow, hcolumn, -, -⟩ := mem_imageCells hcell
    unfold cellPicture at hc
    split_ifs at hc with hin
    unfold imagePicture
    rw [if_pos (by omega)]
    exact hc
  · unfold imagePicture at hc
    split_ifs at hc with hin
    have hcover : ∃ part ∈ imageParts maxPixels width width 0,
        part.1 ≤ (px - destX).toNat ∧ (px - destX).toNat < part.1 + part.2 :=
      imageParts_cover (by decide) (by omega) (Nat.zero_le _) (by omega)
    obtain ⟨part, hpart, hlo, hhi⟩ := hcover
    refine ⟨((py - destY).toNat, part.1, part.2), List.mem_flatMap.2
      ⟨_, List.mem_range.2 (by omega), List.mem_map_of_mem hpart⟩, ?_⟩
    unfold cellPicture
    rw [if_pos (by dsimp only; omega)]
    exact hc

theorem int16_ofInt {z : ℤ} (hlow : -32768 ≤ z) (hhigh : z < 65536) :
    int16 (UInt16.ofInt z) = if z < 32768 then z else z - 65536 := by
  have hvalue : (UInt16.ofInt z).toBitVec.toNat = (z % 65536).toNat % 65536 := rfl
  unfold int16
  rw [BitVec.toInt_eq_toNat_cond, hvalue]
  split_ifs <;> omega

theorem XImage.pixel_eq (image : XImage) (x y : ℤ) (j : ℕ) :
    read32 (fun k => image.data (image.source x y + k)) (j * 4) = image.pixel (x + j) y := by
  have hshift := load_shift (fun k => image.data (image.source x y + k)) (j * 4) 4 0
  rw [Nat.add_zero] at hshift
  unfold XImage.pixel
  rw [read32, read32, ← hshift]
  refine congrArg _ (load_congr fun b _ _ => congrArg image.data ?_)
  unfold XImage.source
  push_cast
  ring

/-- A request shows what its part of the image shows: a position that has wrapped is off the
drawable, and so is the part. -/
theorem putPicture_cell (image : XImage) {srcX srcY destX destY : ℤ}
    (hx : -32768 ≤ destX ∧ destX ≤ 32767) (hy : -32768 ≤ destY ∧ destY ≤ 32767)
    (hwidth : width ≤ 32767) (hheight : height ≤ 32767) {cell : ℕ × ℕ × ℕ}
    (hcell : cell ∈ imageCells width height) {px py : ℕ} (hpx : px < 32768) (hpy : py < 32768) :
    putPicture (int16 (UInt16.ofInt (destX + cell.2.1))) (int16 (UInt16.ofInt (destY + cell.1)))
        cell.2.2 1
        (fun j => image.data (image.source (srcX + cell.2.1) (srcY + cell.1) + j)) px py
      = cellPicture image srcX srcY destX destY cell px py := by
  obtain ⟨hrow, hcolumn, -, -⟩ := mem_imageCells hcell
  rw [int16_ofInt (by omega) (by omega), int16_ofInt (by omega) (by omega)]
  unfold putPicture cellPicture
  by_cases hin : (py : ℤ) = destY + cell.1 ∧ destX + cell.2.1 ≤ px
    ∧ (px : ℤ) < destX + cell.2.1 + cell.2.2
  · rw [if_pos hin, if_pos (by omega), if_pos (by omega), if_pos (by omega)]
    have hzero : ((py : ℤ) - (destY + cell.1)).toNat = 0 := by omega
    have hcolumn : srcX + cell.2.1 + ((px : ℤ) - (destX + cell.2.1)).toNat
        = srcX + (px - destX) := by omega
    have hline : srcY + cell.1 = srcY + (py - destY) := by omega
    rw [hzero, Nat.zero_mul, Nat.zero_add, XImage.pixel_eq, hcolumn, hline]
  · rw [if_neg hin]
    split_ifs <;> first | rfl | omega

theorem imageMessage_cell (gc : GC) (drawable : UInt32) (image : XImage)
    (srcX srcY destX destY : Int32) {cell : ℕ × ℕ × ℕ}
    (hcell : cell ∈ imageCells width height) :
    (imageMessage gc drawable image srcX srcY destX destY cell.1 cell.2.1 cell.2.2).length
        ≤ messageBytes ∧ 0 < cell.2.2 ∧ cell.2.2 ≤ maxPixels := by
  obtain ⟨-, -, hpos, hmost⟩ := mem_imageCells hcell
  have hmost' : maxPixels = 58 := rfl
  have hbytes : messageBytes = 256 := rfl
  have hlength : (imageMessage gc drawable image srcX srcY destX destY cell.1 cell.2.1
    cell.2.2).length = 24 + cell.2.2 * 4 := rfl
  exact ⟨by omega, hpos, hmost⟩

/-- In every run of the server and for every drawable of it: the requests of an image that is taken
fit a message, and once they are all served the drawable shows the rectangle of the image, clipped,
over what it showed before. They are all served where the client may draw on a surface of the
drawable's size. -/
theorem xPutImage_draws (k : SurfaceKernel) (other : Answers) (wires : List (ℕ → UInt8)) (s : Server)
    (hrun : Process.run (k.answers other) (.running {}) wires = .running s) (client : UInt32)
    (gc : GC) (drawable : UInt32) (image : XImage) (srcX srcY destX destY : Int32)
    (width height : UInt32)
    (htaken : (xPutImage gc drawable image srcX srcY destX destY width height).status = some true)
    (hx : -32768 ≤ destX.toInt ∧ destX.toInt ≤ 32767)
    (hy : -32768 ≤ destY.toInt ∧ destY.toInt ≤ 32767)
    (hsize : width.toNat ≤ 32767 ∧ height.toNat ≤ 32767) (d : Drawable) (v : Server)
    (hdrawable : s.drawableSurface (k.answers other) drawable = (some d, v)) (hd : d.surface ≠ 0)
    (hdata : ((k.behind other v).data d.surface).isSome) :
    let messages := (xPutImage gc drawable image srcX srcY destX destY width height).messages
    (∀ m ∈ messages, m.length ≤ messageBytes)
      ∧ (∀ u, messages.foldlM (serve (k.answers other) client) s = some u →
        u.drawableSurface (k.answers other) drawable = (some d, u)
          ∧ ∀ x y : ℕ, x < d.width → y < d.height →
            (k.behind other u).pixelAt d x y
              = (imagePicture image srcX.toInt srcY.toInt destX.toInt destY.toInt width.toNat
                  height.toNat x y).getD ((k.behind other v).pixelAt d x y))
      ∧ (s.MayDraw client gc.id drawable → Roomy (k.behind other v) d →
        ∃ u, messages.foldlM (serve (k.answers other) client) s = some u) := by
  rw [xPutImage_messages htaken]
  refine ⟨fun m hm => ?_, fun u hu => ?_, fun hmay hroomy => ?_⟩
  · obtain ⟨cell, hcell, rfl⟩ := List.mem_map.1 hm
    exact (imageMessage_cell gc drawable image srcX srcY destX destY hcell).1
  · obtain ⟨⟨start, rest⟩, hstart⟩ := Option.isSome_iff_exists.1 hdata
    have hsmall : ∀ {px py : ℕ}, px < d.width → py < d.height → px < 640 ∧ py < 480 :=
      fun hpx hpy => drawable_within hdrawable (Process.run_within hrun) hpx hpy
    have hmost : maxPixels = 58 := rfl
    obtain ⟨w, hw, hpainted, hlast⟩ := served_paint
      (P := cellPicture image srcX.toInt srcY.toInt destX.toInt destY.toInt) hd
      (fun cell hcell => by
        obtain ⟨-, -, -, hcount⟩ := mem_imageCells hcell
        refine ⟨_, _, _, _, imageMessage_puts gc drawable image srcX srcY destX destY cell.1
          cell.2.1 cell.2.2, by omega, fun px py hpx hpy => ?_⟩
        obtain ⟨hpx, hpy⟩ := hsmall hpx hpy
        exact putPicture_cell image hx hy hsize.1 hsize.2 hcell (by omega) (by omega))
      hdrawable ⟨rest, hstart⟩ hu
    obtain ⟨hwide, hhigh⟩ := xPutImage_sized htaken
    obtain rfl := hlast (imageCells_ne_nil hwide hhigh)
    refine ⟨hw, fun x y hx hy => ?_⟩
    rw [hpainted.pixels x y hx hy, overlay_cells]
  · exact run_serves hd (fun cell hcell => ⟨_, _, _, _, imageMessage_puts gc drawable image srcX
      srcY destX destY cell.1 cell.2.1 cell.2.2,
      (imageMessage_cell gc drawable image srcX srcY destX destY hcell).2⟩) hdrawable hmay hroomy

def gcRecord (client id drawable : UInt32) : ℕ → UInt8 :=
  Process.requestRecord client 16 (write32 (write32 (write16 (write8 (fun _ => 0) 0
    Opcode.createGc) 2 4) 4 id) 8 drawable)

def blankKernel : SurfaceKernel :=
  ⟨Surfaces.freshArena 0x100000 1048576, 1, fun _ => none⟩

/-- A client that has a window of ten by ten pixels, and a context for it. -/
def imageClient : Process :=
  Process.run (blankKernel.answers fun _ => 5) (.running {})
    [Process.createRecord 2 0x400001, gcRecord 2 0x400002 0x400001]

def grayImage : XImage where
  width := 2
  height := 1
  format := 2
  bitsPerPixel := 32
  bytesPerLine := 8
  data _ := 0x55

/-- Two pixels at the edge of the window: one of them is drawn. -/
theorem xPutImage_draws_edge :
    ∃ s d v u, imageClient = .running s
      ∧ s.drawableSurface (blankKernel.answers fun _ => 5) 0x400001 = (some d, v)
      ∧ (xPutImage { id := 0x400002, used := true } 0x400001 grayImage 0 0 9 0 2 1).messages.foldlM
        (serve (blankKernel.answers fun _ => 5) 2) s = some u
      ∧ (blankKernel.behind (fun _ => 5) u).pixelAt d (9 : ℕ) (0 : ℕ) = 0xFF555555 := by
  have hsurface : imageClient.server.map (fun s =>
      (s.drawableSurface (blankKernel.answers fun _ => 5) 0x400001).1.map
        fun d => (d.surface, d.width, d.height)) = some (some (5, 10, 10)) := by decide +kernel
  have hkernel : imageClient.server.map (fun s =>
      (fun K : SurfaceKernel => (K.data 5, K.writable 5)) (blankKernel.behind (fun _ => 5)
        (s.drawableSurface (blankKernel.answers fun _ => 5) 0x400001).2))
      = some (some (0, 10 * 10, 10, 10), some 1) := by decide +kernel
  have hcontext : imageClient.server.map (fun s => (s.serverGrabClient, s.findGc 0x400002,
      (s.gcs 0).ownerClient, (s.gcs 0).drawable)) = some (0, some 0, 2, 0x400001) := by
    decide +kernel
  rcases hrun : imageClient with s | code | _ <;> rw [hrun] at hsurface hkernel hcontext
  · simp only [Process.server, Option.map_some, Option.some.injEq, Prod.mk.injEq]
      at hsurface hkernel hcontext
    obtain ⟨hgrab, hgc, howner, hdrawable⟩ := hcontext
    rcases hfound : s.drawableSurface (blankKernel.answers fun _ => 5) 0x400001 with ⟨_ | d, v⟩ <;>
      rw [hfound] at hsurface hkernel
    · cases hsurface
    obtain ⟨hdata, hwritable⟩ := hkernel
    simp only [Option.map_some, Option.some.injEq, Prod.mk.injEq] at hsurface
    obtain ⟨hsurface, hwidth, hheight⟩ := hsurface
    have hplaces : (blankKernel.behind (fun _ => 5) v).Places d.surface 0 10 10 := hsurface ▸ hdata
    obtain ⟨-, hdraws, hserves⟩ := xPutImage_draws blankKernel (fun _ => 5) _ s hrun 2
      { id := 0x400002, used := true } 0x400001 grayImage 0 0 9 0 2 1 (by decide) (by decide)
      (by decide) (by decide) d v hfound (by rw [hsurface]; decide)
      (by rw [hsurface, hdata]; rfl)
    obtain ⟨u, hu⟩ := hserves ⟨.inl hgrab, 0, hgc, howner, hdrawable⟩
      ⟨by rw [hsurface, hwritable]; rfl, 0, 10, 10, hplaces, by rw [hwidth, hheight]⟩
    refine ⟨s, d, v, u, rfl, hfound, hu, ?_⟩
    rw [(hdraws u hu).2 9 0 (by rw [hwidth]; decide) (by rw [hheight]; decide)]
    rfl
  · cases hsurface
  · cases hsurface

end Server

end DemonX

end DemonOS
