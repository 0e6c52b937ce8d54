import DemonOS.Proofs.DemonX.CopyArea
import DemonOS.Proofs.DemonX.Properties

/-!
# What images and text draw

A picture gives some of the pixels a color. `put_image` draws the rows of its data and the text
routines the dots of their characters, each clipped in its own way, and what they leave on a surface
is the picture over what was there (`putRows_paint`, `textRows_paint`).
-/

namespace DemonOS

namespace DemonX

variable {m : ℕ → UInt32} {α : Type}

namespace Server

abbrev Picture := ℤ → ℤ → Option UInt32

def putPicture (x y : ℤ) (width height : ℕ) (data : ℕ → UInt8) : Picture := fun px py =>
  if x ≤ px ∧ px < x + width ∧ y ≤ py ∧ py < y + height then
    some (read32 data (((py - y).toNat * width + (px - x).toNat) * 4) ||| opaqueAlpha)
  else none

/-- A dot of the character at `column` of a text; one that does not fit the width is left out. -/
structure Dot (d : Drawable) (x top : ℤ) (text : ℕ → UInt8) (scale column : ℕ) (px py : ℤ) : Prop where
  left : 0 ≤ x + column * 6 * scale
  right : x + column * 6 * scale + 5 * scale ≤ d.width
  columns : x + column * 6 * scale ≤ px ∧ px < x + column * 6 * scale + 5 * scale
  rows : top ≤ py ∧ py < top + 7 * scale
  set : ∃ glyph, glyphColumns (text column) = some glyph
    ∧ (glyph.getD ((px - (x + column * 6 * scale)).toNat / scale) 0).toNat.testBit
      ((py - top).toNat / scale) = true

open scoped Classical in
/-- The dots of a text. -/
noncomputable def textPicture (d : Drawable) (color : UInt32) (x top : ℤ) (text : ℕ → UInt8)
    (length scale : ℕ) : Picture := fun px py =>
  if ∃ column < length, Dot d x top text scale column px py then some color else none

/-! ## Pictures one over the other -/

def Paints (d : Drawable) (start : ℕ) (m m' : ℕ → UInt32) (picture : Picture) : Prop :=
  ∀ x y : ℕ, x < d.width → y < d.height →
    m' (d.place start x y) = (picture x y).getD (m (d.place start x y))

def overlay {α : Type} (P : α → Picture) (l : List α) : Picture := fun x y =>
  l.foldl (fun below a => (P a x y).or below) none

theorem foldl_or (f : α → Option UInt32) : ∀ (l : List α) (o : Option UInt32),
    l.foldl (fun below a => (f a).or below) o
      = (l.foldl (fun below a => (f a).or below) none).or o
  | [], o => by simp
  | a :: l, o => by
    rw [List.foldl_cons, List.foldl_cons, foldl_or f l ((f a).or o), foldl_or f l ((f a).or none),
      Option.or_none, Option.or_assoc]

theorem overlay_cons (P : α → Picture) (a : α) (l : List α) (x y : ℤ) :
    overlay P (a :: l) x y = (overlay P l x y).or (P a x y) := by
  unfold overlay
  rw [List.foldl_cons, foldl_or, Option.or_none]

theorem mem_of_overlay {P : α → Picture} {x y : ℤ} {c : UInt32} : ∀ {l : List α},
    overlay P l x y = some c → ∃ a ∈ l, P a x y = some c
  | a :: l, h => by
    rw [overlay_cons] at h
    rcases hrest : overlay P l x y with _ | c'
    · rw [hrest, Option.none_or] at h
      exact ⟨a, List.mem_cons_self, h⟩
    · rw [hrest, Option.some_or] at h
      obtain ⟨b, hb, hc⟩ := mem_of_overlay hrest
      exact ⟨b, List.mem_cons_of_mem a hb, hc.trans h⟩

theorem overlay_ne_none {P : α → Picture} {x y : ℤ} : ∀ {l : List α} {a : α}, a ∈ l →
    P a x y ≠ none → overlay P l x y ≠ none
  | b :: l, a, ha, hne => by
    rw [overlay_cons, ne_eq, Option.or_eq_none_iff, not_and]
    intro hrest
    rcases List.mem_cons.1 ha with rfl | ha
    · exact hne
    · exact absurd hrest (overlay_ne_none ha hne)

theorem overlay_eq {P : α → Picture} {l : List α} {x y : ℤ} {o : Option UInt32}
    (hagree : ∀ a ∈ l, ∀ c, P a x y = some c → o = some c)
    (hcover : ∀ c, o = some c → ∃ a ∈ l, P a x y = some c) : overlay P l x y = o := by
  rcases hoverlay : overlay P l x y with _ | c
  · rcases ho : o with _ | c
    · rfl
    · obtain ⟨a, ha, hc⟩ := hcover c ho
      exact absurd hoverlay (overlay_ne_none ha (by rw [hc]; exact Option.some_ne_none c))
  · obtain ⟨a, ha, hc⟩ := mem_of_overlay hoverlay
    exact (hagree a ha c hc).symm

section

variable {k : SurfaceKernel} {other : Answers} {d : Drawable} {start : ℕ} {K : SurfaceKernel}

theorem Paints.trans {m m' m'' : ℕ → UInt32} {p q : Picture} (h : Paints d start m m' p)
    (h' : Paints d start m' m'' q) : Paints d start m m'' fun x y => (q x y).or (p x y) := by
  intro x y hx hy
  rw [h' x y hx hy, h x y hx hy]
  change _ = ((q x y).or (p x y)).getD _
  rcases q x y with _ | c
  · rw [Option.none_or, Option.getD_none]
  · rw [Option.some_or, Option.getD_some, Option.getD_some]

theorem forEach_paints {f : α → Server → Bool × Server} (P : α → Picture) :
    ∀ {l : List α} {s : Server} {m : ℕ → UInt32},
    (∀ a ∈ l, ∀ u m, k.behind other u = K.withPixels m → (f a u).1 = true →
      ∃ m', k.behind other (f a u).2 = K.withPixels m' ∧ Paints d start m m' (P a)) →
    k.behind other s = K.withPixels m → (forEach f l s).1 = true →
      ∃ m', k.behind other (forEach f l s).2 = K.withPixels m'
        ∧ Paints d start m m' (overlay P l)
  | [], _, m, _, hs, _ => ⟨m, hs, fun _ _ _ _ => rfl⟩
  | a :: l, s, m, hturn, hs, hpass => by
    have hfirst : (f a s).1 = true := by
      unfold forEach at hpass
      split_ifs at hpass with hfirst
      exact hfirst
    unfold forEach at hpass ⊢
    rw [if_pos hfirst] at hpass ⊢
    obtain ⟨m', hbehind, hpaint⟩ := hturn a List.mem_cons_self s m hs hfirst
    obtain ⟨m'', hlast, hrest⟩ := forEach_paints P
      (fun b hb => hturn b (List.mem_cons_of_mem a hb)) hbehind hpass
    refine ⟨m'', hlast, fun x y hx hy => ?_⟩
    rw [overlay_cons]
    exact (hpaint.trans hrest) x y hx hy

theorem surfaceWritePixels_passed {u : Server} {surface : UInt32}
    (hK : K.Starts surface start) (hu : k.behind other u = K.withPixels m) {pixels : List UInt32}
    {offset : ℕ} (hshort : pixels.length ≤ surfaceMaxWidth * surfaceMaxHeight)
    (hpass : (u.surfaceWritePixels (k.answers other) surface pixels offset).1 = true) :
    k.behind other (u.surfaceWritePixels (k.answers other) surface pixels offset).2
      = K.withPixels (Raster.patch m (start + offset) pixels.length fun j => pixels.getD j 0) := by
  obtain ⟨hanswer, hbehind⟩ := surfaceWritePixels_behind k other u surface hshort offset
  rw [hu] at hanswer hbehind
  rw [hpass] at hanswer
  obtain ⟨K', hwrite⟩ := Option.isSome_iff_exists.1 hanswer.symm
  have hstarts : (K.withPixels m).Starts surface start := hK
  have hpatched := hstarts.write_eq hwrite
  rw [hbehind, hwrite, Option.getD_some, hpatched]
  rfl

theorem surfaceWritePixels_frozen {u : Server} {surface : UInt32}
    (hwritable : K.writable surface = none) (hu : k.behind other u = K) {pixels : List UInt32}
    (hshort : pixels.length ≤ surfaceMaxWidth * surfaceMaxHeight) (offset : ℕ) :
    k.behind other (u.surfaceWritePixels (k.answers other) surface pixels offset).2 = K := by
  obtain ⟨-, hbehind⟩ := surfaceWritePixels_behind k other u surface hshort offset
  rw [hu, SurfaceKernel.write_eq_none hwritable] at hbehind
  exact hbehind

theorem patch_place (m : ℕ → UInt32) {row column count : ℕ} (f : ℕ → UInt32)
    (hcolumn : column + count ≤ d.width) {x y : ℕ} (hx : x < d.width)
    (hout : ¬(y = row ∧ column ≤ x ∧ x < column + count)) :
    Raster.patch m (start + (row * d.width + column)) count f (d.place start x y)
      = m (d.place start x y) := by
  have hrow := Raster.in_row_iff (k := y * d.width + x) (r := row) hcolumn
  rw [Raster.index_div hx, Raster.index_mod hx] at hrow
  unfold Raster.patch
  rw [if_neg (by unfold Drawable.place; omega)]

theorem patch_paints {row column count : ℕ} {f : ℕ → UInt32} {picture : Picture}
    (hcolumn : column + count ≤ d.width)
    (hin : ∀ j < count, f j = (picture (column + j : ℕ) row).getD (m (d.place start (column + j) row)))
    (hout : ∀ x y : ℕ, x < d.width → y < d.height →
      ¬(y = row ∧ column ≤ x ∧ x < column + count) → picture x y = none) :
    Paints d start m (Raster.patch m (start + (row * d.width + column)) count f) picture := by
  intro x y hx hy
  by_cases hhit : y = row ∧ column ≤ x ∧ x < column + count
  · obtain ⟨rfl, hlo, hhi⟩ := hhit
    have hx' : column + (x - column) = x := by omega
    have hvalue := hin (x - column) (by omega)
    have hindex : d.place start x y - (start + (y * d.width + column)) = x - column := by
      unfold Drawable.place
      omega
    unfold Raster.patch
    rw [if_pos (by unfold Drawable.place; omega), hindex, hvalue, hx']
  · rw [patch_place m f hcolumn hx hhit, hout x y hx hy hhit, Option.getD_none]

/-! ## Images -/

def rowPicture (x y : ℤ) (width : ℕ) (data : ℕ → UInt8) (row : ℕ) : Picture := fun px py =>
  if py = y + row ∧ x ≤ px ∧ px < x + width then
    some (read32 data ((row * width + (px - x).toNat) * 4) ||| opaqueAlpha)
  else none

theorem overlay_rows (x y : ℤ) (width height : ℕ) (data : ℕ → UInt8) (px py : ℤ) :
    overlay (rowPicture x y width data) (List.range height) px py
      = putPicture x y width height data px py := by
  refine overlay_eq (fun row hrow c hc => ?_) fun c hc => ?_
  · have hlt := List.mem_range.1 hrow
    unfold rowPicture at hc
    split_ifs at hc with hin
    have hat : (py - y).toNat = row := by omega
    unfold putPicture
    rw [if_pos (by omega), hat]
    exact hc
  · unfold putPicture at hc
    split_ifs at hc with hin
    refine ⟨(py - y).toNat, List.mem_range.2 (by omega), ?_⟩
    unfold rowPicture
    rw [if_pos (by omega)]
    exact hc

def rowPixels (d : Drawable) (x : UInt16) (width : ℕ) (data : ℕ → UInt8) (row : ℕ) : List UInt32 :=
  (List.range (min (width - (-int16 x).toNat) (d.width - (int16 x).toNat))).map fun j =>
    read32 data ((row * width + (-int16 x).toNat + j) * 4) ||| opaqueAlpha

theorem putRow_cases (sys : Answers) (d : Drawable) (x y : UInt16) (width : ℕ) (data : ℕ → UInt8)
    (row : ℕ) (u : Server) :
    ((int16 y + row < 0 ∨ d.height ≤ int16 y + row ∨ width ≤ (-int16 x).toNat
          ∨ d.width ≤ (int16 x).toNat) ∧ putRow sys d x y width data row u = (true, u))
      ∨ ((0 ≤ int16 y + row ∧ int16 y + row < d.height ∧ (-int16 x).toNat < width
          ∧ (int16 x).toNat < d.width)
        ∧ putRow sys d x y width data row u
          = (u.setDraw (rowPixels d x width data row)).surfaceWritePixels sys d.surface
            (rowPixels d x width data row)
            ((int16 y + row).toNat * d.width + (int16 x).toNat)) := by
  unfold putRow
  dsimp only
  split_ifs with hhidden
  · exact .inl ⟨by omega, rfl⟩
  · refine .inr ⟨by omega, ?_⟩
    exact setDraw_surfaceWrite u sys d.surface (rowPixels d x width data row)
      (by rw [rowPixels, List.length_map, List.length_range]) _

variable {x y : UInt16} {width : ℕ} {data : ℕ → UInt8} {row : ℕ} {u : Server}

theorem rowPixels_short (hwidth : width < 65536) :
    (rowPixels d x width data row).length ≤ surfaceMaxWidth * surfaceMaxHeight := by
  rw [rowPixels, List.length_map, List.length_range]
  unfold surfaceMaxWidth surfaceMaxHeight
  omega

theorem putRow_paints (hwidth : width < 65536) (hK : K.Starts d.surface start)
    (hu : k.behind other u = K.withPixels m)
    (hpass : (putRow (k.answers other) d x y width data row u).1 = true) :
    ∃ m', k.behind other (putRow (k.answers other) d x y width data row u).2 = K.withPixels m'
      ∧ Paints d start m m' (rowPicture (int16 x) (int16 y) width data row) := by
  obtain ⟨hhidden, hrow⟩ | ⟨hvisible, hrow⟩ := putRow_cases (k.answers other) d x y width data row u
  · rw [hrow]
    refine ⟨m, hu, fun px py hpx hpy => ?_⟩
    have hnone : rowPicture (int16 x) (int16 y) width data row px py = none := if_neg (by omega)
    rw [hnone, Option.getD_none]
  · have hlength : (rowPixels d x width data row).length
        = min (width - (-int16 x).toNat) (d.width - (int16 x).toNat) := by
      rw [rowPixels, List.length_map, List.length_range]
    rw [hrow] at hpass ⊢
    refine ⟨_, surfaceWritePixels_passed hK hu (rowPixels_short hwidth) hpass, ?_⟩
    refine patch_paints (by omega) (fun j hj => ?_) fun px py hpx hpy hout => if_neg ?_
    · rw [hlength] at hj
      have hin : rowPicture (int16 x) (int16 y) width data row (((int16 x).toNat + j : ℕ) : ℤ)
          ((int16 y + row).toNat : ℤ)
            = some (read32 data ((row * width + (-int16 x).toNat + j) * 4) ||| opaqueAlpha) := by
        have hcolumn : ((((int16 x).toNat + j : ℕ) : ℤ) - int16 x).toNat = (-int16 x).toNat + j := by
          omega
        unfold rowPicture
        rw [if_pos (by omega), hcolumn, Nat.add_assoc]
      rw [hin, Option.getD_some, rowPixels, List.getD_eq_getElem?_getD, List.getElem?_map,
        List.getElem?_range hj]
      rfl
    · rw [hlength] at hout
      omega

theorem putRow_frozen (hwidth : width < 65536) (hwritable : K.writable d.surface = none)
    (hu : k.behind other u = K) :
    k.behind other (putRow (k.answers other) d x y width data row u).2 = K := by
  obtain ⟨-, hrow⟩ | ⟨-, hrow⟩ := putRow_cases (k.answers other) d x y width data row u
  · rw [hrow]
    exact hu
  · rw [hrow]
    exact surfaceWritePixels_frozen hwritable hu (rowPixels_short hwidth) _

/-- The rows of an image paint it, and nothing where the surface may not be written. -/
theorem putRows_paint {s : Server} {height : ℕ} (hwidth : width < 65536)
    (hK : K.Starts d.surface start) (hs : k.behind other s = K)
    (hpass : (forEach (putRow (k.answers other) d x y width data) (List.range height) s).1 = true) :
    ∃ m, k.behind other
        (forEach (putRow (k.answers other) d x y width data) (List.range height) s).2 = K.withPixels m
      ∧ Paints d start K.surfaces.pixels m (putPicture (int16 x) (int16 y) width height data)
      ∧ (K.writable d.surface = none → m = K.surfaces.pixels) := by
  obtain ⟨m, hm, hpaints⟩ := forEach_paints (d := d)
    (rowPicture (int16 x) (int16 y) width data)
    (fun row _ u m hu hpass => putRow_paints hwidth hK hu hpass) hs hpass
  refine ⟨m, hm, fun px py hpx hpy => ?_, fun hnone => ?_⟩
  · rw [hpaints px py hpx hpy, overlay_rows]
  · have hkept := forEach_inv (f := putRow (k.answers other) d x y width data)
      (P := fun u => k.behind other u = K) (l := List.range height)
      (fun row _ u hu => putRow_frozen hwidth hnone hu) hs
    exact congrArg (fun K : SurfaceKernel => K.surfaces.pixels) (hm.symm.trans hkept)

/-! ## Text -/

variable (k other) in
theorem glyphPixels_behind (surface color : UInt32) (glyph : List UInt8) (row scale first : ℕ) :
    ∀ (columns : List ℕ) (u : Server),
    (glyphPixels (k.answers other) surface color glyph row scale first columns u).1
        = columns.map (fun c => if (glyph.getD (c / scale) 0).toNat.testBit row then color
          else (k.behind other u).pixel surface (first + c))
      ∧ k.behind other (glyphPixels (k.answers other) surface color glyph row scale first columns u).2
        = k.behind other u
  | [], _ => ⟨rfl, rfl⟩
  | column :: columns, u => by
    unfold glyphPixels
    split_ifs with hset
    · obtain ⟨hpixels, hbehind⟩ :=
        glyphPixels_behind surface color glyph row scale first columns u
      dsimp only
      rw [hpixels, hbehind, List.map_cons, if_pos hset]
      exact ⟨rfl, rfl⟩
    · obtain ⟨hpixels, hbehind⟩ := glyphPixels_behind surface color glyph row scale first columns
        (u.call (k.answers other) (.readPixel surface (first + column))).2
      have hsame : k.behind other
          (u.call (k.answers other) (.readPixel surface (first + column))).2 = k.behind other u := rfl
      have hread : (u.call (k.answers other) (.readPixel surface (first + column))).1
          = ((k.behind other u).pixel surface (first + column)).toUInt64 := rfl
      dsimp only
      rw [hpixels, hbehind, hsame, hread, List.map_cons, if_neg hset]
      exact ⟨by simp, rfl⟩

open scoped Classical in
/-- The dots of one row of pixels of one character. -/
noncomputable def glyphPicture (d : Drawable) (color : UInt32) (x top : ℤ) (text : ℕ → UInt8)
    (scale : ℕ) (at_ : ℕ × ℕ × ℕ) : Picture := fun px py =>
  if py = top + at_.2.1 * scale + at_.2.2 ∧ Dot d x top text scale at_.1 px py then some color
  else none

theorem mem_textRows {length scale : ℕ} {at_ : ℕ × ℕ × ℕ} :
    at_ ∈ textRows length scale ↔ at_.1 < length ∧ at_.2.1 < 7 ∧ at_.2.2 < scale := by
  obtain ⟨column, row, sub⟩ := at_
  simp only [textRows, List.mem_flatMap, List.mem_map, List.mem_range, Prod.mk.injEq]
  constructor
  · rintro ⟨c, hc, r, hr, b, hb, rfl, rfl, rfl⟩
    exact ⟨hc, hr, hb⟩
  · rintro ⟨hc, hr, hb⟩
    exact ⟨column, hc, row, hr, sub, hb, rfl, rfl, rfl⟩

theorem overlay_text (color : UInt32) (x top : ℤ) (text : ℕ → UInt8) (length scale : ℕ)
    (px py : ℤ) :
    overlay (glyphPicture d color x top text scale) (textRows length scale) px py
      = textPicture d color x top text length scale px py := by
  refine overlay_eq (fun at_ hat c hc => ?_) fun c hc => ?_
  · obtain ⟨hcolumn, -, -⟩ := mem_textRows.1 hat
    unfold glyphPicture at hc
    split_ifs at hc with hdot
    unfold textPicture
    rw [if_pos ⟨at_.1, hcolumn, hdot.2⟩]
    exact hc
  · unfold textPicture at hc
    split_ifs at hc with hdot
    obtain ⟨column, hcolumn, hdot⟩ := hdot
    have hrows := hdot.rows
    have hscale : 0 < scale := by omega
    have hlt : (py - top).toNat < 7 * scale := by omega
    refine ⟨(column, (py - top).toNat / scale, (py - top).toNat % scale), mem_textRows.2
      ⟨hcolumn, Nat.div_lt_of_lt_mul (by rwa [Nat.mul_comm]), Nat.mod_lt _ hscale⟩, ?_⟩
    have hsplit : (((py - top).toNat / scale : ℕ) : ℤ) * scale + ((py - top).toNat % scale : ℕ)
        = (py - top).toNat := by exact_mod_cast Nat.div_add_mod' (py - top).toNat scale
    unfold glyphPicture
    rw [if_pos ⟨by dsimp only; omega, hdot⟩]
    exact hc

variable {color : UInt32} {left top : ℤ} {text : ℕ → UInt8} {scale : ℕ} {buffered : Bool}
  {at_ : ℕ × ℕ × ℕ}

def glyphRowPixels (K : SurfaceKernel) (d : Drawable) (color : UInt32) (glyph : List UInt8)
    (row scale first : ℕ) : List UInt32 :=
  (List.range (5 * scale)).map fun c => if (glyph.getD (c / scale) 0).toNat.testBit row then color
    else K.pixel d.surface (first + c)

theorem glyphRow_cases (k : SurfaceKernel) (other : Answers) (d : Drawable) (color : UInt32)
    (left top : ℤ) (text : ℕ → UInt8) (scale : ℕ) (buffered : Bool) (at_ : ℕ × ℕ × ℕ) (u : Server) :
    ((∀ px py : ℤ, 0 ≤ py → py < d.height → py = top + at_.2.1 * scale + at_.2.2 →
          ¬Dot d left top text scale at_.1 px py)
        ∧ glyphRow (k.answers other) d color left top text scale buffered at_ u = (true, u))
      ∨ ∃ glyph v, glyphColumns (text at_.1) = some glyph
        ∧ (0 ≤ top + at_.2.1 * scale + at_.2.2 ∧ top + at_.2.1 * scale + at_.2.2 < d.height
          ∧ 0 ≤ left + at_.1 * 6 * scale ∧ left + at_.1 * 6 * scale + 5 * scale ≤ d.width)
        ∧ k.behind other v = k.behind other u
        ∧ glyphRow (k.answers other) d color left top text scale buffered at_ u
          = v.surfaceWritePixels (k.answers other) d.surface
            (glyphRowPixels (k.behind other u) d color glyph at_.2.1 scale
              ((top + at_.2.1 * scale + at_.2.2).toNat * d.width
                + (left + at_.1 * 6 * scale).toNat))
            ((top + at_.2.1 * scale + at_.2.2).toNat * d.width
              + (left + at_.1 * 6 * scale).toNat) := by
  unfold glyphRow
  rcases hglyph : glyphColumns (text at_.1) with _ | glyph
  · refine .inl ⟨fun px py _ _ _ hdot => ?_, rfl⟩
    obtain ⟨glyph, hsome, -⟩ := hdot.set
    exact nomatch hsome.symm.trans hglyph
  dsimp only
  obtain ⟨hpixels, hbehind⟩ := glyphPixels_behind k other d.surface color glyph
    at_.2.1 scale ((top + at_.2.1 * scale + at_.2.2).toNat * d.width
      + (left + at_.1 * 6 * scale).toNat) (List.range (5 * scale)) u
  split_ifs with hhidden hbuffered
  · refine .inl ⟨fun px py h0 h1 hpy hdot => ?_, rfl⟩
    have := hdot.left
    have := hdot.right
    omega
  all_goals
    rw [hpixels]
    refine .inr ⟨glyph, _, rfl, by omega, ?_, rfl⟩
    exact hbehind

theorem glyphRowPixels_length (K : SurfaceKernel) (glyph : List UInt8) (row first : ℕ) :
    (glyphRowPixels K d color glyph row scale first).length = 5 * scale := by
  rw [glyphRowPixels, List.length_map, List.length_range]

theorem glyphRowPixels_short (hscale : scale ≤ 8) (K : SurfaceKernel) (glyph : List UInt8)
    (row first : ℕ) : (glyphRowPixels K d color glyph row scale first).length
      ≤ surfaceMaxWidth * surfaceMaxHeight := by
  rw [glyphRowPixels_length]
  unfold surfaceMaxWidth surfaceMaxHeight
  omega

theorem glyphRow_paints (hscale : scale ≤ 8) (hat : at_.2.1 < 7 ∧ at_.2.2 < scale)
    (hK : K.Places d.surface start d.width d.height)
    (hu : k.behind other u = K.withPixels m)
    (hpass : (glyphRow (k.answers other) d color left top text scale buffered at_ u).1 = true) :
    ∃ m', k.behind other (glyphRow (k.answers other) d color left top text scale buffered at_ u).2
        = K.withPixels m'
      ∧ Paints d start m m' (glyphPicture d color left top text scale at_) := by
  obtain ⟨hhidden, hrow⟩ | ⟨glyph, v, hglyph, ⟨hy0, hy1, hx0, hx1⟩, hv, hrow⟩ :=
    glyphRow_cases k other d color left top text scale buffered at_ u
  · rw [hrow]
    refine ⟨m, hu, fun px py hpx hpy => ?_⟩
    have hnone : glyphPicture d color left top text scale at_ px py = none := by
      exact if_neg fun h => hhidden px py (by omega) (by omega) h.1 h.2
    rw [hnone, Option.getD_none]
  · rw [hrow] at hpass ⊢
    rw [hu] at hpass hv ⊢
    generalize hY : (top + at_.2.1 * scale + at_.2.2).toNat = Y at hpass ⊢
    generalize hX : (left + at_.1 * 6 * scale).toNat = X at hpass ⊢
    have hlength : (glyphRowPixels (K.withPixels m) d color glyph at_.2.1 scale
        (Y * d.width + X)).length = 5 * scale := glyphRowPixels_length _ _ _ _
    refine ⟨_, surfaceWritePixels_passed hK.starts hv (glyphRowPixels_short hscale _ _ _ _) hpass,
      ?_⟩
    refine patch_paints (by omega) (fun j hj => ?_) fun px py hpx hpy hout => ?_
    · rw [hlength] at hj
      have hplaces : (K.withPixels m).Places d.surface start d.width d.height := hK
      have hpixel : (glyphRowPixels (K.withPixels m) d color glyph at_.2.1 scale
          (Y * d.width + X)).getD j 0 = if (glyph.getD (j / scale) 0).toNat.testBit at_.2.1 then color
            else m (d.place start (X + j) Y) := by
        rw [glyphRowPixels, List.getD_eq_getElem?_getD, List.getElem?_map, List.getElem?_range hj,
          Option.map_some, Option.getD_some, hplaces.pixel, SurfaceKernel.withPixels_pixels]
        unfold Drawable.place
        rw [Nat.add_assoc]
      rw [hpixel]
      have hdot : Dot d left top text scale at_.1 (X + j : ℕ) Y
          ↔ (glyph.getD (j / scale) 0).toNat.testBit at_.2.1 = true := by
        have hcolumn : (((X + j : ℕ) : ℤ) - (left + at_.1 * 6 * scale)).toNat = j := by omega
        have hline : ((Y : ℤ) - top).toNat = at_.2.1 * scale + at_.2.2 := by
          omega
        have hlast : at_.2.1 * scale + at_.2.2 < 7 * scale := by
          have := Nat.mul_le_mul_right scale hat.1
          rw [Nat.succ_mul] at this
          omega
        constructor
        · intro hdot
          obtain ⟨glyph', hsome, hset⟩ := hdot.set
          obtain rfl := Option.some.inj (hglyph.symm.trans hsome)
          rwa [hcolumn, hline, Raster.index_div hat.2] at hset
        · intro hset
          refine ⟨hx0, hx1, by omega, by omega, glyph, hglyph, ?_⟩
          rwa [hcolumn, hline, Raster.index_div hat.2]
      unfold glyphPicture
      by_cases hset : (glyph.getD (j / scale) 0).toNat.testBit at_.2.1 = true
      · rw [if_pos hset, if_pos ⟨by omega, hdot.2 hset⟩, Option.getD_some]
      · rw [if_neg hset, if_neg fun h => hset (hdot.1 h.2), Option.getD_none]
    · unfold glyphPicture
      refine if_neg fun h => hout ?_
      have := h.2.columns
      omega

theorem glyphRow_frozen (hscale : scale ≤ 8) (hwritable : K.writable d.surface = none)
    (hu : k.behind other u = K) :
    k.behind other (glyphRow (k.answers other) d color left top text scale buffered at_ u).2 = K := by
  obtain ⟨-, hrow⟩ | ⟨glyph, v, -, -, hv, hrow⟩ :=
    glyphRow_cases k other d color left top text scale buffered at_ u
  · rw [hrow]
    exact hu
  · rw [hrow]
    exact surfaceWritePixels_frozen hwritable (hv.trans hu) (glyphRowPixels_short hscale _ _ _ _) _

/-- The rows of a text paint it, and nothing where the surface may not be written. -/
theorem textRows_paint {s : Server} {length : ℕ} (hscale : scale ≤ 8)
    (hK : K.Places d.surface start d.width d.height) (hs : k.behind other s = K)
    (hpass : (forEach (glyphRow (k.answers other) d color left top text scale buffered)
      (textRows length scale) s).1 = true) :
    ∃ m, k.behind other (forEach (glyphRow (k.answers other) d color left top text scale buffered)
        (textRows length scale) s).2 = K.withPixels m
      ∧ Paints d start K.surfaces.pixels m (textPicture d color left top text length scale)
      ∧ (K.writable d.surface = none → m = K.surfaces.pixels) := by
  obtain ⟨m, hm, hpaints⟩ := forEach_paints (d := d) (glyphPicture d color left top text scale)
    (fun at_ hat u m hu hpass => glyphRow_paints hscale (mem_textRows.1 hat).2 hK hu hpass) hs hpass
  refine ⟨m, hm, fun px py hpx hpy => ?_, fun hnone => ?_⟩
  · rw [hpaints px py hpx hpy, overlay_text]
  · have hkept := forEach_inv
      (f := glyphRow (k.answers other) d color left top text scale buffered)
      (P := fun u => k.behind other u = K) (l := textRows length scale)
      (fun at_ _ u hu => glyphRow_frozen hscale hnone hu) hs
    exact congrArg (fun K : SurfaceKernel => K.surfaces.pixels) (hm.symm.trans hkept)

end

end Server

end DemonX

/-!
## Reports of damage

After a drawing request has succeeded each pixel it has changed is to be in the pending damage of
the window's surface (`Covers`). The kernel takes no report of a rectangle that leaves the surface, so
a report covers what it holds where it fits, and else what was in the damage before
(`damage_covers_iff`). Writes inside a rectangle that fits and is reported are covered
(`covers_of_boxed`).
-/

namespace DemonX

variable {m : ℕ → UInt32}

/-- A rectangle of pixels. -/
structure Box where
  x : ℤ
  y : ℤ
  width : ℤ
  height : ℤ

def Box.Has (r : Box) (px py : ℤ) : Prop :=
  r.x ≤ px ∧ px < r.x + r.width ∧ r.y ≤ py ∧ py < r.y + r.height

/-- The rectangle holds a pixel, and no pixel outside the drawable. -/
structure Box.Fits (r : Box) (d : Server.Drawable) : Prop where
  wide : 0 < r.width
  high : 0 < r.height
  right : r.x + r.width ≤ d.width
  bottom : r.y + r.height ≤ d.height

/-- The fields of a report hold the rectangle. -/
structure Box.Reported (r : Box) : Prop where
  x : 0 ≤ r.x ∧ r.x < 2 ^ 32
  y : 0 ≤ r.y ∧ r.y < 2 ^ 32
  width : 0 ≤ r.width ∧ r.width < 2 ^ 32
  height : 0 ≤ r.height ∧ r.height < 2 ^ 32

namespace SurfaceKernel

open Server

def Pending (k : SurfaceKernel) (surface : UInt32) (px py : ℕ) : Prop :=
  ∃ g i, k.grant surface = some g ∧ k.surfaces.resolve g.object = some i
    ∧ (k.surfaces.objects i).damagePending = true
    ∧ (k.surfaces.objects i).damageX ≤ px
    ∧ px < (k.surfaces.objects i).damageX + (k.surfaces.objects i).damageWidth
    ∧ (k.surfaces.objects i).damageY ≤ py
    ∧ py < (k.surfaces.objects i).damageY + (k.surfaces.objects i).damageHeight

/-- Every pixel of the drawable that has changed is in the pending damage. -/
def Covers (before after : SurfaceKernel) (d : Drawable) : Prop :=
  ∀ px py : ℕ, px < d.width → py < d.height → after.pixelAt d px py ≠ before.pixelAt d px py →
    after.Pending d.surface px py

theorem toNat_ofInt {v : ℤ} (h : 0 ≤ v ∧ v < 2 ^ 32) : (UInt32.ofInt v).toNat = v.toNat := by
  unfold UInt32.ofInt
  rw [UInt32.toNat_ofNat']
  omega

variable {K : SurfaceKernel} {d : Drawable} {start : ℕ} {r : Box}

theorem damage_eq (hK : K.Places d.surface start d.width d.height)
    (hsmall : d.width ≤ 65535 ∧ d.height ≤ 65535) (hr : r.Reported)
    (hwritable : (K.writable d.surface).isSome) (hfits : r.Fits d) :
    ∃ g i, K.grant d.surface = some g ∧ K.surfaces.resolve g.object = some i
      ∧ K.damage d.surface (UInt32.ofInt r.x) (UInt32.ofInt r.y) (UInt32.ofInt r.width)
          (UInt32.ofInt r.height)
        = some { K with surfaces := K.surfaces.setObject i { K.surfaces.objects i with
            damageX := r.x.toNat, damageY := r.y.toNat, damageWidth := r.width.toNat
            damageHeight := r.height.toNat, damagePending := true } } := by
  obtain ⟨g, i, hgrant, hresolve, -, hwidth, hheight⟩ := hK.object
  refine ⟨g, i, hgrant, hresolve, ?_⟩
  unfold damage
  rw [writable_eq hgrant hwritable]
  dsimp only [Surfaces.surfaceDamage]
  rw [hresolve]
  dsimp only
  rw [toNat_ofInt hr.x, toNat_ofInt hr.y, toNat_ofInt hr.width, toNat_ofInt hr.height, hwidth,
    hheight, if_neg]
  · rfl
  · obtain ⟨hwide, hhigh, hright, hbottom⟩ := hfits
    have := hr.x
    have := hr.y
    omega

theorem damage_eq_none (hK : K.Places d.surface start d.width d.height) (hr : r.Reported)
    (h : K.writable d.surface = none ∨ ¬r.Fits d) :
    K.damage d.surface (UInt32.ofInt r.x) (UInt32.ofInt r.y) (UInt32.ofInt r.width)
      (UInt32.ofInt r.height) = none := by
  rcases hdamage : K.damage d.surface (UInt32.ofInt r.x) (UInt32.ofInt r.y) (UInt32.ofInt r.width)
    (UInt32.ofInt r.height) with _ | K'
  · rfl
  obtain ⟨g, i, hgrant, hwritable, hresolve, -⟩ := damage_spec hdamage
  obtain ⟨g', j, hgrant', hresolve', -, hwidth, hheight⟩ := hK.object
  obtain rfl := Option.some.inj (hgrant.symm.trans hgrant')
  obtain rfl := Option.some.inj (hresolve.symm.trans hresolve')
  have hobject : K.writable d.surface = some g.object := by
    unfold writable
    rw [hgrant]
    exact if_pos hwritable
  rcases h with hnone | hnofit
  · exact nomatch hnone.symm.trans hobject
  · unfold damage at hdamage
    rw [hobject] at hdamage
    dsimp only [Surfaces.surfaceDamage] at hdamage
    rw [hresolve] at hdamage
    dsimp only at hdamage
    rw [toNat_ofInt hr.x, toNat_ofInt hr.y, toNat_ofInt hr.width, toNat_ofInt hr.height, hwidth,
      hheight, if_pos] at hdamage
    · exact nomatch hdamage
    · by_contra hall
      refine hnofit ⟨?_, ?_, ?_, ?_⟩ <;> have := hr.x <;> have := hr.y <;> omega

theorem withPixels_pixelAt (hK : K.Places d.surface start d.width d.height) (m : ℕ → UInt32)
    (px py : ℕ) : (K.withPixels m).pixelAt d px py = m (d.place start px py) := by
  have hplaces : (K.withPixels m).Places d.surface start d.width d.height := hK
  unfold pixelAt
  rw [hplaces.pixel]
  rfl

theorem pixelAt_eq (hK : K.Places d.surface start d.width d.height) (px py : ℕ) :
    K.pixelAt d px py = K.surfaces.pixels (d.place start px py) :=
  withPixels_pixelAt hK K.surfaces.pixels px py

theorem pending_of_damage {K' : SurfaceKernel}
    (hK : K.Places d.surface start d.width d.height)
    (hsmall : d.width ≤ 65535 ∧ d.height ≤ 65535) (hr : r.Reported)
    (hwritable : (K.writable d.surface).isSome) (hfits : r.Fits d)
    (hdamage : (K.withPixels m).damage d.surface (UInt32.ofInt r.x) (UInt32.ofInt r.y)
      (UInt32.ofInt r.width) (UInt32.ofInt r.height) = some K') {px py : ℕ} (hin : r.Has px py) :
    K'.Pending d.surface px py := by
  have hplaces : (K.withPixels m).Places d.surface start d.width d.height := hK
  obtain ⟨g, i, hgrant, hresolve, hsome⟩ := damage_eq hplaces hsmall hr hwritable hfits
  obtain rfl := Option.some.inj (hdamage.symm.trans hsome)
  have hobjects : ((K.withPixels m).surfaces.setObject i { (K.withPixels m).surfaces.objects i with
      damageX := r.x.toNat, damageY := r.y.toNat, damageWidth := r.width.toNat
      damageHeight := r.height.toNat, damagePending := true }).objects i
        = { (K.withPixels m).surfaces.objects i with
            damageX := r.x.toNat, damageY := r.y.toNat, damageWidth := r.width.toNat
            damageHeight := r.height.toNat, damagePending := true } := by
    rw [Surfaces.setObject_objects, Function.update_self]
  obtain ⟨hx0, hx1, hy0, hy1⟩ := hin
  refine ⟨g, i, hgrant, (resolve_setObject (s := (K.withPixels m).surfaces)
    (o := { (K.withPixels m).surfaces.objects i with
      damageX := r.x.toNat, damageY := r.y.toNat, damageWidth := r.width.toNat
      damageHeight := r.height.toNat, damagePending := true }) rfl g.object).trans hresolve, ?_⟩
  rw [hobjects]
  exact ⟨rfl, by dsimp only; omega, by dsimp only; omega, by dsimp only; omega,
    by dsimp only; omega⟩

/-- What a report of damage covers of the pixels that have changed: all that its rectangle holds where
it fits, and where it does not what was in the damage before. -/
theorem damage_covers_iff (hK : K.Places d.surface start d.width d.height)
    (hsmall : d.width ≤ 65535 ∧ d.height ≤ 65535) (hr : r.Reported)
    (hin : r.Fits d → ∀ px py : ℕ, px < d.width → py < d.height →
      m (d.place start px py) ≠ K.surfaces.pixels (d.place start px py) → r.Has px py)
    (hfrozen : K.writable d.surface = none → m = K.surfaces.pixels) (o : UInt64) :
    K.Covers ((K.withPixels m).answer o (.surfaceDamage d.surface (UInt32.ofInt r.x)
        (UInt32.ofInt r.y) (UInt32.ofInt r.width) (UInt32.ofInt r.height))).2 d
      ↔ r.Fits d ∨ ∀ px py : ℕ, px < d.width → py < d.height →
        m (d.place start px py) ≠ K.surfaces.pixels (d.place start px py) →
          K.Pending d.surface px py := by
  have hplaces : (K.withPixels m).Places d.surface start d.width d.height := hK
  have hafter : ∀ px py : ℕ, ((K.withPixels m).answer o (.surfaceDamage d.surface
      (UInt32.ofInt r.x) (UInt32.ofInt r.y) (UInt32.ofInt r.width)
      (UInt32.ofInt r.height))).2.pixelAt d px py = m (d.place start px py) := fun px py => by
    obtain ⟨hpixels, hdata⟩ := answer_damage (K.withPixels m) o d.surface (UInt32.ofInt r.x)
      (UInt32.ofInt r.y) (UInt32.ofInt r.width) (UInt32.ofInt r.height)
    rw [pixelAt_eq ((hdata d.surface).trans hplaces), hpixels]
    rfl
  unfold Covers
  simp only [hafter, pixelAt_eq hK]
  by_cases htaken : (K.writable d.surface).isSome ∧ r.Fits d
  · refine iff_of_true (fun px py hpx hpy hne => ?_) (.inl htaken.2)
    have hbox := hin htaken.2 px py hpx hpy hne
    dsimp only [answer]
    rcases hdamage : (K.withPixels m).damage d.surface (UInt32.ofInt r.x) (UInt32.ofInt r.y)
      (UInt32.ofInt r.width) (UInt32.ofInt r.height) with _ | K'
    · obtain ⟨g, i, -, -, hsome⟩ := damage_eq hplaces hsmall hr htaken.1 htaken.2
      exact nomatch hdamage.symm.trans hsome
    · exact pending_of_damage hK hsmall hr htaken.1 htaken.2 hdamage hbox
  · have hnone : (K.withPixels m).damage d.surface (UInt32.ofInt r.x) (UInt32.ofInt r.y)
        (UInt32.ofInt r.width) (UInt32.ofInt r.height) = none := by
      refine damage_eq_none hplaces hr ?_
      rcases hwritable : (K.withPixels m).writable d.surface with _ | object
      · exact .inl rfl
      · refine .inr fun hfits => htaken ⟨?_, hfits⟩
        rw [← withPixels_writable K m, hwritable]
        rfl
    dsimp only [answer]
    rw [hnone]
    refine ⟨fun h => .inr h, ?_⟩
    rintro (hfits | h)
    · intro px py hpx hpy hne
      rcases hwritable : K.writable d.surface with _ | object
      · rw [hfrozen hwritable] at hne
        exact absurd rfl hne
      · exact absurd ⟨by rw [hwritable]; rfl, hfits⟩ htaken
    · exact h

end SurfaceKernel

namespace Server

/-! ### Writes inside a rectangle -/

/-- Only pixels of the rectangle differ, and none where the surface may not be written. -/
structure Boxed (K : SurfaceKernel) (d : Drawable) (start : ℕ) (r : Box) (m : ℕ → UInt32) :
    Prop where
  outside : ∀ px py : ℕ, px < d.width → py < d.height → ¬r.Has px py →
    m (d.place start px py) = K.surfaces.pixels (d.place start px py)
  frozen : K.writable d.surface = none → m = K.surfaces.pixels

def WritesRow (k : SurfaceKernel) (other : Answers) (d : Drawable) (r : Box) (u : Server)
    (result : Bool × Server) : Prop :=
  ∃ v pixels row column,
    result = v.surfaceWritePixels (k.answers other) d.surface pixels (row * d.width + column)
      ∧ k.behind other v = k.behind other u
      ∧ pixels.length ≤ surfaceMaxWidth * surfaceMaxHeight
      ∧ row < d.height ∧ column + pixels.length ≤ d.width
      ∧ ∀ c : ℕ, column ≤ c → c < column + pixels.length → r.Has c row

section

variable {k : SurfaceKernel} {other : Answers} {K : SurfaceKernel} {d : Drawable} {start : ℕ}
  {r : Box}

theorem boxed_self : Boxed K d start r K.surfaces.pixels := ⟨fun _ _ _ _ _ => rfl, fun _ => rfl⟩

theorem WritesRow.boxed {u : Server} {result : Bool × Server}
    (h : WritesRow k other d r u result) (hK : K.Places d.surface start d.width d.height)
    (hu : k.behind other u = K.withPixels m) (hm : Boxed K d start r m) :
    ∃ m', k.behind other result.2 = K.withPixels m' ∧ Boxed K d start r m' := by
  obtain ⟨v, pixels, row, column, rfl, hv, hshort, hrow, hcolumn, hbox⟩ := h
  have hplaces : (K.withPixels m).Places d.surface start d.width d.height := hK
  obtain ⟨-, hbehind⟩ :=
    surfaceWritePixels_behind k other v d.surface hshort (row * d.width + column)
  rw [hv, hu] at hbehind
  rcases hwritable : (K.withPixels m).writable d.surface with _ | object
  · rw [SurfaceKernel.write_eq_none hwritable] at hbehind
    exact ⟨m, hbehind, hm⟩
  · rw [SurfaceKernel.write_eq hplaces (by rw [hwritable]; rfl) hshort (place_le hrow hcolumn)]
      at hbehind
    refine ⟨_, hbehind, fun px py hpx hpy hout => ?_, fun hnone => nomatch hnone.symm.trans hwritable⟩
    rw [← hm.outside px py hpx hpy hout]
    refine patch_place m _ hcolumn hpx ?_
    rintro ⟨rfl, hlo, hhi⟩
    exact hout (hbox px hlo hhi)

theorem forEach_boxed {α : Type} {f : α → Server → Bool × Server}
    (hK : K.Places d.surface start d.width d.height) {l : List α} {s : Server}
    (hturn : ∀ a ∈ l, ∀ u, WritesRow k other d r u (f a u))
    (hs : k.behind other s = K.withPixels m) (hm : Boxed K d start r m) :
    ∃ m', k.behind other (forEach f l s).2 = K.withPixels m' ∧ Boxed K d start r m' :=
  forEach_inv (P := fun u => ∃ m', k.behind other u = K.withPixels m' ∧ Boxed K d start r m')
    (fun a ha u ⟨_, hu, hm⟩ => (hturn a ha u).boxed hK hu hm) ⟨m, hs, hm⟩

/-- Writes inside a rectangle that is then reported, and fits. -/
theorem covers_of_boxed {u : Server}
    (hK : K.Places d.surface start d.width d.height) (hsmall : d.width ≤ 65535 ∧ d.height ≤ 65535)
    (hu : k.behind other u = K.withPixels m) (hm : Boxed K d start r m) (hr : r.Reported)
    (hfits : r.Fits d) :
    K.Covers (k.behind other
      (u.damage (k.answers other) d.surface r.x r.y r.width r.height).2) d := by
  have hcovers := SurfaceKernel.damage_covers_iff hK hsmall hr (m := m)
    (fun _ px py hpx hpy hne => by
      by_contra hout
      exact hne (hm.outside px py hpx hpy hout))
    hm.frozen (other (.surfaceDamage d.surface (UInt32.ofInt r.x) (UInt32.ofInt r.y)
      (UInt32.ofInt r.width) (UInt32.ofInt r.height) :: u.calls))
  rw [← hu] at hcovers
  exact hcovers.2 (.inl hfits)

theorem covers_self : K.Covers K d := fun _ _ _ _ hne => absurd rfl hne

end

end Server

end DemonX

end DemonOS
