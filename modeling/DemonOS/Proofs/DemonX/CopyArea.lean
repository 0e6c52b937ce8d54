import DemonOS.Proofs.DemonX.Drawing
import DemonOS.Proofs.DemonX.SurfaceCalls
import DemonOS.Proofs.SurfaceArena

/-!
# CopyArea copies at once

`copy_area` moves the part of a rectangle that lies in both drawables row by row and in parts of a
row, and on one surface from the far end where it would read what it has written. In the order it
makes them no move reads or writes what an earlier one has written (`copyMoves_ordered`), so each
pixel of the destination holds what its source held before the call and no other pixel changes
(`copy_area_simultaneous`).
-/

namespace DemonOS

namespace DemonX

variable {K : SurfaceKernel} {t : Server}

namespace Server

/-! ## The order of the moves -/

theorem chunks_pairwise (start count : ℕ) :
    (chunks start count).Pairwise fun p q => p.1 + p.2 ≤ q.1 := by
  unfold chunks
  rw [List.pairwise_map]
  refine List.pairwise_lt_range.imp fun {k l} hlt => ?_
  have := Nat.mul_le_mul_right drawChunkPixels hlt
  rw [Nat.succ_mul] at this
  omega

theorem chunks_cover {count i : ℕ} (hi : i < count) :
    ∃ part ∈ chunks 0 count, part.1 ≤ i ∧ i < part.1 + part.2 := by
  refine ⟨_, List.mem_map.2 ⟨i / drawChunkPixels, ?_, rfl⟩, ?_⟩
  · rw [List.mem_range]
    unfold drawChunkPixels
    omega
  · unfold drawChunkPixels
    omega

def CopyRegion.Upward (same : Bool) (r : CopyRegion) : Prop := same = true ∧ r.sy < r.dy

def CopyRegion.Backward (same : Bool) (r : CopyRegion) : Prop :=
  same = true ∧ r.dy = r.sy ∧ r.sx < r.dx

/-- One part of a copy is made before another: in the same row, or in a row before. -/
structure CopyRegion.Precedes (same : Bool) (r : CopyRegion) (e l : ℕ × ℕ × ℕ) : Prop where
  rows : e.1 ≠ l.1 → (r.Upward same → l.1 < e.1) ∧ (¬r.Upward same → e.1 < l.1)
  columns : e.1 = l.1 → (r.Backward same → l.2.1 + l.2.2 ≤ e.2.1)
    ∧ (¬r.Backward same → e.2.1 + e.2.2 ≤ l.2.1)

theorem copyOrder_pairwise (same : Bool) (r : CopyRegion) :
    (copyOrder same r).Pairwise (r.Precedes same) := by
  unfold copyOrder
  rw [List.pairwise_flatMap]
  constructor
  · intro row _
    rw [List.pairwise_map]
    refine (List.Pairwise.and_mem.1 (chunks_pairwise 0 r.width.toNat)).imp
      fun {p q} ⟨hp, hq, hpq⟩ => ?_
    have hqlast := mem_chunks hq
    refine ⟨fun hne => absurd rfl hne, fun _ => ⟨fun hback => ?_, fun hback => ?_⟩⟩
    · unfold CopyRegion.Backward at hback
      dsimp only
      rw [if_pos hback, if_pos hback]
      omega
    · unfold CopyRegion.Backward at hback
      rw [if_neg hback, if_neg hback]
      exact hpq
  · have hrows : (if same = true ∧ r.sy < r.dy then (List.range r.height.toNat).reverse
        else List.range r.height.toNat).Pairwise fun e l =>
          (r.Upward same → l < e) ∧ (¬r.Upward same → e < l) := by
      split_ifs with hup
      · rw [List.pairwise_reverse]
        exact List.pairwise_lt_range.imp fun hlt => ⟨fun _ => hlt, fun hnot => absurd hup hnot⟩
      · exact List.pairwise_lt_range.imp fun hlt => ⟨fun hyes => absurd hyes hup, fun _ => hlt⟩
    refine hrows.imp fun {e l} hel x hx y hy => ?_
    obtain ⟨p, -, rfl⟩ := List.mem_map.1 hx
    obtain ⟨q, -, rfl⟩ := List.mem_map.1 hy
    refine ⟨fun _ => hel, fun heq => ?_⟩
    by_cases hup : r.Upward same
    · have := hel.1 hup
      omega
    · have := hel.2 hup
      omega

theorem rows_apart {width row row' x x' length length' : ℕ} (hx : x + length ≤ width)
    (hx' : x' + length' ≤ width) (hne : row ≠ row') :
    row * width + x + length ≤ row' * width + x' ∨ row' * width + x' + length' ≤ row * width + x := by
  rcases Nat.lt_or_gt_of_ne hne with hlt | hlt
  · have := Nat.mul_le_mul_right width hlt
    rw [Nat.succ_mul] at this
    omega
  · have := Nat.mul_le_mul_right width hlt
    rw [Nat.succ_mul] at this
    omega

structure CopyRegion.Inside (r : CopyRegion) (a b : Drawable) : Prop where
  wide : 0 < r.width
  high : 0 < r.height
  sx : 0 ≤ r.sx
  sy : 0 ≤ r.sy
  dx : 0 ≤ r.dx
  dy : 0 ≤ r.dy
  right : r.sx + r.width ≤ a.width
  bottom : r.sy + r.height ≤ a.height
  right' : r.dx + r.width ≤ b.width
  bottom' : r.dy + r.height ≤ b.height

theorem clipCopy_inside {a b : Drawable} {sx sy dx dy width height : UInt16}
    (hempty : ¬((clipCopy a b sx sy dx dy width height).width ≤ 0
      ∨ (clipCopy a b sx sy dx dy width height).height ≤ 0)) :
    (clipCopy a b sx sy dx dy width height).Inside a b := by
  rw [not_or, not_le, not_le] at hempty
  obtain ⟨hsx, hdx, hright, hright'⟩ :=
    clipAxis_le (int16 sx) (int16 dx) width.toNat a.width b.width
  obtain ⟨hsy, hdy, hbottom, hbottom'⟩ :=
    clipAxis_le (int16 sy) (int16 dy) height.toNat a.height b.height
  exact ⟨hempty.1, hempty.2, hsx, hsy, hdx, hdy, hright, hbottom, hright', hbottom'⟩

def copyMove (sa sb : ℕ) (a b : Drawable) (r : CopyRegion) (part : ℕ × ℕ × ℕ) : Moves.Move where
  source := sa + ((r.sy.toNat + part.1) * a.width + (r.sx.toNat + part.2.1))
  target := sb + ((r.dy.toNat + part.1) * b.width + (r.dx.toNat + part.2.1))
  length := part.2.2

def OneOrApart (same : Bool) (sa sb : ℕ) (a b : Drawable) : Prop :=
  (same = true ∧ sa = sb ∧ a.width = b.width)
    ∨ (same = false ∧ (sa + a.width * a.height ≤ sb ∨ sb + b.width * b.height ≤ sa))

section

variable {same : Bool} {r : CopyRegion} {sa sb : ℕ} {a b : Drawable}

variable (sa sb) in
theorem copyMove_target {part : ℕ × ℕ × ℕ} (hr : r.Inside a b) (hpart : part ∈ copyOrder same r) :
    (copyMove sa sb a b r part).target + part.2.2 ≤ sb + b.width * b.height := by
  obtain ⟨hrow, hcolumn⟩ := mem_copyOrder hpart
  have hplace := @place_le (r.dy.toNat + part.1) (r.dx.toNat + part.2.1) part.2.2 b.width b.height
    (by have := hr.bottom'; have := hr.dy; omega)
    (by have := hr.right'; have := hr.dx; have := hr.wide; omega)
  unfold copyMove
  dsimp only
  omega

variable (sa sb) in
theorem copyMove_source {part : ℕ × ℕ × ℕ} (hr : r.Inside a b) (hpart : part ∈ copyOrder same r) :
    (copyMove sa sb a b r part).source + part.2.2 ≤ sa + a.width * a.height := by
  obtain ⟨hrow, hcolumn⟩ := mem_copyOrder hpart
  have hplace := @place_le (r.sy.toNat + part.1) (r.sx.toNat + part.2.1) part.2.2 a.width a.height
    (by have := hr.bottom; have := hr.sy; omega)
    (by have := hr.right; have := hr.sx; have := hr.wide; omega)
  unfold copyMove
  dsimp only
  omega

theorem copyMove_before (hr : r.Inside a b) (hplaces : OneOrApart same sa sb a b)
    {e l : ℕ × ℕ × ℕ} (he : e ∈ copyOrder same r) (hl : l ∈ copyOrder same r)
    (hel : r.Precedes same e l) :
    (copyMove sa sb a b r e).Before (copyMove sa sb a b r l) := by
  obtain ⟨herow, hecolumn⟩ := mem_copyOrder he
  obtain ⟨hlrow, hlcolumn⟩ := mem_copyOrder hl
  have hetarget := copyMove_target sa sb hr he
  have hlsource := copyMove_source sa sb hr hl
  obtain ⟨hwide, -, hsx, hsy, hdx, hdy, hright, hbottom, hright', hbottom'⟩ := hr
  have htargets : r.dx.toNat + e.2.1 + e.2.2 ≤ b.width := by omega
  have htargets' : r.dx.toNat + l.2.1 + l.2.2 ≤ b.width := by omega
  intro p ⟨hlo, hhi⟩
  constructor
  · rintro ⟨hlo', hhi'⟩
    obtain ⟨hsame, rfl, hwidths⟩ | ⟨-, hapart⟩ := hplaces
    · have hsources : r.sx.toNat + l.2.1 + l.2.2 ≤ b.width := by omega
      have hupward : r.Upward same ↔ r.sy < r.dy := and_iff_right hsame
      have hbackward : r.Backward same ↔ r.dy = r.sy ∧ r.sx < r.dx := and_iff_right hsame
      have hrows := hel.rows
      have hcolumns := hel.columns
      rw [hupward] at hrows
      rw [hbackward] at hcolumns
      unfold copyMove at hlo hhi hlo' hhi'
      dsimp only at hlo hhi hlo' hhi'
      rw [hwidths] at hlo' hhi'
      by_cases hrow : r.dy.toNat + e.1 = r.sy.toNat + l.1
      · -- a row is its own source, so the parts of the row are made in the safe order
        rw [hrow] at hlo hhi
        omega
      · have := rows_apart htargets hsources hrow
        omega
    · unfold copyMove at *
      dsimp only at *
      omega
  · rintro ⟨hlo', hhi'⟩
    unfold copyMove at hlo hhi hlo' hhi'
    dsimp only at hlo hhi hlo' hhi'
    by_cases hrow : r.dy.toNat + e.1 = r.dy.toNat + l.1
    · have hcolumns := hel.columns (by omega)
      rw [hrow] at hlo hhi
      by_cases hback : r.Backward same
      · have := hcolumns.1 hback
        omega
      · have := hcolumns.2 hback
        omega
    · have := rows_apart htargets htargets' hrow
      omega

theorem copyMoves_ordered (hr : r.Inside a b) (hplaces : OneOrApart same sa sb a b) :
    Moves.Ordered ((copyOrder same r).map (copyMove sa sb a b r)) := by
  unfold Moves.Ordered
  rw [List.pairwise_map]
  refine (List.Pairwise.and_mem.1 (copyOrder_pairwise same r)).imp fun {e l} ⟨he, hl, hel⟩ => ?_
  exact copyMove_before hr hplaces he hl hel

theorem copyOrder_cover (same : Bool) (r : CopyRegion) {i j : ℕ} (hi : i < r.width.toNat)
    (hj : j < r.height.toNat) :
    ∃ part ∈ copyOrder same r, part.1 = j ∧ part.2.1 ≤ i ∧ i < part.2.1 + part.2.2 := by
  have hrow : j ∈ if same = true ∧ r.sy < r.dy then (List.range r.height.toNat).reverse
      else List.range r.height.toNat := by
    split_ifs
    · exact List.mem_reverse.2 (List.mem_range.2 hj)
    · exact List.mem_range.2 hj
  by_cases hback : r.Backward same
  · obtain ⟨part, hpart, hlo, hhi⟩ := @chunks_cover r.width.toNat
      (r.width.toNat - 1 - i) (by omega)
    refine ⟨_, List.mem_flatMap.2 ⟨j, hrow, List.mem_map.2 ⟨part, hpart, rfl⟩⟩, rfl, ?_⟩
    unfold CopyRegion.Backward at hback
    dsimp only
    rw [if_pos hback]
    omega
  · obtain ⟨part, hpart, hlo, hhi⟩ := chunks_cover hi
    refine ⟨_, List.mem_flatMap.2 ⟨j, hrow, List.mem_map.2 ⟨part, hpart, rfl⟩⟩, rfl, ?_⟩
    unfold CopyRegion.Backward at hback
    rw [if_neg hback]
    exact ⟨hlo, hhi⟩

def Drawable.place (d : Drawable) (start x y : ℕ) : ℕ := start + (y * d.width + x)

theorem copyMoves_copied (hr : r.Inside a b) (hplaces : OneOrApart same sa sb a b) (m : ℕ → UInt32)
    {i j : ℕ} (hi : i < r.width.toNat) (hj : j < r.height.toNat) :
    Moves.moved m ((copyOrder same r).map (copyMove sa sb a b r))
        (b.place sb (r.dx.toNat + i) (r.dy.toNat + j))
      = m (a.place sa (r.sx.toNat + i) (r.sy.toNat + j)) := by
  obtain ⟨part, hpart, rfl, hlo, hhi⟩ := copyOrder_cover same r hi hj
  have hmoved := Moves.moved_to m (copyMoves_ordered hr hplaces) _ (List.mem_map_of_mem hpart)
    (i - part.2.1) (show i - part.2.1 < part.2.2 by omega)
  have htarget : b.place sb (r.dx.toNat + i) (r.dy.toNat + part.1)
      = (copyMove sa sb a b r part).target + (i - part.2.1) := by
    unfold Drawable.place copyMove
    dsimp only
    omega
  have hsource : a.place sa (r.sx.toNat + i) (r.sy.toNat + part.1)
      = (copyMove sa sb a b r part).source + (i - part.2.1) := by
    unfold Drawable.place copyMove
    dsimp only
    omega
  rw [htarget, hsource]
  exact hmoved

theorem copyMoves_kept (m : ℕ → UInt32) {p : ℕ}
    (hp : ∀ i < r.width.toNat, ∀ j < r.height.toNat,
      p ≠ b.place sb (r.dx.toNat + i) (r.dy.toNat + j)) :
    Moves.moved m ((copyOrder same r).map (copyMove sa sb a b r)) p = m p := by
  refine Moves.moved_apart _ m fun v hv => ?_
  obtain ⟨part, hpart, rfl⟩ := List.mem_map.1 hv
  obtain ⟨hrow, hcolumn⟩ := mem_copyOrder hpart
  rintro ⟨hlo, hhi⟩
  refine hp (p - (copyMove sa sb a b r part).target + part.2.1) ?_ part.1 hrow ?_
  · change p < (copyMove sa sb a b r part).target + part.2.2 at hhi
    omega
  · unfold copyMove at hlo ⊢
    unfold Drawable.place
    dsimp only at hlo ⊢
    omega

end

/-! ## The clipping -/

theorem clipAxis_iff (source destination : ℤ) (length sourceLimit destinationLimit : ℕ) (u v : ℤ) :
    let r := clipAxis source destination length sourceLimit destinationLimit
    (∃ i < length, u = source + i ∧ v = destination + i ∧ 0 ≤ u ∧ u < sourceLimit ∧ 0 ≤ v
        ∧ v < destinationLimit)
      ↔ ∃ i < r.2.2.toNat, u = r.1.toNat + i ∧ v = r.2.1.toNat + i := by
  obtain ⟨shift, hstart, hleast, heq⟩ :=
    clipAxis_shift source destination length sourceLimit destinationLimit
  rw [heq]
  dsimp only
  constructor
  · rintro ⟨i, hi, hu, hv, hu0, hu1, hv0, hv1⟩
    exact ⟨(i - shift).toNat, by omega, by omega, by omega⟩
  · rintro ⟨i, hi, hu, hv⟩
    exact ⟨(i + shift).toNat, by omega, by omega, by omega, by omega, by omega, by omega, by omega⟩

/-! ## The copy -/

theorem patch_congr {m f g : ℕ → UInt32} {start n : ℕ} (h : ∀ j < n, f j = g j) :
    Raster.patch m start n f = Raster.patch m start n g := by
  funext p
  unfold Raster.patch
  split_ifs with hp
  · exact h _ (by omega)
  · rfl

section

variable {k : SurfaceKernel} {other : Answers} {a b : Drawable} {sa sb : ℕ} {same : Bool}
  {r : CopyRegion} {part : ℕ × ℕ × ℕ}

variable (k other) in
theorem copyPart_read (t : Server) (part : ℕ × ℕ × ℕ) :
    ∃ u pixels, copyPart (k.answers other) a b r part t
        = u.surfaceWritePixels (k.answers other) b.surface pixels
          ((r.dy.toNat + part.1) * b.width + r.dx.toNat + part.2.1)
      ∧ k.behind other u = k.behind other t ∧ pixels.length = part.2.2
      ∧ pixels = (List.range part.2.2).map fun j => (k.behind other t).pixel a.surface
          ((r.sy.toNat + part.1) * a.width + r.sx.toNat + part.2.1 + j) := by
  obtain ⟨hread, hbehind⟩ := readPixels_behind k other a.surface ((List.range part.2.2).map
    ((r.sy.toNat + part.1) * a.width + r.sx.toNat + part.2.1 + ·)) t
  have hlength : (t.readPixels (k.answers other) a.surface ((List.range part.2.2).map
      ((r.sy.toNat + part.1) * a.width + r.sx.toNat + part.2.1 + ·))).1.length = part.2.2 := by
    rw [hread, List.length_map, List.length_map, List.length_range]
  refine ⟨_, _, setDraw_surfaceWrite _ (k.answers other) b.surface _ hlength _, ?_, hlength, ?_⟩
  · rw [setDraw_behind, hbehind]
  · rw [hread, List.map_map]
    rfl

theorem mem_chunks_short {start count : ℕ} {part : ℕ × ℕ} (h : part ∈ chunks start count) :
    part.2 ≤ drawChunkPixels := by
  obtain ⟨i, -, rfl⟩ := List.mem_map.1 h
  exact Nat.min_le_right _ _

theorem copyOrder_short (h : part ∈ copyOrder same r) :
    part.2.2 ≤ surfaceMaxWidth * surfaceMaxHeight := by
  obtain ⟨row, -, hpart⟩ := List.mem_flatMap.1 h
  obtain ⟨c, hc, rfl⟩ := List.mem_map.1 hpart
  have hshort := mem_chunks_short hc
  unfold drawChunkPixels at hshort
  unfold surfaceMaxWidth surfaceMaxHeight
  dsimp only
  omega

variable (sa sb) in
theorem copyPart_behind (hr : r.Inside a b) (hpart : part ∈ copyOrder same r)
    (ha : (k.behind other t).Places a.surface sa a.width a.height)
    (hb : (k.behind other t).Places b.surface sb b.width b.height)
    (hwritable : ((k.behind other t).writable b.surface).isSome) :
    (copyPart (k.answers other) a b r part t).1 = true
      ∧ k.behind other (copyPart (k.answers other) a b r part t).2
        = (k.behind other t).withPixels
          ((copyMove sa sb a b r part).apply (k.behind other t).surfaces.pixels) := by
  obtain ⟨u, pixels, hcopy, hu, hlength, hpixels⟩ := copyPart_read k other (a := a) (b := b)
    (r := r) t part
  have htarget := copyMove_target sa sb hr hpart
  have hshort : pixels.length ≤ surfaceMaxWidth * surfaceMaxHeight := hlength ▸ copyOrder_short hpart
  have hwrite := surfaceWritePixels_behind k other u b.surface hshort
    ((r.dy.toNat + part.1) * b.width + r.dx.toNat + part.2.1)
  have hfits : (r.dy.toNat + part.1) * b.width + r.dx.toNat + part.2.1 + pixels.length
      ≤ b.width * b.height := by
    unfold copyMove at htarget
    dsimp only at htarget
    omega
  rw [hu, SurfaceKernel.write_eq hb hwritable hshort hfits] at hwrite
  rw [hcopy]
  refine ⟨hwrite.1, hwrite.2.trans ?_⟩
  rw [Option.getD_some, hlength]
  congr 1
  unfold Moves.Move.apply
  have hstart : sb + ((r.dy.toNat + part.1) * b.width + r.dx.toNat + part.2.1)
      = (copyMove sa sb a b r part).target := by
    unfold copyMove
    dsimp only
    omega
  rw [hstart]
  refine patch_congr fun j hj => ?_
  rw [hpixels]
  simp only [List.getD_eq_getElem?_getD, List.getElem?_map, List.getElem?_range hj, Option.map_some,
    Option.getD_some]
  rw [ha.pixel]
  unfold copyMove
  dsimp only
  congr 1
  omega

theorem copyPart_refused (hpart : part ∈ copyOrder same r)
    (hwritable : (k.behind other t).writable b.surface = none) :
    (copyPart (k.answers other) a b r part t).1 = false
      ∧ k.behind other (copyPart (k.answers other) a b r part t).2 = k.behind other t := by
  obtain ⟨u, pixels, hcopy, hu, hlength, -⟩ := copyPart_read k other (a := a) (b := b)
    (r := r) t part
  have hshort : pixels.length ≤ surfaceMaxWidth * surfaceMaxHeight := hlength ▸ copyOrder_short hpart
  have hwrite := surfaceWritePixels_behind k other u b.surface hshort
    ((r.dy.toNat + part.1) * b.width + r.dx.toNat + part.2.1)
  rw [hu, SurfaceKernel.write_eq_none hwritable] at hwrite
  rw [hcopy]
  exact hwrite

theorem foldl_moves (K : SurfaceKernel) : ∀ (parts : List (ℕ × ℕ × ℕ)) (m : ℕ → UInt32),
    parts.foldl (fun K part => K.withPixels ((copyMove sa sb a b r part).apply K.surfaces.pixels))
        (K.withPixels m)
      = K.withPixels (Moves.moved m (parts.map (copyMove sa sb a b r)))
  | [], _ => rfl
  | part :: parts, m => foldl_moves K parts ((copyMove sa sb a b r part).apply m)

variable (same) in
theorem copyParts_behind (ht : k.behind other t = K)
    (hr : r.Inside a b) (ha : K.Places a.surface sa a.width a.height)
    (hb : K.Places b.surface sb b.width b.height) (hwritable : (K.writable b.surface).isSome) :
    (forEach (copyPart (k.answers other) a b r) (copyOrder same r) t).1 = true
      ∧ k.behind other (forEach (copyPart (k.answers other) a b r) (copyOrder same r) t).2
        = K.withPixels (Moves.moved K.surfaces.pixels
          ((copyOrder same r).map (copyMove sa sb a b r))) := by
  obtain ⟨htrue, hbehind⟩ := forEach_behind k other
    (f := copyPart (k.answers other) a b r) (fun K' => ∃ m, K' = K.withPixels m)
    (fun K' part => K'.withPixels ((copyMove sa sb a b r part).apply K'.surfaces.pixels))
    (l := copyOrder same r) (s := t)
    (fun part hpart u ⟨m, hu⟩ => by
      obtain ⟨hpass, hnext⟩ := copyPart_behind sa sb hr hpart
        (by rw [hu]; exact ha) (by rw [hu]; exact hb) (by rw [hu]; exact hwritable)
      exact ⟨hpass, hnext, _, by rw [hu]; rfl⟩)
    ⟨K.surfaces.pixels, ht⟩
  refine ⟨htrue, hbehind.trans ?_⟩
  rw [ht]
  exact foldl_moves K (copyOrder same r) K.surfaces.pixels

variable (same) in
theorem copyParts_refused (ht : k.behind other t = K)
    (hr : r.Inside a b) (hwritable : K.writable b.surface = none) :
    (forEach (copyPart (k.answers other) a b r) (copyOrder same r) t).1 = false
      ∧ k.behind other (forEach (copyPart (k.answers other) a b r) (copyOrder same r) t).2 = K := by
  have hparts : copyOrder same r ≠ [] := by
    obtain ⟨part, hpart, -⟩ := copyOrder_cover same r (i := 0) (j := 0)
      (by have := hr.wide; omega) (by have := hr.high; omega)
    exact List.ne_nil_of_mem hpart
  refine forEach_refused hparts ht fun part hpart u hu => ?_
  have hrefused := copyPart_refused (t := u) (a := a) hpart (by rw [hu]; exact hwritable)
  exact ⟨hrefused.1, hrefused.2.trans hu⟩

end

end Server

def Server.Drawable.Contains (d : Server.Drawable) (x y : ℤ) : Prop :=
  0 ≤ x ∧ x < d.width ∧ 0 ≤ y ∧ y < d.height

namespace SurfaceKernel

open Server

def pixelAt (k : SurfaceKernel) (d : Drawable) (x y : ℤ) : UInt32 :=
  k.pixel d.surface (y.toNat * d.width + x.toNat)

def placeOf (k : SurfaceKernel) (d : Drawable) (x y : ℤ) : Option ℕ :=
  (k.data d.surface).map fun e => e.1 + (y.toNat * d.width + x.toNat)

def Sized (k : SurfaceKernel) (d : Drawable) : Prop :=
  ∃ start, k.Places d.surface start d.width d.height

def object (k : SurfaceKernel) (surface : UInt32) : Option ℕ :=
  (k.grant surface).map SurfaceGrant.object

/-- The rectangle of `width` by `height` at `(sx, sy)` of one drawable has been copied to `(dx, dy)`
of the other, as far as it lies in both, and nothing else has changed. -/
structure Copied (before after : SurfaceKernel) (a b : Drawable) (sx sy dx dy : ℤ)
    (width height : ℕ) : Prop where
  copied : ∀ i < width, ∀ j < height, a.Contains (sx + i) (sy + j) → b.Contains (dx + i) (dy + j) →
    after.pixelAt b (dx + i) (dy + j) = before.pixelAt a (sx + i) (sy + j)
  kept : ∀ p, (∀ i < width, ∀ j < height, a.Contains (sx + i) (sy + j) →
      b.Contains (dx + i) (dy + j) → before.placeOf b (dx + i) (dy + j) ≠ some p) →
    after.surfaces.pixels p = before.surfaces.pixels p

end SurfaceKernel

namespace Server

variable {k : SurfaceKernel} {other : Answers} {a b : Drawable}

theorem places_apart (hI : ArenaInv K.surfaces) {sa sb : ℕ}
    (ha : K.Places a.surface sa a.width a.height) (hb : K.Places b.surface sb b.width b.height)
    (hne : K.object a.surface ≠ K.object b.surface) :
    sa + a.width * a.height ≤ sb ∨ sb + b.width * b.height ≤ sa := by
  obtain ⟨g, i, hgrant, hresolve, hstart, hwidth, hheight⟩ := ha.object
  obtain ⟨g', j, hgrant', hresolve', hstart', hwidth', hheight'⟩ := hb.object
  obtain ⟨hid, hi, hactive⟩ := Surfaces.resolve_eq_some.1 hresolve
  obtain ⟨hid', hj, hactive'⟩ := Surfaces.resolve_eq_some.1 hresolve'
  have hij : i ≠ j := by
    rintro rfl
    refine hne ?_
    rw [SurfaceKernel.object, SurfaceKernel.object, hgrant, hgrant', Option.map_some,
      Option.map_some, hid, hid']
  have hroom := (hI.placed i hi hactive).pixels_le
  have hroom' := (hI.placed j hj hactive').pixels_le
  have hapart := hI.apart i hi j hj hij hactive hactive'
  unfold SurfaceObject.Apart at hapart
  rw [hwidth, hheight] at hroom
  rw [hwidth', hheight'] at hroom'
  omega

theorem oneOrApart (hI : ArenaInv K.surfaces) {sa sb : ℕ}
    (ha : K.Places a.surface sa a.width a.height) (hb : K.Places b.surface sb b.width b.height)
    (hone : K.object a.surface = K.object b.surface ↔ a.surface = b.surface) :
    OneOrApart (decide (a.surface = b.surface)) sa sb a b := by
  by_cases hsame : a.surface = b.surface
  · unfold SurfaceKernel.Places at ha hb
    rw [hsame] at ha
    have heq := Option.some.inj (ha.symm.trans hb)
    simp only [Prod.mk.injEq] at heq
    exact .inl ⟨decide_eq_true hsame, heq.1, heq.2.2.1⟩
  · exact .inr ⟨decide_eq_false hsame, places_apart hI ha hb fun heq => hsame (hone.1 heq)⟩

theorem clipCopy_iff (a b : Drawable) (sx sy dx dy width height : UInt16) (u v x y : ℤ) :
    let r := clipCopy a b sx sy dx dy width height
    (∃ i < width.toNat, ∃ j < height.toNat, u = int16 sx + i ∧ v = int16 sy + j
        ∧ x = int16 dx + i ∧ y = int16 dy + j ∧ a.Contains u v ∧ b.Contains x y)
      ↔ ∃ i < r.width.toNat, ∃ j < r.height.toNat, u = r.sx.toNat + i ∧ v = r.sy.toNat + j
        ∧ x = r.dx.toNat + i ∧ y = r.dy.toNat + j := by
  have hx := clipAxis_iff (int16 sx) (int16 dx) width.toNat a.width b.width u x
  have hy := clipAxis_iff (int16 sy) (int16 dy) height.toNat a.height b.height v y
  constructor
  · rintro ⟨i, hi, j, hj, hu, hv, hxi, hyj, ⟨hu0, hu1, hv0, hv1⟩, hx0, hx1, hy0, hy1⟩
    obtain ⟨i', hi', hu', hx'⟩ := hx.1 ⟨i, hi, hu, hxi, hu0, hu1, hx0, hx1⟩
    obtain ⟨j', hj', hv', hy'⟩ := hy.1 ⟨j, hj, hv, hyj, hv0, hv1, hy0, hy1⟩
    exact ⟨i', hi', j', hj', hu', hv', hx', hy'⟩
  · rintro ⟨i, hi, j, hj, hu, hv, hxi, hyj⟩
    obtain ⟨i', hi', hu', hx', hu0, hu1, hx0, hx1⟩ := hx.2 ⟨i, hi, hu, hxi⟩
    obtain ⟨j', hj', hv', hy', hv0, hv1, hy0, hy1⟩ := hy.2 ⟨j, hj, hv, hyj⟩
    exact ⟨i', hi', j', hj', hu', hv', hx', hy', ⟨hu0, hu1, hv0, hv1⟩, hx0, hx1, hy0, hy1⟩

theorem copied_of_moves {K after : SurfaceKernel} {sa sb : ℕ} {same : Bool}
    {sx sy dx dy width height : UInt16}
    (hr : (clipCopy a b sx sy dx dy width height).Inside a b)
    (hplaces : OneOrApart same sa sb a b) (ha : K.Places a.surface sa a.width a.height)
    (hb : K.Places b.surface sb b.width b.height) (hdata : after.data b.surface = K.data b.surface)
    (hpixels : after.surfaces.pixels = Moves.moved K.surfaces.pixels
      ((copyOrder same (clipCopy a b sx sy dx dy width height)).map
        (copyMove sa sb a b (clipCopy a b sx sy dx dy width height)))) :
    K.Copied after a b (int16 sx) (int16 sy) (int16 dx) (int16 dy) width.toNat height.toNat where
  copied i hi j hj hin hin' := by
    have hiff := clipCopy_iff a b sx sy dx dy width height (int16 sx + i) (int16 sy + j)
      (int16 dx + i) (int16 dy + j)
    obtain ⟨i', hi', j', hj', hu, hv, hx, hy⟩ :=
      hiff.1 ⟨i, hi, j, hj, rfl, rfl, rfl, rfl, hin, hin'⟩
    have hafter : after.Places b.surface sb b.width b.height := hdata.trans hb
    have hmoved := copyMoves_copied hr hplaces K.surfaces.pixels hi' hj'
    rw [← hpixels] at hmoved
    unfold SurfaceKernel.pixelAt
    rw [hafter.pixel, ha.pixel, hu, hv, hx, hy]
    exact hmoved
  kept p hp := by
    rw [hpixels]
    refine copyMoves_kept K.surfaces.pixels fun i hi j hj heq => ?_
    have hiff := clipCopy_iff a b sx sy dx dy width height
      ((clipCopy a b sx sy dx dy width height).sx.toNat + i)
      ((clipCopy a b sx sy dx dy width height).sy.toNat + j)
      ((clipCopy a b sx sy dx dy width height).dx.toNat + i)
      ((clipCopy a b sx sy dx dy width height).dy.toNat + j)
    obtain ⟨i', hi', j', hj', hu, hv, hx, hy, hin, hin'⟩ :=
      hiff.2 ⟨i, hi, j, hj, rfl, rfl, rfl, rfl⟩
    refine hp i' hi' j' hj' (by rwa [hu, hv] at hin) (by rwa [hx, hy] at hin') ?_
    unfold SurfaceKernel.placeOf
    rw [hb, Option.map_some, ← hx, ← hy, heq]
    rfl

theorem copied_nothing {sx sy dx dy width height : UInt16}
    (hempty : (clipCopy a b sx sy dx dy width height).width ≤ 0
      ∨ (clipCopy a b sx sy dx dy width height).height ≤ 0) :
    K.Copied K a b (int16 sx) (int16 sy) (int16 dx) (int16 dy) width.toNat height.toNat where
  copied i hi j hj hin hin' := by
    have hiff := clipCopy_iff a b sx sy dx dy width height (int16 sx + i) (int16 sy + j)
      (int16 dx + i) (int16 dy + j)
    obtain ⟨i', hi', j', hj', -⟩ := hiff.1 ⟨i, hi, j, hj, rfl, rfl, rfl, rfl, hin, hin'⟩
    omega
  kept _ _ := rfl

def CopyRefused (k : SurfaceKernel) (other : Answers) (s : Server) (a b : Drawable) : Prop :=
  k.answers other (.surfaceMap a.surface :: s.calls) = failure
    ∨ (k.behind other s).writable b.surface = none

/-- The copy is made, or the kernel does not let it be made and no pixel changes. -/
inductive CopyOutcome (k : SurfaceKernel) (other : Answers) (s : Server) (a b : Drawable)
    (sx sy dx dy : ℤ) (width height : ℕ) : ℤ × Server → Prop
  | copied {t : Server}
      (h : (k.behind other s).Copied (k.behind other t) a b sx sy dx dy width height) :
      CopyOutcome k other s a b sx sy dx dy width height (1, t)
  | refused {result : ℤ} {t : Server} (hresult : result < 0) (hrefused : CopyRefused k other s a b)
      (h : (k.behind other t).surfaces.pixels = (k.behind other s).surfaces.pixels) :
      CopyOutcome k other s a b sx sy dx dy width height (result, t)

theorem copyArea_outcome {s : Server} {sourceId destinationId : UInt32}
    (hsource : s.drawableSurface (k.answers other) sourceId = (some a, s))
    (hdestination : s.drawableSurface (k.answers other) destinationId = (some b, s))
    (hI : ArenaInv (k.behind other s).surfaces) (ha : (k.behind other s).Sized a)
    (hb : (k.behind other s).Sized b)
    (hone : (k.behind other s).object a.surface = (k.behind other s).object b.surface
      ↔ a.surface = b.surface) (sx sy dx dy width height : UInt16) :
    CopyOutcome k other s a b (int16 sx) (int16 sy) (int16 dx) (int16 dy) width.toNat height.toNat
      (s.copyArea (k.answers other) sourceId destinationId sx sy dx dy width height) := by
  obtain ⟨sa, hsa⟩ := ha
  obtain ⟨sb, hsb⟩ := hb
  have hplaces := oneOrApart hI hsa hsb hone
  unfold copyArea
  rw [hsource]
  dsimp only
  rw [hdestination]
  dsimp only
  split_ifs with hempty hmap hcopied hwindow
  · exact .copied (copied_nothing hempty)
  · exact .refused (by decide) (.inl hmap) rfl
  all_goals
    have hr := clipCopy_inside hempty
    have hmapped : k.behind other (s.call (k.answers other) (.surfaceMap a.surface)).2
        = k.behind other s := rfl
    rcases hwritable : (k.behind other s).writable b.surface with _ | object
  · obtain ⟨-, hbehind⟩ := copyParts_refused (decide (a.surface = b.surface)) hmapped hr hwritable
    exact .refused (by decide) (.inr hwritable)
      (congrArg (fun K : SurfaceKernel => K.surfaces.pixels) hbehind)
  · obtain ⟨hpass, -⟩ := copyParts_behind (decide (a.surface = b.surface)) hmapped hr hsa hsb
      (by rw [hwritable]; rfl)
    rw [hpass] at hcopied
    exact absurd hcopied (by decide)
  · obtain ⟨hfail, -⟩ := copyParts_refused (decide (a.surface = b.surface)) hmapped hr hwritable
    rw [hfail] at hcopied
    exact absurd rfl hcopied
  · obtain ⟨-, hbehind⟩ := copyParts_behind (decide (a.surface = b.surface)) hmapped hr hsa hsb
      (by rw [hwritable]; rfl)
    have hdata := congrArg (fun K : SurfaceKernel => K.data b.surface) hbehind
    have hpixels := congrArg (fun K : SurfaceKernel => K.surfaces.pixels) hbehind
    refine .copied (copied_of_moves hr hplaces hsa hsb ?_ ?_)
    · exact ((SurfaceKernel.answer_damage _ _ _ _ _ _ _).2 b.surface).trans hdata
    · exact ((SurfaceKernel.answer_damage _ _ _ _ _ _ _).1).trans hpixels
  · obtain ⟨hfail, -⟩ := copyParts_refused (decide (a.surface = b.surface)) hmapped hr hwritable
    rw [hfail] at hcopied
    exact absurd rfl hcopied
  · obtain ⟨-, hbehind⟩ := copyParts_behind (decide (a.surface = b.surface)) hmapped hr hsa hsb
      (by rw [hwritable]; rfl)
    have hdata := congrArg (fun K : SurfaceKernel => K.data b.surface) hbehind
    have hpixels := congrArg (fun K : SurfaceKernel => K.surfaces.pixels) hbehind
    exact .copied (copied_of_moves hr hplaces hsa hsb hdata hpixels)

/-! ## The arena behind the server -/

theorem answer_inv (hI : ArenaInv K.surfaces) (o : UInt64) (c : SystemCall) :
    ArenaInv (K.answer o c).2.surfaces := by
  cases c with
  | surfaceCreate factory width height =>
    dsimp only [SurfaceKernel.answer]
    rcases hcreate : K.create o width height with _ | K'
    · exact hI
    obtain ⟨created, hcreated, rfl⟩ := SurfaceKernel.create_spec hcreate
    exact arenaInv_create hI hcreated.2.2
  | surfaceWrite surface pixels offset =>
    dsimp only [SurfaceKernel.answer]
    rcases hwrite : K.write surface pixels offset with _ | K'
    · exact hI
    unfold SurfaceKernel.write at hwrite
    split_ifs at hwrite
    rcases hwritable : K.writable surface with _ | object
    · rw [hwritable] at hwrite
      exact nomatch hwrite
    rw [hwritable] at hwrite
    obtain ⟨surfaces, hsurfaces, rfl⟩ := Option.map_eq_some_iff.1 hwrite
    exact arenaInv_write hI hsurfaces
  | surfaceDamage surface x y w h =>
    dsimp only [SurfaceKernel.answer]
    rcases hdamage : K.damage surface x y w h with _ | K'
    · exact hI
    obtain ⟨g, i, -, -, -, rfl⟩ := SurfaceKernel.damage_spec hdamage
    exact arenaInv_setObject hI rfl rfl rfl rfl rfl
  | _ => exact hI

theorem replay_inv (hI : ArenaInv k.surfaces) (other : Answers) : ∀ calls : List SystemCall,
    ArenaInv (k.replay other calls).surfaces
  | [] => hI
  | c :: calls => answer_inv (replay_inv hI other calls) (other (c :: calls)) c

theorem run_arenaInv (arena arenaBytes : ℕ) (ops : List SurfaceOp) :
    ArenaInv (Machine.run surfaceStep (Surfaces.freshArena arena arenaBytes) ops) :=
  Machine.run_inv surfaceStep (fun s op h => surfaceStep_inv s op h) ops _
    (freshArena_inv arena arenaBytes).1

/-- Whatever has been done to the surfaces, and whatever the server has called: where two drawables
have surfaces of the sizes it takes them to have, and their handles are to one surface just when they
are equal, `copy_area` copies the rectangle at once, as far as it lies in both, and changes no other
pixel; where the kernel does not let it, it fails and changes nothing. -/
theorem copy_area_simultaneous (arena arenaBytes : ℕ) (ops : List SurfaceOp)
    (pid : ℕ) (grant : UInt32 → Option SurfaceGrant) (other : Answers) (k : SurfaceKernel)
    (hk : k = ⟨Machine.run surfaceStep (Surfaces.freshArena arena arenaBytes) ops, pid, grant⟩)
    (s : Server) (sourceId destinationId : UInt32) (sx sy dx dy width height : UInt16)
    (a b : Drawable) (hsource : s.drawableSurface (k.answers other) sourceId = (some a, s))
    (hdestination : s.drawableSurface (k.answers other) destinationId = (some b, s))
    (ha : (k.behind other s).Sized a) (hb : (k.behind other s).Sized b)
    (hone : (k.behind other s).object a.surface = (k.behind other s).object b.surface
      ↔ a.surface = b.surface) :
    CopyOutcome k other s a b (int16 sx) (int16 sy) (int16 dx) (int16 dy) width.toNat height.toNat
      (s.copyArea (k.answers other) sourceId destinationId sx sy dx dy width height) := by
  have hI : ArenaInv (k.behind other s).surfaces := by
    refine replay_inv ?_ other s.calls
    rw [hk]
    exact run_arenaInv arena arenaBytes ops
  exact copyArea_outcome hsource hdestination hI ha hb hone sx sy dx dy width height

def scrollServer : Server :=
  ({} : Server).setPixmap 0
    { id := 0x200001, surfaceHandle := 5, width := 8, height := 8, depth := 32, used := true }

def scrollSurface : Drawable := ⟨5, 8, 8, none⟩

def scrollKernel : SurfaceKernel :=
  ⟨Machine.run surfaceStep (Surfaces.freshArena 0x100000 1048576) [.create 1 8 8], 1,
    fun _ => some ⟨1, true⟩⟩

theorem scrollSurface_sized : (scrollKernel.behind (fun _ => 1) scrollServer).Sized scrollSurface :=
  ⟨0, by
    have hdata : scrollKernel.data 5 = some (0, 8 * 8, 8, 8) := by decide +kernel
    exact hdata⟩

/-- The pixmap is scrolled down and to the right by one pixel. -/
theorem copy_area_scroll :
    CopyOutcome scrollKernel (fun _ => 1) scrollServer scrollSurface scrollSurface (int16 0)
      (int16 0) (int16 1) (int16 1) (8 : UInt16).toNat (8 : UInt16).toNat
      (scrollServer.copyArea (scrollKernel.answers fun _ => 1) 0x200001 0x200001 0 0 1 1 8 8) :=
  copy_area_simultaneous 0x100000 1048576 [.create 1 8 8] 1 (fun _ => some ⟨1, true⟩)
    (fun _ => 1) scrollKernel rfl scrollServer 0x200001 0x200001 0 0 1 1 8 8 scrollSurface scrollSurface rfl rfl
    scrollSurface_sized scrollSurface_sized (iff_of_true rfl rfl)

end Server

end DemonX

end DemonOS
