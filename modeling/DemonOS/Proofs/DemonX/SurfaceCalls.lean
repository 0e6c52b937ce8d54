import DemonOS.DemonX.Drawing
import DemonOS.DemonX.SurfaceKernel
import DemonOS.Lib.Raster

/-!
# What the drawing calls do to the surfaces

Each of the server's primitives for drawing as it acts on the kernel behind it: pixels are read as
they are in the arena (`readPixels_behind`), a write that is inside a surface that may be written
patches the arena (`write_eq`), and a loop over parts makes the steps of its parts
(`forEach_behind`).
-/

namespace DemonOS

namespace DemonX

variable {k' : SurfaceKernel} {pixels : List UInt32}

namespace SurfaceKernel

variable (k : SurfaceKernel)

def withPixels (pixels : ℕ → UInt32) : SurfaceKernel :=
  { k with surfaces := { k.surfaces with pixels := pixels } }

@[simp] theorem withPixels_pixels (f : ℕ → UInt32) : (k.withPixels f).surfaces.pixels = f := rfl

@[simp] theorem withPixels_writable (f : ℕ → UInt32) (surface : UInt32) :
    (k.withPixels f).writable surface = k.writable surface := rfl

def Places (surface : UInt32) (start width height : ℕ) : Prop :=
  k.data surface = some (start, width * height, width, height)

variable {k} {surface : UInt32} {start width height : ℕ}

theorem Places.pixel (h : k.Places surface start width height) (index : ℕ) :
    k.pixel surface index = k.surfaces.pixels (start + index) := by
  unfold SurfaceKernel.pixel
  rw [h]

theorem Places.object (h : k.Places surface start width height) :
    ∃ g i, k.grant surface = some g ∧ k.surfaces.resolve g.object = some i
      ∧ (k.surfaces.objects i).offsetPixels = start ∧ (k.surfaces.objects i).width = width
      ∧ (k.surfaces.objects i).height = height := by
  unfold Places data at h
  rcases hgrant : k.grant surface with _ | g
  · rw [hgrant] at h
    exact nomatch h
  rw [hgrant] at h
  dsimp only [Surfaces.surfaceData] at h
  rcases hresolve : k.surfaces.resolve g.object with _ | i
  · rw [hresolve] at h
    exact nomatch h
  rw [hresolve] at h
  simp only [Option.some.injEq, Prod.mk.injEq] at h
  exact ⟨g, i, rfl, hresolve, h.1, h.2.2.1, h.2.2.2⟩

theorem writable_eq {g : SurfaceGrant} (hgrant : k.grant surface = some g)
    (hwritable : (k.writable surface).isSome) : k.writable surface = some g.object := by
  unfold writable at hwritable ⊢
  rw [hgrant] at hwritable ⊢
  dsimp only at hwritable ⊢
  split_ifs at hwritable ⊢
  · rfl
  · exact nomatch hwritable

theorem write_eq (h : k.Places surface start width height) (hwritable : (k.writable surface).isSome)
    {offset : ℕ}
    (hshort : pixels.length ≤ surfaceMaxWidth * surfaceMaxHeight)
    (hfits : offset + pixels.length ≤ width * height) :
    k.write surface pixels offset = some (k.withPixels
      (Raster.patch k.surfaces.pixels (start + offset) pixels.length fun j => pixels.getD j 0)) := by
  obtain ⟨g, i, hgrant, hresolve, rfl, rfl, rfl⟩ := h.object
  unfold write
  rw [if_neg (by omega), writable_eq hgrant hwritable]
  dsimp only [Surfaces.surfaceWrite]
  rw [hresolve]
  dsimp only
  rw [if_neg (by omega)]
  rfl

theorem write_eq_none (hwritable : k.writable surface = none) (pixels : List UInt32) (offset : ℕ) :
    k.write surface pixels offset = none := by
  unfold write
  split_ifs
  · rfl
  · rw [hwritable]

theorem write_spec {offset : ℕ}
    (hwrite : k.write surface pixels offset = some k') :
    ∃ g i, k.grant surface = some g ∧ k.surfaces.resolve g.object = some i
      ∧ offset + pixels.length ≤ (k.surfaces.objects i).width * (k.surfaces.objects i).height
      ∧ k' = k.withPixels (Raster.patch k.surfaces.pixels
        ((k.surfaces.objects i).offsetPixels + offset) pixels.length fun j => pixels.getD j 0) := by
  unfold write writable at hwrite
  rcases hgrant : k.grant surface with _ | g
  · rw [hgrant] at hwrite
    dsimp only at hwrite
    split_ifs at hwrite
  rw [hgrant] at hwrite
  by_cases hwritable : g.writable = true
  swap
  · dsimp only at hwrite
    rw [if_neg hwritable] at hwrite
    split_ifs at hwrite
  dsimp only at hwrite
  rw [if_pos hwritable] at hwrite
  dsimp only [Surfaces.surfaceWrite] at hwrite
  split_ifs at hwrite
  rcases hresolve : k.surfaces.resolve g.object with _ | i
  · rw [hresolve] at hwrite
    exact nomatch hwrite
  rw [hresolve] at hwrite
  dsimp only at hwrite
  split_ifs at hwrite with hroom
  · exact nomatch hwrite
  · exact ⟨g, i, rfl, hresolve, by omega, (Option.some.inj hwrite).symm⟩

def Starts (k : SurfaceKernel) (surface : UInt32) (start : ℕ) : Prop :=
  ∃ rest, k.data surface = some (start, rest)

theorem Places.starts (h : k.Places surface start width height) : k.Starts surface start := ⟨_, h⟩

theorem Starts.pixel (h : k.Starts surface start) (index : ℕ) :
    k.pixel surface index = k.surfaces.pixels (start + index) := by
  obtain ⟨rest, h⟩ := h
  unfold SurfaceKernel.pixel
  rw [h]

/-- Whatever the size of the surface, a write that is taken patches it. -/
theorem Starts.write_eq (h : k.Starts surface start)
    {offset : ℕ} (hwrite : k.write surface pixels offset = some k') :
    k' = k.withPixels (Raster.patch k.surfaces.pixels (start + offset) pixels.length
      fun j => pixels.getD j 0) := by
  obtain ⟨g, i, hgrant, hresolve, -, rfl⟩ := write_spec hwrite
  obtain ⟨rest, h⟩ := h
  unfold data at h
  rw [hgrant] at h
  dsimp only [Surfaces.surfaceData] at h
  rw [hresolve] at h
  simp only [Option.some.injEq, Prod.mk.injEq] at h
  rw [h.1]

theorem create_spec {handle : UInt64} {w h : ℕ}
    (hcreate : k.create handle w h = some k') :
    ∃ created : ℕ × Surfaces, (handle ≠ failure ∧ k.grant handle.toUInt32 = none
        ∧ k.surfaces.surfaceCreate k.pid w h = some created)
      ∧ k' = { k with
          surfaces := created.2
          grant := Function.update k.grant handle.toUInt32 (some ⟨created.1, true⟩) } := by
  unfold create at hcreate
  split_ifs at hcreate with hbad
  rw [not_or, Option.isSome_iff_ne_none, not_not] at hbad
  obtain ⟨created, hcreated, rfl⟩ := Option.map_eq_some_iff.1 hcreate
  exact ⟨created, ⟨hbad.1, hbad.2, hcreated⟩, rfl⟩

theorem damage_spec {x y w h : UInt32}
    (hdamage : k.damage surface x y w h = some k') :
    ∃ g i, k.grant surface = some g ∧ g.writable = true ∧ k.surfaces.resolve g.object = some i
      ∧ k' = { k with surfaces := k.surfaces.setObject i { k.surfaces.objects i with
          damageX := x.toNat, damageY := y.toNat, damageWidth := w.toNat, damageHeight := h.toNat
          damagePending := true } } := by
  unfold damage writable at hdamage
  rcases hgrant : k.grant surface with _ | g
  · rw [hgrant] at hdamage
    exact nomatch hdamage
  rw [hgrant] at hdamage
  dsimp only at hdamage
  by_cases hwritable : g.writable = true
  swap
  · rw [if_neg hwritable] at hdamage
    exact nomatch hdamage
  rw [if_pos hwritable] at hdamage
  dsimp only [Surfaces.surfaceDamage] at hdamage
  rcases hresolve : k.surfaces.resolve g.object with _ | i
  · rw [hresolve] at hdamage
    exact nomatch hdamage
  rw [hresolve] at hdamage
  dsimp only at hdamage
  split_ifs at hdamage
  · exact nomatch hdamage
  · exact ⟨g, i, rfl, hwritable, hresolve, (Option.some.inj hdamage).symm⟩

theorem resolve_setObject {s : Surfaces} {i : ℕ} {o : SurfaceObject}
    (h : o.active = (s.objects i).active) (id : ℕ) :
    (s.setObject i o).resolve id = s.resolve id := by
  have hactive : ∀ j, ((s.setObject i o).objects j).active = (s.objects j).active := fun j => by
    rcases eq_or_ne j i with rfl | hne
    · rw [Surfaces.setObject_objects, Function.update_self, h]
    · rw [Surfaces.setObject_objects, Function.update_of_ne hne]
  unfold Surfaces.resolve
  rw [hactive]

theorem answer_damage (k : SurfaceKernel) (o : UInt64) (surface x y w h : UInt32) :
    (k.answer o (.surfaceDamage surface x y w h)).2.surfaces.pixels = k.surfaces.pixels
      ∧ ∀ other, (k.answer o (.surfaceDamage surface x y w h)).2.data other = k.data other := by
  dsimp only [answer]
  rcases hdamage : k.damage surface x y w h with _ | k'
  · exact ⟨rfl, fun _ => rfl⟩
  obtain ⟨g, i, -, -, -, rfl⟩ := damage_spec hdamage
  refine ⟨rfl, fun other => ?_⟩
  unfold data Surfaces.surfaceData
  dsimp only
  rcases k.grant other with _ | g'
  · rfl
  dsimp only
  rw [resolve_setObject (o := { k.surfaces.objects i with
    damageX := x.toNat, damageY := y.toNat, damageWidth := w.toNat, damageHeight := h.toNat
    damagePending := true }) rfl]
  rcases k.surfaces.resolve g'.object with _ | j
  · rfl
  dsimp only
  rcases eq_or_ne j i with rfl | hne
  · rw [Surfaces.setObject_objects, Function.update_self]
  · rw [Surfaces.setObject_objects, Function.update_of_ne hne]

end SurfaceKernel

namespace Server

variable (k : SurfaceKernel) (other : Answers) (s : Server)

theorem answer_write (K : SurfaceKernel) (o : UInt64) (surface : UInt32) (pixels : List UInt32)
    (offset : ℕ) : K.answer o (.surfaceWrite surface pixels offset)
      = (if (K.write surface pixels offset).isSome then UInt64.ofNat pixels.length else failure,
        (K.write surface pixels offset).getD K) := by
  rcases h : K.write surface pixels offset with _ | K'
  · simp only [SurfaceKernel.answer, h]
    rfl
  · simp only [SurfaceKernel.answer, h]
    rfl

theorem surfaceWritePixels_behind (surface : UInt32)
    (hshort : pixels.length ≤ surfaceMaxWidth * surfaceMaxHeight) (offset : ℕ) :
    (s.surfaceWritePixels (k.answers other) surface pixels offset).1
        = ((k.behind other s).write surface pixels offset).isSome
      ∧ k.behind other (s.surfaceWritePixels (k.answers other) surface pixels offset).2
        = ((k.behind other s).write surface pixels offset).getD (k.behind other s) := by
  have hcall := answer_write (k.behind other s)
    (other (.surfaceWrite surface pixels offset :: s.calls)) surface pixels offset
  constructor
  · have hanswer : (s.surfaceWritePixels (k.answers other) surface pixels offset).1
        = decide (((k.behind other s).answer (other (.surfaceWrite surface pixels offset :: s.calls))
          (.surfaceWrite surface pixels offset)).1.toNat = pixels.length) := rfl
    unfold surfaceMaxWidth surfaceMaxHeight at hshort
    rw [hanswer, hcall]
    by_cases hsome : ((k.behind other s).write surface pixels offset).isSome = true
    · rw [if_pos hsome, hsome]
      refine decide_eq_true ?_
      dsimp only
      rw [UInt64.toNat_ofNat']
      omega
    · rw [if_neg hsome, Bool.eq_false_of_not_eq_true hsome]
      refine decide_eq_false ?_
      change ¬18446744073709551615 = pixels.length
      omega
  · exact congrArg Prod.snd hcall

theorem readPixels_behind (surface : UInt32) : ∀ (indices : List ℕ) (s : Server),
    (s.readPixels (k.answers other) surface indices).1
        = indices.map ((k.behind other s).pixel surface)
      ∧ k.behind other (s.readPixels (k.answers other) surface indices).2 = k.behind other s
  | [], _ => ⟨rfl, rfl⟩
  | index :: indices, s => by
    obtain ⟨hpixels, hbehind⟩ := readPixels_behind surface indices
      (s.call (k.answers other) (.readPixel surface index)).2
    have hsame : k.behind other (s.call (k.answers other) (.readPixel surface index)).2
        = k.behind other s := rfl
    have hread : (s.call (k.answers other) (.readPixel surface index)).1
        = ((k.behind other s).pixel surface index).toUInt64 := rfl
    unfold readPixels
    dsimp only
    rw [hpixels, hbehind, hsame, hread, List.map_cons]
    exact ⟨by simp, rfl⟩

theorem setDraw_behind (pixels : List UInt32) :
    k.behind other (s.setDraw pixels) = k.behind other s := rfl

theorem setDraw_drawn (pixels : List UInt32) :
    (List.range pixels.length).map (s.setDraw pixels).drawPixels = pixels := by
  refine List.ext_getElem (by simp) fun i hi hlt => ?_
  rw [List.getElem_map, List.getElem_range]
  simp [setDraw, List.getD_eq_getElem?_getD, hlt]

theorem setDraw_surfaceWrite (sys : Answers) (surface : UInt32) (pixels : List UInt32)
    {count : ℕ} (hcount : pixels.length = count) (offset : ℕ) :
    (s.setDraw pixels).surfaceWrite sys surface count offset
      = (s.setDraw pixels).surfaceWritePixels sys surface pixels offset := by
  subst hcount
  unfold surfaceWrite
  rw [setDraw_drawn]

variable {k other} {α : Type}

theorem forEach_inv {f : α → Server → Bool × Server} {P : Server → Prop} : ∀ {l : List α}
    {s : Server}, (∀ a ∈ l, ∀ u, P u → P (f a u).2) → P s → P (forEach f l s).2
  | [], _, _, hs => hs
  | a :: l, s, hturn, hs => by
    have hfirst := hturn a List.mem_cons_self s hs
    unfold forEach
    split_ifs
    · exact forEach_inv (fun b hb => hturn b (List.mem_cons_of_mem a hb)) hfirst
    · exact hfirst

variable (k other) in
/-- A loop whose turns all succeed makes their steps one after the other. -/
theorem forEach_behind {f : α → Server → Bool × Server} (I : SurfaceKernel → Prop)
    (step : SurfaceKernel → α → SurfaceKernel) : ∀ {l : List α} {s : Server},
    (∀ a ∈ l, ∀ t, I (k.behind other t) → (f a t).1 = true
      ∧ k.behind other (f a t).2 = step (k.behind other t) a ∧ I (step (k.behind other t) a)) →
    I (k.behind other s) → (forEach f l s).1 = true
      ∧ k.behind other (forEach f l s).2 = l.foldl step (k.behind other s)
  | [], _, _, _ => ⟨rfl, rfl⟩
  | a :: l, s, hturn, hs => by
    obtain ⟨htrue, hbehind, hkept⟩ := hturn a List.mem_cons_self s hs
    have hrest := forEach_behind I step (l := l) (s := (f a s).2)
      (fun b hb => hturn b (List.mem_cons_of_mem a hb)) (hbehind ▸ hkept)
    unfold forEach
    rw [if_pos htrue, List.foldl_cons, ← hbehind]
    exact hrest

theorem forEach_refused {f : α → Server → Bool × Server} {K : SurfaceKernel} {l : List α}
    (hl : l ≠ []) {s : Server} (hs : k.behind other s = K)
    (hturn : ∀ a ∈ l, ∀ t, k.behind other t = K →
      (f a t).1 = false ∧ k.behind other (f a t).2 = K) :
    (forEach f l s).1 = false ∧ k.behind other (forEach f l s).2 = K := by
  obtain ⟨a, l', rfl⟩ := List.exists_cons_of_ne_nil hl
  obtain ⟨hfalse, hbehind⟩ := hturn a List.mem_cons_self s hs
  unfold forEach
  rw [if_neg (by rw [hfalse]; exact Bool.false_ne_true)]
  exact ⟨rfl, hbehind⟩

end Server

end DemonX

end DemonOS
