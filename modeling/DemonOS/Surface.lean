import DemonOS.Lib.Table

/-!
# Surfaces

`src/surface.c`: pixel objects carved out of one arena. An object records its owner, its size, the
range of the arena it holds and how many references keep it; it is cleared and freed when the last
one is released. The diagnostic counters are left out.
-/

namespace DemonOS

def surfaceLimit : ℕ := 8
def surfaceMaxWidth : ℕ := 640
def surfaceMaxHeight : ℕ := 480
def surfaceArenaBytes : ℕ := 1048576

/-- `struct surface_object`; the default value is the zeroed object. -/
structure SurfaceObject where
  ownerPid : ℕ := 0
  width : ℕ := 0
  height : ℕ := 0
  offsetPixels : ℕ := 0
  capacityPixels : ℕ := 0
  references : ℕ := 0
  damageX : ℕ := 0
  damageY : ℕ := 0
  damageWidth : ℕ := 0
  damageHeight : ℕ := 0
  damagePending : Bool := false
  active : Bool := false
  deriving DecidableEq

/-- The module's state: the objects, the arena's physical address (0 before `surfaces_init`), its
pixels and how many there are. -/
structure Surfaces where
  objects : ℕ → SurfaceObject := fun _ => {}
  pixelArena : ℕ := 0
  pixels : ℕ → UInt32 := fun _ => 0
  pixelArenaCount : ℕ := 0

namespace Surfaces

def setObject (s : Surfaces) (i : ℕ) (o : SurfaceObject) : Surfaces :=
  { s with objects := Function.update s.objects i o }

/-- `surfaces_init`, over an arena at `arena` that may hold anything. -/
def surfacesInit (s : Surfaces) (arena arenaBytes : ℕ) : Option Surfaces :=
  if arena = 0 ∨ arenaBytes < surfaceArenaBytes then none
  else some
    { objects := fun i => if i < surfaceLimit then {} else s.objects i
      pixelArena := arena
      pixelArenaCount := arenaBytes / 4
      pixels := fun a => if a < arenaBytes / 4 then 0 else s.pixels a }

/-- The arena `surfaces_init` sets up in a fresh kernel, where it accepts the one it is given. -/
def freshArena (arena arenaBytes : ℕ) : Surfaces :=
  (({} : Surfaces).surfacesInit arena arenaBytes).getD {}

/-- The index of the active object `id` names. -/
def resolve (s : Surfaces) (id : ℕ) : Option ℕ :=
  if id = 0 ∨ surfaceLimit < id ∨ (s.objects (id - 1)).active = false then none else some (id - 1)

/-- `(pixels + 1023) & ~1023`. -/
def roundCapacity (pixels : ℕ) : ℕ := (pixels + 1023) / 1024 * 1024

/-- Some active object's range meets `[offset, offset + capacity)`. -/
def overlaps (s : Surfaces) (offset capacity : ℕ) : Bool :=
  (List.range surfaceLimit).any fun other =>
    (s.objects other).active
      && decide (offset < (s.objects other).offsetPixels + (s.objects other).capacityPixels)
      && decide ((s.objects other).offsetPixels < offset + capacity)

/-- The first-fit loop: 1024-pixel steps while the range still fits the arena. -/
def searchOffset (s : Surfaces) (capacity : ℕ) : ℕ → ℕ → Option ℕ
  | 0, _ => none
  | fuel + 1, offset =>
    if offset ≤ s.pixelArenaCount ∧ capacity ≤ s.pixelArenaCount - offset then
      if s.overlaps offset capacity then searchOffset s capacity fuel (offset + 1024)
      else some offset
    else none

/-- `surface_create`: the first free object, at the first offset that fits. The object's id comes
back with the new state. -/
def surfaceCreate (s : Surfaces) (ownerPid width height : ℕ) : Option (ℕ × Surfaces) :=
  if s.pixelArena = 0 ∨ ownerPid = 0 ∨ width = 0 ∨ height = 0 ∨ surfaceMaxWidth < width
      ∨ surfaceMaxHeight < height then none
  else match Table.firstIndex surfaceLimit (fun i => !(s.objects i).active) with
    | none => none
    | some i =>
      match s.searchOffset (roundCapacity (width * height)) (s.pixelArenaCount / 1024 + 1) 0 with
      | none => none
      | some offset => some (i + 1, s.setObject i
          { ownerPid := ownerPid, width := width, height := height
            offsetPixels := offset % 2 ^ 32
            capacityPixels := roundCapacity (width * height) % 2 ^ 32
            active := true })

def surfaceRetain (s : Surfaces) (id : ℕ) : Option Surfaces :=
  match s.resolve id with
  | none => none
  | some i =>
    if (s.objects i).references = 2 ^ 32 - 1 then none
    else some (s.setObject i { s.objects i with references := (s.objects i).references + 1 })

/-- `clear_object`: zeroes the object's whole range and the object. -/
def clearObject (s : Surfaces) (i : ℕ) : Surfaces :=
  { s.setObject i {} with
    pixels := fun a =>
      if (s.objects i).offsetPixels ≤ a
          ∧ a < (s.objects i).offsetPixels + (s.objects i).capacityPixels then 0
      else s.pixels a }

def surfaceRelease (s : Surfaces) (id : ℕ) : Option Surfaces :=
  match s.resolve id with
  | none => none
  | some i =>
    if (s.objects i).references = 0 then none
    else if (s.objects i).references - 1 = 0 then some (s.clearObject i)
    else some (s.setObject i { s.objects i with references := (s.objects i).references - 1 })

def surfaceDiscard (s : Surfaces) (id : ℕ) : Option Surfaces :=
  match s.resolve id with
  | none => none
  | some i => if (s.objects i).references ≠ 0 then none else some (s.clearObject i)

/-- `surface_write`: `data` copied into the object's pixels from `pixelOffset` on. -/
def surfaceWrite (s : Surfaces) (id pixelOffset : ℕ) (data : List UInt32) : Option Surfaces :=
  match s.resolve id with
  | none => none
  | some i =>
    if (s.objects i).width * (s.objects i).height < pixelOffset
        ∨ (s.objects i).width * (s.objects i).height - pixelOffset < data.length then none
    else some
      { s with
        pixels := fun a =>
          if (s.objects i).offsetPixels + pixelOffset ≤ a
              ∧ a < (s.objects i).offsetPixels + pixelOffset + data.length then
            data.getD (a - ((s.objects i).offsetPixels + pixelOffset)) 0
          else s.pixels a }

/-- `surface_data`: where the object's pixels start in the arena, how many there are, its size. -/
def surfaceData (s : Surfaces) (id : ℕ) : Option (ℕ × ℕ × ℕ × ℕ) :=
  match s.resolve id with
  | none => none
  | some i => some ((s.objects i).offsetPixels, (s.objects i).width * (s.objects i).height,
      (s.objects i).width, (s.objects i).height)

/-- `surface_mapping_data`: the physical address of the object's range and its pages. -/
def surfaceMappingData (s : Surfaces) (id : ℕ) : Option (ℕ × ℕ) :=
  match s.resolve id with
  | none => none
  | some i => some (s.pixelArena + (s.objects i).offsetPixels * 4,
      ((s.objects i).capacityPixels * 4 + 4095) / 4096)

def surfaceDamage (s : Surfaces) (id x y width height : ℕ) : Option Surfaces :=
  match s.resolve id with
  | none => none
  | some i =>
    if width = 0 ∨ height = 0 ∨ (s.objects i).width ≤ x ∨ (s.objects i).height ≤ y
        ∨ (s.objects i).width - x < width ∨ (s.objects i).height - y < height
        ∨ 65535 < x ∨ 65535 < y ∨ 65535 < width ∨ 65535 < height then none
    else some (s.setObject i { s.objects i with
      damageX := x, damageY := y, damageWidth := width, damageHeight := height
      damagePending := true })

/-- `surface_take_damage`: the pending rectangle packed into 64 bits. -/
def surfaceTakeDamage (s : Surfaces) (id : ℕ) : Option (ℕ × Surfaces) :=
  match s.resolve id with
  | none => none
  | some i =>
    if (s.objects i).damagePending = false then none
    else some ((s.objects i).damageX ||| (s.objects i).damageY <<< 16
        ||| (s.objects i).damageWidth <<< 32 ||| (s.objects i).damageHeight <<< 48,
      s.setObject i { s.objects i with damagePending := false })

@[simp] theorem setObject_objects (s : Surfaces) (i : ℕ) (o : SurfaceObject) :
    (s.setObject i o).objects = Function.update s.objects i o := rfl

@[simp] theorem setObject_pixels (s : Surfaces) (i : ℕ) (o : SurfaceObject) :
    (s.setObject i o).pixels = s.pixels := rfl

@[simp] theorem clearObject_objects (s : Surfaces) (i : ℕ) :
    (s.clearObject i).objects = Function.update s.objects i {} := rfl

theorem resolve_eq_some {s : Surfaces} {id i : ℕ} :
    s.resolve id = some i ↔ id = i + 1 ∧ i < surfaceLimit ∧ (s.objects i).active = true := by
  unfold resolve
  split_ifs with h
  · simp only [false_iff, not_and, Bool.not_eq_true]
    rintro rfl hi
    simp only [Nat.add_eq_zero_iff, one_ne_zero, and_false, Nat.add_sub_cancel, false_or] at h
    rcases h with h | h
    · omega
    · exact h
  · simp only [not_or, Bool.not_eq_false] at h
    simp only [Option.some.injEq]
    constructor
    · rintro rfl
      exact ⟨by omega, by omega, h.2.2⟩
    · rintro ⟨rfl, -, -⟩
      rfl

theorem surfaceRetain_spec {s s' : Surfaces} {id : ℕ} (h : s.surfaceRetain id = some s') :
    ∃ i, s.resolve id = some i
      ∧ s' = s.setObject i { s.objects i with references := (s.objects i).references + 1 } := by
  unfold surfaceRetain at h
  split at h
  · cases h
  · rename_i i hi
    split at h
    · cases h
    · exact ⟨i, hi, by simpa using h.symm⟩

theorem surfaceRelease_spec {s s' : Surfaces} {id : ℕ} (h : s.surfaceRelease id = some s') :
    ∃ i, s.resolve id = some i ∧ 0 < (s.objects i).references
      ∧ ((s.objects i).references = 1 ∧ s' = s.clearObject i
        ∨ 1 < (s.objects i).references
          ∧ s' = s.setObject i
              { s.objects i with references := (s.objects i).references - 1 }) := by
  unfold surfaceRelease at h
  split at h
  · cases h
  · rename_i i hi
    split_ifs at h with h0 h1
    · exact ⟨i, hi, by omega, .inl ⟨by omega, by simpa using h.symm⟩⟩
    · exact ⟨i, hi, by omega, .inr ⟨by omega, by simpa using h.symm⟩⟩

theorem surfaceDiscard_spec {s s' : Surfaces} {id : ℕ} (h : s.surfaceDiscard id = some s') :
    ∃ i, s.resolve id = some i ∧ (s.objects i).references = 0 ∧ s' = s.clearObject i := by
  unfold surfaceDiscard at h
  split at h
  · cases h
  · rename_i i hi
    split_ifs at h with h0
    · exact ⟨i, hi, by simpa using h0, by simpa using h.symm⟩

theorem surfaceCreate_spec {s s' : Surfaces} {ownerPid width height id : ℕ}
    (h : s.surfaceCreate ownerPid width height = some (id, s')) :
    ∃ i offset, id = i + 1 ∧ i < surfaceLimit ∧ (s.objects i).active = false ∧ ownerPid ≠ 0
      ∧ 0 < width ∧ width ≤ surfaceMaxWidth ∧ 0 < height ∧ height ≤ surfaceMaxHeight
      ∧ s.searchOffset (roundCapacity (width * height)) (s.pixelArenaCount / 1024 + 1) 0
        = some offset
      ∧ s' = s.setObject i
          { ownerPid := ownerPid, width := width, height := height
            offsetPixels := offset % 2 ^ 32
            capacityPixels := roundCapacity (width * height) % 2 ^ 32
            active := true } := by
  unfold surfaceCreate at h
  split_ifs at h with hbad
  simp only [not_or, not_lt] at hbad
  split at h
  · cases h
  · rename_i i hi
    obtain ⟨hlt, hfree, -⟩ := Table.firstIndex_eq_some.1 hi
    split at h
    · cases h
    · rename_i offset ho
      simp only [Option.some.injEq, Prod.mk.injEq] at h
      obtain ⟨rfl, rfl⟩ := h
      exact ⟨i, offset, rfl, hlt, by simpa using hfree, hbad.2.1, by omega, hbad.2.2.2.2.1,
        by omega, hbad.2.2.2.2.2, ho, rfl⟩

end Surfaces

end DemonOS
