import DemonOS.Lib.Machine
import DemonOS.Surface
import Mathlib.Order.Interval.Finset.Nat

/-!
# The surface arena

Whatever sequence of creates, retains, releases, discards and writes is run, the ranges of the
active surfaces are aligned, inside the arena and disjoint, and the arena is zero outside them
(`ArenaInv`). A create finds its range by first fit and a clear zeroes the whole of it, so a new
surface starts out zero.

The offset the search finds is stored in 32 bits. Each candidate it steps over meets an active
range, and a range of at most 300 steps meets at most 602 candidates, so the offset is small
however large the arena is (`searchOffset_lt`).
-/

namespace DemonOS

open Surfaces

variable {s s' : Surfaces}

/-- The calls that touch a surface's storage. -/
inductive SurfaceOp where
  | create (ownerPid width height : ℕ)
  | retain (id : ℕ)
  | release (id : ℕ)
  | discard (id : ℕ)
  | write (id pixelOffset : ℕ) (data : List UInt32)

/-- One call; one that fails leaves the state alone. -/
def surfaceStep (s : Surfaces) : SurfaceOp → Surfaces
  | .create ownerPid width height =>
    ((s.surfaceCreate ownerPid width height).map Prod.snd).getD s
  | .retain id => (s.surfaceRetain id).getD s
  | .release id => (s.surfaceRelease id).getD s
  | .discard id => (s.surfaceDiscard id).getD s
  | .write id pixelOffset data => (s.surfaceWrite id pixelOffset data).getD s

@[simp] theorem Surfaces.setObject_pixelArenaCount (s : Surfaces) (i : ℕ) (o : SurfaceObject) :
    (s.setObject i o).pixelArenaCount = s.pixelArenaCount := rfl

/-- `a` is in the object's range of the arena. -/
def SurfaceObject.Holds (o : SurfaceObject) (a : ℕ) : Prop :=
  o.offsetPixels ≤ a ∧ a < o.offsetPixels + o.capacityPixels

/-- An object's range is aligned, inside an arena of `count` pixels, and has room for its
pixels. -/
structure SurfaceObject.Placed (count : ℕ) (o : SurfaceObject) : Prop where
  offset_dvd : 1024 ∣ o.offsetPixels
  capacity_dvd : 1024 ∣ o.capacityPixels
  capacity_pos : 0 < o.capacityPixels
  capacity_le : o.capacityPixels ≤ 307200
  pixels_le : o.width * o.height ≤ o.capacityPixels
  inside : o.offsetPixels + o.capacityPixels ≤ count

/-- Two ranges of the arena do not meet. -/
def SurfaceObject.Apart (o o' : SurfaceObject) : Prop :=
  o.offsetPixels + o.capacityPixels ≤ o'.offsetPixels
    ∨ o'.offsetPixels + o'.capacityPixels ≤ o.offsetPixels

structure ArenaInv (s : Surfaces) : Prop where
  placed : ∀ i < surfaceLimit, (s.objects i).active = true →
    (s.objects i).Placed s.pixelArenaCount
  apart : ∀ i < surfaceLimit, ∀ j < surfaceLimit, i ≠ j → (s.objects i).active = true →
    (s.objects j).active = true → (s.objects i).Apart (s.objects j)
  zero : ∀ a < s.pixelArenaCount,
    (∀ i < surfaceLimit, (s.objects i).active = true → ¬ (s.objects i).Holds a) → s.pixels a = 0

theorem SurfaceObject.Apart.symm {o o' : SurfaceObject} (h : o.Apart o') : o'.Apart o := Or.symm h

theorem SurfaceObject.Apart.not_holds {o o' : SurfaceObject} (h : o.Apart o') {a : ℕ}
    (ha : o.Holds a) : ¬ o'.Holds a := by
  unfold Apart at h
  unfold Holds at ha ⊢
  omega

/-! ## The search -/

theorem overlaps_eq_true {offset capacity : ℕ} :
    s.overlaps offset capacity = true ↔ ∃ i < surfaceLimit, (s.objects i).active = true
      ∧ offset < (s.objects i).offsetPixels + (s.objects i).capacityPixels
      ∧ (s.objects i).offsetPixels < offset + capacity := by
  simp [overlaps, and_assoc]

theorem searchOffset_spec {capacity : ℕ} :
    ∀ (fuel offset : ℕ) {r : ℕ}, s.searchOffset capacity fuel offset = some r →
      ∃ k, r = offset + 1024 * k ∧ r + capacity ≤ s.pixelArenaCount
        ∧ s.overlaps r capacity = false
        ∧ ∀ j < k, s.overlaps (offset + 1024 * j) capacity = true
  | 0, _, _, h => by simp [searchOffset] at h
  | fuel + 1, offset, r, h => by
    simp only [searchOffset] at h
    split_ifs at h with hfit hov
    · obtain ⟨k, rfl, hin, hfree, hall⟩ := searchOffset_spec fuel (offset + 1024) h
      refine ⟨k + 1, by omega, hin, hfree, fun j hj => ?_⟩
      rcases j with _ | j
      · simpa using hov
      · have := hall j (by omega)
        rwa [show offset + 1024 * (j + 1) = offset + 1024 + 1024 * j by omega]
    · simp only [Option.some.injEq] at h
      subst h
      exact ⟨0, by simp, by omega, by simpa using hov, fun j hj => by omega⟩

theorem meets_card {o : SurfaceObject} {count capacity : ℕ} (ho : o.Placed count)
    (hc : capacity ≤ 307200) (k : ℕ) :
    ((Finset.range k).filter fun j => 1024 * j < o.offsetPixels + o.capacityPixels
      ∧ o.offsetPixels < 1024 * j + capacity).card ≤ 602 := by
  have hsub : ((Finset.range k).filter fun j => 1024 * j < o.offsetPixels + o.capacityPixels
      ∧ o.offsetPixels < 1024 * j + capacity)
      ⊆ Finset.Icc ((o.offsetPixels - capacity) / 1024)
          ((o.offsetPixels + o.capacityPixels) / 1024) := by
    intro j hj
    simp only [Finset.mem_filter, Finset.mem_range, Finset.mem_Icc] at hj ⊢
    omega
  refine (Finset.card_le_card hsub).trans ?_
  have := ho.capacity_le
  rw [Nat.card_Icc]
  omega

theorem searchOffset_lt (hI : ArenaInv s) {capacity fuel r : ℕ}
    (hc : capacity ≤ 307200) (h : s.searchOffset capacity fuel 0 = some r) : r < 2 ^ 32 := by
  obtain ⟨k, rfl, -, -, hall⟩ := searchOffset_spec fuel 0 h
  let near (i : ℕ) : Finset ℕ := if (s.objects i).active then
    (Finset.range k).filter fun j =>
      1024 * j < (s.objects i).offsetPixels + (s.objects i).capacityPixels
        ∧ (s.objects i).offsetPixels < 1024 * j + capacity else ∅
  have hcover : Finset.range k ⊆ (Finset.range surfaceLimit).biUnion near := by
    intro j hj
    have hov := hall j (Finset.mem_range.1 hj)
    rw [Nat.zero_add] at hov
    obtain ⟨i, hi, hact, hlt, hgt⟩ := overlaps_eq_true.1 hov
    simp only [Finset.mem_biUnion, Finset.mem_range]
    exact ⟨i, hi, by simp only [near, hact, if_true, Finset.mem_filter]; exact ⟨hj, hlt, hgt⟩⟩
  have hnear : ∀ i ∈ Finset.range surfaceLimit, (near i).card ≤ 602 := by
    intro i hi
    simp only [near]
    split_ifs with hact
    · exact meets_card (hI.placed i (Finset.mem_range.1 hi) hact) hc k
    · simp
  have hk : k ≤ 8 * 602 :=
    calc k = (Finset.range k).card := (Finset.card_range k).symm
      _ ≤ ((Finset.range surfaceLimit).biUnion near).card := Finset.card_le_card hcover
      _ ≤ ∑ i ∈ Finset.range surfaceLimit, (near i).card := Finset.card_biUnion_le
      _ ≤ (Finset.range surfaceLimit).card * 602 :=
        Finset.sum_le_card_nsmul _ _ _ hnear
      _ = 8 * 602 := by rw [Finset.card_range]; rfl
  omega

theorem roundCapacity_spec {width height : ℕ} (hw : 0 < width) (hw' : width ≤ surfaceMaxWidth)
    (hh : 0 < height) (hh' : height ≤ surfaceMaxHeight) :
    1024 ∣ roundCapacity (width * height) ∧ 0 < roundCapacity (width * height)
      ∧ roundCapacity (width * height) ≤ 307200
      ∧ width * height ≤ roundCapacity (width * height) := by
  have hpos : 0 < width * height := Nat.mul_pos hw hh
  unfold surfaceMaxWidth at hw'
  unfold surfaceMaxHeight at hh'
  have hle : width * height ≤ 307200 := by simpa using Nat.mul_le_mul hw' hh'
  unfold roundCapacity
  exact ⟨Nat.dvd_mul_left _ _, by omega, by omega, by omega⟩

/-! ## The calls -/

theorem arenaInv_init {arena arenaBytes : ℕ}
    (h : s.surfacesInit arena arenaBytes = some s') : ArenaInv s' := by
  unfold surfacesInit at h
  split_ifs at h
  simp only [Option.some.injEq] at h
  subst h
  have hoff : ∀ i < surfaceLimit, ∀ o : SurfaceObject,
      (if i < surfaceLimit then ({} : SurfaceObject) else o).active = false := by
    intro i hi o
    rw [if_pos hi]
  refine ⟨fun i hi ha => ?_, fun i hi j _ _ ha => ?_, fun a ha _ => ?_⟩
  · simp [hoff i hi] at ha
  · simp [hoff i hi] at ha
  · simp only at ha ⊢
    rw [if_pos ha]

theorem surfaceCreate_placed (hI : ArenaInv s) {ownerPid width height id : ℕ}
    (h : s.surfaceCreate ownerPid width height = some (id, s')) :
    ∃ i o, id = i + 1 ∧ i < surfaceLimit ∧ (s.objects i).active = false
      ∧ s' = s.setObject i o ∧ o.ownerPid = ownerPid ∧ o.width = width ∧ o.height = height
      ∧ o.references = 0 ∧ o.active = true ∧ o.Placed s.pixelArenaCount
      ∧ ∀ j < surfaceLimit, (s.objects j).active = true → o.Apart (s.objects j) := by
  obtain ⟨i, offset, rfl, hi, hfree, -, hw, hw', hh, hh', hsearch, rfl⟩ := surfaceCreate_spec h
  obtain ⟨hdvd, hpos, hle, hpix⟩ := roundCapacity_spec hw hw' hh hh'
  have hlt := searchOffset_lt hI hle hsearch
  obtain ⟨k, hk, hin, hno, -⟩ := searchOffset_spec _ _ hsearch
  have hcap : roundCapacity (width * height) % 2 ^ 32 = roundCapacity (width * height) :=
    Nat.mod_eq_of_lt (by omega)
  rw [Nat.mod_eq_of_lt hlt, hcap]
  refine ⟨i, _, rfl, hi, hfree, rfl, rfl, rfl, rfl, rfl, rfl,
    ⟨⟨k, by simpa using hk⟩, hdvd, hpos, hle, hpix, hin⟩, fun j hj hact => ?_⟩
  have hnot : ¬ ∃ i < surfaceLimit, _ := fun hex =>
    Bool.false_ne_true (hno.symm.trans (overlaps_eq_true.2 hex))
  simp only [not_exists, not_and, not_lt] at hnot
  have := hnot j hj hact
  unfold SurfaceObject.Apart
  simp only
  by_cases hlt' : offset < (s.objects j).offsetPixels + (s.objects j).capacityPixels
  · exact .inl (this hlt')
  · exact .inr (by omega)

theorem arenaInv_create (hI : ArenaInv s) {ownerPid width height id : ℕ}
    (h : s.surfaceCreate ownerPid width height = some (id, s')) : ArenaInv s' := by
  obtain ⟨i, o, -, hi, hfree, rfl, -, -, -, -, hact, hplaced, hapart⟩ :=
    surfaceCreate_placed hI h
  refine ⟨fun j hj ha => ?_, fun j hj l hl hne ha hb => ?_, fun a ha hout => ?_⟩
  · rcases eq_or_ne j i with rfl | hji
    · simpa using hplaced
    · simp only [setObject_objects, Function.update_of_ne hji] at ha ⊢
      exact hI.placed j hj ha
  · rcases eq_or_ne j i with rfl | hji
    · have hlj : l ≠ j := Ne.symm hne
      simp only [setObject_objects, Function.update_self, Function.update_of_ne hlj] at hb ⊢
      exact hapart l hl hb
    · rcases eq_or_ne l i with rfl | hli
      · simp only [setObject_objects, Function.update_self, Function.update_of_ne hji] at ha ⊢
        exact (hapart j hj ha).symm
      · simp only [setObject_objects, Function.update_of_ne hji, Function.update_of_ne hli]
          at ha hb ⊢
        exact hI.apart j hj l hl hne ha hb
  · refine hI.zero a ha fun j hj hja => ?_
    have hji : j ≠ i := by
      rintro rfl
      simp [hfree] at hja
    have := hout j hj
    simp only [setObject_objects, Function.update_of_ne hji] at this
    exact this hja

theorem arenaInv_setObject (hI : ArenaInv s) {i : ℕ} {o : SurfaceObject}
    (hw : o.width = (s.objects i).width) (hh : o.height = (s.objects i).height)
    (ho : o.offsetPixels = (s.objects i).offsetPixels)
    (hc : o.capacityPixels = (s.objects i).capacityPixels)
    (ha : o.active = (s.objects i).active) : ArenaInv (s.setObject i o) := by
  have hsame : ∀ j, ((s.setObject i o).objects j).width = (s.objects j).width
      ∧ ((s.setObject i o).objects j).height = (s.objects j).height
      ∧ ((s.setObject i o).objects j).offsetPixels = (s.objects j).offsetPixels
      ∧ ((s.setObject i o).objects j).capacityPixels = (s.objects j).capacityPixels
      ∧ ((s.setObject i o).objects j).active = (s.objects j).active := by
    intro j
    rcases eq_or_ne j i with rfl | hji
    · simp [hw, hh, ho, hc, ha]
    · simp [hji]
  refine ⟨fun j hj hact => ?_, fun j hj l hl hne hact hact' => ?_, fun a hlt hout => ?_⟩
  · obtain ⟨e1, e2, e3, e4, e5⟩ := hsame j
    obtain ⟨p1, p2, p3, p4, p5, p6⟩ := hI.placed j hj (e5 ▸ hact)
    exact ⟨e3 ▸ p1, e4 ▸ p2, e4 ▸ p3, e4 ▸ p4, by rw [e1, e2, e4]; exact p5,
      by rw [e3, e4]; exact p6⟩
  · obtain ⟨-, -, e3, e4, e5⟩ := hsame j
    obtain ⟨-, -, f3, f4, f5⟩ := hsame l
    have := hI.apart j hj l hl hne (e5 ▸ hact) (f5 ▸ hact')
    unfold SurfaceObject.Apart at this ⊢
    rwa [e3, e4, f3, f4]
  · refine hI.zero a hlt fun j hj hja => ?_
    obtain ⟨-, -, e3, e4, e5⟩ := hsame j
    have := hout j hj (e5.trans hja)
    unfold SurfaceObject.Holds at this ⊢
    rwa [e3, e4] at this

theorem arenaInv_clearObject (hI : ArenaInv s) (i : ℕ) :
    ArenaInv (s.clearObject i) := by
  have hother : ∀ j, ((s.clearObject i).objects j).active = true →
      j ≠ i ∧ (s.clearObject i).objects j = s.objects j ∧ (s.objects j).active = true := by
    intro j hj
    rcases eq_or_ne j i with rfl | hji
    · simp at hj
    · have he : (s.clearObject i).objects j = s.objects j := by simp [hji]
      exact ⟨hji, he, he ▸ hj⟩
  refine ⟨fun j hj ha => ?_, fun j hj l hl hne ha hb => ?_, fun a ha hout => ?_⟩
  · obtain ⟨-, he, hact⟩ := hother j ha
    rw [he]
    exact hI.placed j hj hact
  · obtain ⟨-, he, hact⟩ := hother j ha
    obtain ⟨-, hf, hact'⟩ := hother l hb
    rw [he, hf]
    exact hI.apart j hj l hl hne hact hact'
  · simp only [clearObject]
    split_ifs with hin
    · rfl
    · refine hI.zero a ha fun j hj hja => ?_
      rcases eq_or_ne j i with rfl | hji
      · exact hin
      · have := hout j hj
        simp only [clearObject_objects, Function.update_of_ne hji] at this
        exact this hja

theorem arenaInv_write (hI : ArenaInv s) {id pixelOffset : ℕ}
    {data : List UInt32} (h : s.surfaceWrite id pixelOffset data = some s') : ArenaInv s' := by
  unfold surfaceWrite at h
  split at h
  · cases h
  · rename_i i hi
    obtain ⟨-, hlt, hact⟩ := resolve_eq_some.1 hi
    split_ifs at h with hbad
    simp only [not_or, not_lt, Option.some.injEq] at hbad h
    subst h
    refine ⟨hI.placed, hI.apart, fun a ha hout => ?_⟩
    have hnot := hout i hlt hact
    have hroom := (hI.placed i hlt hact).pixels_le
    simp only
    split_ifs with hin
    · exfalso
      apply hnot
      unfold SurfaceObject.Holds
      simp only
      omega
    · exact hI.zero a ha hout

theorem surfaceStep_inv (s : Surfaces) (op : SurfaceOp) (hI : ArenaInv s) :
    ArenaInv (surfaceStep s op) := by
  cases op with
  | create ownerPid width height =>
    simp only [surfaceStep]
    rcases h : s.surfaceCreate ownerPid width height with _ | ⟨id, s'⟩
    · exact hI
    · exact arenaInv_create hI h
  | retain id =>
    simp only [surfaceStep]
    rcases h : s.surfaceRetain id with _ | s'
    · exact hI
    · obtain ⟨i, -, rfl⟩ := surfaceRetain_spec h
      exact arenaInv_setObject hI rfl rfl rfl rfl rfl
  | release id =>
    simp only [surfaceStep]
    rcases h : s.surfaceRelease id with _ | s'
    · exact hI
    · obtain ⟨i, -, -, ⟨-, rfl⟩ | ⟨-, rfl⟩⟩ := surfaceRelease_spec h
      · exact arenaInv_clearObject hI i
      · exact arenaInv_setObject hI rfl rfl rfl rfl rfl
  | discard id =>
    simp only [surfaceStep]
    rcases h : s.surfaceDiscard id with _ | s'
    · exact hI
    · obtain ⟨i, -, -, rfl⟩ := surfaceDiscard_spec h
      exact arenaInv_clearObject hI i
  | write id pixelOffset data =>
    simp only [surfaceStep]
    rcases h : s.surfaceWrite id pixelOffset data with _ | s'
    · exact hI
    · exact arenaInv_write hI h

theorem surfaceStep_count (s : Surfaces) (op : SurfaceOp) :
    (surfaceStep s op).pixelArenaCount = s.pixelArenaCount := by
  cases op with
  | create ownerPid width height =>
    simp only [surfaceStep]
    rcases h : s.surfaceCreate ownerPid width height with _ | ⟨id, s'⟩
    · rfl
    · obtain ⟨i, offset, -, -, -, -, -, -, -, -, -, rfl⟩ := surfaceCreate_spec h
      rfl
  | retain id =>
    simp only [surfaceStep, surfaceRetain]
    split
    · rfl
    · split_ifs <;> rfl
  | release id =>
    simp only [surfaceStep, surfaceRelease]
    split
    · rfl
    · split_ifs <;> rfl
  | discard id =>
    simp only [surfaceStep, surfaceDiscard]
    split
    · rfl
    · split_ifs <;> rfl
  | write id pixelOffset data =>
    simp only [surfaceStep, surfaceWrite]
    split
    · rfl
    · split_ifs <;> rfl

theorem surfaceCreate_zero (hI : ArenaInv s) {ownerPid width height id : ℕ}
    (h : s.surfaceCreate ownerPid width height = some (id, s')) :
    ∃ start, s'.surfaceData id = some (start, width * height, width, height)
      ∧ ∀ n < width * height, s'.pixels (start + n) = 0 := by
  obtain ⟨i, o, rfl, hi, -, rfl, -, rfl, rfl, -, hact, hplaced, hapart⟩ :=
    surfaceCreate_placed hI h
  have hres : (s.setObject i o).resolve (i + 1) = some i :=
    resolve_eq_some.2 ⟨rfl, hi, by simpa using hact⟩
  refine ⟨o.offsetPixels, by simp [surfaceData, hres], fun n hn => ?_⟩
  have hin := hplaced.inside
  have hroom := hplaced.pixels_le
  refine hI.zero _ (by omega) fun j hj hja => (hapart j hj hja).not_holds ?_
  unfold SurfaceObject.Holds
  omega

/-- After any run of calls on a fresh arena, the active ranges are aligned, inside the arena and
pairwise apart, every pixel outside them is zero, and a surface created next reads zero
everywhere. -/
theorem surface_arena_separated_and_zero {s₀ s₁ : Surfaces} {arena arenaBytes : ℕ}
    (hinit : s₀.surfacesInit arena arenaBytes = some s₁) (ops : List SurfaceOp) :
    ArenaInv (Machine.run surfaceStep s₁ ops)
      ∧ (Machine.run surfaceStep s₁ ops).pixelArenaCount = arenaBytes / 4
      ∧ ∀ ownerPid width height id s₂,
        (Machine.run surfaceStep s₁ ops).surfaceCreate ownerPid width height = some (id, s₂) →
        ∃ start, s₂.surfaceData id = some (start, width * height, width, height)
          ∧ ∀ n < width * height, s₂.pixels (start + n) = 0 := by
  have hI := Machine.run_inv surfaceStep surfaceStep_inv ops s₁ (arenaInv_init hinit)
  refine ⟨hI, ?_, fun ownerPid width height id s₂ => surfaceCreate_zero hI⟩
  refine Machine.run_inv surfaceStep (I := fun s => s.pixelArenaCount = arenaBytes / 4)
    (fun s op hs => (surfaceStep_count s op).trans hs) ops s₁ ?_
  unfold surfacesInit at hinit
  split_ifs at hinit
  simp only [Option.some.injEq] at hinit
  rw [← hinit]

theorem surface_arena_separated_kernel_arena :
    ({} : Surfaces).surfacesInit 0x1000000 surfaceArenaBytes
        = some (freshArena 0x1000000 surfaceArenaBytes)
      ∧ ArenaInv (Machine.run surfaceStep (freshArena 0x1000000 surfaceArenaBytes)
          [.create 3 64 64, .retain 1, .write 1 5 [7, 8], .create 4 100 40, .release 1]) := by
  have hinit : ({} : Surfaces).surfacesInit 0x1000000 surfaceArenaBytes
      = some (freshArena 0x1000000 surfaceArenaBytes) := rfl
  exact ⟨hinit, (surface_arena_separated_and_zero hinit _).1⟩

end DemonOS

/-!
## The allocation of surfaces

The search tries the offsets that are multiples of 1024. The active ranges are aligned, so where
there is room at all there is room at such an offset: a run of free pixels that starts between two
of them can be moved down to the lower one (`FreeRun.align`). A create therefore fails for want of
room just when there is none (`surface_create_complete`).
-/

namespace DemonOS

open Surfaces

variable {s : Surfaces}

/-- The pixels from `start` on lie in the arena, and no active surface holds one of them. -/
structure FreeRun (s : Surfaces) (start length : ℕ) : Prop where
  inside : start + length ≤ s.pixelArenaCount
  free : ∀ a, start ≤ a → a < start + length →
    ∀ i < surfaceLimit, (s.objects i).active = true → ¬(s.objects i).Holds a

structure Creatable (ownerPid width height : ℕ) : Prop where
  owner : ownerPid ≠ 0
  width_pos : 0 < width
  width_le : width ≤ surfaceMaxWidth
  height_pos : 0 < height
  height_le : height ≤ surfaceMaxHeight

/-- Before the arena is set up it holds nothing. -/
def Unset (s : Surfaces) : Prop := s.pixelArena = 0 → s.pixelArenaCount = 0

/-! ### The search -/

theorem freeRun_iff (hI : ArenaInv s) {offset capacity : ℕ} (hc : 0 < capacity) :
    FreeRun s offset capacity
      ↔ offset + capacity ≤ s.pixelArenaCount ∧ s.overlaps offset capacity = false := by
  constructor
  · intro h
    refine ⟨h.inside, Bool.eq_false_iff.2 fun hov => ?_⟩
    obtain ⟨i, hi, hact, hlt, hgt⟩ := overlaps_eq_true.1 hov
    have hpos := (hI.placed i hi hact).capacity_pos
    refine h.free (max offset (s.objects i).offsetPixels) (by omega) (by omega) i hi hact ?_
    unfold SurfaceObject.Holds
    omega
  · rintro ⟨hin, hno⟩
    refine ⟨hin, fun a ha ha' i hi hact hholds => ?_⟩
    refine Bool.false_ne_true (hno.symm.trans (overlaps_eq_true.2 ⟨i, hi, hact, ?_⟩))
    unfold SurfaceObject.Holds at hholds
    omega

/-- A free run of whole blocks can be moved down to the block it starts in. -/
theorem FreeRun.align (hI : ArenaInv s) {start capacity : ℕ}
    (h : FreeRun s start capacity) (hdvd : 1024 ∣ capacity) :
    FreeRun s (1024 * (start / 1024)) capacity := by
  have hle := Nat.mul_div_le start 1024
  refine ⟨(Nat.add_le_add_right hle _).trans h.inside, fun a ha ha' i hi hact hholds => ?_⟩
  obtain ⟨first, hfirst⟩ := (hI.placed i hi hact).offset_dvd
  obtain ⟨blocks, hblocks⟩ := (hI.placed i hi hact).capacity_dvd
  -- the range of the surface reaches past the start, so it holds a pixel of the run itself
  refine h.free (max start (s.objects i).offsetPixels) (by omega) ?_ i hi hact ?_
  · unfold SurfaceObject.Holds at hholds
    omega
  · unfold SurfaceObject.Holds at hholds ⊢
    omega

theorem searchOffset_isSome {capacity : ℕ} :
    ∀ (fuel offset k : ℕ), k < fuel → offset + 1024 * k + capacity ≤ s.pixelArenaCount →
      s.overlaps (offset + 1024 * k) capacity = false →
      ∃ r, s.searchOffset capacity fuel offset = some r
  | 0, _, _, hk, _, _ => absurd hk (Nat.not_lt_zero _)
  | fuel + 1, offset, k, hk, hin, hno => by
    unfold searchOffset
    rw [if_pos (by omega)]
    split_ifs with hov
    · rcases k with _ | k
      · rw [Nat.mul_zero, Nat.add_zero, hov] at hno
        cases hno
      · refine searchOffset_isSome fuel (offset + 1024) k (by omega) (by omega) ?_
        rwa [show offset + 1024 + 1024 * k = offset + 1024 * (k + 1) by omega]
    · exact ⟨offset, rfl⟩

theorem searchOffset_eq_some_iff (hI : ArenaInv s) {capacity : ℕ}
    (hc : 0 < capacity) {r : ℕ} :
    s.searchOffset capacity (s.pixelArenaCount / 1024 + 1) 0 = some r
      ↔ 1024 ∣ r ∧ FreeRun s r capacity
        ∧ ∀ start < r, 1024 ∣ start → ¬FreeRun s start capacity := by
  have hlow : ∀ r, s.searchOffset capacity (s.pixelArenaCount / 1024 + 1) 0 = some r →
      1024 ∣ r ∧ FreeRun s r capacity
        ∧ ∀ start < r, 1024 ∣ start → ¬FreeRun s start capacity := by
    intro r h
    obtain ⟨k, rfl, hin, hno, hall⟩ := searchOffset_spec _ _ h
    refine ⟨⟨k, by omega⟩, (freeRun_iff hI hc).2 ⟨hin, hno⟩, ?_⟩
    rintro _ hlt ⟨j, rfl⟩ hfree
    have hov := hall j (by omega)
    rw [Nat.zero_add] at hov
    exact Bool.false_ne_true (((freeRun_iff hI hc).1 hfree).2.symm.trans hov)
  refine ⟨hlow r, ?_⟩
  rintro ⟨⟨k, rfl⟩, hfree, hleast⟩
  obtain ⟨hin, hno⟩ := (freeRun_iff hI hc).1 hfree
  obtain ⟨r', hr'⟩ := searchOffset_isSome (s := s) (s.pixelArenaCount / 1024 + 1) 0 k (by omega)
    (by rwa [Nat.zero_add]) (by rwa [Nat.zero_add])
  obtain ⟨hdvd', hfree', hleast'⟩ := hlow r' hr'
  rcases Nat.lt_trichotomy (1024 * k) r' with hlt | heq | hgt
  · exact absurd hfree (hleast' _ hlt (Nat.dvd_mul_right _ _))
  · rw [hr', heq]
  · exact absurd hfree' (hleast _ hgt hdvd')

/-! ### Creating -/

theorem surfaceCreate_isSome_iff (hI : ArenaInv s) (hU : Unset s)
    (ownerPid width height : ℕ) :
    (s.surfaceCreate ownerPid width height).isSome = true
      ↔ Creatable ownerPid width height ∧ (∃ i < surfaceLimit, (s.objects i).active = false)
        ∧ ∃ start, FreeRun s start (roundCapacity (width * height)) := by
  constructor
  · intro h
    obtain ⟨⟨id, s'⟩, hs⟩ := Option.isSome_iff_exists.1 h
    obtain ⟨i, offset, -, hi, hfree, howner, hw, hw', hh, hh', hsearch, -⟩ := surfaceCreate_spec hs
    have hpos := (roundCapacity_spec hw hw' hh hh').2.1
    exact ⟨⟨howner, hw, hw', hh, hh'⟩, ⟨i, hi, hfree⟩, offset,
      ((searchOffset_eq_some_iff hI hpos).1 hsearch).2.1⟩
  · rintro ⟨⟨howner, hw, hw', hh, hh'⟩, ⟨i, hi, hfree⟩, start, hrun⟩
    obtain ⟨hdvd, hpos, -, -⟩ := roundCapacity_spec hw hw' hh hh'
    have harena : s.pixelArena ≠ 0 := fun h0 => by
      have := hrun.inside
      rw [hU h0] at this
      omega
    obtain ⟨hin, hno⟩ := (freeRun_iff hI hpos).1 (hrun.align hI hdvd)
    obtain ⟨r, hr⟩ := searchOffset_isSome (s := s) (s.pixelArenaCount / 1024 + 1) 0 (start / 1024)
      (by omega) (by rwa [Nat.zero_add]) (by rwa [Nat.zero_add])
    obtain ⟨slot, hslot⟩ : ∃ slot, Table.firstIndex surfaceLimit
        (fun i => !(s.objects i).active) = some slot := by
      rw [← Option.isSome_iff_exists, Option.isSome_iff_ne_none]
      intro hnone
      have := Table.firstIndex_eq_none.1 hnone i hi
      simp [hfree] at this
    unfold surfaceCreate
    rw [if_neg (by omega), hslot]
    rw [hr]
    rfl

theorem surfaceStep_unset (s : Surfaces) (op : SurfaceOp) (hU : Unset s) :
    Unset (surfaceStep s op) := by
  have harena : (surfaceStep s op).pixelArena = s.pixelArena := by
    cases op with
    | create ownerPid width height =>
      simp only [surfaceStep]
      rcases h : s.surfaceCreate ownerPid width height with _ | ⟨id, s'⟩
      · rfl
      · obtain ⟨i, offset, -, -, -, -, -, -, -, -, -, rfl⟩ := surfaceCreate_spec h
        rfl
    | retain id =>
      simp only [surfaceStep]
      rcases h : s.surfaceRetain id with _ | s'
      · rfl
      · obtain ⟨i, -, rfl⟩ := surfaceRetain_spec h
        rfl
    | release id =>
      simp only [surfaceStep]
      rcases h : s.surfaceRelease id with _ | s'
      · rfl
      · obtain ⟨i, -, -, ⟨-, rfl⟩ | ⟨-, rfl⟩⟩ := surfaceRelease_spec h
        · rfl
        · rfl
    | discard id =>
      simp only [surfaceStep]
      rcases h : s.surfaceDiscard id with _ | s'
      · rfl
      · obtain ⟨i, -, -, rfl⟩ := surfaceDiscard_spec h
        rfl
    | write id pixelOffset data =>
      simp only [surfaceStep, surfaceWrite]
      split
      · rfl
      · split_ifs <;> rfl
  intro h
  rw [harena] at h
  rw [surfaceStep_count]
  exact hU h

theorem freshArena_inv (arena arenaBytes : ℕ) :
    ArenaInv (freshArena arena arenaBytes) ∧ Unset (freshArena arena arenaBytes) := by
  unfold freshArena
  rcases h : ({} : Surfaces).surfacesInit arena arenaBytes with _ | s
  · exact ⟨⟨fun i _ ha => by simp at ha, fun i _ j _ _ ha => by simp at ha,
      fun a ha => absurd ha (Nat.not_lt_zero a)⟩, fun _ => rfl⟩
  · refine ⟨arenaInv_init h, fun h0 => ?_⟩
    unfold surfacesInit at h
    split_ifs at h with hbad
    simp only [Option.some.injEq] at h
    subst h
    exact absurd (.inl h0) hbad

/-- What a create makes of this owner and size: it succeeds just when they are good, an object is
free and the arena has room, wherever it is. It then takes the lowest free range that starts at a
multiple of 1024; where it fails nothing changes. -/
structure CreateComplete (s : Surfaces) (ownerPid width height : ℕ) : Prop where
  succeeds : (s.surfaceCreate ownerPid width height).isSome = true
    ↔ Creatable ownerPid width height ∧ (∃ i < surfaceLimit, (s.objects i).active = false)
      ∧ ∃ start, FreeRun s start (roundCapacity (width * height))
  lowest : ∀ id s', s.surfaceCreate ownerPid width height = some (id, s') →
    ∃ i offset, id = i + 1 ∧ i < surfaceLimit ∧ (s.objects i).active = false
      ∧ s' = s.setObject i
        { ownerPid := ownerPid, width := width, height := height, offsetPixels := offset
          capacityPixels := roundCapacity (width * height), active := true }
      ∧ 1024 ∣ offset ∧ FreeRun s offset (roundCapacity (width * height))
      ∧ ∀ start < offset, 1024 ∣ start → ¬FreeRun s start (roundCapacity (width * height))
  unchanged : s.surfaceCreate ownerPid width height = none →
    surfaceStep s (.create ownerPid width height) = s

theorem createComplete_of_inv (hI : ArenaInv s) (hU : Unset s)
    (ownerPid width height : ℕ) : CreateComplete s ownerPid width height := by
  refine ⟨surfaceCreate_isSome_iff hI hU ownerPid width height, fun id s' h => ?_, fun h => ?_⟩
  · obtain ⟨i, offset, rfl, hi, hfree, -, hw, hw', hh, hh', hsearch, rfl⟩ := surfaceCreate_spec h
    obtain ⟨-, hpos, hle, -⟩ := roundCapacity_spec hw hw' hh hh'
    have hcap : roundCapacity (width * height) % 2 ^ 32 = roundCapacity (width * height) :=
      Nat.mod_eq_of_lt (by omega)
    refine ⟨i, offset, rfl, hi, hfree, ?_, (searchOffset_eq_some_iff hI hpos).1 hsearch⟩
    rw [Nat.mod_eq_of_lt (searchOffset_lt hI hle hsearch), hcap]
  · simp only [surfaceStep, h]
    rfl

/-- Creating is complete after any run of calls on a fresh arena. -/
theorem surface_create_complete (arena arenaBytes : ℕ) (ops : List SurfaceOp)
    (ownerPid width height : ℕ) :
    CreateComplete (Machine.run surfaceStep (freshArena arena arenaBytes) ops) ownerPid width
      height := by
  obtain ⟨hI, hU⟩ := Machine.run_inv surfaceStep (I := fun s => ArenaInv s ∧ Unset s)
    (fun s op h => ⟨surfaceStep_inv s op h.1, surfaceStep_unset s op h.2⟩) ops _
    (freshArena_inv arena arenaBytes)
  exact createComplete_of_inv hI hU ownerPid width height

/-- With everything free, a surface of 64 by 64 pixels that belongs to no process is refused. -/
theorem unowned_surface_refused :
    (∃ i < surfaceLimit,
        ((freshArena 0x1000000 surfaceArenaBytes).objects i).active = false)
      ∧ (∃ start, FreeRun (freshArena 0x1000000 surfaceArenaBytes) start (roundCapacity (64 * 64)))
      ∧ (freshArena 0x1000000 surfaceArenaBytes).surfaceCreate 0 64 64 = none := by
  have hinactive : ∀ i < surfaceLimit,
      ((freshArena 0x1000000 surfaceArenaBytes).objects i).active = false := by decide
  refine ⟨⟨0, by decide, hinactive 0 (by decide)⟩, ⟨0, by decide, fun a _ _ i hi hact => ?_⟩, rfl⟩
  rw [hinactive i hi] at hact
  cases hact

end DemonOS
