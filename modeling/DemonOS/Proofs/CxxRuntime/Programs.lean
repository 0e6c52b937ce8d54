import DemonOS.Proofs.CxxRuntime.Heap
import DemonOS.Lib.Machine

/-!
# Programs on the arena of `operator new`

Rounding a request up and adding the header wraps around for the last 48 values of `size_t`, and
nothing checks for it, so such a request may be answered with a block of a few bytes or of none. All
goes well in a run as long as each of these is turned away (`new_sound_iff`).
-/

namespace DemonOS

open Blocks BlockHeader CxxArena

/-- What a program does with the arena. -/
inductive CxxCall
  | new (bytes : ℕ)
  | delete (pointer : ℕ)
  | store (pointer offset : ℕ) (byte : UInt8)

/-- A program: the arena, and the bytes that it asked for at each of its pointers. -/
structure CxxProgram where
  arena : CxxArena
  live : ℕ → Option ℕ := fun _ => none

namespace CxxProgram

variable (s : CxxProgram)

def OnLive : CxxCall → Prop
  | .new _ => True
  | .delete pointer => pointer = 0 ∨ (s.live pointer).isSome
  | .store pointer offset _ => ∃ size, s.live pointer = some size ∧ offset < size

def step : CxxCall → CxxProgram
  | .new bytes => (s.arena.bumpAllocate bytes).elim s fun result =>
    ⟨result.2,
      if result.1 = 0 then s.live else Function.update s.live result.1 (some bytes)⟩
  | .delete pointer => (s.arena.bumpFree pointer).elim s fun arena =>
    ⟨arena, Function.update s.live pointer none⟩
  | .store pointer offset byte =>
    { s with
      arena := { s.arena with
        memory := Function.update s.arena.memory (pointer + offset) byte } }

def FitsOrFails : CxxCall → Prop
  | .new bytes => bytes + 48 ≤ 2 ^ 64
    ∨ (∀ bs, Arena s.arena.memory s.arena.arena s.arena.highWater bs →
        ∀ b ∈ bs, b.free = true → b.size < alignUp bytes)
      ∧ s.arena.arena + s.arena.arenaBytes - s.arena.highWater < wrap64 (kHeaderSize + alignUp bytes)
  | .delete _ => True
  | .store _ _ _ => True

/-- What is promised of the arena of a program: the list of its blocks, and the pointers that the
program has. -/
structure NewSound (s : CxxProgram) (arena arenaBytes : ℕ) (bs : List Block) : Prop where
  tiles : Tiles kHeaderSize arena s.arena.highWater bs
  top : s.arena.highWater ≤ arena + arenaBytes
  links : Listed s.arena.memory bs 0
  first : s.arena.firstBlock = following bs 0
  merged : Merged bs
  live : ∀ p, (s.live p).isSome ↔ ∃ b ∈ used bs, b.payload kHeaderSize = p
  payload : ∀ p size, s.live p = some size →
    p % 16 = 0 ∧ arena ≤ p ∧ p + size ≤ arena + arenaBytes
  apart : ∀ p size q size', s.live p = some size → s.live q = some size' → p ≠ q →
    p + size ≤ q ∨ q + size' ≤ p
  headers : ∀ p size, s.live p = some size → ∀ b ∈ bs,
    p + size ≤ b.start ∨ b.start + kHeaderSize ≤ p
  allocates : ∀ bytes, (s.arena.bumpAllocate bytes).isSome
  frees : ∀ p, p = 0 ∨ (s.live p).isSome → (s.arena.bumpFree p).isSome

/-- The arena is cut into these blocks, and the program has the pointers of those in use. -/
structure Holds (s : CxxProgram) (a n : ℕ) (bs : List Block) : Prop where
  arena : s.arena.CutInto a n bs
  tracks : Tracks kHeaderSize s.live bs

variable {s : CxxProgram} {call : CxxCall} {a n : ℕ} {bs : List Block}

theorem Holds.live_zero (hs : s.Holds a n bs) : s.live 0 = none := by
  by_contra hlive
  obtain ⟨size, hsize⟩ := Option.ne_none_iff_exists'.1 hlive
  obtain ⟨b, -, hb, -⟩ := hs.tracks.block 0 size hsize
  exact payload_ne_zero b hb

/-- A pointer that the program has is that of a block in use. -/
theorem Holds.block (hs : s.Holds a n bs) {p : ℕ} (hp : (s.live p).isSome) :
    ∃ b ∈ used bs, p = b.payload kHeaderSize := by
  obtain ⟨size, hsize⟩ := Option.isSome_iff_exists.1 hp
  obtain ⟨b, hb, hbp, -⟩ := hs.tracks.block p size hsize
  exact ⟨b, hb, hbp.symm⟩

theorem Holds.sound (hs : s.Holds a n bs) : s.NewSound a n bs := by
  have hhigh := hs.arena.high
  refine ⟨hs.arena.arena.tiles, hhigh, hs.arena.arena.listed, hs.arena.first, hs.arena.merged,
    fun p => ⟨fun hp => ?_, ?_⟩, fun p size hp => ?_, fun p size q size' hp hq hne => ?_,
    fun p size hp c hc => ?_, fun bytes => ?_, fun p hp => ?_⟩
  · obtain ⟨b, hb, hbp⟩ := hs.block hp
    exact ⟨b, hb, hbp.symm⟩
  · rintro ⟨b, hb, rfl⟩
    exact hs.tracks.live b hb
  · obtain ⟨b, hb, rfl, hle⟩ := hs.tracks.block p size hp
    have hbounds := hs.arena.bounds (mem_used.1 hb).1
    have hstart := hs.arena.aligned b (mem_used.1 hb).1
    unfold Block.payload
    rw [kHeaderSize_eq]
    omega
  · obtain ⟨b, hb, rfl, hle⟩ := hs.tracks.block p size hp
    obtain ⟨c, hc, rfl, hle'⟩ := hs.tracks.block q size' hq
    have hapart := hs.arena.arena.tiles.apart (mem_used.1 hb).1 (mem_used.1 hc).1
      (fun hbc => hne (by rw [hbc]))
    unfold Block.payload Block.stop at *
    omega
  · obtain ⟨b, hb, rfl, hle⟩ := hs.tracks.block p size hp
    by_cases hbc : b = c
    · subst hbc
      exact .inr le_rfl
    · have hapart := hs.arena.arena.tiles.apart (mem_used.1 hb).1 hc hbc
      unfold Block.payload Block.stop at *
      omega
  · rcases hs.arena.allocate bytes with ⟨hnull, -⟩ | ⟨u, bs', c', hresult, -⟩
    · rw [hnull]
      rfl
    · rw [hresult]
      rfl
  · rcases hp with rfl | hp
    · rfl
    · obtain ⟨b, hb, rfl⟩ := hs.block hp
      obtain ⟨c', bs', hfree, -⟩ := hs.arena.free hb
      rw [hfree]
      rfl

/-- A call that meets the condition keeps all. -/
theorem Holds.step (hs : s.Holds a n bs) (hlive : s.OnLive call) (hcall : s.FitsOrFails call) :
    ∃ bs', (s.step call).Holds a n bs' := by
  cases call with
  | new bytes =>
    unfold CxxProgram.step
    rcases hs.arena.allocate bytes with ⟨hnull, -⟩ | ⟨u, bs', c', hresult, -, hfits, hprovides⟩
    · dsimp only
      rw [hnull]
      exact ⟨bs, hs⟩
    · have hsmall : bytes + 48 ≤ 2 ^ 64 := by
        refine hcall.resolve_right fun hfails => ?_
        obtain ⟨hnone, hrest⟩ := hfails
        rw [hs.arena.base, hs.arena.bytes] at hrest
        rw [hs.arena.base] at hnone
        rcases hfits with ⟨b, hb, hfree, hle⟩ | hle
        · have hlt := hnone bs hs.arena.arena b hb hfree
          omega
        · omega
      have hp := hprovides hsmall
      dsimp only
      rw [hresult]
      refine ⟨bs', hp.arena, ?_⟩
      dsimp only [Option.elim]
      rw [if_neg (payload_ne_zero u)]
      exact hs.tracks.add hp.adds hp.enough
  | delete p =>
    unfold CxxProgram.step
    rcases hlive with rfl | hp
    · refine ⟨bs, hs.arena, ?_⟩
      have hnone : Function.update s.live 0 none = s.live := by
        rw [← hs.live_zero, Function.update_eq_self]
      dsimp only [bumpFree, Option.elim]
      rw [hnone]
      exact hs.tracks
    · obtain ⟨b, hb, rfl⟩ := hs.block hp
      obtain ⟨c', bs', hfree, harena, hadds, -⟩ := hs.arena.free hb
      dsimp only
      rw [hfree]
      exact ⟨bs', harena, hs.tracks.remove hadds hs.arena.arena.tiles (by decide)⟩
  | store p offset byte =>
    obtain ⟨size, hsize, hoffset⟩ := hlive
    obtain ⟨b, hb, rfl, hle⟩ := hs.tracks.block p size hsize
    refine ⟨bs, hs.arena.fill (mem_used.1 hb).1 fun i hi => Function.update_of_ne ?_ _ _, hs.tracks⟩
    rintro rfl
    unfold Block.payload Block.stop at hi
    omega

/-- A call that does not meet it is answered with fewer bytes than it asked for. -/
theorem Holds.unsound (hs : s.Holds a n bs) (hcall : ¬s.FitsOrFails call) :
    ¬∃ bs', (s.step call).NewSound a n bs' := by
  rintro ⟨bs', hsound⟩
  cases call with
  | new bytes =>
    obtain ⟨hlarge, hfails⟩ := not_or.1 hcall
    have hlow := hs.arena.low
    have hroom := hs.arena.room
    rcases hs.arena.allocate bytes with ⟨-, hnone, hrest⟩ | ⟨u, bs'', c', hresult, hstart, -⟩
    · refine hfails ⟨fun cs hcs b hb => ?_, ?_⟩
      · rw [hs.arena.base] at hcs
        exact hnone b (hcs.unique hs.arena.arena ▸ hb)
      · rw [hs.arena.base, hs.arena.bytes]
        exact hrest
    · have hlive : (s.step (.new bytes)).live (u.payload kHeaderSize) = some bytes := by
        dsimp only [CxxProgram.step]
        rw [hresult]
        dsimp only [Option.elim]
        rw [if_neg (payload_ne_zero u), Function.update_self]
      have hbounds := (hsound.payload _ _ hlive).2.2
      unfold Block.payload at hbounds
      rw [kHeaderSize_eq] at hbounds hroom
      omega
  | delete p => exact hcall trivial
  | store p offset byte => exact hcall trivial

theorem fresh_holds (r : CxxRuntime) (memory : ℕ → UInt8) {arena : ℕ} (hnull : arena ≠ 0)
    (haligned : arena % 16 = 0) (hend : arena + r.arenaBytes + kHeaderSize < 2 ^ 64) :
    Holds ⟨r.fresh memory arena, fun _ => none⟩ arena r.arenaBytes [] := by
  refine ⟨⟨⟨rfl, trivial⟩, List.isChain_nil, by simp, haligned, rfl, rfl, rfl, by omega, ?_, hend⟩,
    ⟨fun p size hp => (by cases hp), by simp [Blocks.used]⟩⟩
  exact Nat.le_add_right _ _

theorem Holds.prefixes_iff : ∀ {calls : List CxxCall} {s : CxxProgram} {bs : List Block},
    s.Holds a n bs → Machine.Meets CxxProgram.step OnLive s calls →
    (Machine.Meets CxxProgram.step (fun s call => ∃ bs, (s.step call).NewSound a n bs) s calls
      ↔ Machine.Meets CxxProgram.step FitsOrFails s calls)
  | [], _, _, _, _ => Iff.rfl
  | call :: calls, s, bs, hs, hlive => by
    unfold Machine.Meets
    by_cases hcall : s.FitsOrFails call
    · obtain ⟨bs', hs'⟩ := hs.step hlive.1 hcall
      have hsound : ∃ bs, (s.step call).NewSound a n bs := ⟨bs', hs'.sound⟩
      rw [hs'.prefixes_iff hlive.2, iff_true_intro hsound, iff_true_intro hcall]
    · exact iff_of_false (fun h => hs.unsound hcall h.1) fun h => hcall h.1

/-- In a run on live pointers the arena is sound after every step just when each request near the
end of `size_t` is turned away. -/
theorem new_sound_iff (r : CxxRuntime) (memory : ℕ → UInt8) {arena : ℕ} (hnull : arena ≠ 0)
    (haligned : arena % 16 = 0) (hend : arena + r.arenaBytes + kHeaderSize < 2 ^ 64)
    (calls : List CxxCall)
    (hcalls : Machine.Meets step OnLive ⟨r.fresh memory arena, fun _ => none⟩ calls) :
    (∀ before, before <+: calls → ∃ bs,
        (Machine.run step ⟨r.fresh memory arena, fun _ => none⟩ before).NewSound arena r.arenaBytes bs)
      ↔ Machine.Meets step FitsOrFails ⟨r.fresh memory arena, fun _ => none⟩ calls := by
  have hs := fresh_holds r memory hnull haligned hend
  rw [← hs.prefixes_iff hcalls]
  exact Machine.prefixes_iff step (I := fun s => ∃ bs, s.NewSound arena r.arenaBytes bs) calls _
    ⟨[], hs.sound⟩

theorem new_sound_iff_reused :
    let calls := [.new 100, .new 24, .delete 65568, .store 65712 23 7, .new 8]
    (∀ before, before <+: calls → ∃ bs, (Machine.run step
        ⟨CxxRuntime.user.fresh (fun _ => 0) 65536, fun _ => none⟩ before).NewSound 65536 32768 bs)
      ↔ Machine.Meets step FitsOrFails
        ⟨CxxRuntime.user.fresh (fun _ => 0) 65536, fun _ => none⟩ calls := by
  intro calls
  exact new_sound_iff .user (fun _ => 0) (by decide) (by decide) (by decide) calls
    ⟨trivial, trivial, .inr (by decide +kernel), ⟨24, by decide +kernel, by decide⟩, trivial, trivial⟩

/-- `operator new(SIZE_MAX)` on the fresh arena of an app: the pointer is not null, and no memory is
behind it. -/
theorem size_max_unsound :
    ¬∃ bs, (step ⟨CxxRuntime.user.fresh (fun _ => 0) 65536, fun _ => none⟩
      (.new (2 ^ 64 - 1))).NewSound 65536 32768 bs := by
  have hs := fresh_holds .user (fun _ => 0) (by decide : 65536 ≠ 0) (by decide) (by decide)
  refine hs.unsound ?_
  rintro (hsmall | ⟨-, hrest⟩)
  · omega
  · exact absurd hrest (by decide)

end CxxProgram

end DemonOS
