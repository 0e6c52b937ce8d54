import DemonOS.Proofs.PortKit.Calls
import DemonOS.Lib.Machine

/-!
# Programs on the port kit's heap

A program calls the heap with the pointers that it has and stores within what it asked for. The heap
stays cut into blocks, and the blocks in use are those of the program's pointers (`Tracks`), whatever
the calls are (`Holds.step`); `heap_sound` says what that is worth to the program.
-/

namespace DemonOS

open Blocks PortBlock

/-- What a program does with the heap. -/
inductive PortCall
  | malloc (size : ℕ)
  | calloc (count size : ℕ)
  | realloc (pointer size : ℕ)
  | free (pointer : ℕ)
  | store (pointer offset : ℕ) (byte : UInt8)

/-- A program: the heap, and the bytes that it asked for at each of its pointers. -/
structure PortProgram where
  heap : PortHeap
  live : ℕ → Option ℕ := fun _ => none

namespace PortProgram

variable (s : PortProgram)

def OnLive : PortCall → Prop
  | .malloc _ => True
  | .calloc _ _ => True
  | .realloc pointer _ => pointer = 0 ∨ (s.live pointer).isSome
  | .free pointer => pointer = 0 ∨ (s.live pointer).isSome
  | .store pointer offset _ => ∃ size, s.live pointer = some size ∧ offset < size

def answer : PortCall → Option (ℕ × PortHeap)
  | .malloc size => s.heap.demonPortMalloc size
  | .calloc count size => s.heap.demonPortCalloc count size
  | .realloc pointer size => s.heap.demonPortRealloc pointer size
  | .free pointer => some (0, s.heap.demonPortFree pointer)
  | .store pointer offset byte =>
    some (0, { s.heap with memory := Function.update s.heap.memory (pointer + offset) byte })

def noted (result : ℕ) : PortCall → ℕ → Option ℕ
  | .malloc size => if result = 0 then s.live else Function.update s.live result (some size)
  | .calloc count size =>
    if result = 0 then s.live else Function.update s.live result (some (count * size))
  | .realloc pointer size =>
    if result = 0 then if size = 0 then Function.update s.live pointer none else s.live
    else Function.update (Function.update s.live pointer none) result (some size)
  | .free pointer => Function.update s.live pointer none
  | .store _ _ _ => s.live

def step (call : PortCall) : PortProgram :=
  (s.answer call).elim s fun result => ⟨result.2, s.noted result.1 call⟩

end PortProgram

variable {bs bs' : List Block} {b u : Block} {a e size : ℕ}

namespace PortProgram

variable {s : PortProgram} {call : PortCall}

/-- The heap is cut into these blocks, and the program has the pointers of those in use. -/
structure Holds (s : PortProgram) (a e : ℕ) (bs : List Block) : Prop where
  heap : s.heap.CutInto a e bs
  tracks : Tracks sizeofPortBlock s.live bs

theorem Holds.live_zero (hs : s.Holds a e bs) : s.live 0 = none := by
  by_contra hlive
  obtain ⟨size, hsize⟩ := Option.ne_none_iff_exists'.1 hlive
  obtain ⟨b, -, hb, -⟩ := hs.tracks.block 0 size hsize
  unfold Block.payload sizeofPortBlock at hb
  omega

/-- A pointer that the program has is that of a block in use. -/
theorem Holds.block (hs : s.Holds a e bs) {p : ℕ} (hp : (s.live p).isSome) :
    ∃ b ∈ used bs, p = b.payload sizeofPortBlock := by
  obtain ⟨size, hsize⟩ := Option.isSome_iff_exists.1 hp
  obtain ⟨b, hb, hbp, -⟩ := hs.tracks.block p size hsize
  exact ⟨b, hb, hbp.symm⟩

theorem step_of_answer {result : ℕ × PortHeap} (hanswer : s.answer call = some result) :
    s.step call = ⟨result.2, s.noted result.1 call⟩ := by
  unfold step
  rw [hanswer]
  rfl

/-- The call returns, and what it leaves is cut into blocks again. -/
def Keeps (s : PortProgram) (a e : ℕ) (call : PortCall) : Prop :=
  ∃ result bs, s.answer call = some result ∧ result.2.CutInto a e bs
    ∧ Tracks sizeofPortBlock (s.noted result.1 call) bs

theorem Holds.malloc (hs : s.Holds a e bs) (size : ℕ) : s.Keeps a e (.malloc size) := by
  rcases hs.heap.malloc size with ⟨hnull, -⟩ | ⟨u, bs', result, hresult, hp⟩
  · exact ⟨_, bs, hnull, hs.heap, hs.tracks⟩
  · refine ⟨result, bs', hresult, hp.heap, ?_⟩
    dsimp only [noted]
    rw [if_neg hp.ne_zero, hp.pointer]
    exact hs.tracks.add hp.adds hp.enough

theorem Holds.calloc (hs : s.Holds a e bs) (count size : ℕ) : s.Keeps a e (.calloc count size) := by
  rcases hs.heap.calloc count size with hnull | ⟨u, bs', result, hresult, hp, -⟩
  · exact ⟨_, bs, hnull, hs.heap, hs.tracks⟩
  · refine ⟨result, bs', hresult, hp.heap, ?_⟩
    dsimp only [noted]
    rw [if_neg hp.ne_zero, hp.pointer]
    exact hs.tracks.add hp.adds hp.enough

theorem Holds.update_zero (hs : s.Holds a e bs) : Function.update s.live 0 none = s.live := by
  rw [← hs.live_zero, Function.update_eq_self]

theorem Holds.free (hs : s.Holds a e bs) {p : ℕ} (hp : s.OnLive (.free p)) :
    s.Keeps a e (.free p) := by
  rcases hp with rfl | hp
  · refine ⟨_, bs, rfl, hs.heap, ?_⟩
    dsimp only [noted]
    rw [hs.update_zero]
    exact hs.tracks
  · obtain ⟨b, hb, rfl⟩ := hs.block hp
    obtain ⟨bs', hheap, hadds, -⟩ := hs.heap.free hb
    exact ⟨_, bs', rfl, hheap, hs.tracks.remove hadds hs.heap.arena.tiles (by decide)⟩

theorem Holds.realloc (hs : s.Holds a e bs) {p size : ℕ} (hp : s.OnLive (.realloc p size)) :
    s.Keeps a e (.realloc p size) := by
  rcases hp with rfl | hp
  · obtain ⟨result, bs', hresult, hheap, htracks⟩ := hs.malloc size
    refine ⟨result, bs', hresult, hheap, ?_⟩
    dsimp only [noted] at htracks ⊢
    rw [hs.update_zero]
    split_ifs at htracks ⊢ <;> exact htracks
  · obtain ⟨b, hb, rfl⟩ := hs.block hp
    by_cases hzero : size = 0
    · obtain ⟨bs', hheap, hadds, -⟩ := hs.heap.free hb
      subst hzero
      refine ⟨_, bs', PortHeap.realloc_zero s.heap b, hheap, ?_⟩
      dsimp only [noted]
      rw [if_pos rfl, if_pos rfl]
      exact hs.tracks.remove hadds hs.heap.arena.tiles (by decide)
    · by_cases hfits : size ≤ b.size
      · refine ⟨_, bs, hs.heap.realloc_fits hb hzero hfits, hs.heap, ?_⟩
        dsimp only [noted]
        rw [if_neg (PortHeap.payload_ne_zero b), Function.update_idem]
        exact hs.tracks.resize hb hfits
      · rcases hs.heap.realloc hb (Nat.lt_of_not_le hfits) with hnull
          | ⟨u, mid, bs', result, hresult, hpointer, hheap, hadds, hadds', htiles, henough, -⟩
        · refine ⟨(0, s.heap), bs, hnull, hs.heap, ?_⟩
          dsimp only [noted]
          rw [if_pos rfl, if_neg hzero]
          exact hs.tracks
        · refine ⟨result, bs', hresult, hheap, ?_⟩
          have hne : u.payload sizeofPortBlock ≠ b.payload sizeofPortBlock := by
            intro hub
            have hu := (mem_used.1 (hadds.mem_iff.2 (.inl rfl))).1
            have hub : u = b := htiles.eq_of_start (by decide) hu
              (mem_used.1 (hadds.mem_iff.2 (.inr hb))).1 (Nat.add_right_cancel hub)
            exact hadds.notMem htiles (by decide) (hub ▸ hb)
          have htracks := (hs.tracks.add hadds henough).remove hadds' htiles (by decide)
          rw [Function.update_comm hne] at htracks
          dsimp only [noted]
          rw [hpointer, if_neg (PortHeap.payload_ne_zero u)]
          exact htracks

theorem Holds.store (hs : s.Holds a e bs) {p offset : ℕ} {byte : UInt8}
    (hp : s.OnLive (.store p offset byte)) : s.Keeps a e (.store p offset byte) := by
  obtain ⟨size, hsize, hoffset⟩ := hp
  obtain ⟨b, hb, rfl, hle⟩ := hs.tracks.block p size hsize
  refine ⟨_, bs, rfl, hs.heap.fill (mem_used.1 hb).1 fun i hi => Function.update_of_ne ?_ _ _,
    hs.tracks⟩
  rintro rfl
  unfold Block.payload Block.stop at hi
  omega

theorem Holds.step (hs : s.Holds a e bs) (hcall : s.OnLive call) :
    (s.answer call).isSome ∧ ∃ bs', (s.step call).Holds a e bs' := by
  have hkeeps : s.Keeps a e call := by
    cases call with
    | malloc size => exact hs.malloc size
    | calloc count size => exact hs.calloc count size
    | realloc p size => exact hs.realloc hcall
    | free p => exact hs.free hcall
    | store p offset byte => exact hs.store hcall
  obtain ⟨result, bs', hanswer, hheap, htracks⟩ := hkeeps
  rw [step_of_answer hanswer, hanswer]
  exact ⟨rfl, bs', hheap, htracks⟩

theorem init_holds (h : PortHeap) (serviceOpen : ℕ → ℕ) {arena arenaSize : ℕ} (hnull : arena ≠ 0)
    (haligned : arena % 16 = 0) (hsize : sizeofPortBlock + 16 < arenaSize)
    (hend : arena + arenaSize < 2 ^ 64) :
    Holds ⟨(h.demonPortInit serviceOpen arena arenaSize).2, fun _ => none⟩ arena (arena + arenaSize)
      [⟨arena, arenaSize - sizeofPortBlock, true⟩] := by
  have hfree : (⟨arena, arenaSize - sizeofPortBlock, true⟩ : Block).free = true := rfl
  refine ⟨?_, ⟨fun p size hp => (by cases hp), fun b hb => ?_⟩⟩
  · unfold PortHeap.demonPortInit
    rw [if_neg (by omega)]
    unfold sizeofPortBlock at *
    refine ⟨⟨⟨rfl, ?_⟩, ⟨?_, ?_, ?_, LittleEndian.load_flag ..⟩, trivial⟩, List.isChain_singleton _,
      fun b hb => ?_, ?_, rfl, ?_, by omega, hend⟩
    · unfold Tiles Block.stop sizeofPortBlock
      dsimp only
      omega
    · simp (disch := omega) only [PortBlock.size, setFree, setSize, setNext, setPrevious,
        LittleEndian.load_store_of_disjoint, LittleEndian.load_store_of_lt]
    · simp (disch := omega) only [previous, setFree, setSize, setNext, setPrevious,
        LittleEndian.load_store_of_disjoint, LittleEndian.load_store_of_lt]
    · simp (disch := omega) only [next, following, setFree, setSize, setNext, setPrevious,
        LittleEndian.load_store_of_disjoint, LittleEndian.load_store_of_lt]
    · obtain rfl := List.mem_singleton.1 hb
      exact haligned
    · unfold usedBytes
      rw [used_cons_free rfl]
      rfl
    · unfold sizeofPortBlock
      dsimp only
      omega
  · rw [used_cons_free hfree] at hb
    cases hb

/-- What is promised of the heap of a program in an arena: the list of its blocks, the pointers that
the program has, and what the next call does. -/
structure HeapSound (s : PortProgram) (arena arenaSize : ℕ) (bs : List Block) : Prop where
  tiles : Tiles sizeofPortBlock arena (arena + arenaSize) bs
  links : Listed s.heap.memory bs
  first : s.heap.heapFirst = following bs 0
  merged : Merged bs
  live : ∀ p, (s.live p).isSome ↔ ∃ b ∈ used bs, b.payload sizeofPortBlock = p
  payload : ∀ b ∈ used bs, b.payload sizeofPortBlock % 16 = 0
    ∧ arena ≤ b.payload sizeofPortBlock ∧ b.stop sizeofPortBlock ≤ arena + arenaSize
    ∧ ∃ size, s.live (b.payload sizeofPortBlock) = some size ∧ size ≤ b.size
  apart : ∀ b ∈ used bs, ∀ c ∈ used bs, b ≠ c →
    b.stop sizeofPortBlock ≤ c.payload sizeofPortBlock
      ∨ c.stop sizeofPortBlock ≤ b.payload sizeofPortBlock
  heapUsed : s.heap.heapUsed = ((used bs).map Block.size).sum
  returns : ∀ call, s.OnLive call → (s.answer call).isSome
  malloc : ∀ size, 0 < size → ∀ h', s.heap.demonPortMalloc size = some (0, h') →
    ∀ b ∈ bs, b.free = true → b.size < (size + 15) / 16 * 16
  realloc : ∀ p old size, s.live p = some old →
    ∀ p' h', s.heap.demonPortRealloc p size = some (p', h') →
      (p' ≠ 0 → ∀ i < min old size, h'.memory (p' + i) = s.heap.memory (p + i))
        ∧ (p' = 0 → 0 < size → s.step (.realloc p size) = s)
  freed : (∀ p, s.live p = none) → bs = [⟨arena, arenaSize - sizeofPortBlock, true⟩]

theorem Holds.realloc_kept (hs : s.Holds a e bs) {p old size p' : ℕ} {h' : PortHeap}
    (hp : s.live p = some old) (hresult : s.heap.demonPortRealloc p size = some (p', h')) :
    (p' ≠ 0 → ∀ i < min old size, h'.memory (p' + i) = s.heap.memory (p + i))
      ∧ (p' = 0 → 0 < size → s.step (.realloc p size) = s) := by
  obtain ⟨b, hb, rfl, hold⟩ := hs.tracks.block p old hp
  by_cases hzero : size = 0
  · subst hzero
    exact ⟨fun _ i hi => by omega, fun _ hpos => absurd hpos (lt_irrefl 0)⟩
  · by_cases hfits : size ≤ b.size
    · rw [hs.heap.realloc_fits hb hzero hfits] at hresult
      obtain ⟨rfl, rfl⟩ := Prod.mk.inj (Option.some.inj hresult)
      exact ⟨fun _ _ _ => rfl, fun hnull => absurd hnull (PortHeap.payload_ne_zero b)⟩
    · rcases hs.heap.realloc hb (Nat.lt_of_not_le hfits) with hnull
        | ⟨u, mid, bs', result, hmoved, hpointer, -, -, -, -, -, hkept⟩
      · rw [hnull] at hresult
        obtain ⟨rfl, rfl⟩ := Prod.mk.inj (Option.some.inj hresult)
        refine ⟨fun hne => absurd rfl hne, fun _ _ => ?_⟩
        have hanswer : s.answer (.realloc (b.payload sizeofPortBlock) size) = some (0, s.heap) := hnull
        rw [step_of_answer hanswer]
        dsimp only [noted]
        rw [if_pos rfl, if_neg hzero]
      · rw [hmoved] at hresult
        obtain rfl := Option.some.inj hresult
        dsimp only at hpointer
        refine ⟨fun _ i hi => hkept i (by omega), fun hnull => ?_⟩
        rw [hpointer] at hnull
        exact absurd hnull (PortHeap.payload_ne_zero u)

theorem Holds.sound {arena arenaSize : ℕ} (hs : s.Holds arena (arena + arenaSize) bs) :
    s.HeapSound arena arenaSize bs := by
  refine ⟨hs.heap.arena.tiles, hs.heap.arena.listed, hs.heap.following_eq.symm, hs.heap.merged,
    fun p => ⟨fun hp => ?_, ?_⟩, fun b hb => ?_, fun b hb c hc hne => ?_, hs.heap.bytes,
    fun call hcall => (hs.step hcall).1, fun size hsize h' hnull => ?_,
    fun p old size hp p' h' => hs.realloc_kept hp, fun hnone => ?_⟩
  · obtain ⟨b, hb, hbp⟩ := hs.block hp
    exact ⟨b, hb, hbp.symm⟩
  · rintro ⟨b, hb, rfl⟩
    exact hs.tracks.live b hb
  · obtain ⟨hlow, hhigh⟩ := hs.heap.bounds (mem_used.1 hb).1
    have hstart := hs.heap.aligned b (mem_used.1 hb).1
    obtain ⟨size, hsize⟩ := Option.isSome_iff_exists.1 (hs.tracks.live b hb)
    obtain ⟨c, hc, hcb, hle⟩ := hs.tracks.block _ size hsize
    have hcb : c = b := hs.heap.arena.tiles.eq_of_start (by decide) (mem_used.1 hc).1
      (mem_used.1 hb).1 (Nat.add_right_cancel hcb)
    refine ⟨?_, ?_, hhigh, size, hsize, hcb ▸ hle⟩
    · unfold Block.payload sizeofPortBlock
      omega
    · unfold Block.payload
      omega
  · have hapart := hs.heap.arena.tiles.apart (mem_used.1 hb).1 (mem_used.1 hc).1 hne
    unfold Block.payload
    omega
  · rcases hs.heap.malloc size with ⟨-, hnone⟩ | ⟨u, bs', result, hresult, hp⟩
    · exact hnone hsize
    · rw [hresult] at hnull
      exact absurd (congrArg Prod.fst (Option.some.inj hnull)) hp.ne_zero
  · have hused : used bs = [] := by
      refine List.eq_nil_iff_forall_not_mem.2 fun b hb => ?_
      have hlive := hs.tracks.live b hb
      rw [hnone] at hlive
      cases hlive
    have hshort := hs.heap.merged.length_le hused
    have htiles := hs.heap.arena.tiles
    have hcapacity := hs.heap.capacity
    unfold sizeofPortBlock at *
    rcases bs with _ | ⟨b, rest⟩
    · have hempty : arena = arena + arenaSize := htiles
      omega
    · obtain rfl : rest = [] := by simpa using hshort
      have hfree : b.free = true := by simpa using List.filter_eq_nil_iff.1 hused b List.mem_cons_self
      obtain ⟨start, size, free⟩ := b
      obtain ⟨rfl, hstop⟩ := htiles
      unfold Tiles Block.stop at hstop
      dsimp only at *
      rw [hfree, (by omega : size = arenaSize - 32)]

/-- Whatever a program does with its pointers, the heap that `demon_port_init` has laid out stays
sound. -/
theorem heap_sound (h : PortHeap) (serviceOpen : ℕ → ℕ) {arena arenaSize : ℕ} (hnull : arena ≠ 0)
    (haligned : arena % 16 = 0) (hsize : sizeofPortBlock + 16 < arenaSize)
    (hend : arena + arenaSize < 2 ^ 64) (calls : List PortCall)
    (hcalls : Machine.Meets step OnLive
      ⟨(h.demonPortInit serviceOpen arena arenaSize).2, fun _ => none⟩ calls) :
    ∃ bs, (Machine.run step ⟨(h.demonPortInit serviceOpen arena arenaSize).2, fun _ => none⟩
      calls).HeapSound arena arenaSize bs := by
  have hrun := Machine.run_inv_of_meets step
    (I := fun s => ∃ bs, s.Holds arena (arena + arenaSize) bs)
    (fun s call hs hcall => by
      obtain ⟨bs, hs⟩ := hs
      exact (hs.step hcall).2)
    calls _ ⟨_, init_holds h serviceOpen hnull haligned hsize hend⟩ hcalls
  obtain ⟨bs, hs⟩ := hrun
  exact ⟨bs, hs.sound⟩

theorem heap_sound_moved :
    let calls := [.malloc 100, .calloc 3 5, .realloc 65568 300, .store 65760 299 7, .free 0]
    ∃ bs, (Machine.run step ⟨(PortHeap.demonPortInit ⟨fun _ => 0, 0, 0, 0, 0, 0, 0⟩ id 65536 4096).2,
      fun _ => none⟩ calls).HeapSound 65536 4096 bs := by
  intro calls
  exact heap_sound ⟨fun _ => 0, 0, 0, 0, 0, 0, 0⟩ id (by decide) (by decide) (by decide) (by decide)
    calls ⟨trivial, trivial, .inr (by decide +kernel), ⟨300, by decide +kernel, by decide⟩, .inl rfl, trivial⟩

end PortProgram

end DemonOS
