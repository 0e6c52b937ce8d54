import DemonOS.Proofs.PortKit.Heap

/-!
# The calls of the port kit's heap

`demon_port_malloc` serves the first free block that is large enough, and fails only if there is
none (`CutInto.malloc`); `calloc` does so with zeros, `free` gives the block back, and `realloc`
moves what the block holds to one that is larger (`CutInto.realloc`).
-/

namespace DemonOS

open Blocks PortBlock

/-! ## The loops over bytes -/

theorem bytesZero_apply (m : ℕ → UInt8) (d : ℕ) : ∀ length i : ℕ,
    bytesZero m d length i = if d ≤ i ∧ i < d + length then 0 else m i
  | 0, i => by
    rw [if_neg (by omega)]
    rfl
  | length + 1, i => by
    have hstep : bytesZero m d (length + 1) = Function.update (bytesZero m d length) (d + length) 0 := by
      unfold bytesZero
      rw [List.range_succ, List.foldl_append]
      rfl
    rw [hstep, Function.update_apply, bytesZero_apply m d length i]
    split_ifs <;> first | rfl | omega

theorem bytesCopy_apply (m : ℕ → UInt8) (d s : ℕ) : ∀ length i : ℕ,
    d + length ≤ s ∨ s + length ≤ d →
    bytesCopy m d s length i = if d ≤ i ∧ i < d + length then m (s + (i - d)) else m i
  | 0, i, _ => by
    rw [if_neg (by omega)]
    rfl
  | length + 1, i, hapart => by
    have hstep : bytesCopy m d s (length + 1) = Function.update (bytesCopy m d s length) (d + length)
        (bytesCopy m d s length (s + length)) := by
      unfold bytesCopy
      rw [List.range_succ, List.foldl_append]
      rfl
    rw [hstep, Function.update_apply, bytesCopy_apply m d s length _ (by omega),
      bytesCopy_apply m d s length _ (by omega), if_neg (by omega : ¬(d ≤ s + length ∧ _))]
    by_cases hi : i = d + length
    · rw [if_pos hi, if_pos (by omega), hi, Nat.add_sub_cancel_left]
    · rw [if_neg hi]
      split_ifs <;> first | rfl | omega

namespace PortHeap

variable {h : PortHeap} {a e size : ℕ} {b u : Block} {bs bs' : List Block}

theorem alignedSize_eq (size : ℕ) :
    alignedSize size = 0 ∧ (0 < size → 2 ^ 64 - 16 < (size + 15) / 16 * 16)
      ∨ alignedSize size = (size + 15) / 16 * 16 ∧ 0 < alignedSize size := by
  unfold alignedSize
  by_cases hlarge : 2 ^ 64 - 1 - 15 < size
  · rw [if_pos hlarge]
    omega
  · rw [if_neg hlarge]
    by_cases hzero : size = 0
    · exact .inl ⟨by omega, by omega⟩
    · exact .inr ⟨rfl, by omega⟩

theorem payload_ne_zero (b : Block) : b.payload sizeofPortBlock ≠ 0 := by
  unfold Block.payload sizeofPortBlock
  omega

theorem payload_sub : b.payload sizeofPortBlock - sizeofPortBlock = b.start :=
  Nat.add_sub_cancel _ _

theorem realloc_zero (h : PortHeap) (b : Block) :
    h.demonPortRealloc (b.payload sizeofPortBlock) 0
      = some (0, h.demonPortFree (b.payload sizeofPortBlock)) := by
  unfold demonPortRealloc
  dsimp only
  rw [if_neg (payload_ne_zero b), if_pos rfl]

structure Provides (h : PortHeap) (a e : ℕ) (bs : List Block) (size : ℕ) (u : Block)
    (bs' : List Block) (result : ℕ × PortHeap) : Prop where
  pointer : result.1 = u.payload sizeofPortBlock
  heap : result.2.CutInto a e bs'
  adds : Adds bs bs' u
  enough : size ≤ u.size
  kept : Kept h.memory result.2.memory (used bs)

namespace CutInto

theorem fill (hc : h.CutInto a e bs) (hu : u ∈ bs) {m : ℕ → UInt8}
    (hout : ∀ i, ¬(u.payload sizeofPortBlock ≤ i ∧ i < u.stop sizeofPortBlock) → m i = h.memory i) :
    { h with memory := m }.CutInto a e bs := by
  refine ⟨⟨hc.arena.tiles, hc.arena.listed.imp fun c hmem p n hreads => ?_⟩, hc.merged, hc.aligned,
    hc.bytes, hc.first, hc.capacity, hc.low, hc.high⟩
  refine hreads.frame fun i hlo hhi => hout i ?_
  unfold Block.payload
  by_cases hcu : c = u
  · subst hcu
    omega
  · have hapart := hc.arena.tiles.apart hmem hu hcu
    unfold Block.stop at hapart ⊢
    omega

theorem payload_apart (hc : h.CutInto a e bs) (hb : b ∈ bs) (hu : u ∈ bs) (hne : b ≠ u) {i : ℕ}
    (hlo : b.payload sizeofPortBlock ≤ i) (hhi : i < b.stop sizeofPortBlock) :
    ¬(u.payload sizeofPortBlock ≤ i ∧ i < u.stop sizeofPortBlock) := by
  have hapart := hc.arena.tiles.apart hb hu hne
  unfold Block.payload at *
  omega

theorem malloc (hc : h.CutInto a e bs) (size : ℕ) :
    h.demonPortMalloc size = some (0, h)
        ∧ (0 < size → ∀ b ∈ bs, b.free = true → b.size < (size + 15) / 16 * 16)
      ∨ ∃ u bs' result, h.demonPortMalloc size = some result ∧ h.Provides a e bs size u bs' result := by
  have ha := hc.low
  have he := hc.high
  rcases alignedSize_eq size with ⟨hzero, hlarge⟩ | ⟨heq, hpos⟩
  · refine .inl ⟨?_, fun hsize b hb _ => ?_⟩
    · unfold demonPortMalloc
      dsimp only
      rw [if_pos (.inl hzero)]
    · have hbounds := hc.bounds hb
      have hsmall := hlarge hsize
      omega
  · have hfirst : h.heapFirst ≠ 0 := by
      rw [hc.first]
      omega
    have hwalk := @walk_eq_find _ (next h.memory) (fun block => PortBlock.free h.memory block
        && decide (alignedSize size ≤ PortBlock.size h.memory block)) (Block.fits (alignedSize size))
      _ _ _ hc.arena.listed (fun b hb => by have hlow := (hc.bounds hb).1; omega)
      (fun _ _ _ _ hreads => hreads.next)
      (fun _ _ _ _ hreads => by rw [hreads.free, hreads.size]; rfl) hc.length_lt
    rw [hc.following_eq] at hwalk
    have hmalloc : h.demonPortMalloc size = (some ((bs.find? (Block.fits (alignedSize size))).elim 0
        Block.start)).map fun block => if block = 0 then (0, h) else h.take block (alignedSize size) := by
      unfold demonPortMalloc
      dsimp only
      rw [if_neg (by simp [hpos.ne', hfirst]), hwalk]
    cases hfind : bs.find? (Block.fits (alignedSize size)) with
    | none =>
      rw [hfind] at hmalloc
      refine .inl ⟨hmalloc, fun _ b hb hfree => ?_⟩
      have hnot := List.find?_eq_none.1 hfind b hb
      rw [fits_iff, heq] at hnot
      simpa [hfree] using hnot
    | some b =>
      rw [hfind] at hmalloc
      obtain ⟨htest, pre, post, rfl, -⟩ := List.find?_eq_some_iff_append.1 hfind
      obtain ⟨hfree, hneeded⟩ := fits_iff.1 htest
      have hlow := (hc.bounds (List.mem_append_right pre List.mem_cons_self)).1
      obtain ⟨hpointer, hheap, hkept⟩ := hc.take hfree hneeded (by omega)
      refine .inr ⟨b.served sizeofPortBlock 16 (alignedSize size), _,
        h.take b.start (alignedSize size), ?_, hpointer, hheap, serve_adds hfree, ?_, ?_⟩
      · rw [hmalloc]
        exact congrArg some (if_neg (by dsimp only [Option.elim]; omega))
      · have hserved := @served_size sizeofPortBlock 16 _ _ hneeded
        omega
      · exact hkept.mono fun c hmem => mem_of_used_free hfree hmem

theorem reads_free (hc : h.CutInto a e bs) (hb : b ∈ used bs) :
    PortBlock.free h.memory b.start = false := by
  obtain ⟨hmem, hused⟩ := mem_used.1 hb
  obtain ⟨p, n, hreads⟩ := hc.reads hmem
  exact hreads.free.trans hused

theorem reads_size (hc : h.CutInto a e bs) (hb : b ∈ used bs) :
    PortBlock.size h.memory b.start = b.size := by
  obtain ⟨p, n, hreads⟩ := hc.reads (mem_used.1 hb).1
  exact hreads.size

theorem free (hc : h.CutInto a e bs) (hb : b ∈ used bs) :
    ∃ bs', (h.demonPortFree (b.payload sizeofPortBlock)).CutInto a e bs' ∧ Adds bs' bs b
      ∧ Kept h.memory (h.demonPortFree (b.payload sizeofPortBlock)).memory (used bs') := by
  have hfree := hc.reads_free hb
  obtain ⟨hmem, hused⟩ := mem_used.1 hb
  have heq : h.demonPortFree (b.payload sizeofPortBlock) = h.release b.start := by
    unfold demonPortFree
    dsimp only
    rw [payload_sub, hfree, if_neg (payload_ne_zero b)]
    rfl
  rw [heq]
  obtain ⟨pre, post, rfl⟩ := List.append_of_mem hmem
  exact hc.release hused

end CutInto

section Provides

variable {result : ℕ × PortHeap}

theorem Provides.mem (hp : h.Provides a e bs size u bs' result) : u ∈ used bs' :=
  hp.adds.mem_iff.2 (.inl rfl)

theorem Provides.ne_zero (hp : h.Provides a e bs size u bs' result) : result.1 ≠ 0 := by
  rw [hp.pointer]
  exact payload_ne_zero u

theorem Provides.notMem (hp : h.Provides a e bs size u bs' result) : u ∉ used bs :=
  hp.adds.notMem hp.heap.arena.tiles (by decide)

theorem Provides.fill (hp : h.Provides a e bs size u bs' result) {m : ℕ → UInt8}
    (hout : ∀ i, ¬(u.payload sizeofPortBlock ≤ i ∧ i < u.stop sizeofPortBlock) →
      m i = result.2.memory i) :
    h.Provides a e bs size u bs' (result.1, { result.2 with memory := m }) := by
  have hu := (mem_used.1 hp.mem).1
  refine ⟨hp.pointer, hp.heap.fill hu hout, hp.adds, hp.enough, fun c hmem i hlo hhi => ?_⟩
  have hne : c ≠ u := fun hcu => hp.notMem (hcu ▸ hmem)
  have hc := (mem_used.1 (hp.adds.mem_iff.2 (.inr hmem))).1
  exact (hout i (hp.heap.payload_apart hc hu hne hlo hhi)).trans (hp.kept c hmem i hlo hhi)

end Provides

namespace CutInto

theorem calloc (hc : h.CutInto a e bs) (count size : ℕ) :
    h.demonPortCalloc count size = some (0, h)
      ∨ ∃ u bs' result, h.demonPortCalloc count size = some result
        ∧ h.Provides a e bs (count * size) u bs' result
        ∧ ∀ i < count * size, result.2.memory (result.1 + i) = 0 := by
  unfold demonPortCalloc
  by_cases hover : count ≠ 0 ∧ (2 ^ 64 - 1) / count < size
  · exact .inl (if_pos hover)
  · have htotal : sizeT (count * size) = count * size := by
      refine Nat.mod_eq_of_lt ?_
      rcases Nat.eq_zero_or_pos count with rfl | hcount
      · simp
      · have hle : size ≤ (2 ^ 64 - 1) / count := by
          by_contra hlt
          exact hover ⟨hcount.ne', by omega⟩
        have hmul := (Nat.le_div_iff_mul_le hcount).1 hle
        rw [Nat.mul_comm]
        omega
    dsimp only
    rw [if_neg hover, htotal]
    rcases hc.malloc (count * size) with ⟨hnull, -⟩ | ⟨u, bs', result, hresult, hprovides⟩
    · rw [hnull]
      exact .inl rfl
    · rw [hresult]
      refine .inr ⟨u, bs', _, congrArg some (if_pos hprovides.ne_zero),
        hprovides.fill fun i hi => ?_, fun i hi => ?_⟩
      · rw [bytesZero_apply, if_neg]
        have henough := hprovides.enough
        rw [hprovides.pointer]
        unfold Block.stop at hi
        unfold Block.payload at *
        omega
      · dsimp only
        rw [bytesZero_apply, if_pos (by omega)]

theorem realloc_fits (hc : h.CutInto a e bs) (hb : b ∈ used bs) (hpos : size ≠ 0)
    (hfits : size ≤ b.size) :
    h.demonPortRealloc (b.payload sizeofPortBlock) size
      = some (b.payload sizeofPortBlock, h) := by
  unfold demonPortRealloc
  dsimp only
  rw [if_neg (payload_ne_zero b), if_neg hpos, payload_sub, hc.reads_size hb, if_pos hfits]

/-- A block grows by moving: what it holds is at the new place, and the old one is given back. -/
theorem realloc (hc : h.CutInto a e bs) (hb : b ∈ used bs) (hsize : b.size < size) :
    h.demonPortRealloc (b.payload sizeofPortBlock) size = some (0, h)
      ∨ ∃ u mid bs' result, h.demonPortRealloc (b.payload sizeofPortBlock) size = some result
        ∧ result.1 = u.payload sizeofPortBlock ∧ result.2.CutInto a e bs' ∧ Adds bs mid u
        ∧ Adds bs' mid b ∧ Tiles sizeofPortBlock a e mid ∧ size ≤ u.size
        ∧ ∀ i < b.size, result.2.memory (result.1 + i) = h.memory (b.payload sizeofPortBlock + i) := by
  have hrealloc : h.demonPortRealloc (b.payload sizeofPortBlock) size
      = (h.demonPortMalloc size).map fun replacement =>
        if replacement.1 = 0 then (0, replacement.2)
        else (replacement.1, { replacement.2 with
          memory := bytesCopy replacement.2.memory replacement.1 (b.payload sizeofPortBlock)
            (PortBlock.size replacement.2.memory b.start) }.demonPortFree
              (b.payload sizeofPortBlock)) := by
    unfold demonPortRealloc
    dsimp only
    rw [if_neg (payload_ne_zero b), if_neg (by omega), payload_sub, hc.reads_size hb,
      if_neg (by omega)]
  rw [hrealloc]
  rcases hc.malloc size with ⟨hnull, -⟩ | ⟨u, mid, r, hresult, hprovides⟩
  · rw [hnull]
    exact .inl rfl
  · have hb' : b ∈ used mid := hprovides.adds.mem_iff.2 (.inr hb)
    have hne : b ≠ u := fun hbu => hprovides.notMem (hbu ▸ hb)
    have hapart := hprovides.heap.arena.tiles.apart (mem_used.1 hb').1 (mem_used.1 hprovides.mem).1 hne
    have hpointer := hprovides.pointer
    have henough := hprovides.enough
    have hcopy : ∀ i, bytesCopy r.2.memory r.1 (b.payload sizeofPortBlock) b.size i
        = if r.1 ≤ i ∧ i < r.1 + b.size then
            r.2.memory (b.payload sizeofPortBlock + (i - r.1))
          else r.2.memory i := fun i => by
      refine bytesCopy_apply _ _ _ _ _ ?_
      unfold Block.payload Block.stop at *
      omega
    have hfilled := hprovides.fill (m := bytesCopy r.2.memory r.1 (b.payload sizeofPortBlock) b.size)
      fun i hi => by
        rw [hcopy, if_neg]
        unfold Block.payload Block.stop at *
        omega
    obtain ⟨bs', hheap, hadds, hkept⟩ := hfilled.heap.free hb'
    rw [hresult, Option.map_some, if_neg hprovides.ne_zero, hprovides.heap.reads_size hb']
    refine .inr ⟨u, mid, bs', _, rfl, hpointer, hheap, hprovides.adds, hadds,
      hprovides.heap.arena.tiles, henough, fun i hi => ?_⟩
    have hu : u ∈ used bs' := (hadds.mem_iff.1 hprovides.mem).resolve_left hne.symm
    dsimp only
    rw [hkept u hu (r.1 + i) (by omega) (by unfold Block.payload Block.stop at *; omega)]
    dsimp only
    rw [hcopy, if_pos (by omega), Nat.add_sub_cancel_left]
    exact hprovides.kept b hb _ (by omega) (by unfold Block.payload Block.stop at *; omega)

end CutInto

end PortHeap

end DemonOS
