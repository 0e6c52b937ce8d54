import DemonOS.Lib.LittleEndian
import DemonOS.Lib.Machine
import DemonOS.UserMemory

/-!
# The boot frame allocator

A region is accepted with the first page boundary at or above its base and the minimum, and each
call hands out the page after the last one (`makoFrameCalls_eq`). So the frames are the pages of the
region from there on, each once (`frames_of_region`). The number 0 stands for no frame: a region
that is accepted from address 0 on gives none.
-/

namespace DemonOS

namespace FramePool

def makoFrameRegionInit (p : FramePool) (entry minimum : ℕ) : Bool × FramePool :=
  let base := p.word entry
  let length := p.word (entry + 8)
  let kind := p.word (entry + 16) % 2 ^ 32
  let regionEnd := (base + length) % 2 ^ 64
  let start := if base < minimum then minimum else base
  let alignedInput := (start + 4095) % 2 ^ 64
  let aligned := alignedInput / 4096 * 4096
  let firstEnd := (aligned + 4096) % 2 ^ 64
  if kind ≠ 1 ∨ regionEnd < base ∨ alignedInput < start ∨ firstEnd < aligned
      ∨ regionEnd < firstEnd then (false, p)
  else (true, { p with frameNext := aligned, frameEnd := regionEnd })

def makoFrameCalls (p : FramePool) : ℕ → List ℕ × FramePool
  | 0 => ([], p)
  | calls + 1 =>
    match (p.makoFrameCalls calls).2.makoFrameAllocate with
    | none => p.makoFrameCalls calls
    | some (frame, q) => ((p.makoFrameCalls calls).1 ++ [frame], q)

structure Whole (base length minimum frame : ℕ) : Prop where
  aligned : frame % 4096 = 0
  high : minimum ≤ frame
  after : base ≤ frame
  within : frame + 4096 ≤ base + length

/-- The state between two calls: the pages from `next` up to `stop` can still be had. -/
structure Bumping (p : FramePool) (next stop : ℕ) : Prop where
  frameNext : p.frameNext = next
  frameEnd : p.frameEnd = stop
  nonzero : next ≠ 0
  short : stop < 2 ^ 64
  below : next ≤ stop

variable {p q : FramePool} {entry minimum next stop : ℕ}

theorem Bumping.allocate (h : p.Bumping next stop) :
    (next + 4096 ≤ stop ∧ ∃ q, p.makoFrameAllocate = some (next, q) ∧ q.Bumping (next + 4096) stop)
      ∨ (stop < next + 4096 ∧ p.makoFrameAllocate = none) := by
  obtain ⟨rfl, rfl, hnonzero, hshort, hbelow⟩ := h
  unfold makoFrameAllocate pageSize
  by_cases hfits : p.frameNext + 4096 ≤ p.frameEnd
  · have hmod : (p.frameNext + 4096) % 2 ^ 64 = p.frameNext + 4096 := Nat.mod_eq_of_lt (by omega)
    refine .inl ⟨hfits, { p with frameNext := p.frameNext + 4096 }, ?_, rfl, rfl, by omega, hshort,
      hfits⟩
    dsimp only
    rw [hmod, if_neg (by omega)]
  · refine .inr ⟨by omega, ?_⟩
    dsimp only
    rw [if_pos (by omega)]

/-- The calls hand out one page after the other, up to the end of the region. -/
theorem Bumping.calls (h : p.Bumping next stop) (calls : ℕ) :
    ∃ taken, (p.makoFrameCalls calls).1 = (List.range taken).map (next + 4096 * ·)
      ∧ (p.makoFrameCalls calls).2.Bumping (next + 4096 * taken) stop := by
  induction calls with
  | zero => exact ⟨0, rfl, h⟩
  | succ calls ih =>
    obtain ⟨taken, hlist, hbumping⟩ := ih
    unfold makoFrameCalls
    rcases hbumping.allocate with ⟨-, q, hcall, hq⟩ | ⟨-, hcall⟩ <;> rw [hcall]
    · rw [Nat.add_assoc, ← Nat.mul_succ] at hq
      refine ⟨taken + 1, ?_, hq⟩
      rw [hlist, List.range_succ, List.map_append, List.map_singleton]
    · exact ⟨taken, hlist, hbumping⟩

theorem word_lt (p : FramePool) (a : ℕ) : p.word a < 2 ^ 64 := by
  have hbyte : ∀ b : UInt8, b.toNat < 2 ^ 8 := fun b => b.toNat_lt
  unfold word Bytes.load64
  have := hbyte (p.phys a)
  have := hbyte (p.phys (a + 1))
  have := hbyte (p.phys (a + 2))
  have := hbyte (p.phys (a + 3))
  have := hbyte (p.phys (a + 4))
  have := hbyte (p.phys (a + 5))
  have := hbyte (p.phys (a + 6))
  have := hbyte (p.phys (a + 7))
  omega

theorem makoFrameRegionInit_spec (hmin : minimum < 2 ^ 64)
    (h : p.makoFrameRegionInit entry minimum = (true, q)) :
    q.frameEnd = p.word entry + p.word (entry + 8) ∧ q.frameEnd < 2 ^ 64
      ∧ q.frameNext % 4096 = 0 ∧ q.frameNext + 4096 ≤ q.frameEnd
      ∧ max (p.word entry) minimum ≤ q.frameNext
      ∧ q.frameNext < max (p.word entry) minimum + 4096 := by
  have hbase := p.word_lt entry
  have hlength := p.word_lt (entry + 8)
  unfold makoFrameRegionInit at h
  dsimp only at h
  split_ifs at h <;> cases h <;> dsimp only <;> omega

/-- From a region that is not at address 0, each whole frame is had once, in order, until there is
none left. -/
theorem frames_of_region (hmin : minimum < 2 ^ 64)
    (h : p.makoFrameRegionInit entry minimum = (true, q))
    (hzero : p.word entry ≠ 0 ∨ minimum ≠ 0) (calls : ℕ) :
    (q.makoFrameCalls calls).1.Nodup
      ∧ (∀ frame ∈ (q.makoFrameCalls calls).1, frame + 4096 < 2 ^ 64
        ∧ Whole (p.word entry) (p.word (entry + 8)) minimum frame)
      ∧ ((q.makoFrameCalls calls).2.makoFrameAllocate = none ↔
        ∀ frame, Whole (p.word entry) (p.word (entry + 8)) minimum frame →
          frame ∈ (q.makoFrameCalls calls).1) := by
  obtain ⟨hend, hshort, haligned, hfirst, hlow, hnear⟩ := makoFrameRegionInit_spec hmin h
  have hstart : q.Bumping q.frameNext q.frameEnd :=
    ⟨rfl, rfl, by omega, hshort, by omega⟩
  obtain ⟨taken, hlist, hbumping⟩ := hstart.calls calls
  have hbelow := hbumping.below
  rw [hlist]
  refine ⟨List.Nodup.map (fun i j hij => by omega) List.nodup_range, ?_, ?_⟩
  · simp only [List.mem_map, List.mem_range]
    rintro frame ⟨i, hi, rfl⟩
    exact ⟨by omega, by omega, by omega, by omega, by omega⟩
  · simp only [List.mem_map, List.mem_range]
    rcases hbumping.allocate with ⟨hfits, r, hcall, -⟩ | ⟨hfull, hcall⟩ <;> rw [hcall]
    · refine ⟨(nomatch ·), fun hall => ?_⟩
      obtain ⟨i, hi, heq⟩ := hall (q.frameNext + 4096 * taken)
        ⟨by omega, by omega, by omega, by omega⟩
      omega
    · refine ⟨fun _ frame hwhole => ?_, fun _ => rfl⟩
      obtain ⟨h1, h2, h3, h4⟩ := hwhole
      exact ⟨(frame - q.frameNext) / 4096, by omega, by omega⟩

/-- The memory map's entry at address 0 for a usable region. -/
def usable (base length : ℕ) : FramePool :=
  ⟨Bytes.store64 (Bytes.store64 (Bytes.store64 (fun _ => 0) 0 base) 8 length) 16 1, 0, 0, 0⟩

theorem frames_of_region_above : (((usable 0x100000 0x10000).makoFrameRegionInit 0
    0x102001).2.makoFrameCalls 3).1.Nodup :=
  (frames_of_region (by decide) (Prod.ext (by decide +kernel) rfl)
    (.inr (by decide)) 3).1

/-- A region of 16 pages from address 0 on is accepted, and gives none of them. -/
theorem region_at_zero : ((usable 0 0x10000).makoFrameRegionInit 0 0).1 = true
    ∧ ((usable 0 0x10000).makoFrameRegionInit 0 0).2.makoFrameAllocate = none
    ∧ Whole ((usable 0 0x10000).word 0) ((usable 0 0x10000).word 8) 0 0x1000 :=
  ⟨by decide +kernel, Option.isNone_iff_eq_none.1 (by decide +kernel),
    by decide +kernel, by decide +kernel, by decide +kernel, by decide +kernel⟩

end FramePool

/-!
## The free list

Over every run of calls that take frames, give back frames that are out and write into no frame
but those, the frames that are out, the free list threaded through the others and the pages never
handed out make up the region (`Stocked`): no frame is had twice, and none is lost
(`frames_of_client`).
-/

namespace FramePool

/-- The free list from `head` on. -/
def Threaded (p : FramePool) : ℕ → List ℕ → Prop
  | head, [] => head = 0
  | head, frame :: rest => head = frame ∧ frame ≠ 0 ∧ p.Threaded (p.word frame) rest

/-- The region from `start` to `stop` in pages. -/
def Page (start stop frame : ℕ) : Prop := ∃ i, frame = start + 4096 * i ∧ frame + 4096 ≤ stop

/-- Of the pages from `start` on, the first `cut` are out or on the free list. -/
structure Stocked (p : FramePool) (start stop : ℕ) (held free : List ℕ) (cut : ℕ) : Prop where
  threaded : p.Threaded p.freeFrames free
  pages : (held ++ free).Perm ((List.range cut).map (start + 4096 * ·))
  bumping : p.Bumping (start + 4096 * cut) stop
  nonzero : start ≠ 0

section Pages

variable {p q : FramePool} {start stop cut frame : ℕ} {held free : List ℕ}

theorem word_setWord (p : FramePool) (a v : ℕ) (hv : v < 2 ^ 64) : (p.setWord a v).word a = v := by
  have hload : ∀ m : ℕ → UInt8, Bytes.load64 m a = LittleEndian.load m a 8 := by
    intro m
    simp only [Bytes.load64, LittleEndian.load, Nat.add_assoc]
    ring
  have hstore : Bytes.store64 p.phys a v = LittleEndian.store p.phys a 8 v := by
    funext b
    simp only [Bytes.store64, LittleEndian.store, Nat.pow_mul]
  rw [word, setWord, hload, hstore, LittleEndian.load_store_of_lt _ (by simpa using hv)]

theorem word_congr {a : ℕ} (h : ∀ b, a ≤ b → b < a + 8 → q.phys b = p.phys b) :
    q.word a = p.word a := by
  unfold word Bytes.load64
  simp [h]

theorem Threaded.congr : ∀ {free : List ℕ} {head : ℕ}, p.Threaded head free →
    (∀ frame ∈ free, q.word frame = p.word frame) → q.Threaded head free
  | [], _, h, _ => h
  | frame :: rest, _, ⟨hhead, hframe, hrest⟩, hword => by
    refine ⟨hhead, hframe, ?_⟩
    rw [hword frame (by simp)]
    exact hrest.congr fun frame hmem => hword frame (by simp [hmem])

namespace Stocked

variable (h : p.Stocked start stop held free cut)
include h

theorem page (hmem : frame ∈ held ++ free) : Page start stop frame := by
  have := h.bumping.below
  obtain ⟨i, hi, rfl⟩ := List.mem_map.1 (h.pages.mem_iff.1 hmem)
  rw [List.mem_range] at hi
  exact ⟨i, rfl, by omega⟩

theorem nodup : (held ++ free).Nodup :=
  h.pages.nodup_iff.2 (List.nodup_range.map fun i j hij => by omega)

theorem apart {other a : ℕ} (hheld : frame ∈ held) (hfree : other ∈ free) (hfrom : frame ≤ a)
    (hto : a < frame + 4096) : a < other ∨ other + 4096 ≤ a := by
  have hne : frame ≠ other := by
    rintro rfl
    exact (List.disjoint_of_nodup_append h.nodup) hheld hfree
  obtain ⟨i, rfl, -⟩ := h.page (List.mem_append_left _ hheld)
  obtain ⟨j, rfl, -⟩ := h.page (List.mem_append_right _ hfree)
  omega

/-- What is kept if the pages on the free list are left alone. -/
theorem keeps (hfree : q.freeFrames = p.freeFrames) (hnext : q.frameNext = p.frameNext)
    (hend : q.frameEnd = p.frameEnd)
    (hphys : ∀ frame ∈ free, ∀ a, frame ≤ a → a < frame + 4096 → q.phys a = p.phys a) :
    q.Stocked start stop held free cut := by
  obtain ⟨hthreaded, hpages, hbumping, hnonzero⟩ := h
  refine ⟨?_, hpages, { hbumping with
    frameNext := hnext.trans hbumping.frameNext, frameEnd := hend.trans hbumping.frameEnd },
    hnonzero⟩
  rw [hfree]
  exact hthreaded.congr fun frame hmem =>
    word_congr fun b hfrom hto => hphys frame hmem b hfrom (by omega)

/-- The region gives its first page that was never out. -/
theorem allocate :
    (p.makoFrameAllocate = none ∧ stop < start + 4096 * cut + 4096)
      ∨ ∃ frame q, p.makoFrameAllocate = some (frame, q)
        ∧ q.Stocked start stop (frame :: held) free (cut + 1) ∧ q.phys = p.phys
        ∧ q.freeFrames = p.freeFrames := by
  rcases h.bumping.allocate with ⟨-, q, hcall, hq⟩ | ⟨hfull, hcall⟩
  · have hsame : q.phys = p.phys ∧ q.freeFrames = p.freeFrames := by
      unfold makoFrameAllocate at hcall
      dsimp only at hcall
      split_ifs at hcall
      rw [← (Prod.mk.inj (Option.some.inj hcall)).2]
      exact ⟨rfl, rfl⟩
    refine .inr ⟨_, q, hcall, ⟨?_, ?_, ?_, h.nonzero⟩, hsame⟩
    · rw [hsame.2]
      exact h.threaded.congr fun _ _ => word_congr fun b _ _ => by rw [hsame.1]
    · rw [List.range_succ, List.map_append, List.map_singleton, List.cons_append]
      exact (h.pages.cons _).trans (List.perm_append_singleton _ _).symm
    · rwa [Nat.mul_succ, ← Nat.add_assoc]
  · exact .inl ⟨hcall, hfull⟩

/-- Taking a frame that was held by no one clears it, and nothing else. -/
theorem take : (p.anonymousFrameTake = none ∧ free = [] ∧ stop < start + 4096 * cut + 4096)
      ∨ ∃ frame q free' cut', p.anonymousFrameTake = some (frame, q)
        ∧ q.Stocked start stop (frame :: held) free' cut'
        ∧ q.phys = Bytes.clear p.phys frame 4096 := by
  rcases free with _ | ⟨frame, rest⟩
  · have hnone : p.freeFrames = 0 := h.threaded
    rcases h.allocate with ⟨hcall, hfull⟩ | ⟨frame, q, hcall, hq, hphys, -⟩
    · exact .inl ⟨by simp [anonymousFrameTake, hnone, hcall], rfl, hfull⟩
    · refine .inr ⟨frame, q.clear frame pageSize, [], cut + 1,
        by simp [anonymousFrameTake, hnone, hcall], hq.keeps rfl rfl rfl (by simp), ?_⟩
      rw [← hphys]
      rfl
  · obtain ⟨hhead, hframe, hrest⟩ := h.threaded
    have hq : Stocked { p with freeFrames := p.word frame } start stop (frame :: held) rest cut :=
      ⟨hrest.congr fun _ _ => rfl, List.perm_middle.symm.trans h.pages, { h.bumping with },
        h.nonzero⟩
    refine .inr ⟨frame, clear { p with freeFrames := p.word frame } frame pageSize, rest, cut,
      by simp [anonymousFrameTake, hhead, hframe], ?_, rfl⟩
    refine hq.keeps rfl rfl rfl fun other hother a hfrom hto => if_neg fun ha => ?_
    rcases hq.apart (by simp) hother ha.1 ha.2 <;> omega

theorem release (hmem : frame ∈ held) :
    (p.anonymousFrameRelease frame).Stocked start stop (held.erase frame) (frame :: free) cut := by
  obtain ⟨i, hi, -⟩ := h.page (List.mem_append_left _ hmem)
  have hframe : frame ≠ 0 := by
    have := h.nonzero
    omega
  have hshort : p.freeFrames < 2 ^ 64 := by
    have hstop := h.bumping.short
    rcases free with _ | ⟨other, rest⟩
    · exact h.threaded ▸ by decide
    · obtain ⟨j, -, hother⟩ := h.page (List.mem_append_right held List.mem_cons_self)
      rw [h.threaded.1]
      omega
  rw [anonymousFrameRelease, if_neg hframe]
  refine ⟨⟨rfl, hframe, ?_⟩, ?_, { h.bumping with }, h.nonzero⟩
  · change Threaded _ ((p.setWord frame p.freeFrames).word frame) free
    rw [word_setWord p frame _ hshort]
    refine h.threaded.congr fun other hother => word_congr fun b hfrom hto => if_neg fun hb => ?_
    rcases h.apart hmem hother hb.1 (by omega) <;> omega
  · refine List.Perm.trans ?_ h.pages
    exact List.perm_middle.trans ((List.perm_cons_erase hmem).symm.append_right free)

end Stocked

end Pages

end FramePool

inductive FrameCall
  | allocate
  | take
  | release (frame : ℕ)
  | write (a : ℕ) (b : UInt8)

/-- The pool, and the frames that are out. -/
structure FrameClient where
  pool : FramePool
  held : List ℕ := []

namespace FrameClient

open FramePool

def got (s : FrameClient) : Option (ℕ × FramePool) → FrameClient
  | none => s
  | some (frame, p) => ⟨p, frame :: s.held⟩

def step (s : FrameClient) : FrameCall → FrameClient
  | .allocate => s.got s.pool.makoFrameAllocate
  | .take => s.got s.pool.anonymousFrameTake
  | .release frame => ⟨s.pool.anonymousFrameRelease frame, s.held.erase frame⟩
  | .write a b => { s with pool := { s.pool with phys := Function.update s.pool.phys a b } }

/-- Only frames that are out are given back, and of the region's frames only they are written. -/
def Allowed (whole : ℕ → Prop) (s : FrameClient) : FrameCall → Prop
  | .allocate | .take => True
  | .release frame => frame ∈ s.held
  | .write a _ => ∀ frame, whole frame → frame ∉ s.held → a < frame ∨ frame + 4096 ≤ a

/-- How the pages `whole` are shared out: the frames that are out are some of them, each out once;
the next one is cleared and was with no one; there is none only when all of them are out. -/
structure Shared (whole : ℕ → Prop) (s : FrameClient) : Prop where
  nodup : s.held.Nodup
  inside : ∀ frame ∈ s.held, whole frame
  next : ∀ frame q, s.pool.anonymousFrameTake = some (frame, q) →
    frame ∉ s.held ∧ whole frame ∧ q.phys = Bytes.clear s.pool.phys frame 4096
  none : s.pool.anonymousFrameTake = none ↔ ∀ frame, whole frame → frame ∈ s.held

variable {s : FrameClient} {p q : FramePool} {entry minimum start stop : ℕ}

/-- The frames of the region from `start` to `stop` are out, or can be had. -/
def Keeps (start stop : ℕ) (s : FrameClient) : Prop :=
  ∃ free cut, s.pool.Stocked start stop s.held free cut

theorem keeps_step (s : FrameClient) (call : FrameCall) (h : Keeps start stop s)
    (hallowed : Allowed (Page start stop) s call) : Keeps start stop (s.step call) := by
  obtain ⟨free, cut, hs⟩ := h
  cases call with
  | allocate =>
    unfold step
    rcases hs.allocate with ⟨hcall, -⟩ | ⟨frame, q, hcall, hq, -⟩ <;> rw [hcall]
    · exact ⟨free, cut, hs⟩
    · exact ⟨free, cut + 1, hq⟩
  | take =>
    unfold step
    rcases hs.take with ⟨hcall, -⟩ | ⟨frame, q, free', cut', hcall, hq, -⟩ <;> rw [hcall]
    · exact ⟨free, cut, hs⟩
    · exact ⟨free', cut', hq⟩
  | release frame => exact ⟨frame :: free, cut, hs.release hallowed⟩
  | write a b =>
    refine ⟨free, cut, hs.keeps rfl rfl rfl fun frame hmem c hfrom hto => ?_⟩
    have hout := hallowed frame (hs.page (by simp [hmem])) fun hheld =>
      List.disjoint_of_nodup_append hs.nodup hheld hmem
    exact Function.update_of_ne (by omega) _ _

theorem Keeps.shared (h : Keeps start stop s) : s.Shared (Page start stop) := by
  obtain ⟨free, cut, hs⟩ := h
  have hinside := fun frame (hmem : frame ∈ s.held) => hs.page (List.mem_append_left free hmem)
  have hnodup := (List.nodup_append.1 hs.nodup).1
  rcases hs.take with ⟨hcall, rfl, hfull⟩ | ⟨frame, q, free', cut', hcall, hq, hphys⟩
  · refine ⟨hnodup, hinside, by simp [hcall], fun _ frame hframe => ?_, fun _ => hcall⟩
    obtain ⟨i, rfl, hwithin⟩ := hframe
    simpa using hs.pages.mem_iff.2 (List.mem_map.2 ⟨i, by simp; omega, rfl⟩)
  · have hout : frame ∉ s.held := by
      have := (List.nodup_cons.1 hq.nodup).1
      simp_all
    have hnext : Page start stop frame := hq.page (by simp)
    refine ⟨hnodup, hinside, fun frame' r hr => ?_, by simp [hcall],
      fun hall => absurd (hall frame hnext) hout⟩
    obtain ⟨rfl, rfl⟩ : frame = frame' ∧ q = r := by simpa [hcall] using hr
    exact ⟨hout, hnext, hphys⟩

/-- A region that is accepted is shared out, whatever calls follow. -/
theorem frames_of_client (hmin : minimum < 2 ^ 64)
    (h : p.makoFrameRegionInit entry minimum = (true, q)) (hfree : p.freeFrames = 0)
    (hzero : p.word entry ≠ 0 ∨ minimum ≠ 0) (calls : List FrameCall)
    (hallowed : Machine.Meets step (Allowed (Whole (p.word entry) (p.word (entry + 8)) minimum))
      ⟨q, []⟩ calls) :
    (Machine.run step ⟨q, []⟩ calls).Shared
      (Whole (p.word entry) (p.word (entry + 8)) minimum) := by
  obtain ⟨hend, hshort, haligned, hfirst, hlow, hnear⟩ := makoFrameRegionInit_spec hmin h
  have hwhole : Whole (p.word entry) (p.word (entry + 8)) minimum
      = Page q.frameNext q.frameEnd := by
    ext frame
    constructor
    · rintro ⟨h1, h2, h3, h4⟩
      exact ⟨(frame - q.frameNext) / 4096, by omega, by omega⟩
    · rintro ⟨i, rfl, hwithin⟩
      exact ⟨by omega, by omega, by omega, by omega⟩
  have hstart : Keeps q.frameNext q.frameEnd ⟨q, []⟩ := by
    refine ⟨[], 0, ?_, .refl _, ⟨rfl, rfl, by omega, hshort, by omega⟩, by omega⟩
    unfold makoFrameRegionInit at h
    dsimp only at h
    split_ifs at h <;> cases h <;> exact hfree
  rw [hwhole] at hallowed ⊢
  exact (Machine.run_inv_of_meets step keeps_step calls _ hstart hallowed).shared

theorem frames_of_client_back : (Machine.run step
    ⟨((usable 0x100000 0x10000).makoFrameRegionInit 0 0x102001).2, []⟩
      [.take, .take, .release 0x103000, .take]).Shared
    (Whole ((usable 0x100000 0x10000).word 0) ((usable 0x100000 0x10000).word 8) 0x102001) :=
  frames_of_client (by decide) (Prod.ext (by decide +kernel) rfl) rfl (.inr (by decide)) _
    ⟨trivial, trivial, (by decide +kernel : 0x103000 ∈ FrameClient.held _), trivial, trivial⟩

end FrameClient

end DemonOS
