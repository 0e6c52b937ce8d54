import DemonOS.CxxRuntime

/-!
# The list of blocks of `operator new`

How a header in the memory reads, and what the writes of `bump_allocate` and `bump_free` make of the
list. Each writes within a few neighbours only, and the block before them keeps its link, since what
is there afterwards begins at the same address (`Arena.rewrite`); a block of its own past the high
water is the one case in which the last link changes (`Arena.extend`).
-/

namespace DemonOS

open Blocks CxxArena

namespace BlockHeader

/-- The header in the memory is that of the block, and the link leads here. -/
structure Reads (m : ℕ → UInt8) (b : Block) (n : ℕ) : Prop where
  size : size m b.start = b.size
  used : used m b.start = !b.free
  next : next m b.start = n

def Listed (m : ℕ → UInt8) (bs : List Block) (next : ℕ) : Prop :=
  Linked (fun _ b n => Reads m b n) 0 bs next

structure Arena (m : ℕ → UInt8) (a e : ℕ) (bs : List Block) : Prop where
  tiles : Tiles kHeaderSize a e bs
  listed : Listed m bs 0

def Kept (m m' : ℕ → UInt8) (bs : List Block) : Prop :=
  ∀ u ∈ bs, ∀ i, u.payload kHeaderSize ≤ i → i < u.stop kHeaderSize → m' i = m i

variable {m m' : ℕ → UInt8} {a lo hi e n : ℕ} {b c : Block} {bs pre mid mid' post : List Block}

theorem kHeaderSize_eq : kHeaderSize = 32 := rfl

theorem Reads.frame (h : Reads m b n)
    (hkept : ∀ i, b.start ≤ i → i < b.start + kHeaderSize → m' i = m i) : Reads m' b n := by
  rw [kHeaderSize_eq] at hkept
  obtain ⟨hsize, hused, hnext⟩ := h
  refine ⟨?_, ?_, ?_⟩
  · rw [← hsize]
    exact LittleEndian.load_congr fun i _ _ => hkept i (by omega) (by omega)
  · rw [← hused]
    unfold BlockHeader.used
    rw [LittleEndian.load_congr fun i _ _ => hkept i (by omega) (by omega)]
  · rw [← hnext]
    exact LittleEndian.load_congr fun i _ _ => hkept i (by omega) (by omega)

theorem Kept.trans {m'' : ℕ → UInt8} (h : Kept m m' bs) (h' : Kept m' m'' bs) : Kept m m'' bs :=
  fun u hu i hlo hhi => (h' u hu i hlo hhi).trans (h u hu i hlo hhi)

theorem Kept.mono {cs : List Block} (h : Kept m m' bs) (hsub : ∀ u ∈ cs, u ∈ bs) : Kept m m' cs :=
  fun u hu => h u (hsub u hu)

theorem listed_from (p : ℕ) : Linked (fun _ b n => Reads m b n) p bs n ↔ Listed m bs n := by
  cases bs <;> rfl

theorem listed_append : Listed m (pre ++ post) n ↔ Listed m pre (following post n) ∧ Listed m post n := by
  unfold Listed
  rw [linked_append, listed_from (preceding 0 pre)]
  rfl

/-- Other blocks may take the place of some, if all writes are where these are. -/
theorem Arena.rewrite (h : Arena m a e (pre ++ mid ++ post)) (hmid : Tiles kHeaderSize lo hi mid)
    (hmid' : Tiles kHeaderSize lo hi mid') (hne : mid ≠ []) (hne' : mid' ≠ [])
    (hout : ∀ i, i < lo ∨ hi ≤ i → m' i = m i) (hparts : Listed m' mid' (following post 0)) :
    Arena m' a e (pre ++ mid' ++ post) ∧ Kept m m' (pre ++ post) := by
  have htiles := h.tiles
  rw [List.append_assoc, tiles_append] at htiles
  obtain ⟨x, hpre, hrest⟩ := htiles
  obtain ⟨y, hxy, hpost⟩ := tiles_append.1 hrest
  obtain ⟨rfl, rfl⟩ := hmid.unique hxy hne
  have hother : ∀ u ∈ pre ++ post, u.stop kHeaderSize ≤ x ∨ y ≤ u.start := fun u hu =>
    (List.mem_append.1 hu).imp (fun hu => (hpre.within.2 u hu).2) fun hu => (hpost.within.2 u hu).1
  have hframe : ∀ u ∈ pre ++ post, ∀ p n : ℕ, Reads m u n → Reads m' u n := by
    intro u hu _ n hreads
    have hapart := hother u hu
    refine hreads.frame fun i hlo hhi => hout i ?_
    unfold Block.stop at hapart
    omega
  have hfirst : following mid' (following post 0) = following mid (following post 0) := by
    cases mid with
    | nil => exact absurd rfl hne
    | cons b mid =>
      cases mid' with
      | nil => exact absurd rfl hne'
      | cons b' mid' => exact hmid'.1.trans hmid.1.symm
  have hlisted := h.listed
  rw [List.append_assoc, listed_append, listed_append] at hlisted
  obtain ⟨hprelisted, -, hpostlisted⟩ := hlisted
  refine ⟨⟨?_, ?_⟩, fun u hu i hpayload hstop => hout i ?_⟩
  · rw [List.append_assoc]
    exact tiles_append.2 ⟨_, hpre, tiles_append.2 ⟨_, hmid', hpost⟩⟩
  · rw [List.append_assoc, listed_append, listed_append, following_append, hfirst,
      ← following_append]
    exact ⟨hprelisted.imp fun u hu => hframe u (List.mem_append_left _ hu), hparts,
      hpostlisted.imp fun u hu => hframe u (List.mem_append_right _ hu)⟩
  · have hapart := hother u hu
    unfold Block.payload at hpayload
    omega

theorem Arena.split (h : Arena m a e (pre ++ b :: post)) :
    Tiles kHeaderSize a b.start pre ∧ Tiles kHeaderSize (b.stop kHeaderSize) e post
      ∧ Reads m b (following post 0)
      ∧ (following post 0 = 0 ∧ post = [] ∨ following post 0 = b.stop kHeaderSize) := by
  obtain ⟨lo, hpre, rfl, hpost⟩ := tiles_append.1 h.tiles
  refine ⟨hpre, hpost, (listed_append.1 h.listed).2.1, ?_⟩
  cases post with
  | nil => exact .inl ⟨rfl, rfl⟩
  | cons c post => exact .inr hpost.1

/-- The memory tells the blocks. -/
theorem Arena.unique : ∀ {bs bs' : List Block} {a : ℕ}, Arena m a e bs → Arena m a e bs' → bs = bs'
  | [], [], _, _, _ => rfl
  | [], b' :: bs', a, h, h' => by
    have hae : a = e := h.tiles
    have hle := h'.tiles.length_mul_le
    rw [kHeaderSize_eq, List.length_cons] at hle
    omega
  | b :: bs, [], a, h, h' => by
    have hae : a = e := h'.tiles
    have hle := h.tiles.length_mul_le
    rw [kHeaderSize_eq, List.length_cons] at hle
    omega
  | b :: bs, b' :: bs', a, h, h' => by
    obtain ⟨⟨hstart, htiles⟩, hreads, hlisted⟩ := h
    obtain ⟨⟨hstart', htiles'⟩, hreads', hlisted'⟩ := h'
    have hbb : b = b' := by
      obtain ⟨start, size, free⟩ := b
      obtain ⟨start', size', free'⟩ := b'
      obtain rfl : start = start' := hstart.trans hstart'.symm
      obtain rfl : size = size' := hreads.size.symm.trans hreads'.size
      have hfree := hreads.used.symm.trans hreads'.used
      simpa using hfree
    subst hbb
    rw [Arena.unique ⟨htiles, (listed_from _).1 hlisted⟩ ⟨htiles', (listed_from _).1 hlisted'⟩]

theorem Arena.mark (h : Arena m a e (pre ++ b :: post)) (used : Bool) :
    Arena (setUsed m b.start used) a e (pre ++ { b with free := !used } :: post)
      ∧ Kept m (setUsed m b.start used) (pre ++ post) := by
  obtain ⟨-, -, hb, -⟩ := h.split
  have hlist : ∀ b : Block, pre ++ b :: post = pre ++ [b] ++ post := by simp
  have hmid : Tiles kHeaderSize b.start (b.stop kHeaderSize) [b] := ⟨rfl, rfl⟩
  rw [hlist] at h ⊢
  refine h.rewrite hmid ⟨rfl, rfl⟩ (by simp) (by simp) (fun i hi => ?_) ⟨⟨?_, ?_, ?_⟩, trivial⟩
  · unfold Block.stop at hi
    rw [kHeaderSize_eq] at hi
    exact LittleEndian.store_apply_of_disjoint m _ (by omega)
  · exact (LittleEndian.load_store_of_disjoint m _
      (.inl (by omega : b.start + 8 ≤ b.start + 8))).trans hb.size
  · rw [Bool.not_not]
    exact LittleEndian.load_flag ..
  · exact (LittleEndian.load_store_of_disjoint m _
      (.inr (by omega : b.start + 8 + 1 ≤ b.start + 16))).trans hb.next

/-! ## Handing a block out -/

/-- The writes of `bump_allocate` where it leaves a remainder behind. -/
def carved (m : ℕ → UInt8) (block needed size next : ℕ) : ℕ → UInt8 :=
  let remainder := block + kHeaderSize + needed
  let m := setSize m remainder (size - needed - kHeaderSize)
  let m := setUsed m remainder false
  let m := setNext m remainder next
  let m := setNext m block remainder
  let m := setSize m block needed
  setUsed m block true

theorem take_eq {needed : ℕ} (hb : Reads m b n) (hneeded : needed ≤ b.size)
    (hend : b.stop kHeaderSize < 2 ^ 64) :
    take m b.start needed = if needed + kHeaderSize + kAlign ≤ b.size then
        carved m b.start needed b.size n
      else setUsed m b.start true := by
  unfold Block.stop at hend
  have hnext : LittleEndian.load m (b.start + 16) 8 = n := hb.next
  have hroom : kHeaderSize + kAlign ≤ b.size - needed ↔ needed + kHeaderSize + kAlign ≤ b.size := by
    omega
  unfold take
  dsimp only
  rw [hb.size]
  by_cases hfits : needed + kHeaderSize + kAlign ≤ b.size
  · rw [if_pos hfits, if_pos (hroom.2 hfits)]
    have hremainder : wrap64 (payloadOf b.start + needed) = b.start + kHeaderSize + needed := by
      unfold payloadOf wrap64
      omega
    rw [hremainder]
    unfold carved
    rw [kHeaderSize_eq] at *
    simp (disch := omega) only [next, setUsed, setSize, setNext,
      LittleEndian.load_store_of_disjoint, hnext]
  · rw [if_neg hfits, if_neg (mt hroom.1 hfits)]

theorem carved_reads {x needed size : ℕ} (hroom : needed + kHeaderSize + kAlign ≤ size)
    (hend : x + kHeaderSize + size < 2 ^ 64) :
    Reads (carved m x needed size n) ⟨x, needed, false⟩ (x + kHeaderSize + needed) := by
  rw [kHeaderSize_eq] at *
  refine ⟨?_, LittleEndian.load_flag .., ?_⟩
  all_goals
    dsimp only [carved]
    rw [kHeaderSize_eq]
    simp (disch := omega) only [BlockHeader.size, next, setUsed, setSize, setNext,
      LittleEndian.load_store_of_disjoint, LittleEndian.load_store_of_lt]

theorem carved_rest {x needed size : ℕ} (hn : n < 2 ^ 64) (hend : x + kHeaderSize + size < 2 ^ 64) :
    Reads (carved m x needed size n)
      ⟨x + kHeaderSize + needed, size - needed - kHeaderSize, true⟩ n := by
  refine ⟨?_, ?_, ?_⟩
  all_goals
    dsimp only [carved]
    rw [kHeaderSize_eq]
    simp (disch := omega) only [BlockHeader.size, BlockHeader.used, next, setUsed, setSize, setNext,
      LittleEndian.load_store_of_disjoint, LittleEndian.load_store_of_lt, LittleEndian.load_flag,
      Bool.not_true]

theorem carved_outside {x needed size i : ℕ} (hroom : needed + kHeaderSize + kAlign ≤ size)
    (hi : i < x ∨ x + kHeaderSize + size ≤ i) : carved m x needed size n i = m i := by
  dsimp only [carved]
  rw [kHeaderSize_eq] at *
  simp (disch := omega) only [setUsed, setSize, setNext, LittleEndian.store_apply_of_disjoint]

theorem Arena.serve (h : Arena m a e (pre ++ b :: post)) (he : e < 2 ^ 64) {needed : ℕ}
    (hneeded : needed ≤ b.size) :
    Arena (take m b.start needed) a e (pre ++ b.serve kHeaderSize kAlign needed ++ post)
      ∧ Kept m (take m b.start needed) (pre ++ post) := by
  obtain ⟨-, hpost, hb, hn⟩ := h.split
  have hstop : b.stop kHeaderSize < 2 ^ 64 := hpost.within.1.trans_lt he
  rw [take_eq hb hneeded hstop]
  by_cases hroom : needed + kHeaderSize + kAlign ≤ b.size
  · have hserve : b.serve kHeaderSize kAlign needed = [⟨b.start, needed, false⟩,
        ⟨b.start + kHeaderSize + needed, b.size - needed - kHeaderSize, true⟩] := if_pos hroom
    have hmid : Tiles kHeaderSize b.start (b.stop kHeaderSize) [b] := ⟨rfl, rfl⟩
    have hlist : pre ++ b :: post = pre ++ [b] ++ post := by simp
    rw [hlist] at h
    rw [if_pos hroom]
    refine h.rewrite hmid (serve_tiles hmid) (by simp) (by rw [hserve]; simp)
      (fun i hi => carved_outside hroom hi) ?_
    rw [hserve]
    exact ⟨carved_reads hroom hstop, carved_rest (by omega) hstop, trivial⟩
  · have hserve : b.serve kHeaderSize kAlign needed = [{ b with free := false }] := if_neg hroom
    rw [if_neg hroom, hserve]
    simpa using h.mark true

/-! ## Joining two blocks -/

/-- The writes of `bump_free` that join a block with the one behind it. -/
def absorbed (m : ℕ → UInt8) (block size next : ℕ) : ℕ → UInt8 :=
  setNext (setSize m block size) block next

theorem absorbed_reads {x size : ℕ} (hsize : size < 2 ^ 64) (hn : n < 2 ^ 64) :
    Reads (absorbed m x size n) ⟨x, size, !BlockHeader.used m x⟩ n := by
  unfold absorbed
  refine ⟨?_, ?_, ?_⟩
  all_goals
    simp (disch := omega) only [BlockHeader.size, BlockHeader.used, next, setSize, setNext,
      LittleEndian.load_store_of_disjoint, LittleEndian.load_store_of_lt, Bool.not_not]

theorem absorbed_outside {x size i : ℕ} (hi : i < x ∨ x + kHeaderSize ≤ i) :
    absorbed m x size n i = m i := by
  rw [kHeaderSize_eq] at hi
  unfold absorbed
  simp (disch := omega) only [setSize, setNext, LittleEndian.store_apply_of_disjoint]

theorem Arena.join (h : Arena m a e (pre ++ b :: c :: post)) (he : e < 2 ^ 64) :
    let size := b.size + (kHeaderSize + c.size)
    let m' := absorbed m b.start size (following post 0)
    Arena m' a e (pre ++ ⟨b.start, size, b.free⟩ :: post) ∧ Kept m m' (pre ++ post) := by
  intro size m'
  obtain ⟨-, hrest, hb, -⟩ := h.split
  obtain ⟨hc, hpost⟩ := hrest
  have hend := hpost.within.1
  have hlt : following post 0 < 2 ^ 64 := by
    cases post with
    | nil => decide
    | cons d post =>
      have hd := (hpost.within.2 d List.mem_cons_self).2
      unfold Block.stop at hd
      dsimp only [following]
      omega
  have hsize : b.start + kHeaderSize + size = c.stop kHeaderSize := by
    unfold Block.stop at hc ⊢
    omega
  have hlist : pre ++ b :: c :: post = pre ++ [b, c] ++ post := by simp
  have hlist' : ∀ b : Block, pre ++ b :: post = pre ++ [b] ++ post := by simp
  rw [hlist] at h
  rw [hlist']
  have hmid : Tiles kHeaderSize b.start (c.stop kHeaderSize) [b, c] := ⟨rfl, hc, rfl⟩
  refine h.rewrite hmid ⟨rfl, hsize⟩ (by simp) (by simp) (fun i hi => absorbed_outside (by omega))
    ⟨?_, trivial⟩
  have hreads := absorbed_reads (m := m) (x := b.start) (by omega : size < 2 ^ 64) hlt
  rw [hb.used, Bool.not_not] at hreads
  exact hreads

/-! ## A block of its own -/

/-- The header that `extend` writes at the high water. -/
def fresh (m : ℕ → UInt8) (block payloadSize : ℕ) : ℕ → UInt8 :=
  setNext (setUsed (setSize m block payloadSize) block true) block 0

theorem fresh_reads {x size : ℕ} (hsize : size < 2 ^ 64) :
    Reads (fresh m x size) ⟨x, size, false⟩ 0 := by
  unfold fresh
  refine ⟨?_, ?_, ?_⟩
  all_goals
    simp (disch := omega) only [BlockHeader.size, BlockHeader.used, next, setSize, setUsed, setNext,
      LittleEndian.load_store_of_disjoint, LittleEndian.load_store_of_lt, LittleEndian.load_flag,
      Bool.not_false]

theorem fresh_outside {x size i : ℕ} (hi : i < x ∨ x + kHeaderSize ≤ i) :
    fresh m x size i = m i := by
  rw [kHeaderSize_eq] at hi
  unfold fresh
  simp (disch := omega) only [setSize, setUsed, setNext, LittleEndian.store_apply_of_disjoint]

theorem Arena.beyond (h : Arena m a e bs) (hout : ∀ i < e, m' i = m i) :
    Arena m' a e bs ∧ Kept m m' bs := by
  refine ⟨⟨h.tiles, h.listed.imp fun b hb _ n hreads => ?_⟩, fun u hu i _ hstop => ?_⟩
  · have hend := (h.tiles.within.2 b hb).2
    refine hreads.frame fun i _ hi => hout i ?_
    unfold Block.stop at hend
    omega
  · have hend := (h.tiles.within.2 u hu).2
    exact hout i (by omega)

/-- The last link leads to a new block. -/
theorem Arena.extend (h : Arena m a e (bs ++ [b])) {size : ℕ} (hnew : Reads m ⟨e, size, false⟩ 0)
    (he : e < 2 ^ 64) :
    Arena (setNext m b.start e) a (e + kHeaderSize + size) (bs ++ [b] ++ [⟨e, size, false⟩])
      ∧ Kept m (setNext m b.start e) (bs ++ [b]) := by
  obtain ⟨hbs, hend, hb, -⟩ := h.split
  replace hend : b.stop kHeaderSize = e := hend
  unfold Block.stop at hend
  have hout : ∀ i, i < b.start + 16 ∨ b.start + 24 ≤ i → setNext m b.start e i = m i := fun i hi =>
    LittleEndian.store_apply_of_disjoint m _ (by omega)
  obtain ⟨hlisted, -⟩ := listed_append.1 h.listed
  rw [kHeaderSize_eq] at hend
  refine ⟨⟨tiles_append.2 ⟨e, h.tiles, rfl, rfl⟩, ?_⟩, fun u hu i hpayload hstop => hout i ?_⟩
  · rw [listed_append, listed_append]
    refine ⟨⟨hlisted.imp fun u hu _ n hreads => ?_, ⟨?_, ?_, ?_⟩, trivial⟩, ?_, trivial⟩
    · have hle := (hbs.within.2 u hu).2
      unfold Block.stop at hle
      exact hreads.frame fun i _ hi => hout i (by omega)
    · exact (LittleEndian.load_store_of_disjoint m _
        (.inl (by omega : b.start + 8 ≤ b.start + 16))).trans hb.size
    · have hflag : BlockHeader.used (setNext m b.start e) b.start = BlockHeader.used m b.start := by
        simp (disch := omega) only [BlockHeader.used, setNext, LittleEndian.load_store_of_disjoint]
      rw [hflag, hb.used]
    · exact LittleEndian.load_store_of_lt m (by omega)
    · exact hnew.frame fun i hlo _ => hout i (by dsimp only at hlo; omega)
  · rcases List.mem_append.1 hu with hu | hu
    · have hle := (hbs.within.2 u hu).2
      omega
    · obtain rfl := List.mem_singleton.1 hu
      unfold Block.payload at hpayload
      rw [kHeaderSize_eq] at hpayload
      omega

theorem Arena.next_eq (h : Arena m a e bs) (hb : b ∈ bs) :
    next m b.start = 0 ∧ b.stop kHeaderSize = e
      ∨ next m b.start = b.stop kHeaderSize ∧ b.stop kHeaderSize < e := by
  obtain ⟨pre, post, rfl⟩ := List.append_of_mem hb
  obtain ⟨-, hpost, hreads, hn⟩ := h.split
  rw [hreads.next]
  refine hn.imp (fun hn => ?_) fun hn => ⟨hn, ?_⟩
  · obtain ⟨hnext, rfl⟩ := hn
    exact ⟨hnext, hpost⟩
  · cases post with
    | nil =>
      unfold Block.stop at hn
      rw [kHeaderSize_eq] at hn
      dsimp only [following] at hn
      omega
    | cons c post =>
      have hc := (hpost.within.2 c List.mem_cons_self).2
      have hstart : c.start = b.stop kHeaderSize := hpost.1
      unfold Block.stop at *
      rw [kHeaderSize_eq] at *
      omega

end BlockHeader

end DemonOS

/-!
## What `operator new` and `operator delete` do to the list

A block that is given back becomes one with its free neighbours (`CutInto.free`), the one before it
being found by a scan from the first block. What is asked for comes from the first free block that
is large enough, or from past the high water (`CutInto.allocate`).
-/

namespace DemonOS

open Blocks BlockHeader

namespace CxxArena

structure CutInto (c : CxxArena) (a n : ℕ) (bs : List Block) : Prop where
  arena : Arena c.memory a c.highWater bs
  merged : Merged bs
  aligned : ∀ b ∈ bs, b.start % 16 = 0
  top : c.highWater % 16 = 0
  first : c.firstBlock = following bs 0
  base : c.arena = a
  bytes : c.arenaBytes = n
  low : 16 ≤ a
  high : c.highWater ≤ a + n
  room : a + n + kHeaderSize < 2 ^ 64

variable {c : CxxArena} {m : ℕ → UInt8} {a e n size : ℕ} {b u : Block}
  {bs bs' pre post : List Block}

theorem payload_ne_zero (b : Block) : b.payload kHeaderSize ≠ 0 := by
  unfold Block.payload
  rw [kHeaderSize_eq]
  omega

theorem headerOf_payload (b : Block) : headerOf (b.payload kHeaderSize) = b.start :=
  Nat.add_sub_cancel _ _

/-! ### The scan for the block before -/

def freeEnding (a : ℕ) (p : Block) : Bool := decide (p.stop kHeaderSize = a) && p.free

@[simp] theorem freeEnding_iff : freeEnding a b = true ↔ b.stop kHeaderSize = a ∧ b.free = true := by
  simp [freeEnding]

theorem find_previous (h : Tiles kHeaderSize a e (pre ++ b :: post)) :
    (∃ rest p, pre = rest ++ [p] ∧ p.free = true
        ∧ (pre ++ b :: post).find? (freeEnding b.start) = some p)
      ∨ (∀ p ∈ pre.getLast?, p.free = false)
        ∧ (pre ++ b :: post).find? (freeEnding b.start) = none := by
  rcases List.eq_nil_or_concat pre with rfl | ⟨rest, p, rfl⟩
  · refine .inr ⟨by simp, List.find?_eq_none.2 fun p hp hends => ?_⟩
    have hlow := (h.within.2 p hp).1
    have hstop := (freeEnding_iff.1 hends).1
    have hstart : b.start = a := h.1
    unfold Block.stop at hstop
    rw [kHeaderSize_eq] at hstop
    omega
  · rw [List.concat_eq_append] at *
    have hp : p ∈ rest ++ [p] ++ b :: post := by simp
    have hends : p.stop kHeaderSize = b.start := by
      obtain ⟨x, hrest, hstart, -⟩ := tiles_append.1 h
      obtain ⟨y, -, -, hstop⟩ := tiles_append.1 hrest
      exact Eq.trans hstop hstart.symm
    have hunique : ∀ q ∈ rest ++ [p] ++ b :: post, q.stop kHeaderSize = b.start → q = p :=
      fun q hq hstop => h.eq_of_stop (by decide) hq hp (hstop.trans hends.symm)
    cases hfind : (rest ++ [p] ++ b :: post).find? (freeEnding b.start) with
    | none =>
      have hnot := List.find?_eq_none.1 hfind p hp
      refine .inr ⟨fun q hq => ?_, rfl⟩
      rw [List.getLast?_concat] at hq
      obtain rfl := Option.some.inj hq
      simpa [hends] using hnot
    | some q =>
      obtain ⟨hstop, hfree⟩ := freeEnding_iff.1 (List.find?_some hfind)
      obtain rfl := hunique q (List.mem_of_find?_eq_some hfind) hstop
      exact .inl ⟨rest, q, rfl, hfree, rfl⟩

theorem walk_previous (h : Arena m a e (pre ++ b :: post)) (ha : 0 < a) {rounds : ℕ}
    (hrounds : (pre ++ b :: post).length < rounds) :
    walk (next m) (fun prev => next m prev = b.start && !BlockHeader.used m prev) rounds
        (following (pre ++ b :: post) 0)
      = some (((pre ++ b :: post).find? (freeEnding b.start)).elim 0 Block.start) := by
  have hwithin := h.tiles.within.2
  have hb := hwithin b (List.mem_append_right _ List.mem_cons_self)
  refine walk_eq_find h.listed (fun p hp => ?_) (fun _ _ _ _ hreads => hreads.next)
    (fun p hp _ _ hreads => ?_) hrounds
  · have hlow := (hwithin p hp).1
    omega
  · have hnext := h.next_eq hp
    have hiff : next m p.start = b.start ↔ p.stop kHeaderSize = b.start := by
      unfold Block.stop at *
      rw [kHeaderSize_eq] at *
      omega
    rw [hreads.used, Bool.not_not]
    simp only [hiff, freeEnding]

/-! ### Giving a block back -/

theorem coalesceNext_arena (h : Arena m a e (pre ++ b :: post)) (he : e < 2 ^ 64) :
    ∃ after rest, post = after ++ rest ∧ (∀ c ∈ after, c.free = true)
      ∧ (after = [] → ∀ c ∈ rest.head?, c.free = false)
      ∧ Arena (coalesceNext m b.start) a e
        (pre ++ ⟨b.start, b.size + extent kHeaderSize after, b.free⟩ :: rest)
      ∧ Kept m (coalesceNext m b.start) (pre ++ rest) := by
  obtain ⟨-, hpost, hb, -⟩ := h.split
  cases post with
  | nil =>
    have heq : coalesceNext m b.start = m := if_neg fun hnext => hnext.1 hb.next
    rw [heq]
    exact ⟨[], [], rfl, by simp, by simp, by simpa using h, fun _ _ _ _ _ => rfl⟩
  | cons c rest =>
    have hc : Reads m c (following rest 0) := (listed_append.1 h.listed).2.2.1
    have hstart : c.start = b.stop kHeaderSize := hpost.1
    unfold Block.stop at hstart
    rw [kHeaderSize_eq] at hstart
    have hnext : next m b.start = c.start := hb.next
    have hcond : (next m b.start ≠ 0 ∧ BlockHeader.used m (next m b.start) = false)
        ↔ c.free = true := by
      rw [hnext, hc.used]
      simp only [Bool.not_eq_false']
      exact ⟨And.right, fun hfree => ⟨by omega, hfree⟩⟩
    by_cases hfree : c.free = true
    · have heq : coalesceNext m b.start
          = absorbed m b.start (b.size + (kHeaderSize + c.size)) (following rest 0) := by
        have hstored : LittleEndian.load m (b.start + 16) 8 = c.start := hb.next
        have hbehind : LittleEndian.load m (c.start + 16) 8 = following rest 0 := hc.next
        unfold coalesceNext absorbed
        rw [if_pos (hcond.2 hfree), hnext, hb.size, hc.size]
        simp (disch := omega) only [next, setSize, setNext, LittleEndian.load_store_of_disjoint,
          hstored, hbehind]
      obtain ⟨harena, hkept⟩ := h.join he
      rw [heq]
      refine ⟨[c], rest, rfl, by simpa using hfree, by simp, ?_, hkept⟩
      simpa using harena
    · have heq : coalesceNext m b.start = m := if_neg fun h => hfree (hcond.1 h)
      rw [heq]
      refine ⟨[], c :: rest, rfl, by simp, fun _ d hd => ?_, by simpa using h,
        fun _ _ _ _ _ => rfl⟩
      obtain rfl := Option.some.inj hd
      simpa using hfree

theorem coalescePrevious_arena (h : Arena m a e (pre ++ b :: post)) (ha : 0 < a) (he : e < 2 ^ 64)
    (hb : b.free = true) :
    ∃ first before, pre = first ++ before ∧ (∀ c ∈ before, c.free = true)
      ∧ (before = [] → ∀ c ∈ first.getLast?, c.free = false)
      ∧ Arena (coalescePrevious m (((pre ++ b :: post).find? (freeEnding b.start)).elim 0 Block.start)
          b.start) a e (first ++ b.joined kHeaderSize before [] :: post)
      ∧ Kept m (coalescePrevious m
          (((pre ++ b :: post).find? (freeEnding b.start)).elim 0 Block.start) b.start)
        (first ++ post) := by
  rcases find_previous h.tiles with ⟨first, p, rfl, hfree, hfind⟩ | ⟨hlast, hfind⟩
  · rw [hfind]
    dsimp only [Option.elim]
    have hlist : first ++ [p] ++ b :: post = first ++ p :: b :: post := by simp
    have hreads := h.split.2.2.1
    rw [hlist] at h
    obtain ⟨hfirst, hstart, hp, -⟩ := h.split
    have hlow : a ≤ p.start := hfirst.within.1
    replace hstart : b.start = p.stop kHeaderSize := hstart.1
    have heq : coalescePrevious m p.start b.start
        = absorbed m p.start (p.size + (kHeaderSize + b.size)) (following post 0) := by
      have hbehind : LittleEndian.load m (b.start + 16) 8 = following post 0 := hreads.next
      unfold Block.stop at hstart
      unfold coalescePrevious absorbed
      rw [if_pos (by omega), hp.size, hreads.size]
      simp (disch := omega) only [next, setSize, setNext, LittleEndian.load_store_of_disjoint, hbehind]
    have hjoined : b.joined kHeaderSize [p] []
        = ⟨p.start, p.size + (kHeaderSize + b.size), p.free⟩ := by
      unfold Block.stop at hstart
      simp only [Block.joined, extent_cons, extent_nil, hfree, Block.mk.injEq, and_true]
      omega
    obtain ⟨harena, hkept⟩ := h.join he
    rw [heq]
    refine ⟨first, [p], rfl, by simpa using hfree, by simp, ?_, hkept⟩
    rw [hjoined]
    exact harena
  · rw [hfind]
    have hjoined : b.joined kHeaderSize [] [] = b := by
      cases b
      simpa [Block.joined] using hb.symm
    refine ⟨pre, [], by simp, by simp, fun _ => hlast, ?_, fun _ _ _ _ _ => rfl⟩
    rw [hjoined]
    exact h

structure Provides (c : CxxArena) (a n : ℕ) (bs : List Block) (size : ℕ) (u : Block)
    (bs' : List Block) (c' : CxxArena) : Prop where
  arena : c'.CutInto a n bs'
  adds : Adds bs bs' u
  enough : size ≤ u.size
  kept : Kept c.memory c'.memory (used bs)

theorem alignUp_mod (bytes : ℕ) : alignUp bytes % 16 = 0 := Nat.mul_mod_left _ _

theorem le_alignUp {bytes : ℕ} (hsmall : bytes + 48 ≤ 2 ^ 64) :
    bytes ≤ alignUp bytes ∧ kHeaderSize + alignUp bytes < 2 ^ 64 := by
  unfold alignUp wrap64 kAlign
  rw [kHeaderSize_eq]
  omega

namespace CutInto

theorem bounds (hc : c.CutInto a n bs) (hb : b ∈ bs) :
    a ≤ b.start ∧ b.start + 32 + b.size ≤ c.highWater := hc.arena.tiles.within.2 b hb

theorem length_lt (hc : c.CutInto a n bs) (h : Tiles kHeaderSize a c.highWater bs') :
    bs'.length < c.rounds := by
  have hle := h.length_mul_le
  have hhigh := hc.high
  have hbytes := hc.bytes
  unfold rounds
  rw [kHeaderSize_eq] at hle
  omega

theorem fill (hc : c.CutInto a n bs) (hu : u ∈ bs) {m : ℕ → UInt8}
    (hout : ∀ i, ¬(u.payload kHeaderSize ≤ i ∧ i < u.stop kHeaderSize) → m i = c.memory i) :
    { c with memory := m }.CutInto a n bs := by
  refine ⟨⟨hc.arena.tiles, hc.arena.listed.imp fun d hmem _ n hreads => ?_⟩, hc.merged, hc.aligned,
    hc.top, hc.first, hc.base, hc.bytes, hc.low, hc.high, hc.room⟩
  refine hreads.frame fun i hlo hhi => hout i ?_
  unfold Block.payload
  by_cases hdu : d = u
  · subst hdu
    omega
  · have hapart := hc.arena.tiles.apart hmem hu hdu
    unfold Block.stop at hapart ⊢
    omega

/-- A block in use is given back. -/
theorem free (hc : c.CutInto a n bs) (hb : b ∈ used bs) :
    ∃ c' bs', c.bumpFree (b.payload kHeaderSize) = some c' ∧ c'.CutInto a n bs' ∧ Adds bs' bs b
      ∧ Kept c.memory c'.memory (used bs') := by
  obtain ⟨hmem, hused⟩ := mem_used.1 hb
  obtain ⟨pre, post, rfl⟩ := List.append_of_mem hmem
  have hlow := hc.low
  have hhigh := hc.high
  have hroom := hc.room
  obtain ⟨hmarked, hkept⟩ : Arena (setUsed c.memory b.start false) a c.highWater
      (pre ++ ⟨b.start, b.size, true⟩ :: post) ∧ _ := hc.arena.mark false
  obtain ⟨after, rest, rfl, hafter, hhead, hjoined, hkept'⟩ :=
    coalesceNext_arena hmarked (by omega)
  obtain ⟨first, before, rfl, hbefore, hlast, harena, hkept''⟩ :=
    coalescePrevious_arena hjoined (by omega) (by omega) rfl
  have hwalk := walk_previous hjoined (by omega) (hc.length_lt hjoined.tiles)
  rw [hjoined.tiles.following_eq (by simp), ← hc.arena.tiles.following_eq (by simp), ← hc.first]
    at hwalk
  generalize (((first ++ before) ++ ⟨b.start, b.size + extent kHeaderSize after, true⟩ :: rest).find?
    (freeEnding b.start)).elim 0 Block.start = prev at hwalk harena hkept''
  let m := coalescePrevious (coalesceNext (setUsed c.memory b.start false) b.start) prev b.start
  have hfree : c.bumpFree (b.payload kHeaderSize) = some { c with memory := m } := by
    unfold bumpFree
    dsimp only
    rw [if_neg (payload_ne_zero b), headerOf_payload, hwalk]
    rfl
  have hlist : first ++ before ++ b :: (after ++ rest) = first ++ (before ++ b :: after) ++ rest := by
    simp
  have hmerged := hc.merged
  have htiles := hc.arena.tiles
  have haligned := hc.aligned
  have hadds : Adds (first ++ [b.joined kHeaderSize before after] ++ rest)
      (first ++ (before ++ b :: after) ++ rest) b := joined_adds hbefore hafter hused
  rw [← hlist] at hadds
  rw [hlist] at hmerged htiles haligned
  refine ⟨_, first ++ [b.joined kHeaderSize before after] ++ rest, hfree,
    ⟨?_, hmerged.join hbefore hafter hlast hhead, joined_aligned htiles haligned, hc.top, ?_, hc.base, hc.bytes,
      hc.low, hc.high, hc.room⟩, hadds, ?_⟩
  · simpa using harena
  · have hnew := harena.tiles
    rw [hc.first, hc.arena.tiles.following_eq (by simp)]
    refine (Tiles.following_eq (?_ : Tiles kHeaderSize a c.highWater _) (by simp)).symm
    simpa using hnew
  · have hkept₁ : Kept _ _ (first ++ rest) := hkept.mono fun u hu => by
      rcases List.mem_append.1 hu with hu | hu <;> simp [hu]
    have hkept₂ : Kept _ _ (first ++ rest) := hkept'.mono fun u hu => by
      rcases List.mem_append.1 hu with hu | hu <;> simp [hu]
    exact ((hkept₁.trans hkept₂).trans hkept'').mono fun u hu => mem_of_used_joined hu

theorem walk_tail (hc : c.CutInto a n bs) (h : Arena m a c.highWater bs) (hne : bs ≠ []) :
    ∃ init t, bs = init ++ [t]
      ∧ walk (next m) (fun tail => next m tail = 0) c.rounds c.firstBlock = some t.start := by
  have hlow := hc.low
  rcases List.eq_nil_or_concat bs with rfl | ⟨init, t, rfl⟩
  · exact absurd rfl hne
  rw [List.concat_eq_append] at *
  have ht : t ∈ init ++ [t] := by simp
  have hends : t.stop kHeaderSize = c.highWater := by
    obtain ⟨x, -, -, hstop⟩ := tiles_append.1 h.tiles
    exact hstop
  refine ⟨init, t, rfl, ?_⟩
  have hwalk := @walk_eq_find _ (next m) (fun tail => next m tail = 0)
    (fun p => p.stop kHeaderSize = c.highWater) _ _ c.rounds h.listed
    (fun p hp => by have hle := (h.tiles.within.2 p hp).1; omega) (fun _ _ _ _ hreads => hreads.next)
    (fun p hp _ _ _ => by
      have hnext := h.next_eq hp
      have hiff : next m p.start = 0 ↔ p.stop kHeaderSize = c.highWater := by
        unfold Block.stop at *
        rw [kHeaderSize_eq] at *
        omega
      simp only [hiff]) (hc.length_lt h.tiles)
  rw [hc.first, hwalk]
  cases hfind : (init ++ [t]).find? fun p => decide (p.stop kHeaderSize = c.highWater) with
  | none =>
    have hnot := List.find?_eq_none.1 hfind t ht
    exact absurd hends (by simpa using hnot)
  | some q =>
    have hstop : q.stop kHeaderSize = c.highWater := by simpa using List.find?_some hfind
    have hq : q = t := h.tiles.eq_of_stop (by decide) (List.mem_of_find?_eq_some hfind) ht
      (hstop.trans hends.symm)
    rw [hq]
    rfl

/-- A block of its own past the high water. -/
theorem extend (hc : c.CutInto a n bs) {payload : ℕ}
    (hroom : wrap64 (kHeaderSize + payload) ≤ a + n - c.highWater) :
    ∃ c', c.extend payload = some (c.highWater, c')
      ∧ (payload % 16 = 0 → kHeaderSize + payload < 2 ^ 64 →
        c'.CutInto a n (bs ++ [⟨c.highWater, payload, false⟩]) ∧ Kept c.memory c'.memory bs) := by
  have hlow := hc.low
  have hhigh := hc.high
  have hend := hc.room
  have hrest : ¬c.arena + c.arenaBytes - c.highWater < wrap64 (kHeaderSize + payload) := by
    rw [hc.base, hc.bytes]
    omega
  obtain ⟨hbeyond, hkept⟩ : Arena (fresh c.memory c.highWater payload) a c.highWater bs ∧ _ :=
    hc.arena.beyond fun i hi => fresh_outside (.inl hi)
  have hmerged : Merged (bs ++ [⟨c.highWater, payload, false⟩]) := by
    refine List.isChain_append.2 ⟨hc.merged, List.isChain_singleton _, fun x _ y hy hboth => ?_⟩
    obtain rfl := Option.some.inj hy
    cases hboth.2
  have haligned : ∀ b ∈ bs ++ [⟨c.highWater, payload, false⟩], b.start % 16 = 0 := by
    intro b hb
    rcases List.mem_append.1 hb with hb | hb
    · exact hc.aligned b hb
    · obtain rfl := List.mem_singleton.1 hb
      exact hc.top
  have htop := hc.top
  unfold CxxArena.extend
  rw [if_neg hrest]
  by_cases hfirst : c.firstBlock = 0
  · rw [if_pos hfirst]
    have hnil : bs = [] := by
      by_contra hne
      have hfollowing : following bs 0 = a := hc.arena.tiles.following_eq hne
      rw [← hc.first, hfirst] at hfollowing
      omega
    subst hnil
    have ha : a = c.highWater := hc.arena.tiles
    refine ⟨_, rfl, fun hpayload hsmall => ?_⟩
    have hneeded : wrap64 (kHeaderSize + payload) = kHeaderSize + payload := Nat.mod_eq_of_lt hsmall
    rw [hneeded] at hroom ⊢
    refine ⟨⟨⟨⟨ha.symm, ?_⟩, fresh_reads (by omega), trivial⟩, hmerged, haligned, ?_, rfl, hc.base,
      hc.bytes, hlow, ?_, hc.room⟩, hkept⟩
    · exact Nat.add_assoc _ _ _
    · rw [kHeaderSize_eq]
      dsimp only
      omega
    · dsimp only
      omega
  · rw [if_neg hfirst]
    have hne : bs ≠ [] := by
      rintro rfl
      exact hfirst hc.first
    obtain ⟨init, t, rfl, hwalk⟩ := hc.walk_tail hbeyond hne
    unfold fresh at hwalk
    rw [hwalk]
    refine ⟨_, rfl, fun hpayload hsmall => ?_⟩
    have hneeded : wrap64 (kHeaderSize + payload) = kHeaderSize + payload := Nat.mod_eq_of_lt hsmall
    rw [hneeded] at hroom ⊢
    obtain ⟨harena, hkept'⟩ := hbeyond.extend (fresh_reads (by omega)) (by omega)
    refine ⟨⟨?_, hmerged, haligned, ?_, ?_, hc.base, hc.bytes, hlow, ?_, hc.room⟩,
      hkept.trans hkept'⟩
    · rw [Nat.add_assoc] at harena
      exact harena
    · rw [kHeaderSize_eq]
      dsimp only
      omega
    · rw [following_append]
      exact hc.first.trans
        ((hc.arena.tiles.following_eq hne).trans (hc.arena.tiles.following_eq hne).symm)
    · dsimp only
      omega

/-- The first free block that is large enough is handed out, or a new one; a request that rounding
does not wrap around gets what it asks for. -/
theorem allocate (hc : c.CutInto a n bs) (bytes : ℕ) :
    c.bumpAllocate bytes = some (0, c)
        ∧ (∀ b ∈ bs, b.free = true → b.size < alignUp bytes)
        ∧ a + n - c.highWater < wrap64 (kHeaderSize + alignUp bytes)
      ∨ ∃ u bs' c', c.bumpAllocate bytes = some (u.payload kHeaderSize, c') ∧ a ≤ u.start
        ∧ ((∃ b ∈ bs, b.free = true ∧ alignUp bytes ≤ b.size)
          ∨ wrap64 (kHeaderSize + alignUp bytes) ≤ a + n - c.highWater)
        ∧ (bytes + 48 ≤ 2 ^ 64 → c.Provides a n bs bytes u bs' c') := by
  have hlow := hc.low
  have hhigh := hc.high
  have hroom := hc.room
  rw [kHeaderSize_eq] at hroom
  have hwalk := @walk_eq_find _ (next c.memory) (fun block => !BlockHeader.used c.memory block
      && decide (alignUp bytes ≤ BlockHeader.size c.memory block)) (Block.fits (alignUp bytes))
    _ _ _ hc.arena.listed (fun b hb => by have hle := (hc.bounds hb).1; omega)
    (fun _ _ _ _ hreads => hreads.next)
    (fun _ _ _ _ hreads => by rw [hreads.used, hreads.size, Bool.not_not]; rfl)
    (hc.length_lt hc.arena.tiles)
  rw [← hc.first] at hwalk
  unfold bumpAllocate
  dsimp only
  rw [hwalk]
  cases hfind : bs.find? (Block.fits (alignUp bytes)) with
  | none =>
    have hnone : ∀ b ∈ bs, b.free = true → b.size < alignUp bytes := fun b hb hfree => by
      have hnot := List.find?_eq_none.1 hfind b hb
      simpa [hfree] using hnot
    by_cases hrest : a + n - c.highWater < wrap64 (kHeaderSize + alignUp bytes)
    · refine .inl ⟨?_, hnone, hrest⟩
      have hextend : c.extend (alignUp bytes) = some (0, c) := by
        unfold CxxArena.extend
        rw [hc.base, hc.bytes]
        exact if_pos hrest
      dsimp only [Option.elim, Option.bind_some]
      rw [if_neg (by simp), hextend]
      rfl
    · obtain ⟨c', hextend, hnew⟩ := hc.extend (not_lt.1 hrest)
      refine .inr ⟨⟨c.highWater, alignUp bytes, false⟩,
        bs ++ [⟨c.highWater, alignUp bytes, false⟩], c', ?_, hc.arena.tiles.within.1,
        .inr (not_lt.1 hrest), fun hsmall => ?_⟩
      · dsimp only [Option.elim, Option.bind_some]
        rw [if_neg (by simp), hextend]
        dsimp only [Option.map_some]
        have hle := hc.arena.tiles.within.1
        rw [if_neg (by omega)]
        unfold payloadOf wrap64 Block.payload
        rw [kHeaderSize_eq, Nat.mod_eq_of_lt (by omega)]
      · obtain ⟨hle, hfits⟩ := le_alignUp hsmall
        obtain ⟨harena, hkept⟩ := hnew (alignUp_mod bytes) hfits
        refine ⟨harena, ⟨Blocks.used bs, [], by simp, ?_⟩, hle,
          hkept.mono fun u hu => (mem_used.1 hu).1⟩
        rw [used_append, used_cons_used rfl]
        rfl
  | some b =>
    obtain ⟨htest, pre, post, rfl, -⟩ := List.find?_eq_some_iff_append.1 hfind
    obtain ⟨hfree, hneeded⟩ := fits_iff.1 htest
    have hb : b ∈ pre ++ b :: post := List.mem_append_right pre List.mem_cons_self
    have hbounds := hc.bounds hb
    obtain ⟨harena, hkept⟩ := hc.arena.serve (by omega) hneeded
    refine .inr ⟨b.served kHeaderSize kAlign (alignUp bytes),
      pre ++ b.serve kHeaderSize kAlign (alignUp bytes) ++ post,
      { c with memory := take c.memory b.start (alignUp bytes) }, ?_, hbounds.1, .inl ⟨b, hb, hfree, hneeded⟩, fun hsmall => ⟨⟨harena, serve_merged hc.merged hfree,
        serve_aligned hc.aligned (by decide) (alignUp_mod bytes), hc.top, ?_, hc.base, hc.bytes, hlow, hhigh, hc.room⟩, serve_adds hfree, ?_,
        ?_⟩⟩
    · dsimp only [Option.elim, Option.bind_some]
      rw [if_pos (by omega)]
      unfold payloadOf wrap64 Block.payload Block.served
      rw [kHeaderSize_eq, Nat.mod_eq_of_lt (by omega)]
    · obtain ⟨rest, hserve, -⟩ := @serve_cons kHeaderSize kAlign (alignUp bytes) b
      refine hc.first.trans ?_
      rw [hserve, following_append, following_append, following_append]
      rfl
    · have hserved := @served_size kHeaderSize kAlign _ _ hneeded
      have hle := (le_alignUp hsmall).1
      omega
    · exact hkept.mono fun u hu => mem_of_used_free hfree hu

end CutInto

end CxxArena

end DemonOS
