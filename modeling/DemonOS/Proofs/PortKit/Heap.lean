import DemonOS.PortKit

/-!
# The list of blocks in the arena

How a header in the memory reads, and what the writes of `demon_port_malloc` and `demon_port_free`
make of the list: each writes only within a few neighbours and to the back link of the block behind
them (`relink`), so the rest of the list and every other payload stay as they are.
-/

namespace DemonOS

open Blocks

namespace PortBlock

/-- The header in the memory is that of the block, between these neighbours. -/
structure Reads (m : ℕ → UInt8) (p : ℕ) (b : Block) (n : ℕ) : Prop where
  size : size m b.start = b.size
  previous : previous m b.start = p
  next : next m b.start = n
  free : free m b.start = b.free

def Listed (m : ℕ → UInt8) (bs : List Block) : Prop := Linked (Reads m) 0 bs 0

variable {m m' : ℕ → UInt8} {p n : ℕ} {b c : Block} {pre mid mid' post : List Block}

theorem Reads.frame (h : Reads m p b n)
    (hkept : ∀ i, b.start ≤ i → i < b.start + sizeofPortBlock → m' i = m i) : Reads m' p b n := by
  unfold sizeofPortBlock at hkept
  obtain ⟨hsize, hprevious, hnext, hfree⟩ := h
  refine ⟨?_, ?_, ?_, ?_⟩
  · rw [← hsize]
    exact LittleEndian.load_congr fun i _ _ => hkept i (by omega) (by omega)
  · rw [← hprevious]
    exact LittleEndian.load_congr fun i _ _ => hkept i (by omega) (by omega)
  · rw [← hnext]
    exact LittleEndian.load_congr fun i _ _ => hkept i (by omega) (by omega)
  · rw [← hfree]
    unfold PortBlock.free
    rw [LittleEndian.load_congr fun i _ _ => hkept i (by omega) (by omega)]

theorem Reads.behind (h : Reads m p b n) {p' : ℕ}
    (hkept : ∀ i, b.start ≤ i → i < b.start + sizeofPortBlock →
      ¬(b.start + 8 ≤ i ∧ i < b.start + 16) → m' i = m i)
    (hprevious : PortBlock.previous m' b.start = p') : Reads m' p' b n := by
  unfold sizeofPortBlock at hkept
  refine ⟨?_, hprevious, ?_, ?_⟩
  · rw [← h.size]
    exact LittleEndian.load_congr fun i _ _ => hkept i (by omega) (by omega) (by omega)
  · rw [← h.next]
    exact LittleEndian.load_congr fun i _ _ => hkept i (by omega) (by omega) (by omega)
  · rw [← h.free]
    unfold PortBlock.free
    rw [LittleEndian.load_congr fun i _ _ => hkept i (by omega) (by omega) (by omega)]

/-- The writes stay within a stretch, but for the back link of the block behind it, and leave these
blocks in the stretch. -/
structure Rewrites (m m' : ℕ → UInt8) (lo hi p : ℕ) (mid post : List Block) : Prop where
  outside : ∀ i, i < lo ∨ hi ≤ i →
    (∀ c ∈ post.head?, ¬(c.start + 8 ≤ i ∧ i < c.start + 16)) → m' i = m i
  parts : Linked (Reads m') p mid (following post 0)
  back : ∀ c ∈ post.head?, PortBlock.previous m' c.start = preceding p mid

structure Arena (m : ℕ → UInt8) (a e : ℕ) (bs : List Block) : Prop where
  tiles : Tiles sizeofPortBlock a e bs
  listed : Listed m bs

section Rewrites

variable {a lo hi e : ℕ}

theorem Rewrites.listed (h : Rewrites m m' lo hi (preceding 0 pre) mid' post)
    (hpre : Tiles sizeofPortBlock a lo pre) (hmid : Tiles sizeofPortBlock lo hi mid)
    (hmid' : Tiles sizeofPortBlock lo hi mid') (hpost : Tiles sizeofPortBlock hi e post)
    (hlisted : Listed m (pre ++ mid ++ post)) (hne : mid ≠ []) (hne' : mid' ≠ []) :
    Listed m' (pre ++ mid' ++ post) := by
  have hlo := hmid.within.1
  have hfirst : following mid' (following post 0) = following mid (following post 0) := by
    cases mid with
    | nil => exact absurd rfl hne
    | cons b mid =>
      cases mid' with
      | nil => exact absurd rfl hne'
      | cons b' mid' => exact hmid'.1.trans hmid.1.symm
  refine Linked.replace hlisted ?_ hfirst h.parts ?_
  · intro b hb p n hreads
    have hend := (hpre.within.2 b hb).2
    refine hreads.frame fun i _ hi => h.outside i (.inl ?_) fun c hc => ?_
    · unfold Block.stop at hend
      omega
    · have hstart := (hpost.within.2 c (List.mem_of_mem_head? hc)).1
      unfold Block.stop at hend
      omega
  · unfold Listed at hlisted
    rw [List.append_assoc, linked_append, linked_append] at hlisted
    obtain ⟨-, -, hrest⟩ := hlisted
    cases post with
    | nil => trivial
    | cons c post =>
      obtain ⟨hc, hpost⟩ := hpost
      have hbehind := hpost.within.2
      refine ⟨hrest.1.behind (fun i hi _ hnot => h.outside i (.inr (by omega)) ?_)
        (h.back c rfl), hrest.2.imp fun d hd p n hreads => ?_⟩
      · intro d hd
        obtain rfl := Option.some.inj hd
        exact hnot
      · have hstart := (hbehind d hd).1
        unfold Block.stop sizeofPortBlock at hstart
        refine hreads.frame fun i hi _ => h.outside i (.inr (by omega)) fun d' hd' => ?_
        obtain rfl := Option.some.inj hd'
        omega

theorem Rewrites.payload (h : Rewrites m m' lo hi p mid' post)
    (hpre : Tiles sizeofPortBlock a lo pre) (hlo : lo ≤ hi)
    (hpost : Tiles sizeofPortBlock hi e post) :
    ∀ u ∈ pre ++ post, ∀ i, u.payload sizeofPortBlock ≤ i → i < u.stop sizeofPortBlock →
      m' i = m i := by
  intro u hu i hpayload hstop
  unfold Block.payload at hpayload
  rcases List.mem_append.1 hu with hu | hu
  · have hend := (hpre.within.2 u hu).2
    refine h.outside i (.inl (by omega)) fun c hc => ?_
    have hstart := (hpost.within.2 c (List.mem_of_mem_head? hc)).1
    omega
  · have hstart := (hpost.within.2 u hu).1
    refine h.outside i (.inr (by omega)) fun c hc => ?_
    cases post with
    | nil => cases hc
    | cons d post =>
      obtain rfl := Option.some.inj hc
      unfold sizeofPortBlock at hpayload
      rcases List.mem_cons.1 hu with rfl | hu
      · omega
      · have hbehind := (hpost.2.within.2 u hu).1
        unfold Block.stop sizeofPortBlock at hbehind
        omega

def Kept (m m' : ℕ → UInt8) (bs : List Block) : Prop :=
  ∀ u ∈ bs, ∀ i, u.payload sizeofPortBlock ≤ i → i < u.stop sizeofPortBlock → m' i = m i

theorem Kept.trans {m'' : ℕ → UInt8} {bs : List Block} (h : Kept m m' bs) (h' : Kept m' m'' bs) :
    Kept m m'' bs := fun u hu i hlo hhi => (h' u hu i hlo hhi).trans (h u hu i hlo hhi)

theorem Kept.mono {bs cs : List Block} (h : Kept m m' bs) (hsub : ∀ u ∈ cs, u ∈ bs) :
    Kept m m' cs := fun u hu => h u (hsub u hu)

theorem Arena.rewrite (h : Arena m a e (pre ++ mid ++ post)) (hmid : Tiles sizeofPortBlock lo hi mid)
    (hmid' : Tiles sizeofPortBlock lo hi mid') (hne : mid ≠ []) (hne' : mid' ≠ [])
    (hwrites : Rewrites m m' lo hi (preceding 0 pre) mid' post) :
    Arena m' a e (pre ++ mid' ++ post) ∧ Kept m m' (pre ++ post) := by
  have htiles := h.tiles
  rw [List.append_assoc, tiles_append] at htiles
  obtain ⟨x, hpre, hrest⟩ := htiles
  obtain ⟨y, hxy, hpost⟩ := tiles_append.1 hrest
  obtain ⟨rfl, rfl⟩ := hmid.unique hxy hne
  refine ⟨⟨?_, hwrites.listed hpre hmid hmid' hpost h.listed hne hne'⟩,
    hwrites.payload hpre hmid.within.1 hpost⟩
  rw [List.append_assoc]
  exact tiles_append.2 ⟨_, hpre, tiles_append.2 ⟨_, hmid', hpost⟩⟩

theorem Arena.split (h : Arena m a e (pre ++ b :: post)) :
    Tiles sizeofPortBlock a b.start pre ∧ Tiles sizeofPortBlock (b.stop sizeofPortBlock) e post
      ∧ Reads m (preceding 0 pre) b (following post 0)
      ∧ (following post 0 = 0 ∧ post = [] ∨ following post 0 = b.stop sizeofPortBlock) := by
  obtain ⟨lo, hpre, rfl, hpost⟩ := tiles_append.1 h.tiles
  refine ⟨hpre, hpost, h.listed.reads_mid, ?_⟩
  cases post with
  | nil => exact .inl ⟨rfl, rfl⟩
  | cons c post => exact .inr hpost.1

end Rewrites

/-! ## Handing a block out -/

/-- The writes of `demon_port_malloc` where it leaves a rest behind. -/
def carved (m : ℕ → UInt8) (block needed size next : ℕ) : ℕ → UInt8 :=
  let rest := block + sizeofPortBlock + needed
  let m := setSize m rest (size - needed - sizeofPortBlock)
  let m := setPrevious m rest block
  let m := setNext m rest next
  let m := setFree m rest true
  let m := if next ≠ 0 then setPrevious m next rest else m
  let m := setNext m block rest
  let m := setSize m block needed
  setFree m block false

section Carved

variable {x needed size : ℕ}

theorem carved_reads (hroom : needed + sizeofPortBlock + 16 ≤ size)
    (hn : n = 0 ∨ x + sizeofPortBlock + size ≤ n) (hend : x + sizeofPortBlock + size < 2 ^ 64) :
    Reads (carved m x needed size n) (PortBlock.previous m x) ⟨x, needed, false⟩
      (x + sizeofPortBlock + needed) := by
  unfold sizeofPortBlock at *
  refine ⟨?_, ?_, ?_, LittleEndian.load_flag ..⟩
  all_goals
    dsimp only [carved, sizeofPortBlock]
    split_ifs
    all_goals
      simp (disch := omega) only [PortBlock.size, previous, next, setFree, setSize, setNext,
        setPrevious, LittleEndian.load_store_of_disjoint, LittleEndian.load_store_of_lt]

theorem carved_rest (hroom : needed + sizeofPortBlock + 16 ≤ size)
    (hn : n = 0 ∨ x + sizeofPortBlock + size ≤ n) (hnEnd : n < 2 ^ 64)
    (hend : x + sizeofPortBlock + size < 2 ^ 64) :
    Reads (carved m x needed size n) x
      ⟨x + sizeofPortBlock + needed, size - needed - sizeofPortBlock, true⟩ n := by
  unfold sizeofPortBlock at *
  refine ⟨?_, ?_, ?_, ?_⟩
  all_goals
    dsimp only [carved, sizeofPortBlock]
    split_ifs
    all_goals
      simp (disch := omega) only [PortBlock.size, previous, next, PortBlock.free, setFree, setSize,
        setNext, setPrevious, LittleEndian.load_store_of_disjoint, LittleEndian.load_store_of_lt,
        LittleEndian.load_flag]

theorem carved_back (hroom : needed + sizeofPortBlock + 16 ≤ size) (hpos : n ≠ 0)
    (hn : x + sizeofPortBlock + size ≤ n) (hend : x + sizeofPortBlock + size < 2 ^ 64) :
    PortBlock.previous (carved m x needed size n) n = x + sizeofPortBlock + needed := by
  unfold sizeofPortBlock at *
  dsimp only [carved, sizeofPortBlock]
  rw [if_pos hpos]
  simp (disch := omega) only [previous, setFree, setSize, setNext, setPrevious,
    LittleEndian.load_store_of_disjoint, LittleEndian.load_store_of_lt]

theorem carved_outside (hroom : needed + sizeofPortBlock + 16 ≤ size) {i : ℕ}
    (hi : i < x ∨ x + sizeofPortBlock + size ≤ i) (hback : n ≠ 0 → ¬(n + 8 ≤ i ∧ i < n + 16)) :
    carved m x needed size n i = m i := by
  unfold sizeofPortBlock at *
  dsimp only [carved, sizeofPortBlock]
  split_ifs with hn
  · have hapart := hback hn
    simp (disch := omega) only [setFree, setSize, setNext, setPrevious,
      LittleEndian.store_apply_of_disjoint]
  · simp (disch := omega) only [setFree, setSize, setNext, setPrevious,
      LittleEndian.store_apply_of_disjoint]

end Carved

/-! ## Joining two blocks -/

/-- The writes of `demon_port_free` that join a block with the one behind it. -/
def absorbed (m : ℕ → UInt8) (block size next : ℕ) : ℕ → UInt8 :=
  let m := setSize m block size
  let m := setNext m block next
  if next ≠ 0 then setPrevious m next block else m

section Absorbed

variable {x size : ℕ}

theorem absorbed_reads (hsize : size < 2 ^ 64) (hn : n = 0 ∨ x + sizeofPortBlock ≤ n)
    (hnEnd : n < 2 ^ 64) :
    Reads (absorbed m x size n) (PortBlock.previous m x) ⟨x, size, PortBlock.free m x⟩ n := by
  unfold sizeofPortBlock at *
  refine ⟨?_, ?_, ?_, ?_⟩
  all_goals
    dsimp only [absorbed]
    split_ifs
    all_goals
      simp (disch := omega) only [PortBlock.size, previous, next, PortBlock.free, setSize, setNext,
        setPrevious, LittleEndian.load_store_of_disjoint, LittleEndian.load_store_of_lt]

theorem absorbed_back (hpos : n ≠ 0) (hx : x < 2 ^ 64) :
    PortBlock.previous (absorbed m x size n) n = x := by
  dsimp only [absorbed]
  rw [if_pos hpos]
  simp (disch := omega) only [previous, setPrevious, LittleEndian.load_store_of_lt]

theorem absorbed_outside {i : ℕ} (hi : i < x ∨ x + sizeofPortBlock ≤ i)
    (hback : n ≠ 0 → ¬(n + 8 ≤ i ∧ i < n + 16)) : absorbed m x size n i = m i := by
  unfold sizeofPortBlock at *
  dsimp only [absorbed]
  split_ifs with hn
  · have hapart := hback hn
    simp (disch := omega) only [setSize, setNext, setPrevious,
      LittleEndian.store_apply_of_disjoint]
  · simp (disch := omega) only [setSize, setNext, LittleEndian.store_apply_of_disjoint]

end Absorbed

theorem Arena.back {a e : ℕ} (h : Arena m a e (pre ++ b :: post)) :
    ∀ c ∈ post.head?, c.start = following post 0 ∧ PortBlock.previous m c.start = b.start := by
  have hrest := (linked_append.1 h.listed).2.2
  cases post with
  | nil => exact fun c hc => by cases hc
  | cons d post =>
    intro c hc
    obtain rfl := Option.some.inj hc
    exact ⟨rfl, hrest.1.previous⟩

theorem Arena.mark {a e : ℕ} (h : Arena m a e (pre ++ b :: post)) (f : Bool) :
    Arena (setFree m b.start f) a e (pre ++ { b with free := f } :: post)
      ∧ Kept m (setFree m b.start f) (pre ++ post) := by
  obtain ⟨-, hpost, hb, -⟩ := h.split
  have hback := h.back
  have hlist : ∀ b : Block, pre ++ b :: post = pre ++ [b] ++ post := by simp
  have hmid : Tiles sizeofPortBlock b.start (b.stop sizeofPortBlock) [b] := ⟨rfl, rfl⟩
  rw [hlist] at h ⊢
  refine h.rewrite hmid ⟨rfl, rfl⟩ (by simp) (by simp) ⟨fun i hi _ => ?_, ⟨⟨?_, ?_, ?_, LittleEndian.load_flag ..⟩, trivial⟩, fun c hc => ?_⟩
  · unfold Block.stop sizeofPortBlock at hi
    exact LittleEndian.store_apply_of_disjoint m _ (by omega)
  · exact (LittleEndian.load_store_of_disjoint m _
      (.inl (by omega : b.start + 8 ≤ b.start + 24))).trans hb.size
  · exact (LittleEndian.load_store_of_disjoint m _
      (.inl (by omega : b.start + 8 + 8 ≤ b.start + 24))).trans hb.previous
  · exact (LittleEndian.load_store_of_disjoint m _
      (.inl (by omega : b.start + 16 + 8 ≤ b.start + 24))).trans hb.next
  · obtain ⟨-, hprevious⟩ := hback c hc
    have hstart := (hpost.within.2 c (List.mem_of_mem_head? hc)).1
    unfold Block.stop sizeofPortBlock at hstart
    refine Eq.trans ?_ hprevious
    exact LittleEndian.load_store_of_disjoint m _ (by omega)

theorem Arena.join {a e : ℕ} (h : Arena m a e (pre ++ b :: c :: post)) (he : e < 2 ^ 64) :
    let size := b.size + (sizeofPortBlock + c.size)
    let m' := absorbed m b.start size (following post 0)
    Arena m' a e (pre ++ ⟨b.start, size, b.free⟩ :: post) ∧ Kept m m' (pre ++ post) := by
  intro size m'
  obtain ⟨-, hrest, hb, -⟩ := h.split
  obtain ⟨hc, hpost⟩ := hrest
  have hend := hpost.within.1
  have hnext : following post 0 = 0 ∨ following post 0 = c.stop sizeofPortBlock := by
    cases post with
    | nil => exact .inl rfl
    | cons d post => exact .inr hpost.1
  have hsize : b.start + sizeofPortBlock + size = c.stop sizeofPortBlock := by
    unfold Block.stop at hc ⊢
    omega
  have hhead : ∀ d ∈ post.head?, d.start = following post 0 := by
    cases post with
    | nil => exact fun d hd => by cases hd
    | cons d post =>
      intro d' hd'
      obtain rfl := Option.some.inj hd'
      rfl
  have hlist : pre ++ b :: c :: post = pre ++ [b, c] ++ post := by simp
  have hlist' : ∀ b : Block, pre ++ b :: post = pre ++ [b] ++ post := by simp
  rw [hlist] at h
  rw [hlist']
  have hbehind : following post 0 = 0 ∨ b.start + sizeofPortBlock ≤ following post 0 := by
    omega
  have hmid : Tiles sizeofPortBlock b.start (c.stop sizeofPortBlock) [b, c] := ⟨rfl, hc, rfl⟩
  refine h.rewrite hmid ⟨rfl, hsize⟩ (by simp) (by simp) ⟨fun i hi hback => ?_, ⟨?_, trivial⟩, fun d hd => ?_⟩
  · refine absorbed_outside (by omega) fun hpos => ?_
    cases post with
    | nil => exact absurd rfl hpos
    | cons d post => exact hback d rfl
  · have hreads := absorbed_reads (m := m) (by omega : size < 2 ^ 64) hbehind
      (by omega : following post 0 < 2 ^ 64)
    rw [hb.previous, hb.free] at hreads
    exact hreads
  · have hpos : following post 0 ≠ 0 := by
      have hstart := (hpost.within.2 d (List.mem_of_mem_head? hd)).1
      rw [hhead d hd] at hstart
      unfold Block.stop sizeofPortBlock at hstart
      omega
    rw [hhead d hd]
    exact absorbed_back hpos (by omega)

theorem Arena.serve {a e : ℕ} (h : Arena m a e (pre ++ b :: post)) (he : e < 2 ^ 64) (needed : ℕ) :
    let m' := if needed + sizeofPortBlock + 16 ≤ b.size then
        carved m b.start needed b.size (following post 0)
      else setFree m b.start false
    Arena m' a e (pre ++ b.serve sizeofPortBlock 16 needed ++ post) ∧ Kept m m' (pre ++ post) := by
  intro m'
  by_cases hroom : needed + sizeofPortBlock + 16 ≤ b.size
  · have hm' : m' = carved m b.start needed b.size (following post 0) := if_pos hroom
    have hserve : b.serve sizeofPortBlock 16 needed = [⟨b.start, needed, false⟩,
        ⟨b.start + sizeofPortBlock + needed, b.size - needed - sizeofPortBlock, true⟩] :=
      if_pos hroom
    obtain ⟨-, hpost, hb, hn⟩ := h.split
    have hback := h.back
    have hmid : Tiles sizeofPortBlock b.start (b.stop sizeofPortBlock) [b] := ⟨rfl, rfl⟩
    have hstop : b.stop sizeofPortBlock < 2 ^ 64 := hpost.within.1.trans_lt he
    have hlist : pre ++ b :: post = pre ++ [b] ++ post := by simp
    rw [hlist] at h
    refine h.rewrite hmid (serve_tiles hmid) (by simp) (by rw [hserve]; simp) ?_
    rw [hm', hserve]
    have hbehind : following post 0 = 0
        ∨ b.start + sizeofPortBlock + b.size ≤ following post 0 := hn.imp And.left fun h => h.ge
    refine ⟨fun i hi hback => carved_outside hroom hi fun hpos => ?_, ⟨?_, ?_, trivial⟩, ?_⟩
    · cases post with
      | nil => exact absurd rfl hpos
      | cons c post => exact hback c rfl
    · rw [← hb.previous]
      exact carved_reads hroom hbehind hstop
    · exact carved_rest hroom hbehind (by omega) hstop
    · intro c hc
      have hnext : following post 0 = b.start + sizeofPortBlock + b.size := hn.resolve_left (by
        rintro ⟨-, rfl⟩
        cases hc)
      rw [(hback c hc).1]
      exact carved_back hroom (by unfold sizeofPortBlock at hnext; omega) hnext.ge hstop
  · have hm' : m' = setFree m b.start false := if_neg hroom
    have hserve : b.serve sizeofPortBlock 16 needed = [{ b with free := false }] := if_neg hroom
    have hmarked := h.mark false
    rw [hm', hserve]
    simpa using hmarked

end PortBlock

end DemonOS

/-!
## What the heap's calls do to the list

`take` and `release`, the writes behind `demon_port_malloc` and `demon_port_free`: the block that is
handed out is cut in two or taken whole (`CutInto.take`), and one that is given back becomes one
block with its free neighbours (`CutInto.release`). Either leaves the heap cut into blocks, with the
payloads of the other blocks as they were.
-/

namespace DemonOS

open Blocks PortBlock

namespace PortHeap

variable {h : PortHeap} {a e needed : ℕ} {b : Block} {bs pre post : List Block}

theorem take_memory {n : ℕ} (hb : Reads h.memory (preceding 0 pre) b n)
    (hn : n = 0 ∨ n = b.stop sizeofPortBlock) (hstart : 16 ≤ b.start)
    (hend : b.stop sizeofPortBlock < 2 ^ 64) (hneeded : needed ≤ b.size) :
    (h.take b.start needed).2.memory
      = if needed + sizeofPortBlock + 16 ≤ b.size then carved h.memory b.start needed b.size n
        else setFree h.memory b.start false := by
  unfold Block.stop at hend hn
  have hnext : LittleEndian.load h.memory (b.start + 16) 8 = n := hb.next
  have hroom : sizeT (needed + sizeofPortBlock + 16) = needed + sizeofPortBlock + 16 := by
    unfold sizeT sizeofPortBlock at *
    omega
  unfold take
  dsimp only
  rw [hroom, hb.size]
  by_cases hfits : needed + sizeofPortBlock + 16 ≤ b.size
  · rw [if_pos hfits, if_pos hfits]
    unfold carved sizeT sizeofPortBlock at *
    simp (disch := omega) only [next, setFree, setSize, setNext, setPrevious,
      LittleEndian.load_store_of_disjoint, LittleEndian.load_store_of_lt, hnext, Nat.mod_eq_of_lt]
  · rw [if_neg hfits, if_neg hfits]

theorem following_lt {m : ℕ → UInt8} (pre post : List Block) (h : Arena m a e (pre ++ post))
    (he : e < 2 ^ 64) : following post 0 < 2 ^ 64 := by
  obtain ⟨x, -, hpost⟩ := tiles_append.1 h.tiles
  cases post with
  | nil => decide
  | cons c post =>
    have hend := (hpost.within.2 c List.mem_cons_self).2
    unfold Block.stop at hend
    dsimp only [following]
    omega

theorem joinNext_eq {m : ℕ → UInt8} (h : Arena m a e (pre ++ b :: post)) (he : e < 2 ^ 64) :
    (∃ c rest, post = c :: rest ∧ c.free = true ∧ joinNext m b.start
        = absorbed m b.start (b.size + (sizeofPortBlock + c.size)) (following rest 0))
      ∨ (∀ c ∈ post.head?, c.free = false) ∧ joinNext m b.start = m := by
  obtain ⟨-, hpost, hb, -⟩ := h.split
  cases post with
  | nil =>
    refine .inr ⟨fun c hc => (by cases hc), ?_⟩
    exact if_neg fun hnext => hnext.1 hb.next
  | cons c rest =>
    have hc := (linked_append.1 h.listed).2.2.1
    have hlt := following_lt (pre ++ [b, c]) rest (by simpa using h) he
    have hstart : c.start = b.stop sizeofPortBlock := hpost.1
    unfold Block.stop sizeofPortBlock at hstart
    have hnext : next m b.start = c.start := hb.next
    have hcond : (next m b.start ≠ 0 ∧ PortBlock.free m (next m b.start) = true) ↔ c.free = true := by
      rw [hnext, hc.free]
      exact ⟨And.right, fun hfree => ⟨by omega, hfree⟩⟩
    unfold joinNext
    by_cases hfree : c.free = true
    · refine .inl ⟨c, rest, rfl, hfree, ?_⟩
      have hstored : LittleEndian.load m (b.start + 16) 8 = c.start := hb.next
      have hbehind : LittleEndian.load m (c.start + 16) 8 = following rest 0 := hc.next
      rw [if_pos (hcond.2 hfree), hnext, hb.size, hc.size]
      unfold absorbed
      simp (disch := omega) only [next, setSize, setNext, setPrevious,
        LittleEndian.load_store_of_disjoint, LittleEndian.load_store_of_lt, hstored, hbehind]
    · refine .inr ⟨fun d hd => ?_, if_neg fun h => hfree (hcond.1 h)⟩
      obtain rfl := Option.some.inj hd
      simpa using hfree

theorem joinPrevious_eq {m : ℕ → UInt8} (h : Arena m a e (pre ++ b :: post)) (ha : 0 < a) :
    (∃ rest p, pre = rest ++ [p] ∧ p.free = true ∧ joinPrevious m b.start
        = absorbed m p.start (p.size + (sizeofPortBlock + b.size)) (following post 0))
      ∨ (∀ p ∈ pre.getLast?, p.free = false) ∧ joinPrevious m b.start = m := by
  obtain ⟨hpre, -, hb, -⟩ := h.split
  rcases List.eq_nil_or_concat pre with rfl | ⟨rest, p, rfl⟩
  · refine .inr ⟨fun p hp => (by cases hp), ?_⟩
    exact if_neg fun hprevious => hprevious.1 hb.previous
  · rw [List.concat_eq_append] at *
    have hlist : rest ++ [p] ++ b :: post = rest ++ p :: b :: post := by simp
    rw [hlist] at h
    obtain ⟨hrest, hstart, hp, -⟩ := h.split
    have hpos : a ≤ p.start := hrest.within.1
    have hprevious : PortBlock.previous m b.start = p.start := by
      rw [hb.previous, preceding_append]
      rfl
    replace hstart : b.start = p.stop sizeofPortBlock := hstart.1
    unfold Block.stop sizeofPortBlock at hstart
    have hcond : (PortBlock.previous m b.start ≠ 0
        ∧ PortBlock.free m (PortBlock.previous m b.start) = true) ↔ p.free = true := by
      rw [hprevious, hp.free]
      exact ⟨And.right, fun hfree => ⟨by omega, hfree⟩⟩
    unfold joinPrevious
    by_cases hfree : p.free = true
    · refine .inl ⟨rest, p, rfl, hfree, ?_⟩
      have hback : LittleEndian.load m (b.start + 8) 8 = p.start := hprevious
      have hbehind : LittleEndian.load m (b.start + 16) 8 = following post 0 := hb.next
      rw [if_pos (hcond.2 hfree), hprevious, hb.size, hp.size]
      unfold absorbed
      simp (disch := omega) only [next, PortBlock.previous, setSize, setNext, setPrevious,
        LittleEndian.load_store_of_disjoint, hback, hbehind]
    · refine .inr ⟨fun d hd => ?_, if_neg fun h => hfree (hcond.1 h)⟩
      rw [List.getLast?_concat] at hd
      obtain rfl := Option.some.inj hd
      simpa using hfree

/-! ### The list after a join -/

theorem joinNext_arena {m : ℕ → UInt8} (h : Arena m a e (pre ++ b :: post)) (he : e < 2 ^ 64) :
    ∃ after rest, post = after ++ rest ∧ (∀ c ∈ after, c.free = true)
      ∧ (after = [] → ∀ c ∈ rest.head?, c.free = false)
      ∧ Arena (joinNext m b.start) a e
        (pre ++ ⟨b.start, b.size + extent sizeofPortBlock after, b.free⟩ :: rest)
      ∧ Kept m (joinNext m b.start) (pre ++ rest) := by
  rcases joinNext_eq h he with ⟨c, rest, rfl, hfree, heq⟩ | ⟨hhead, heq⟩
  · obtain ⟨harena, hkept⟩ := h.join he
    rw [heq]
    refine ⟨[c], rest, rfl, by simpa using hfree, by simp, ?_, hkept⟩
    simpa using harena
  · rw [heq]
    exact ⟨[], post, rfl, by simp, fun _ => hhead, by simpa using h, fun _ _ _ _ _ => rfl⟩

theorem joinPrevious_arena {m : ℕ → UInt8} (h : Arena m a e (pre ++ b :: post)) (ha : 0 < a)
    (he : e < 2 ^ 64) (hb : b.free = true) :
    ∃ first before, pre = first ++ before ∧ (∀ c ∈ before, c.free = true)
      ∧ (before = [] → ∀ c ∈ first.getLast?, c.free = false)
      ∧ Arena (joinPrevious m b.start) a e (first ++ b.joined sizeofPortBlock before [] :: post)
      ∧ Kept m (joinPrevious m b.start) (first ++ post) := by
  rcases joinPrevious_eq h ha with ⟨first, p, rfl, hfree, heq⟩ | ⟨hlast, heq⟩
  · have hlist : first ++ [p] ++ b :: post = first ++ p :: b :: post := by simp
    rw [hlist] at h
    obtain ⟨-, hstart, -⟩ := h.split
    replace hstart : b.start = p.stop sizeofPortBlock := hstart.1
    obtain ⟨harena, hkept⟩ := h.join he
    rw [heq]
    refine ⟨first, [p], rfl, by simpa using hfree, by simp, ?_, hkept⟩
    have hjoined : b.joined sizeofPortBlock [p] []
        = ⟨p.start, p.size + (sizeofPortBlock + b.size), p.free⟩ := by
      unfold Block.stop at hstart
      simp only [Block.joined, extent_cons, extent_nil, hfree, Block.mk.injEq, and_true]
      omega
    rw [hjoined]
    exact harena
  · rw [heq]
    have hjoined : b.joined sizeofPortBlock [] [] = b := by
      cases b
      simpa [Block.joined] using hb.symm
    refine ⟨pre, [], by simp, by simp, fun _ => hlast, ?_, fun _ _ _ _ _ => rfl⟩
    rw [hjoined]
    exact h

/-! ### The heap and its blocks -/

structure CutInto (h : PortHeap) (a e : ℕ) (bs : List Block) : Prop where
  arena : Arena h.memory a e bs
  merged : Merged bs
  aligned : ∀ b ∈ bs, b.start % 16 = 0
  bytes : h.heapUsed = usedBytes bs
  first : h.heapFirst = a
  capacity : a + sizeofPortBlock + h.heapCapacity = e
  low : 16 ≤ a
  high : e < 2 ^ 64

theorem usedBytes_lt {m : ℕ → UInt8} (harena : Arena m a e bs) (he : e < 2 ^ 64) :
    usedBytes bs < 2 ^ 64 := by
  have hle : usedBytes bs ≤ extent sizeofPortBlock bs := usedBytes_le
  have hend := harena.tiles.extent_eq
  omega

section Fields

variable (block : ℕ)

@[simp] theorem release_heapFirst : (h.release block).heapFirst = h.heapFirst := by
  simp only [release]

@[simp] theorem release_heapCapacity : (h.release block).heapCapacity = h.heapCapacity := by
  simp only [release]

theorem release_memory : (h.release block).memory
    = joinPrevious (joinNext (setFree h.memory block true) block) block := by
  simp only [release]

theorem release_heapUsed (hle : PortBlock.size (setFree h.memory block true) block ≤ h.heapUsed) :
    (h.release block).heapUsed
      = h.heapUsed - PortBlock.size (setFree h.memory block true) block := by
  unfold release
  dsimp only
  rw [if_pos hle]

end Fields

namespace CutInto

theorem reads (hc : h.CutInto a e bs) (hb : b ∈ bs) : ∃ p n, Reads h.memory p b n := by
  obtain ⟨pre, post, rfl⟩ := List.append_of_mem hb
  exact ⟨_, _, hc.arena.split.2.2.1⟩

theorem bounds (hc : h.CutInto a e bs) (hb : b ∈ bs) :
    a ≤ b.start ∧ b.start + 32 + b.size ≤ e := hc.arena.tiles.within.2 b hb

theorem following_eq (hc : h.CutInto a e bs) : following bs 0 = h.heapFirst := by
  rw [hc.first]
  cases bs with
  | nil =>
    have hae : a = e := hc.arena.tiles
    have hcapacity := hc.capacity
    unfold sizeofPortBlock at hcapacity
    omega
  | cons b bs => exact hc.arena.tiles.1

theorem length_lt (hc : h.CutInto a e bs) : bs.length < h.rounds := by
  have hle := hc.arena.tiles.length_mul_le
  have hcapacity := hc.capacity
  unfold rounds
  unfold sizeofPortBlock at hle hcapacity
  omega

/-- A block of the list is handed out. -/
theorem take (hc : h.CutInto a e (pre ++ b :: post)) (hfree : b.free = true)
    (hneeded : needed ≤ b.size) (hmultiple : needed % 16 = 0) :
    (h.take b.start needed).1 = b.payload sizeofPortBlock
      ∧ (h.take b.start needed).2.CutInto a e (pre ++ b.serve sizeofPortBlock 16 needed ++ post)
      ∧ Kept h.memory (h.take b.start needed).2.memory (pre ++ post) := by
  have hmem : b ∈ pre ++ b :: post := List.mem_append_right _ List.mem_cons_self
  obtain ⟨hlow, hhigh⟩ := hc.bounds hmem
  have ha := hc.low
  have he := hc.high
  obtain ⟨-, -, hb, hnext⟩ := hc.arena.split
  have hmemory := take_memory hb (hnext.imp And.left id) (by omega)
    (by unfold Block.stop sizeofPortBlock; omega) hneeded
  obtain ⟨harena, hkept⟩ := hc.arena.serve he needed
  rw [← hmemory] at harena hkept
  obtain ⟨rest, hserve, hrest⟩ := @serve_cons sizeofPortBlock 16 needed b
  have hused : usedBytes (pre ++ b.serve sizeofPortBlock 16 needed ++ post)
      = usedBytes (pre ++ b :: post) + (b.served sizeofPortBlock 16 needed).size :=
    (serve_adds hfree).usedBytes_eq
  have hserved : PortBlock.size (h.take b.start needed).2.memory b.start
      = (b.served sizeofPortBlock 16 needed).size := by
    rw [hserve, List.append_assoc, List.cons_append] at harena
    exact harena.split.2.2.1.size
  refine ⟨?_, ⟨harena, serve_merged hc.merged hfree,
    serve_aligned hc.aligned (by decide) hmultiple, ?_, hc.first, hc.capacity,
    hc.low, hc.high⟩, hkept⟩
  · unfold PortHeap.take sizeT Block.payload sizeofPortBlock
    dsimp only
    omega
  · have hlt := usedBytes_lt harena he
    rw [hused] at hlt ⊢
    rw [← hc.bytes, ← hserved] at hlt ⊢
    exact Nat.mod_eq_of_lt hlt

/-- A block in use is given back. -/
theorem release (hc : h.CutInto a e (pre ++ b :: post)) (hused : b.free = false) :
    ∃ bs, (h.release b.start).CutInto a e bs ∧ Adds bs (pre ++ b :: post) b
      ∧ Kept h.memory (h.release b.start).memory (Blocks.used bs) := by
  have hlow := hc.low
  obtain ⟨hmarked, hkept⟩ := hc.arena.mark true
  have hsize := hmarked.split.2.2.1.size
  obtain ⟨after, rest, rfl, hafter, hhead, hjoined, hkept'⟩ := joinNext_arena hmarked hc.high
  obtain ⟨first, before, rfl, hbefore, hlast, harena, hkept''⟩ :=
    joinPrevious_arena hjoined (by omega) hc.high rfl
  have hlist : first ++ before ++ b :: (after ++ rest) = first ++ (before ++ b :: after) ++ rest := by
    simp
  have hadds : Adds (first ++ [b.joined sizeofPortBlock before after] ++ rest)
      (first ++ before ++ b :: (after ++ rest)) b := by
    rw [hlist]
    exact joined_adds hbefore hafter hused
  have hfirst := (release_heapFirst b.start).trans hc.first
  have hcapacity := hc.capacity
  rw [← release_heapCapacity b.start] at hcapacity
  refine ⟨first ++ [b.joined sizeofPortBlock before after] ++ rest, ⟨?_, ?_, ?_, ?_,
    hfirst, hcapacity, hc.low, hc.high⟩, hadds, ?_⟩
  · rw [release_memory]
    simpa using harena
  · have hmerged := hc.merged
    rw [hlist] at hmerged
    exact hmerged.join hbefore hafter hlast hhead
  · have htiles := hc.arena.tiles
    have haligned := hc.aligned
    rw [hlist] at htiles haligned
    exact joined_aligned htiles haligned
  · have hbytes := hadds.usedBytes_eq
    rw [← hc.bytes] at hbytes
    dsimp only at hsize
    rw [release_heapUsed _ (by omega), hsize]
    omega
  · rw [release_memory]
    have hkept₁ : Kept _ _ (first ++ rest) := hkept.mono fun u hu => by
      rcases List.mem_append.1 hu with hu | hu <;> simp [hu]
    have hkept₂ : Kept _ _ (first ++ rest) := hkept'.mono fun u hu => by
      rcases List.mem_append.1 hu with hu | hu <;> simp [hu]
    exact ((hkept₁.trans hkept₂).trans hkept'').mono fun u hu => mem_of_used_joined hu

end CutInto

end PortHeap

end DemonOS
