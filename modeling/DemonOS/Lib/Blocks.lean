import Mathlib.Data.List.Chain
import Mathlib.Data.List.Nodup
import Mathlib.Tactic.Ring

/-!
# Arenas cut into blocks

An arena that is cut into blocks, each a header with its payload behind it (`Tiles`), and the
headers linked into a list in the order of their addresses (`Linked`). What a header tells of its
block and of the neighbours is a parameter, so that the lists may be linked one way or both. A part
of the list is replaced without a look at the rest (`Linked.replace`), and a loop along the links
visits the blocks in their order (`walk_eq_find`). The pointers that are live are those of the
blocks in use (`Tracks`).
-/

namespace Blocks

structure Block where
  start : ℕ
  size : ℕ
  free : Bool
  deriving DecidableEq

section Tiling

variable (header : ℕ)

def Block.payload (b : Block) : ℕ := b.start + header

/-- The address behind the block. -/
def Block.stop (b : Block) : ℕ := b.start + header + b.size

/-- The blocks lie one behind the other, from this address to that. -/
def Tiles : ℕ → ℕ → List Block → Prop
  | a, e, [] => a = e
  | a, e, b :: bs => b.start = a ∧ Tiles (b.stop header) e bs

variable {header : ℕ} {a e : ℕ} {b : Block} {bs cs : List Block}

theorem tiles_append : ∀ {bs : List Block} {a : ℕ},
    Tiles header a e (bs ++ cs) ↔ ∃ m, Tiles header a m bs ∧ Tiles header m e cs
  | [], a => ⟨fun h => ⟨a, rfl, h⟩, fun ⟨_, ha, h⟩ => ha ▸ h⟩
  | b :: bs, a => by
    simp only [List.cons_append, Tiles, @tiles_append bs, exists_and_left, and_assoc]

theorem Tiles.within : ∀ {bs : List Block} {a : ℕ}, Tiles header a e bs → a ≤ e ∧
    ∀ b ∈ bs, a ≤ b.start ∧ b.stop header ≤ e
  | [], _, h => ⟨le_of_eq h, fun _ hb => absurd hb List.not_mem_nil⟩
  | b :: bs, a, ⟨hstart, h⟩ => by
    obtain ⟨hle, hrest⟩ := h.within
    have hstop : a ≤ b.stop header := by
      unfold Block.stop
      omega
    refine ⟨hstop.trans hle, fun c hc => ?_⟩
    rcases List.mem_cons.1 hc with rfl | hc
    · exact ⟨hstart.ge, hle⟩
    · exact ⟨hstop.trans (hrest c hc).1, (hrest c hc).2⟩

theorem Tiles.before (h : Tiles header a e (bs ++ cs)) :
    ∀ b ∈ bs, ∀ c ∈ cs, b.stop header ≤ c.start := by
  obtain ⟨m, hbs, hcs⟩ := tiles_append.1 h
  intro b hb c hc
  exact (hbs.within.2 b hb).2.trans (hcs.within.2 c hc).1

theorem Tiles.pairwise : ∀ {bs : List Block} {a : ℕ}, Tiles header a e bs →
    bs.Pairwise fun b c => b.stop header ≤ c.start
  | [], _, _ => List.Pairwise.nil
  | b :: bs, a, h => by
    have hbefore := @Tiles.before header a e [b] bs h
    exact List.Pairwise.cons (fun c hc => hbefore b List.mem_cons_self c hc) h.2.pairwise

theorem Tiles.apart (h : Tiles header a e bs) {c : Block} (hb : b ∈ bs) (hc : c ∈ bs)
    (hne : b ≠ c) : b.stop header ≤ c.start ∨ c.stop header ≤ b.start := by
  have : Std.Symm fun b c : Block => b.stop header ≤ c.start ∨ c.stop header ≤ b.start :=
    ⟨fun _ _ => Or.symm⟩
  have hsym : bs.Pairwise fun b c : Block => b.stop header ≤ c.start ∨ c.stop header ≤ b.start :=
    h.pairwise.imp Or.inl
  exact hsym.forall hb hc hne

theorem Tiles.eq_of_start (h : Tiles header a e bs) (hpos : 0 < header) {c : Block} (hb : b ∈ bs)
    (hc : c ∈ bs) (hstart : b.start = c.start) : b = c := by
  by_contra hne
  have hapart := h.apart hb hc hne
  unfold Block.stop at hapart
  omega

theorem Tiles.eq_of_stop (h : Tiles header a e bs) (hpos : 0 < header) {c : Block} (hb : b ∈ bs)
    (hc : c ∈ bs) (hstop : b.stop header = c.stop header) : b = c := by
  by_contra hne
  have hapart := h.apart hb hc hne
  unfold Block.stop at hapart hstop
  omega

theorem Tiles.nodup (h : Tiles header a e bs) (hpos : 0 < header) : bs.Nodup :=
  h.pairwise.imp fun {b c} hle heq => by
    subst heq
    unfold Block.stop at hle
    omega

theorem Tiles.length_mul_le : ∀ {bs : List Block} {a : ℕ}, Tiles header a e bs →
    a + bs.length * header ≤ e
  | [], a, h => by simpa using le_of_eq h
  | b :: bs, a, ⟨hstart, h⟩ => by
    have hrest := h.length_mul_le
    unfold Block.stop at hrest
    rw [List.length_cons, Nat.add_mul, Nat.one_mul]
    omega

end Tiling

section Serving

variable (header : ℕ)

/-- The addresses that the blocks take. -/
def extent (bs : List Block) : ℕ := (bs.map fun b => header + b.size).sum

def used (bs : List Block) : List Block := bs.filter fun b => !b.free

def usedBytes (bs : List Block) : ℕ := ((used bs).map Block.size).sum

/-- No two neighbours are free. -/
def Merged (bs : List Block) : Prop := bs.IsChain fun b c => ¬(b.free = true ∧ c.free = true)

/-- A block is handed out, without what is left of it if that is a block of its own, with `slack`
bytes at least. -/
def Block.serve (slack needed : ℕ) (b : Block) : List Block :=
  if needed + header + slack ≤ b.size then
    [⟨b.start, needed, false⟩, ⟨b.start + header + needed, b.size - needed - header, true⟩]
  else [{ b with free := false }]

/-- The blocks in use are the same, and one more. -/
def Adds (bs bs' : List Block) (u : Block) : Prop :=
  ∃ first rest, used bs = first ++ rest ∧ used bs' = first ++ u :: rest

/-- A block with the free ones around it, as one. -/
def Block.joined (b : Block) (before after : List Block) : Block :=
  ⟨b.start - extent header before, extent header before + b.size + extent header after, true⟩

variable {header : ℕ} {a e slack needed : ℕ} {b : Block}
  {bs cs pre before after post : List Block}

@[simp] theorem extent_nil : extent header [] = 0 := rfl

@[simp] theorem extent_cons : extent header (b :: bs) = header + b.size + extent header bs := by
  simp [extent]

@[simp] theorem used_append : used (bs ++ cs) = used bs ++ used cs :=
  List.filter_append _ _

theorem used_of_free (h : ∀ b ∈ bs, b.free = true) : used bs = [] :=
  List.filter_eq_nil_iff.2 fun b hb => by simp [h b hb]

@[simp] theorem used_cons_free (h : b.free = true) : used (b :: bs) = used bs :=
  List.filter_cons_of_neg (by simp [h])

@[simp] theorem used_cons_used (h : b.free = false) : used (b :: bs) = b :: used bs :=
  List.filter_cons_of_pos (by simp [h])

theorem mem_used : b ∈ used bs ↔ b ∈ bs ∧ b.free = false := by simp [used]

theorem Tiles.extent_eq : ∀ {bs : List Block} {a : ℕ}, Tiles header a e bs →
    e = a + extent header bs
  | [], a, h => h.symm
  | b :: bs, a, ⟨hstart, h⟩ => by
    have hrest := h.extent_eq
    unfold Block.stop at hrest
    rw [extent_cons]
    omega

theorem Tiles.unique {a' e' : ℕ} (h : Tiles header a e bs) (h' : Tiles header a' e' bs)
    (hne : bs ≠ []) : a' = a ∧ e' = e := by
  have hend := h.extent_eq
  have hend' := h'.extent_eq
  cases bs with
  | nil => exact absurd rfl hne
  | cons b bs =>
    obtain rfl : a' = a := h'.1.symm.trans h.1
    exact ⟨rfl, hend'.trans hend.symm⟩

theorem usedBytes_le : ∀ {bs : List Block}, usedBytes bs ≤ extent header bs
  | [] => le_rfl
  | b :: bs => by
    have hrest : usedBytes bs ≤ extent header bs := usedBytes_le
    unfold usedBytes at hrest ⊢
    by_cases hb : b.free = true
    · rw [used_cons_free hb, extent_cons]
      omega
    · rw [used_cons_used (by simpa using hb), List.map_cons, List.sum_cons, extent_cons]
      omega

section Adds

variable {bs' : List Block} {u : Block}

theorem Adds.mem_iff (h : Adds bs bs' u) : b ∈ used bs' ↔ b = u ∨ b ∈ used bs := by
  obtain ⟨first, rest, hbs, hbs'⟩ := h
  rw [hbs, hbs', List.mem_append, List.mem_cons, List.mem_append]
  tauto

theorem Adds.usedBytes_eq (h : Adds bs bs' u) : usedBytes bs' = usedBytes bs + u.size := by
  obtain ⟨first, rest, hbs, hbs'⟩ := h
  unfold usedBytes
  rw [hbs, hbs']
  simp only [List.map_append, List.map_cons, List.sum_append, List.sum_cons]
  omega

theorem Adds.notMem (h : Adds bs bs' u) (htiles : Tiles header a e bs') (hpos : 0 < header) :
    u ∉ used bs := by
  obtain ⟨first, rest, hbs, hbs'⟩ := h
  have hnodup : (used bs').Nodup := (htiles.nodup hpos).filter _
  rw [hbs', List.nodup_middle] at hnodup
  rw [hbs]
  exact (List.nodup_cons.1 hnodup).1

end Adds

/-! ### Handing a block out -/

/-- A free block that is large enough. -/
def Block.fits (needed : ℕ) (b : Block) : Bool := b.free && decide (needed ≤ b.size)

@[simp] theorem fits_iff : b.fits needed = true ↔ b.free = true ∧ needed ≤ b.size := by
  simp [Block.fits]

def Block.served (header slack needed : ℕ) (b : Block) : Block :=
  ⟨b.start, if needed + header + slack ≤ b.size then needed else b.size, false⟩

theorem served_size (h : needed ≤ b.size) : needed ≤ (b.served header slack needed).size := by
  unfold Block.served
  dsimp only
  split_ifs
  · exact le_rfl
  · exact h

theorem serve_tiles (h : Tiles header a e [b]) : Tiles header a e (b.serve header slack needed) := by
  obtain ⟨hstart, hstop⟩ := h
  unfold Block.serve
  split_ifs
  · refine ⟨hstart, rfl, ?_⟩
    unfold Tiles Block.stop at hstop ⊢
    dsimp only
    omega
  · exact ⟨hstart, hstop⟩

theorem serve_cons : ∃ rest, b.serve header slack needed = b.served header slack needed :: rest
    ∧ ∀ c ∈ rest, c.start = b.start + header + needed := by
  unfold Block.serve Block.served
  split_ifs
  · exact ⟨_, rfl, by simp⟩
  · exact ⟨_, rfl, by simp⟩

theorem serve_used :
    used (b.serve header slack needed) = [b.served header slack needed] := by
  unfold Block.serve Block.served
  split_ifs <;> simp [used]

theorem serve_merged (h : Merged (pre ++ b :: post)) (hfree : b.free = true) :
    Merged (pre ++ b.serve header slack needed ++ post) := by
  unfold Merged at h ⊢
  rw [List.isChain_append] at h
  obtain ⟨hpre, hrest, -⟩ := h
  rw [List.isChain_cons] at hrest
  rw [List.append_assoc, List.isChain_append]
  unfold Block.serve
  split_ifs
  · refine ⟨hpre, ?_, fun x _ y hy => ?_⟩
    · simp only [List.cons_append, List.nil_append, List.isChain_cons]
      refine ⟨by simp, fun c hc hboth => hrest.1 c hc ⟨hfree, hboth.2⟩, hrest.2⟩
    · simp only [List.cons_append, List.head?_cons, Option.mem_some_iff] at hy
      simp [← hy]
  · refine ⟨hpre, ?_, fun x _ y hy => ?_⟩
    · simp only [List.cons_append, List.nil_append, List.isChain_cons]
      exact ⟨fun c _ => by simp, hrest.2⟩
    · simp only [List.cons_append, List.head?_cons, Option.mem_some_iff] at hy
      simp [← hy]

/-- The blocks begin at multiples still, if the header and what is handed out are ones. -/
theorem serve_aligned {k : ℕ} (h : ∀ c ∈ pre ++ b :: post, c.start % k = 0) (hheader : header % k = 0)
    (hneeded : needed % k = 0) :
    ∀ c ∈ pre ++ b.serve header slack needed ++ post, c.start % k = 0 := by
  obtain ⟨rest, hserve, hrest⟩ := @serve_cons header slack needed b
  have hb := h b (List.mem_append_right _ List.mem_cons_self)
  intro c hc
  rw [hserve, List.append_assoc, List.cons_append] at hc
  rcases List.mem_append.1 hc with hc | hc
  · exact h c (List.mem_append_left _ hc)
  · rcases List.mem_cons.1 hc with rfl | hc
    · exact hb
    · rcases List.mem_append.1 hc with hc | hc
      · rw [hrest c hc, Nat.add_mod, Nat.add_mod b.start, hb, hheader, hneeded]
        simp
      · exact h c (List.mem_append_right _ (List.mem_cons_of_mem _ hc))

theorem mem_of_used_free {u : Block} (hfree : b.free = true) (h : u ∈ used (pre ++ b :: post)) :
    u ∈ pre ++ post := by
  obtain ⟨hu, hused⟩ := mem_used.1 h
  rcases List.mem_append.1 hu with hu | hu
  · exact List.mem_append_left _ hu
  · rcases List.mem_cons.1 hu with rfl | hu
    · rw [hfree] at hused
      cases hused
    · exact List.mem_append_right _ hu

theorem serve_adds (hfree : b.free = true) :
    Adds (pre ++ b :: post) (pre ++ b.serve header slack needed ++ post)
      (b.served header slack needed) := by
  refine ⟨used pre, used post, ?_, ?_⟩
  · rw [used_append, used_cons_free hfree]
  · rw [used_append, used_append, serve_used]
    simp

/-! ### Taking a block back -/

theorem Merged.behind (h : Merged (pre ++ b :: post)) (hfree : b.free = true) :
    ∀ c ∈ post.head?, c.free = false := by
  unfold Merged at h
  rw [List.isChain_append, List.isChain_cons] at h
  intro c hc
  simpa [hfree] using h.2.1.1 c hc

theorem Merged.ahead (h : Merged (pre ++ b :: post)) (hfree : b.free = true) :
    ∀ c ∈ pre.getLast?, c.free = false := by
  unfold Merged at h
  rw [List.isChain_append] at h
  intro c hc
  simpa [hfree] using h.2.2 c hc b rfl

theorem Merged.length_le (h : Merged bs) (hused : used bs = []) : bs.length ≤ 1 := by
  have hall : ∀ b ∈ bs, b.free = true := fun b hb => by
    simpa using List.filter_eq_nil_iff.1 hused b hb
  cases bs with
  | nil => simp
  | cons b bs =>
    cases bs with
    | nil => simp
    | cons c bs =>
      have hc := @Merged.behind b [] (c :: bs) h (hall b (by simp)) c rfl
      rw [hall c (by simp)] at hc
      cases hc

@[simp] theorem joined_joined_nil :
    Block.joined header ⟨b.start, b.size + extent header after, true⟩ before []
      = b.joined header before after := by
  simp [Block.joined, Nat.add_assoc]

theorem joined_tiles (h : Tiles header a e (before ++ b :: after)) :
    Tiles header a e [b.joined header before after] := by
  have hextent := h.extent_eq
  obtain ⟨m, hbefore, hstart, -⟩ := tiles_append.1 h
  have hm := hbefore.extent_eq
  have hsum : extent header (before ++ b :: after)
      = extent header before + (header + b.size + extent header after) := by
    unfold extent
    rw [List.map_append, List.sum_append, List.map_cons, List.sum_cons]
  unfold Tiles Block.joined
  refine ⟨by dsimp only; omega, ?_⟩
  unfold Tiles Block.stop
  dsimp only
  omega

theorem joined_merged (h : Merged (pre ++ (before ++ b :: after) ++ post))
    (hpre : ∀ p ∈ pre.getLast?, p.free = false) (hpost : ∀ c ∈ post.head?, c.free = false) :
    Merged (pre ++ [b.joined header before after] ++ post) := by
  unfold Merged at h ⊢
  rw [List.append_assoc, List.isChain_append, List.isChain_append] at h
  rw [List.append_assoc, List.isChain_append]
  refine ⟨h.1, ?_, fun p hp c _ hboth => ?_⟩
  · rw [List.cons_append, List.nil_append, List.isChain_cons]
    refine ⟨fun c hc hboth => ?_, h.2.1.2.1⟩
    rw [hpost c hc] at hboth
    cases hboth.2
  · rw [hpre p hp] at hboth
    cases hboth.1

/-- A block takes in all the free blocks around it, and the list stays merged. -/
theorem Merged.join (h : Merged (pre ++ (before ++ b :: after) ++ post))
    (hbefore : ∀ c ∈ before, c.free = true) (hafter : ∀ c ∈ after, c.free = true)
    (hlast : before = [] → ∀ c ∈ pre.getLast?, c.free = false)
    (hhead : after = [] → ∀ c ∈ post.head?, c.free = false) :
    Merged (pre ++ [b.joined header before after] ++ post) := by
  refine joined_merged h ?_ ?_
  · cases before with
    | nil => exact hlast rfl
    | cons p before =>
      exact Merged.ahead (by simpa using h) (hbefore p List.mem_cons_self)
  · rcases List.eq_nil_or_concat after with rfl | ⟨init, c, rfl⟩
    · exact hhead rfl
    · have hlist : pre ++ (before ++ b :: init.concat c) ++ post
          = (pre ++ before ++ b :: init) ++ c :: post := by simp
      rw [hlist] at h
      exact h.behind (hafter c (by simp))

theorem joined_aligned {k : ℕ} (h : Tiles header a e (pre ++ (before ++ b :: after) ++ post))
    (haligned : ∀ c ∈ pre ++ (before ++ b :: after) ++ post, c.start % k = 0) :
    ∀ c ∈ pre ++ [b.joined header before after] ++ post, c.start % k = 0 := by
  rw [List.append_assoc] at h
  obtain ⟨x, -, h⟩ := tiles_append.1 h
  obtain ⟨y, h, -⟩ := tiles_append.1 h
  have hstart : (b.joined header before after).start = x := (joined_tiles h).1
  have hpart : ∃ d ∈ before ++ b :: after, d.start = x := by
    cases before with
    | nil => exact ⟨b, List.mem_cons_self, h.1⟩
    | cons p before => exact ⟨p, List.mem_cons_self, h.1⟩
  intro c hc
  simp only [List.append_assoc, List.mem_append, List.mem_singleton] at hc
  rcases hc with hc | rfl | hc
  · exact haligned c (by simp [hc])
  · obtain ⟨d, hd, rfl⟩ := hpart
    rw [hstart]
    exact haligned d (List.mem_append_left _ (List.mem_append_right _ hd))
  · exact haligned c (by simp [hc])

theorem mem_of_used_joined {u : Block}
    (h : u ∈ used (pre ++ [b.joined header before after] ++ post)) : u ∈ pre ++ post := by
  obtain ⟨hu, hused⟩ := mem_used.1 h
  simp only [List.append_assoc, List.mem_append, List.mem_singleton] at hu ⊢
  rcases hu with hu | rfl | hu
  · exact .inl hu
  · simp [Block.joined] at hused
  · exact .inr hu

theorem joined_adds (hbefore : ∀ c ∈ before, c.free = true) (hafter : ∀ c ∈ after, c.free = true)
    (hb : b.free = false) :
    Adds (pre ++ [b.joined header before after] ++ post) (pre ++ (before ++ b :: after) ++ post)
      b := by
  have hjoined : used [b.joined header before after] = [] := used_of_free (by simp [Block.joined])
  refine ⟨used pre, used post, ?_, ?_⟩
  · rw [used_append, used_append, hjoined, List.append_nil]
  · rw [used_append, used_append, used_append, used_cons_used hb, used_of_free hbefore,
      used_of_free hafter]
    simp

end Serving

section Ledger

variable {header : ℕ} {live : ℕ → Option ℕ} {bs bs' : List Block} {b u : Block} {a e size : ℕ}

/-- The pointers are those of the blocks in use, and no more bytes were asked for than these have. -/
structure Tracks (header : ℕ) (live : ℕ → Option ℕ) (bs : List Block) : Prop where
  block : ∀ p size, live p = some size →
    ∃ b ∈ used bs, b.payload header = p ∧ size ≤ b.size
  live : ∀ b ∈ used bs, (live (b.payload header)).isSome

theorem Tracks.add (h : Tracks header live bs) (hadds : Adds bs bs' u) (hsize : size ≤ u.size) :
    Tracks header (Function.update live (u.payload header) (some size)) bs' := by
  refine ⟨fun p n hp => ?_, fun c hmem => ?_⟩
  · by_cases hpu : p = u.payload header
    · rw [hpu, Function.update_self] at hp
      obtain rfl := Option.some.inj hp
      exact ⟨u, hadds.mem_iff.2 (.inl rfl), hpu.symm, hsize⟩
    · rw [Function.update_of_ne hpu] at hp
      obtain ⟨b, hb, hbp⟩ := h.block p n hp
      exact ⟨b, hadds.mem_iff.2 (.inr hb), hbp⟩
  · by_cases hcu : c.payload header = u.payload header
    · rw [hcu, Function.update_self]
      rfl
    · rw [Function.update_of_ne hcu]
      refine h.live c ((hadds.mem_iff.1 hmem).resolve_left ?_)
      rintro rfl
      exact hcu rfl

theorem Tracks.remove (h : Tracks header live bs) (hadds : Adds bs' bs b)
    (htiles : Tiles header a e bs) (hpos : 0 < header) :
    Tracks header (Function.update live (b.payload header) none) bs' := by
  have hb : b ∈ used bs := hadds.mem_iff.2 (.inl rfl)
  have hne : ∀ c ∈ used bs', c.payload header ≠ b.payload header := by
    intro c hmem hcb
    have hc := (mem_used.1 (hadds.mem_iff.2 (.inr hmem))).1
    have hcb : c = b := htiles.eq_of_start hpos hc (mem_used.1 hb).1
      (Nat.add_right_cancel hcb)
    exact hadds.notMem htiles hpos (hcb ▸ hmem)
  refine ⟨fun p n hp => ?_, fun c hmem => ?_⟩
  · by_cases hpb : p = b.payload header
    · rw [hpb, Function.update_self] at hp
      cases hp
    · rw [Function.update_of_ne hpb] at hp
      obtain ⟨c, hc, hcp, hn⟩ := h.block p n hp
      refine ⟨c, (hadds.mem_iff.1 hc).resolve_left ?_, hcp, hn⟩
      rintro rfl
      exact hpb hcp.symm
  · rw [Function.update_of_ne (hne c hmem)]
    exact h.live c (hadds.mem_iff.2 (.inr hmem))

theorem Tracks.resize (h : Tracks header live bs) (hb : b ∈ used bs) (hsize : size ≤ b.size) :
    Tracks header (Function.update live (b.payload header) (some size)) bs := by
  refine ⟨fun p n hp => ?_, fun c hmem => ?_⟩
  · by_cases hpb : p = b.payload header
    · rw [hpb, Function.update_self] at hp
      obtain rfl := Option.some.inj hp
      exact ⟨b, hb, hpb.symm, hsize⟩
    · rw [Function.update_of_ne hpb] at hp
      exact h.block p n hp
  · by_cases hcb : c.payload header = b.payload header
    · rw [hcb, Function.update_self]
      rfl
    · rw [Function.update_of_ne hcb]
      exact h.live c hmem

end Ledger

section Links

/-- The address of the first block, the one behind the list if it is empty. -/
def following : List Block → ℕ → ℕ
  | [], next => next
  | b :: _, _ => b.start

def preceding (previous : ℕ) : List Block → ℕ
  | [] => previous
  | b :: bs => preceding b.start bs

/-- Every header reads as it should: what its block is, which one is before it and which behind. -/
def Linked (reads : ℕ → Block → ℕ → Prop) : ℕ → List Block → ℕ → Prop
  | _, [], _ => True
  | previous, b :: bs, next => reads previous b (following bs next) ∧ Linked reads b.start bs next

variable {reads reads' : ℕ → Block → ℕ → Prop} {header a e previous next : ℕ} {b : Block}
  {bs cs pre mid mid' post : List Block}

theorem Tiles.following_eq (h : Tiles header a e bs) (hne : bs ≠ []) : following bs next = a := by
  cases bs with
  | nil => exact absurd rfl hne
  | cons b bs => exact h.1

@[simp] theorem following_append (bs cs : List Block) (next : ℕ) :
    following (bs ++ cs) next = following bs (following cs next) := by
  cases bs <;> rfl

@[simp] theorem preceding_append : ∀ (bs cs : List Block) (previous : ℕ),
    preceding previous (bs ++ cs) = preceding (preceding previous bs) cs
  | [], _, _ => rfl
  | b :: bs, cs, _ => preceding_append bs cs b.start

theorem linked_append : ∀ {bs : List Block} {previous : ℕ}, Linked reads previous (bs ++ cs) next ↔
    Linked reads previous bs (following cs next) ∧ Linked reads (preceding previous bs) cs next
  | [], _ => by simp [Linked, preceding]
  | b :: bs, _ => by
    simp only [List.cons_append, Linked, preceding, following_append,
      @linked_append bs, and_assoc]

theorem Linked.reads_mid (h : Linked reads previous (pre ++ b :: post) next) :
    reads (preceding previous pre) b (following post next) := (linked_append.1 h).2.1

theorem Linked.imp : ∀ {bs : List Block} {previous : ℕ}, Linked reads previous bs next →
    (∀ b ∈ bs, ∀ p n, reads p b n → reads' p b n) → Linked reads' previous bs next
  | [], _, _, _ => trivial
  | b :: _, _, ⟨hfirst, hrest⟩, h =>
    ⟨h b List.mem_cons_self _ _ hfirst, hrest.imp fun c hc => h c (List.mem_cons_of_mem _ hc)⟩

/-- A part that begins at the same address may take the place of another, where the headers of the
part and of what is behind it say so. -/
theorem Linked.replace (h : Linked reads previous (pre ++ mid ++ post) next)
    (hpre : ∀ b ∈ pre, ∀ p n, reads p b n → reads' p b n)
    (hfirst : following mid' (following post next) = following mid (following post next))
    (hmid : Linked reads' (preceding previous pre) mid' (following post next))
    (hpost : Linked reads' (preceding (preceding previous pre) mid') post next) :
    Linked reads' previous (pre ++ mid' ++ post) next := by
  rw [List.append_assoc, linked_append] at h ⊢
  refine ⟨?_, linked_append.2 ⟨hmid, hpost⟩⟩
  rw [following_append, hfirst, ← following_append]
  exact h.1.imp hpre

end Links

section Walk

/-- A loop along the links, from this address to where it stops or to the end of the list; `none`
where it takes more than this many rounds. -/
def walk (next : ℕ → ℕ) (stop : ℕ → Bool) : ℕ → ℕ → Option ℕ
  | 0, _ => none
  | rounds + 1, a =>
    if a = 0 then some 0 else if stop a then some a else walk next stop rounds (next a)

theorem walk_eq_find {reads : ℕ → Block → ℕ → Prop} {link : ℕ → ℕ} {stop : ℕ → Bool}
    {test : Block → Bool} : ∀ {bs : List Block} {previous rounds : ℕ},
    Linked reads previous bs 0 → (∀ b ∈ bs, b.start ≠ 0) →
    (∀ b ∈ bs, ∀ p n, reads p b n → link b.start = n) →
    (∀ b ∈ bs, ∀ p n, reads p b n → stop b.start = test b) → bs.length < rounds →
    walk link stop rounds (following bs 0) = some ((bs.find? test).elim 0 Block.start)
  | [], _, rounds + 1, _, _, _, _, _ => by simp [walk, following]
  | b :: bs, previous, rounds + 1, ⟨hfirst, hrest⟩, hpos, hlink, hstop, hlt => by
    have hnext := hlink b List.mem_cons_self _ _ hfirst
    have htest := hstop b List.mem_cons_self _ _ hfirst
    have ih := @walk_eq_find _ _ _ _ bs b.start rounds hrest
      (fun c hc => hpos c (List.mem_cons_of_mem _ hc))
      (fun c hc => hlink c (List.mem_cons_of_mem _ hc))
      (fun c hc => hstop c (List.mem_cons_of_mem _ hc)) (by simpa using hlt)
    rw [following, walk, if_neg (hpos b List.mem_cons_self), htest, hnext]
    by_cases h : test b = true
    · rw [if_pos h, List.find?_cons_of_pos h]
      rfl
    · rw [if_neg h, List.find?_cons_of_neg h, ih]

end Walk

end Blocks
