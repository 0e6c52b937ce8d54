import DemonOS.Bzip2
import DemonOS.Lib.Buckets
import DemonOS.Lib.BurrowsWheeler
import Mathlib.Data.List.TakeWhile

/-!
# The inverse transform of a bzip2 block

`decode_block` sorts the places of the block by their bytes (`ttOf_eq`), so its walk spells the word
whose rotations the block is the last column of; the runs of four and their counts that it passes on
the way become the bytes they stand for (`inverseTransform_sound`).
-/

namespace DemonOS

namespace Bzip2

open BurrowsWheeler (StableOrder lastColumn visit)

/-! ## The counting sort -/

section Counting

variable {block : List UInt8} {scratch : ℕ → ℕ} {i : ℕ}

def keysOf (block : List UInt8) : List ℕ := block.map UInt8.toNat

def placesOf (block : List UInt8) : List ℕ := Buckets.byKey (keysOf block) (List.range' 0 256)

theorem getD_keysOf (block : List UInt8) (i : ℕ) :
    (keysOf block).getD i 0 = (block.getD i 0).toNat := by
  unfold keysOf
  rw [List.getD_eq_getElem?_getD, List.getD_eq_getElem?_getD, List.getElem?_map]
  cases block[i]? <;> rfl

theorem cftab_eq (block : List UInt8) : ∀ c : ℕ, cftab block c = (keysOf block).countP (· < c)
  | 0 => by simp [cftab]
  | c + 1 => by
    have hcount : (block.countP fun b => b.toNat + 1 = c + 1) = (keysOf block).count c := by
      unfold keysOf
      rw [List.count, List.countP_map]
      exact List.countP_congr fun b _ => by simp
    rw [cftab, cftab_eq block c, hcount, Buckets.countP_lt_succ]

theorem placesOf_perm (block : List UInt8) :
    (placesOf block).Perm (List.range block.length) := by
  have hperm := Buckets.byKey_perm (keysOf block) 0 256 fun k hk => by
    obtain ⟨b, -, rfl⟩ := List.mem_map.1 hk
    have := b.toNat_lt
    omega
  rwa [keysOf, List.length_map] at hperm

theorem getElem?_placesOf (hi : i < block.length) :
    (placesOf block)[Buckets.slot (keysOf block) i]? = some i := by
  have hkey := (block.getD i 0).toNat_lt
  obtain ⟨before, after, hsplit, hlength⟩ := Buckets.byKey_split 0 256
    (by simpa [keysOf] using hi : i < (keysOf block).length) (Nat.zero_le _)
    (by rw [getD_keysOf]; omega) (fun _ _ => Nat.zero_le _)
  rw [placesOf, hsplit, ← hlength, List.getElem?_append_right le_rfl, Nat.sub_self]
  rfl

theorem fill_spec (scratch : ℕ → ℕ) (block : List UInt8) : ∀ {count : ℕ}, count ≤ block.length →
    (∀ c, ((List.range count).foldl (fillStep block) (cftab block, scratch)).1 c
        = (keysOf block).countP (· < c) + ((keysOf block).take count).count c)
      ∧ ∀ i < count, ((List.range count).foldl (fillStep block) (cftab block, scratch)).2
        (Buckets.slot (keysOf block) i) = i
  | 0, _ => ⟨fun c => cftab_eq block c, fun i hi => absurd hi (Nat.not_lt_zero i)⟩
  | count + 1, hcount => by
    obtain ⟨hcf, htt⟩ := fill_spec scratch block (Nat.le_of_succ_le hcount)
    rw [List.range_succ, List.foldl_append, List.foldl_cons, List.foldl_nil]
    generalize (List.range count).foldl (fillStep block) (cftab block, scratch) = s at hcf htt ⊢
    have hslot : s.1 (block.getD count 0).toNat = Buckets.slot (keysOf block) count := by
      rw [hcf, Buckets.slot, getD_keysOf]
    have htake : (keysOf block).take (count + 1)
        = (keysOf block).take count ++ [(block.getD count 0).toNat] := by
      rw [← getD_keysOf, List.take_add_one, List.getD_eq_getElem?_getD]
      have hin : count < (keysOf block).length := by rw [keysOf, List.length_map]; omega
      rw [List.getElem?_eq_getElem hin]
      rfl
    refine ⟨fun c => ?_, fun i hi => ?_⟩
    · unfold fillStep setAt
      dsimp only
      rw [htake, List.count_append, List.count_singleton]
      generalize (block.getD count 0).toNat = b
      by_cases hc : c = b
      · rw [if_pos hc, ← hc, hcf, if_pos (by simp)]
        omega
      · rw [if_neg hc, hcf, if_neg (by simpa using Ne.symm hc), Nat.add_zero]
    · unfold fillStep setAt
      dsimp only
      rw [hslot]
      by_cases hsame : Buckets.slot (keysOf block) i = Buckets.slot (keysOf block) count
      · -- two places never share a slot
        have hfirst := getElem?_placesOf (by omega : i < block.length)
        rw [hsame, getElem?_placesOf (by omega)] at hfirst
        rw [if_pos hsame, Option.some.inj hfirst]
      · rw [if_neg hsame]
        exact htt i (by have := mt (congrArg (Buckets.slot (keysOf block))) hsame; omega)

/-- `tt` is the stable order of the places. -/
theorem ttOf_eq (scratch : ℕ → ℕ) (block : List UInt8) {k : ℕ} (hk : k < block.length) :
    ttOf scratch block k = (placesOf block).getD k 0 := by
  have hlength : (placesOf block).length = block.length := by
    rw [(placesOf_perm block).length_eq, List.length_range]
  have hin : k < (placesOf block).length := hlength ▸ hk
  have hmem : (placesOf block)[k] < block.length :=
    List.mem_range.1 ((placesOf_perm block).mem_iff.1 (List.getElem_mem hin))
  have hnodup : (placesOf block).Nodup := (placesOf_perm block).nodup_iff.2 List.nodup_range
  have hslot := getElem?_placesOf hmem
  obtain ⟨hslotin, hsame⟩ := List.getElem?_eq_some_iff.1 hslot
  have hplace := (@List.Nodup.getElem_inj_iff _ _ hnodup _ hslotin _ hin).1 hsame
  have hfill := (fill_spec scratch block le_rfl).2 _ hmem
  rw [hplace] at hfill
  rw [ttOf, hfill, List.getD_eq_getElem _ _ hin]

theorem placesOf_stable (block : List UInt8) :
    StableOrder UInt8.toNat 0 block (placesOf block) := by
  refine ⟨placesOf_perm block, ?_⟩
  have hpairwise := Buckets.byKey_pairwise (keysOf block) 0 256
  simp only [getD_keysOf] at hpairwise
  exact hpairwise

end Counting

/-! ## Runs of bytes -/

/-- A piece of a run: four bytes and a count, or the bytes themselves. -/
def rlePiece (b : UInt8) (m : ℕ) : List UInt8 :=
  if 4 ≤ m then List.replicate 4 b ++ [UInt8.ofNat (m - 4)] else List.replicate m b

def rleRun (b : UInt8) (n : ℕ) : List UInt8 :=
  if n ≤ 255 then rlePiece b n else rlePiece b 255 ++ rleRun b (n - 255)

def rleEncode : List UInt8 → List UInt8
  | [] => []
  | b :: bytes => rleRun b ((bytes.takeWhile (· = b)).length + 1)
      ++ rleEncode (bytes.dropWhile (· = b))
termination_by bytes => bytes.length
decreasing_by exact Nat.lt_succ_of_le (List.dropWhile_sublist _).length_le

section Runs

variable {capacity n m : ℕ} {s : Unrle} {b : UInt8} {bytes more : List UInt8}

def undo (capacity : ℕ) (s : Unrle) (bytes : List UInt8) : Option Unrle :=
  bytes.foldlM (Unrle.byte capacity) s

theorem undo_append : undo capacity s (bytes ++ more)
    = (undo capacity s bytes).bind fun s => undo capacity s more := List.foldlM_append

/-- A byte of this kind would begin a run. -/
def Fresh (b : UInt8) (s : Unrle) : Prop :=
  s.runLength = 0 ∨ s.lastByte ≠ b ∧ s.runLength ≠ 4

theorem undo_singleton (s : Unrle) (b : UInt8) : undo capacity s [b] = s.byte capacity b := by
  rw [undo, List.foldlM_cons]
  cases s.byte capacity b <;> rfl

theorem undo_replicate (hfresh : Fresh b s) : ∀ {m : ℕ}, m + 1 ≤ 4 →
    s.out.length + (m + 1) ≤ capacity → undo capacity s (List.replicate (m + 1) b)
      = some { lastByte := b, runLength := m + 1, out := s.out ++ List.replicate (m + 1) b }
  | 0, _, hroom => by
    have hcount : s.runLength ≠ 4 := by
      rcases hfresh with hzero | ⟨-, hfour⟩
      · omega
      · exact hfour
    rw [List.replicate_one, undo_singleton, Unrle.byte, if_neg hcount, if_neg (by omega)]
    split_ifs with hsame
    · rcases hfresh with hzero | ⟨hother, -⟩
      · rw [hzero, ← hsame]
      · exact absurd hsame.symm hother
    · rfl
  | m + 1, hm, hroom => by
    rw [List.replicate_succ', undo_append, undo_replicate hfresh (by omega) (by omega),
      Option.bind_some, undo_singleton, Unrle.byte, if_neg (by dsimp only; omega),
      if_neg (by simp; omega), if_pos rfl, List.append_assoc]

theorem undo_piece (hfresh : Fresh b s) (hm : 0 < m) (hmax : m ≤ 255)
    (hroom : s.out.length + m ≤ capacity) :
    ∃ s', undo capacity s (rlePiece b m) = some s' ∧ s'.out = s.out ++ List.replicate m b
      ∧ s'.runLength < 4 ∧ (s'.lastByte = b) ∧ (m = 255 → s'.runLength = 0) := by
  obtain ⟨k, rfl⟩ := Nat.exists_eq_add_of_lt hm
  rw [Nat.zero_add] at *
  unfold rlePiece
  split_ifs with hlong
  · -- the fifth byte says how many more there are
    have hcount : (UInt8.ofNat (k + 1 - 4)).toNat = k - 3 := by
      rw [UInt8.toNat_ofNat']
      omega
    refine ⟨⟨b, 0, s.out ++ List.replicate (k + 1) b⟩, ?_, rfl, by dsimp only; decide, rfl,
      fun _ => rfl⟩
    rw [undo_append, undo_replicate hfresh le_rfl (by omega), Option.bind_some, undo_singleton,
      Unrle.byte, if_pos rfl, hcount, if_neg (by simp; omega), List.append_assoc,
      ← List.replicate_add]
    congr 4
    omega
  · refine ⟨_, undo_replicate hfresh (by omega) hroom, rfl, by dsimp only; omega, rfl,
      fun h => by omega⟩

theorem undo_run (n : ℕ) (s : Unrle) (hfresh : Fresh b s) (hn : 0 < n)
    (hroom : s.out.length + n ≤ capacity) :
    ∃ s', undo capacity s (rleRun b n) = some s' ∧ s'.out = s.out ++ List.replicate n b
      ∧ s'.lastByte = b ∧ s'.runLength < 4 := by
  rw [rleRun]
  by_cases hsmall : n ≤ 255
  · rw [if_pos hsmall]
    obtain ⟨s', hundo, hout, hshort, hlast, -⟩ := undo_piece hfresh hn hsmall hroom
    exact ⟨s', hundo, hout, hlast, hshort⟩
  · rw [if_neg hsmall]
    obtain ⟨mid, hmid, hout, -, -, hzero⟩ :=
      undo_piece hfresh (m := 255) (by decide) le_rfl
        (by omega : s.out.length + 255 ≤ capacity)
    -- a piece of full length is followed by a piece of the same byte
    have hrest : mid.out.length + (n - 255) ≤ capacity := by
      rw [hout, List.length_append, List.length_replicate]
      omega
    obtain ⟨s', hundo, hout', hlast⟩ :=
      undo_run (n - 255) mid (.inl (hzero rfl)) (by omega) hrest
    refine ⟨s', ?_, ?_, hlast⟩
    · rw [undo_append, hmid, Option.bind_some, hundo]
    · have hsum : 255 + (n - 255) = n := by omega
      rw [hout', hout, List.append_assoc, ← List.replicate_add, hsum]
termination_by n
decreasing_by omega

theorem undo_rleEncode (capacity : ℕ) : ∀ (bytes : List UInt8) (s : Unrle), (∀ b ∈ bytes.head?, Fresh b s) →
    s.out.length + bytes.length ≤ capacity →
      ∃ s', undo capacity s (rleEncode bytes) = some s' ∧ s'.out = s.out ++ bytes
  | [], s, _, _ => by
    rw [rleEncode, List.append_nil]
    exact ⟨s, rfl, rfl⟩
  | b :: bytes, s, hfresh, hroom => by
    have hrun : List.replicate (bytes.takeWhile (· = b)).length b = bytes.takeWhile (· = b) :=
      (List.eq_replicate_of_mem fun x hx => by simpa using List.mem_takeWhile_imp hx).symm
    have hbytes : b :: bytes = List.replicate ((bytes.takeWhile (· = b)).length + 1) b
        ++ bytes.dropWhile (· = b) := by
      rw [List.replicate_succ, List.cons_append, hrun, List.takeWhile_append_dropWhile]
    have hlength := congrArg List.length hbytes
    rw [List.length_append, List.length_replicate] at hlength
    obtain ⟨mid, hmid, hout, hlast, hshort⟩ := undo_run _ s (hfresh b rfl)
      (Nat.succ_pos (bytes.takeWhile (· = b)).length) (by omega : _ ≤ capacity)
    obtain ⟨s', hundo, hout'⟩ := undo_rleEncode capacity (bytes.dropWhile (· = b)) mid (fun c hc => by
      have hother := List.head?_dropWhile_not (fun x => decide (x = b)) bytes
      rw [hc] at hother
      refine .inr ⟨fun hsame => ?_, by omega⟩
      simp [← hsame, hlast] at hother) (by rw [hout, List.length_append, List.length_replicate]; omega)
    refine ⟨s', ?_, ?_⟩
    · rw [rleEncode, undo_append, hmid, Option.bind_some, hundo]
    · rw [hout', hout, hbytes, List.append_assoc]
termination_by bytes => bytes.length
decreasing_by
  exact Nat.lt_succ_of_le (List.dropWhile_sublist _).length_le

end Runs

/-! ## The walk -/

structure Transforms (word block : List UInt8) (origPtr : ℕ) : Prop where
  rows : ∃ rows, BurrowsWheeler.Sorted UInt8.toNat word rows ∧ block = lastColumn 0 rows
    ∧ rows[origPtr]? = some word

def walkBytes (scratch : ℕ → ℕ) (block : List UInt8) (origPtr : ℕ) : List UInt8 :=
  visit 0 block (ttOf scratch block) block.length (ttOf scratch block origPtr)

theorem walk_eq (block : List UInt8) (tt : ℕ → ℕ) (capacity : ℕ) : ∀ (count tPos : ℕ) (s : Unrle),
    walk block tt capacity count tPos s = undo capacity s (visit 0 block tt count tPos)
  | 0, _, _ => rfl
  | count + 1, tPos, s => by
    rw [walk, visit, undo, List.foldlM_cons]
    cases s.byte capacity (block.getD tPos 0) with
    | none => rfl
    | some s => exact walk_eq block tt capacity count (tt tPos) s

theorem walkBytes_eq {word block : List UInt8} {origPtr : ℕ} (scratch : ℕ → ℕ)
    (h : Transforms word block origPtr) : walkBytes scratch block origPtr = word := by
  obtain ⟨rows, hsorted, rfl, hrow⟩ := h.rows
  obtain ⟨hin, hword⟩ := List.getElem?_eq_some_iff.1 hrow
  have hlength : (lastColumn 0 rows).length = rows.length := List.length_map _
  have hvisit := BurrowsWheeler.visit_eq_take (fun a b hab => UInt8.toNat_inj.1 hab) hsorted
    (placesOf_stable (lastColumn 0 rows))
    (fun k hk => ttOf_eq scratch (lastColumn 0 rows) (hlength.symm ▸ hk)) hin le_rfl
  rw [walkBytes, hlength, hsorted.length, hvisit, List.getD_eq_getElem _ _ hin, hword,
    List.take_length]

/-- The inverse transform gives back what has been transformed. -/
theorem inverseTransform_sound {word block : List UInt8} {origPtr : ℕ} (scratch : ℕ → ℕ)
    (h : Transforms word block origPtr) : walkBytes scratch block origPtr = word
      ∧ ∀ (bytes : List UInt8) (capacity : ℕ), word = rleEncode bytes →
        bytes.length ≤ capacity →
          inverseTransform scratch block origPtr capacity = some bytes := by
  have hwalk := walkBytes_eq scratch h
  refine ⟨hwalk, fun bytes capacity hword hroom => ?_⟩
  obtain ⟨s, hundo, hout⟩ := undo_rleEncode capacity bytes {}
    (fun b _ => .inl rfl) (by simpa using hroom)
  rw [inverseTransform, walk_eq]
  rw [walkBytes, hword] at hwalk
  rw [hwalk, hundo, Option.map_some, hout]
  rfl

theorem inverseTransform_sound_baba :
    walkBytes (fun _ => 0) [0x62, 0x62, 0x61, 0x61] 2 = [0x62, 0x61, 0x62, 0x61]
      ∧ ∀ (bytes : List UInt8) (capacity : ℕ), [0x62, 0x61, 0x62, 0x61] = rleEncode bytes →
        bytes.length ≤ capacity →
          inverseTransform (fun _ => 0) [0x62, 0x62, 0x61, 0x61] 2 capacity = some bytes :=
  inverseTransform_sound _ ⟨⟨[[0x61, 0x62, 0x61, 0x62], [0x61, 0x62, 0x61, 0x62],
    [0x62, 0x61, 0x62, 0x61], [0x62, 0x61, 0x62, 0x61]], ⟨by decide, by decide⟩, rfl, rfl⟩⟩

/-! ## Damaged blocks -/

section Damaged

variable (scratch scratch' : ℕ → ℕ) {block : List UInt8} (capacity : ℕ)

theorem ttOf_lt {k : ℕ} (hk : k < block.length) : ttOf scratch block k < block.length := by
  have hperm := placesOf_perm block
  have hin : k < (placesOf block).length := by rwa [hperm.length_eq, List.length_range]
  rw [ttOf_eq scratch block hk, List.getD_eq_getElem _ _ hin]
  exact List.mem_range.1 (hperm.mem_iff.1 (List.getElem_mem hin))

theorem walk_fresh : ∀ (count : ℕ) {k : ℕ} (s : Unrle), k < block.length →
    walk block (ttOf scratch block) capacity count k s
      = walk block (ttOf scratch' block) capacity count k s
  | 0, _, _, _ => rfl
  | count + 1, k, s, hk => by
    rw [walk, walk, ttOf_eq scratch block hk, ← ttOf_eq scratch' block hk]
    cases s.byte capacity (block.getD k 0) with
    | none => rfl
    | some s => exact walk_fresh count s (ttOf_lt scratch' hk)

/-- Whatever the bits are, nothing comes of what the memory of `tt` held before. -/
theorem decodeBlock_fresh (stack : ℕ → ℕ) (tables : ℕ → HuffTable) (br : BitReader)
    (maxBlockBytes : ℕ) : decodeBlock stack scratch tables br maxBlockBytes capacity
      = decodeBlock stack scratch' tables br maxBlockBytes capacity := by
  unfold decodeBlock
  rcases decodeEntropy stack tables br maxBlockBytes with _ | ⟨e, built⟩
  · rfl
  by_cases hptr : e.origPtr < e.final.block.length
  · have hwalk := walk_fresh scratch scratch' capacity e.final.block.length {}
      (ttOf_lt scratch' hptr)
    simp only [inverseTransform, Option.bind_eq_bind, Option.bind_some,
      ttOf_eq scratch _ hptr, ← ttOf_eq scratch' _ hptr, hwalk]
  · simp [hptr]

end Damaged

end Bzip2

end DemonOS
