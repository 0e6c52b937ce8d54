import DemonOS.Bzip2
import DemonOS.Lib.Buckets
import DemonOS.Lib.CanonicalCode

/-!
# The Huffman tables read canonical codes

`build_huffman` keeps, for each length, the last code and where the symbols of that length begin
(`buildHuffman_built`). The front of a longer code is past the last code of
each shorter length, so `huffman_decode` goes on until it has the whole of it
(`huffmanDecode_code`).
-/

namespace DemonOS

namespace Bzip2

open Buckets (byKey_split countP_lt_succ getD_mem)
open CanonicalCode (firstCode rank code kraftSum)

/-! ## The bits -/

def bitAt (data : List UInt8) (k : ℕ) : ℕ := (data.getD (k / 8) 0).toNat / 2 ^ (7 - k % 8) % 2

namespace BitReader

theorem bit_eq (br : BitReader) : br.bit = bitAt br.data br.position := by
  have hlt := br.bitPos_lt
  have hbyte : br.position / 8 = br.bytePos := by unfold position; omega
  have hbit : br.position % 8 = br.bitPos := by unfold position; omega
  unfold bit bitAt
  rw [hbyte, hbit]
  split_ifs with hin
  · rfl
  · rw [List.getD_eq_default _ _ (by omega)]
    simp

@[simp] theorem brBits_data (br : BitReader) : ∀ count, (br.brBits count).2.data = br.data
  | 0 => rfl
  | count + 1 => (next_data _).trans (brBits_data br count)

@[simp] theorem brBits_position (br : BitReader) : ∀ count,
    (br.brBits count).2.position = br.position + count
  | 0 => rfl
  | count + 1 => by
    have ih := brBits_position br count
    have hnext := next_position (br.brBits count).2
    unfold brBits
    dsimp only
    omega

/-- The next bits are those of this number. -/
def Holds (br : BitReader) (value count : ℕ) : Prop :=
  ∀ i < count, bitAt br.data (br.position + i) = value / 2 ^ (count - 1 - i) % 2

theorem bit_of_holds {br : BitReader} {value count k : ℕ} (h : br.Holds value count)
    (hk : k < count) : (br.brBits k).2.bit = value / 2 ^ (count - 1 - k) % 2 := by
  rw [bit_eq, brBits_data, brBits_position, h k hk]

theorem brBits_of_holds {br : BitReader} {value count : ℕ} (h : br.Holds value count)
    (hvalue : value < 2 ^ count) : ∀ {k : ℕ}, k ≤ count →
      (br.brBits k).1 = value / 2 ^ (count - k)
  | 0, _ => (Nat.div_eq_of_lt hvalue).symm
  | k + 1, hk => by
    have ih := brBits_of_holds h hvalue (by omega : k ≤ count)
    have hbit := bit_of_holds h (by omega : k < count)
    have hplace : count - k = (count - 1 - k) + 1 := by omega
    have hnext : count - (k + 1) = count - 1 - k := by omega
    unfold brBits
    dsimp only
    rw [ih, hbit, hnext, hplace, pow_succ, ← Nat.div_div_eq_div_mul]
    omega

end BitReader

/-! ## The tables -/

section Build

variable {lengths : List ℕ} {s len : ℕ}

theorem permOf_eq (lengths lens : List ℕ) : permOf lengths lens = Buckets.byKey lengths lens := rfl

theorem foldl_least : ∀ (lengths : List ℕ) (least : ℕ),
    (lengths.foldl (fun least l => if l < least then l else least) least ≤ least)
      ∧ ∀ l ∈ lengths, lengths.foldl (fun least l => if l < least then l else least) least ≤ l
  | [], _ => ⟨le_rfl, fun l hl => by cases hl⟩
  | l :: lengths, least => by
    obtain ⟨hstart, hall⟩ :=
      foldl_least lengths (if l < least then l else least)
    rw [List.foldl_cons]
    refine ⟨hstart.trans (by split_ifs <;> omega), fun l' hl' => ?_⟩
    rcases List.mem_cons.1 hl' with rfl | hl'
    · exact hstart.trans (by split_ifs <;> omega)
    · exact hall l' hl'

theorem foldl_most : ∀ (lengths : List ℕ) (most : ℕ),
    (most ≤ lengths.foldl (fun most l => if most < l then l else most) most)
      ∧ ∀ l ∈ lengths, l ≤ lengths.foldl (fun most l => if most < l then l else most) most
  | [], _ => ⟨le_rfl, fun l hl => by cases hl⟩
  | l :: lengths, most => by
    obtain ⟨hstart, hall⟩ :=
      foldl_most lengths (if most < l then l else most)
    rw [List.foldl_cons]
    refine ⟨le_trans (by split_ifs <;> omega) hstart, fun l' hl' => ?_⟩
    rcases List.mem_cons.1 hl' with rfl | hl'
    · exact le_trans (by split_ifs <;> omega) hstart
    · exact hall l' hl'

theorem countTo_succ (lengths : List ℕ) (len : ℕ) :
    countTo lengths (len + 1) = countTo lengths len + lengths.count len := by
  have hcount : (lengths.countP fun l => l + 1 = len + 1) = lengths.count len :=
    List.countP_congr fun l _ => by simp
  rw [countTo, hcount]

theorem countTo_eq (lengths : List ℕ) : ∀ len : ℕ,
    countTo lengths len = lengths.countP fun l => l < len
  | 0 => by simp [countTo]
  | len + 1 => by
    rw [countTo_succ, countTo_eq lengths len, ← Nat.cast_add, ← countP_lt_succ]

theorem firstCode_eq_zero : ∀ {len : ℕ}, (∀ l ∈ lengths, len ≤ l) → firstCode lengths len = 0
  | 0, _ => rfl
  | len + 1, h => by
    have hnone : lengths.count len = 0 := List.count_eq_zero.2 fun hmem => by
      have := h len hmem
      omega
    rw [firstCode, firstCode_eq_zero fun l hl => (Nat.le_succ len).trans (h l hl), hnone]

theorem foldl_limitStep (table : HuffTable) {first : ℕ} (hfirst : firstCode lengths first = 0) :
    ∀ count : ℕ, ∃ limit base : ℕ → ℤ,
      (List.range' first count).foldl (limitStep lengths) (0, table)
        = ((firstCode lengths (first + count) : ℤ), { table with limit := limit, base := base })
      ∧ ∀ len, first ≤ len → len < first + count →
        limit len = firstCode lengths len + lengths.count len - 1
          ∧ base len = firstCode lengths len - countTo lengths len
  | 0 => ⟨table.limit, table.base, by simp [hfirst], fun len h h' => by omega⟩
  | count + 1 => by
    obtain ⟨limit, base, hfold, hall⟩ := foldl_limitStep table hfirst count
    have hcode : (firstCode lengths (first + (count + 1)) : ℤ)
        = 2 * (firstCode lengths (first + count) + lengths.count (first + count)) := by
      rw [← Nat.add_assoc, firstCode]
      push_cast
      rfl
    rw [List.range'_concat, List.foldl_append, hfold, List.foldl_cons, List.foldl_nil, limitStep,
      one_mul, countTo_succ, add_sub_cancel_left, hcode]
    refine ⟨_, _, rfl, fun len hlow hhigh => ?_⟩
    unfold setAt
    by_cases hlast : len = first + count
    · subst hlast
      rw [if_pos rfl, if_pos rfl]
      exact ⟨rfl, rfl⟩
    · rw [if_neg hlast, if_neg hlast]
      exact hall len hlow (by omega)

theorem countTo_add_rank (lengths : List ℕ) (s : ℕ) :
    (countTo lengths (lengths.getD s 0) + rank lengths s).toNat = Buckets.slot lengths s := by
  rw [countTo_eq, ← Nat.cast_add, Int.toNat_natCast]
  rfl

end Build

/-! ## Decoding -/

structure Built (lengths : List ℕ) (table : HuffTable) : Prop where
  least : ∀ l ∈ lengths, table.minLen ≤ l
  most : ∀ l ∈ lengths, l ≤ table.maxLen
  limit : ∀ len, table.minLen ≤ len → len ≤ table.maxLen →
    table.limit len = firstCode lengths len + lengths.count len - 1
  base : ∀ len, table.minLen ≤ len → len ≤ table.maxLen →
    table.base len = firstCode lengths len - countTo lengths len
  perm : ∀ s < lengths.length,
    table.perm (countTo lengths (lengths.getD s 0) + rank lengths s).toNat = s

theorem buildHuffman_built (table : HuffTable) (lengths : List ℕ) :
    Built lengths (buildHuffman table lengths) := by
  have hleast := (foldl_least lengths bzMaxCodeLen).2
  have hmost := (foldl_most lengths 0).2
  unfold buildHuffman
  dsimp only
  generalize lengths.foldl (fun least l => if l < least then l else least) bzMaxCodeLen = first
    at hleast ⊢
  generalize lengths.foldl (fun most l => if most < l then l else most) 0 = last at hmost ⊢
  obtain ⟨limit, base, hfold, hall⟩ := @foldl_limitStep lengths
    { table with
      minLen := first
      maxLen := last
      perm := fun i => if i < (permOf lengths (List.range' first (last + 1 - first))).length then
        (permOf lengths (List.range' first (last + 1 - first))).getD i 0 else table.perm i }
    _ (firstCode_eq_zero hleast) (last + 1 - first)
  rw [hfold]
  refine ⟨hleast, hmost, fun len hlow hhigh => ?_, fun len hlow hhigh => ?_, fun s hs => ?_⟩
  · exact (hall len hlow (by dsimp only at hlow hhigh; omega)).1
  · exact (hall len hlow (by dsimp only at hlow hhigh; omega)).2
  · have hmem : lengths.getD s 0 ∈ lengths := getD_mem hs
    have hlow := hleast _ hmem
    have hhigh := hmost _ hmem
    obtain ⟨before, after, hsplit, hlength⟩ :=
      byKey_split first (last + 1 - first) hs hlow (by omega) hleast
    dsimp only
    rw [permOf_eq, hsplit, countTo_add_rank, ← hlength, if_pos (by simp),
      List.getD_append_right _ _ _ _ le_rfl, Nat.sub_self]
    rfl

variable {lengths : List ℕ} {table : HuffTable} {s : ℕ} {br : BitReader}

theorem huffmanLoop_code (hbuilt : Built lengths table) (hsize : lengths.length ≤ bzMaxAlphaSize)
    (hkraft : kraftSum lengths ≤ 1) (hs : s < lengths.length)
    (hbits : br.Holds (code lengths s) (lengths.getD s 0)) :
    ∀ count : ℕ, table.minLen + count ≤ lengths.getD s 0 →
      huffmanLoop table (lengths.getD s 0 - count) (br.brBits (lengths.getD s 0 - count)).1
        (br.brBits (lengths.getD s 0 - count)).2 = some (s, (br.brBits (lengths.getD s 0)).2)
  | 0, h => by
    have hmost := hbuilt.most _ (getD_mem hs)
    have hrank := CanonicalCode.rank_lt_count hs
    have hcode := BitReader.brBits_of_holds hbits (CanonicalCode.code_lt hkraft hs) le_rfl
    have hcount := countTo_eq lengths (lengths.getD s 0)
    -- the symbols with shorter codes and those of this length are all symbols
    have hroom : (lengths.countP fun l => l < lengths.getD s 0) + lengths.count (lengths.getD s 0)
        ≤ lengths.length := by
      rw [← countP_lt_succ]
      exact List.countP_le_length
    rw [Nat.sub_self, pow_zero, Nat.div_one] at hcode
    rw [Nat.sub_zero, huffmanLoop, if_neg (by omega), hcode, hbuilt.limit _ h hmost,
      hbuilt.base _ h hmost, if_pos (by unfold code; push_cast; omega)]
    have hindex : ((code lengths s : ℕ) : ℤ) - (firstCode lengths (lengths.getD s 0)
        - countTo lengths (lengths.getD s 0))
        = countTo lengths (lengths.getD s 0) + rank lengths s := by
      unfold code
      push_cast
      ring
    dsimp only
    rw [hindex, if_neg (by rw [hcount]; omega), hbuilt.perm s hs]
  | count + 1, h => by
    have hmost := hbuilt.most _ (getD_mem hs)
    have ih := huffmanLoop_code hbuilt hsize hkraft hs hbits count (by omega)
    have hlen : lengths.getD s 0 - count = lengths.getD s 0 - (count + 1) + 1 := by omega
    rw [hlen] at ih
    generalize hshort : lengths.getD s 0 - (count + 1) = len at ih ⊢
    have hpast := @CanonicalCode.firstCode_le_div lengths s len (by omega)
    have hfront := BitReader.brBits_of_holds hbits (CanonicalCode.code_lt hkraft hs)
      (by omega : len ≤ lengths.getD s 0)
    rw [huffmanLoop, if_neg (by omega), hbuilt.limit len (by omega) (by omega), if_neg]
    · exact ih
    · rw [hfront]
      omega

/-- A table reads the code of each symbol, and no more than the code. -/
theorem huffmanDecode_code (table : HuffTable) (hsize : lengths.length ≤ bzMaxAlphaSize)
    (hkraft : kraftSum lengths ≤ 1) (hs : s < lengths.length)
    (hbits : br.Holds (code lengths s) (lengths.getD s 0)) :
    ∃ br', huffmanDecode br (buildHuffman table lengths) = some (s, br') ∧ br'.data = br.data
      ∧ br'.position = br.position + lengths.getD s 0 := by
  have hbuilt := buildHuffman_built table lengths
  have hleast := hbuilt.least _ (getD_mem hs)
  have hloop := huffmanLoop_code hbuilt hsize hkraft hs hbits
    (lengths.getD s 0 - (buildHuffman table lengths).minLen) (by omega)
  rw [Nat.sub_sub_self hleast] at hloop
  exact ⟨_, hloop, BitReader.brBits_data _ _, BitReader.brBits_position _ _⟩

theorem huffmanDecode_code_second : ∃ br' : BitReader,
    huffmanDecode ⟨[0x80], 0, 0, by decide⟩ (buildHuffman zeroTable [1, 2, 2]) = some (1, br')
      ∧ br'.data = [0x80] ∧ br'.position = 2 :=
  @huffmanDecode_code [1, 2, 2] 1 ⟨[0x80], 0, 0, by decide⟩ zeroTable (by decide)
    (by norm_num [kraftSum]) (by decide) (by unfold BitReader.Holds; decide)

end Bzip2

end DemonOS
