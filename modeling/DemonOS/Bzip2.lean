import DemonOS.Lib.MoveToFront
import Mathlib.Tactic.Ring

/-!
# The bzip2 decoder

`src/ports/butterscotch/platform/bzip2_decode.c`: the bit reader, the Huffman tables, the symbol
loop of a block and the inverse transform. What `decode_block` finds in memory that it has not
written (the far end of its table of groups on the stack, and the Huffman tables of earlier blocks)
is a parameter. A list stands for an array with its length.
-/

namespace DemonOS

namespace Bzip2

open MoveToFront (toFront)

def bzMaxGroups : ℕ := 6
def bzMaxAlphaSize : ℕ := 258
def bzMaxCodeLen : ℕ := 23
def bzRunA : ℕ := 0
def bzRunB : ℕ := 1
def bzNGroupsSyms : ℕ := 50

/-! ## The bit reader -/

/-- `struct bit_reader`. -/
structure BitReader where
  data : List UInt8
  bytePos : ℕ
  bitPos : ℕ
  bitPos_lt : bitPos < 8

namespace BitReader

/-- The next bit; 0 past the end. -/
def bit (br : BitReader) : ℕ :=
  if br.bytePos < br.data.length then
    (br.data.getD br.bytePos 0).toNat / 2 ^ (7 - br.bitPos) % 2
  else 0

def next (br : BitReader) : BitReader :=
  if h : br.bitPos + 1 = 8 then
    { br with bytePos := br.bytePos + 1, bitPos := 0, bitPos_lt := by decide }
  else { br with bitPos := br.bitPos + 1, bitPos_lt := by have := br.bitPos_lt; omega }

/-- `br_bits`. -/
def brBits (br : BitReader) : ℕ → ℕ × BitReader
  | 0 => (0, br)
  | count + 1 =>
    let rest := br.brBits count
    (2 * rest.1 + rest.2.bit, rest.2.next)

def readFlags : ℕ → BitReader → List Bool × BitReader
  | 0, br => ([], br)
  | count + 1, br =>
    let rest := readFlags count br.next
    ((br.bit != 0) :: rest.1, rest.2)

def position (br : BitReader) : ℕ := 8 * br.bytePos + br.bitPos

theorem next_position (br : BitReader) : br.next.position = br.position + 1 := by
  unfold next position
  split_ifs
  · dsimp only
    omega
  · rfl

@[simp] theorem next_data (br : BitReader) : br.next.data = br.data := by
  unfold next
  split_ifs <;> rfl

theorem position_lt_of_bit {br : BitReader} (h : br.bit ≠ 0) :
    br.position < 8 * br.data.length := by
  have hbit := br.bitPos_lt
  unfold bit at h
  unfold position
  split_ifs at h with hpos
  · omega
  · exact absurd rfl h

def left (br : BitReader) : ℕ := 8 * br.data.length - br.position

theorem left_next_lt {br : BitReader} (h : br.bit ≠ 0) : br.next.left < br.left := by
  have hlt := position_lt_of_bit h
  unfold left
  rw [next_position, next_data]
  omega

theorem left_next_le (br : BitReader) : br.next.left ≤ br.left := by
  unfold left
  rw [next_position, next_data]
  omega

end BitReader

/-! ## Huffman tables -/

/-- `struct huff_table`. -/
structure HuffTable where
  limit : ℕ → ℤ
  base : ℕ → ℤ
  perm : ℕ → ℕ
  minLen : ℕ
  maxLen : ℕ

/-- A table that was never built; static memory is zero at first. -/
def zeroTable : HuffTable :=
  { limit := fun _ => 0, base := fun _ => 0, perm := fun _ => 0, minLen := 0, maxLen := 0 }

/-- An array with one element set. -/
def setAt {α : Type} (f : ℕ → α) (i : ℕ) (v : α) : ℕ → α := fun j => if j = i then v else f j

def permOf (lengths : List ℕ) (lens : List ℕ) : List ℕ :=
  lens.flatMap fun len => (List.range lengths.length).filter fun i => lengths.getD i 0 = len

/-- The array `count` once it has been summed up. -/
def countTo (lengths : List ℕ) : ℕ → ℤ
  | 0 => lengths.countP fun l => l + 1 = 0
  | i + 1 => countTo lengths i + lengths.countP fun l => l + 1 = i + 1

/-- A round of the loop over the lengths, which carries `code` along. -/
def limitStep (lengths : List ℕ) (s : ℤ × HuffTable) (len : ℕ) : ℤ × HuffTable :=
  let numCodesThisLen := countTo lengths (len + 1) - countTo lengths len
  let code := s.1 + numCodesThisLen
  (2 * code, { s.2 with
    base := setAt s.2.base len (s.1 - countTo lengths len)
    limit := setAt s.2.limit len (code - 1) })

/-- `build_huffman` over a table that has been used before. -/
def buildHuffman (table : HuffTable) (lengths : List ℕ) : HuffTable :=
  let minLen := lengths.foldl (fun least l => if l < least then l else least) bzMaxCodeLen
  let maxLen := lengths.foldl (fun most l => if most < l then l else most) 0
  let lens := List.range' minLen (maxLen + 1 - minLen)
  let perm := permOf lengths lens
  (lens.foldl (limitStep lengths) (0, { table with
    minLen := minLen
    maxLen := maxLen
    perm := fun i => if i < perm.length then perm.getD i 0 else table.perm i })).2

/-- The loop of `huffman_decode`; nothing stands for -1. -/
def huffmanLoop (table : HuffTable) (len code : ℕ) (br : BitReader) : Option (ℕ × BitReader) :=
  if table.maxLen < len then none
  else if (code : ℤ) ≤ table.limit len then
    let index := (code : ℤ) - table.base len
    if index < 0 ∨ (bzMaxAlphaSize : ℤ) ≤ index then none else some (table.perm index.toNat, br)
  else huffmanLoop table (len + 1) (2 * code + br.bit) br.next
termination_by table.maxLen + 1 - len

def huffmanDecode (br : BitReader) (table : HuffTable) : Option (ℕ × BitReader) :=
  let code := br.brBits table.minLen
  huffmanLoop table table.minLen code.1 code.2

/-! ## The head of a block -/

/-- The bytes in use, from the groups of sixteen that are. -/
def readSeqToUnseq : List Bool → ℕ → BitReader → List UInt8 × BitReader
  | [], _, br => ([], br)
  | false :: groups, g, br => readSeqToUnseq groups (g + 1) br
  | true :: groups, g, br =>
    let flags := br.readFlags 16
    let used := (List.range 16).filter fun b => flags.1.getD b false
    let rest := readSeqToUnseq groups (g + 1) flags.2
    (used.map (fun b => UInt8.ofNat (g * 16 + b)) ++ rest.1, rest.2)

/-- How many ones there are up to the next zero. -/
def readOnes (br : BitReader) : ℕ × BitReader :=
  if br.bit = 1 then
    let rest := readOnes br.next
    (rest.1 + 1, rest.2)
  else (0, br.next)
termination_by br.left
decreasing_by exact BitReader.left_next_lt (by omega)

def readSelectorMtf : ℕ → BitReader → Option (List ℕ × BitReader)
  | 0, br => some ([], br)
  | count + 1, br =>
    let j := readOnes br
    if bzMaxGroups ≤ j.1 then none
    else (readSelectorMtf count j.2).map fun rest => (j.1 :: rest.1, rest.2)

/-- The table `mtfGroups`, of which the first entries are set. -/
def mtfGroups (nGroups : ℕ) (stack : ℕ → ℕ) : List ℕ :=
  (List.range bzMaxGroups).map fun i => if i < nGroups then i else stack i

/-- A code length, stepped up and down from the last one. -/
def readLength (curr : ℕ) (br : BitReader) : Option (ℕ × BitReader) :=
  if curr < 1 ∨ bzMaxCodeLen < curr then none
  else if br.bit = 0 then some (curr, br.next)
  else readLength (if br.next.bit = 0 then curr + 1 else curr - 1) br.next.next
termination_by br.left
decreasing_by exact lt_of_le_of_lt (BitReader.left_next_le _) (BitReader.left_next_lt ‹_›)

def readLengths : ℕ → ℕ → BitReader → Option (List ℕ × BitReader)
  | 0, _, br => some ([], br)
  | count + 1, curr, br =>
    match readLength curr br with
    | none => none
    | some (curr, br) => (readLengths count curr br).map fun rest => (curr :: rest.1, rest.2)

def readTables (alphaSize : ℕ) : List ℕ → (ℕ → HuffTable) → BitReader →
    Option ((ℕ → HuffTable) × BitReader)
  | [], tables, br => some (tables, br)
  | g :: groups, tables, br =>
    let curr := br.brBits 5
    match readLengths alphaSize curr.1 curr.2 with
    | none => none
    | some (lengths, br) =>
      readTables alphaSize groups (setAt tables g (buildHuffman (tables g) lengths)) br

/-! ## The symbol loop -/

/-- What the symbol loop works on: the selectors still to be used, the one in use, and the run that
is being counted. The selectors used and the symbols read so far are kept beside it. -/
structure SymbolState where
  br : BitReader
  selectors : List ℕ
  groupPos : ℕ := 0
  table : ℕ := 0
  run : ℕ := 0
  runBit : ℕ := 1
  mtf : List UInt8
  block : List UInt8 := []
  used : List ℕ := []
  symbols : List ℕ := []

namespace SymbolState

def enterGroup (s : SymbolState) : Option SymbolState :=
  if s.groupPos = 0 then
    match s.selectors with
    | [] => none
    | selector :: selectors => some { s with
        selectors := selectors
        groupPos := bzNGroupsSyms
        table := selector
        used := s.used ++ [selector] }
  else some s

def readSymbol (tables : ℕ → HuffTable) (s : SymbolState) : Option (ℕ × SymbolState) :=
  match s.enterGroup with
  | none => none
  | some s =>
    (huffmanDecode s.br (tables s.table)).map fun result => (result.1, { s with
      br := result.2
      groupPos := s.groupPos - 1
      symbols := s.symbols ++ [result.1] })

def countRun (s : SymbolState) (sym : ℕ) : SymbolState :=
  { s with
    run := (s.run + (sym + 1) * s.runBit) % 2 ^ 32
    runBit := s.runBit * 2 % 2 ^ 32 }

/-- The copies of the front byte that have been counted. -/
def flushRun (maxBlockBytes : ℕ) (s : SymbolState) : Option SymbolState :=
  if 0 < s.run then
    if maxBlockBytes < s.block.length + s.run then none
    else some { s with
      block := s.block ++ List.replicate s.run (s.mtf.headD 0)
      run := 0
      runBit := 1 }
  else some s

def emitByte (maxBlockBytes : ℕ) (s : SymbolState) (mtfIndex : ℕ) : Option SymbolState :=
  match s.mtf[mtfIndex]? with
  | none => none
  | some value =>
    if maxBlockBytes ≤ s.block.length then none
    else some { s with mtf := toFront s.mtf mtfIndex, block := s.block ++ [value] }

/-- A round of the symbol loop; true at the end of the block. -/
def step (tables : ℕ → HuffTable) (maxBlockBytes eob : ℕ) (s : SymbolState) :
    Option (Bool × SymbolState) :=
  match s.readSymbol tables with
  | none => none
  | some (sym, s) =>
    if sym = bzRunA ∨ sym = bzRunB then some (false, s.countRun sym)
    else
      match s.flushRun maxBlockBytes with
      | none => none
      | some s =>
        if sym = eob then some (true, s)
        else (s.emitByte maxBlockBytes (sym - 1)).map fun s => (false, s)

/-- How many symbols the selectors are good for. -/
def budget (s : SymbolState) : ℕ := bzNGroupsSyms * s.selectors.length + s.groupPos

theorem enterGroup_budget {s s' : SymbolState} (h : s.enterGroup = some s') :
    s'.budget = s.budget ∧ 0 < s'.groupPos := by
  unfold enterGroup at h
  split_ifs at h with hpos
  · cases hselectors : s.selectors with
    | nil =>
      rw [hselectors] at h
      cases h
    | cons selector selectors =>
      rw [hselectors] at h
      obtain rfl := Option.some.inj h
      refine ⟨?_, by dsimp only; decide⟩
      unfold budget bzNGroupsSyms
      rw [hpos, hselectors, List.length_cons]
      ring
  · obtain rfl := Option.some.inj h
    exact ⟨rfl, Nat.pos_of_ne_zero hpos⟩

theorem readSymbol_budget {tables : ℕ → HuffTable} {s s' : SymbolState} {sym : ℕ}
    (h : s.readSymbol tables = some (sym, s')) : s'.budget < s.budget := by
  unfold readSymbol at h
  cases henter : s.enterGroup with
  | none =>
    rw [henter] at h
    cases h
  | some t =>
    rw [henter] at h
    obtain ⟨result, -, heq⟩ := Option.map_eq_some_iff.1 h
    obtain ⟨hbudget, hpos⟩ := enterGroup_budget henter
    obtain ⟨-, rfl⟩ := Prod.mk.inj heq
    unfold budget at *
    dsimp only
    omega

theorem flushRun_budget {maxBlockBytes : ℕ} {s s' : SymbolState}
    (h : s.flushRun maxBlockBytes = some s') : s'.budget = s.budget := by
  unfold flushRun at h
  split_ifs at h
  · obtain rfl := Option.some.inj h
    rfl
  · obtain rfl := Option.some.inj h
    rfl

theorem emitByte_budget {maxBlockBytes mtfIndex : ℕ} {s s' : SymbolState}
    (h : s.emitByte maxBlockBytes mtfIndex = some s') : s'.budget = s.budget := by
  unfold emitByte at h
  cases hvalue : s.mtf[mtfIndex]? with
  | none =>
    rw [hvalue] at h
    cases h
  | some value =>
    rw [hvalue] at h
    dsimp only at h
    split_ifs at h
    obtain rfl := Option.some.inj h
    rfl

theorem step_budget {tables : ℕ → HuffTable} {maxBlockBytes eob : ℕ} {s s' : SymbolState}
    {done : Bool} (h : s.step tables maxBlockBytes eob = some (done, s')) :
    s'.budget < s.budget := by
  unfold step at h
  cases hread : s.readSymbol tables with
  | none =>
    rw [hread] at h
    cases h
  | some result =>
    obtain ⟨sym, t⟩ := result
    have hlt := readSymbol_budget hread
    rw [hread] at h
    dsimp only at h
    by_cases hrun : sym = bzRunA ∨ sym = bzRunB
    · rw [if_pos hrun] at h
      obtain ⟨-, rfl⟩ := Prod.mk.inj (Option.some.inj h)
      exact hlt
    · rw [if_neg hrun] at h
      cases hflush : t.flushRun maxBlockBytes with
      | none =>
        rw [hflush] at h
        cases h
      | some u =>
        have hsame := flushRun_budget hflush
        rw [hflush] at h
        dsimp only at h
        split_ifs at h with heob
        · obtain ⟨-, rfl⟩ := Prod.mk.inj (Option.some.inj h)
          omega
        · obtain ⟨v, hemit, heq⟩ := Option.map_eq_some_iff.1 h
          have hsame' := emitByte_budget hemit
          obtain ⟨-, rfl⟩ := Prod.mk.inj heq
          omega

end SymbolState

/-- The symbol loop of `decode_block`. -/
def symbolLoop (tables : ℕ → HuffTable) (maxBlockBytes eob : ℕ) (s : SymbolState) :
    Option SymbolState :=
  match _h : s.step tables maxBlockBytes eob with
  | none => none
  | some (true, s') => some s'
  | some (false, s') => symbolLoop tables maxBlockBytes eob s'
termination_by s.budget
decreasing_by exact SymbolState.step_budget _h

/-- What has been read of a block once the symbol loop is over. -/
structure EntropyStage where
  origPtr : ℕ
  seqToUnseq : List UInt8
  nGroups : ℕ
  selectorMtf : List ℕ
  final : SymbolState

/-- `decode_block` up to the end of the symbol loop. -/
def decodeEntropy (stack : ℕ → ℕ) (tables : ℕ → HuffTable) (br : BitReader) (maxBlockBytes : ℕ) :
    Option (EntropyStage × (ℕ → HuffTable)) := do
  let randomized := br.brBits 1
  guard (randomized.1 = 0)
  let origPtr := randomized.2.brBits 24
  let groupUsed := origPtr.2.readFlags 16
  let seqToUnseq := readSeqToUnseq groupUsed.1 0 groupUsed.2
  guard (seqToUnseq.1.length ≠ 0)
  let alphaSize := seqToUnseq.1.length + 2
  let nGroups := seqToUnseq.2.brBits 3
  let nSelectors := nGroups.2.brBits 15
  guard (2 ≤ nGroups.1 ∧ nGroups.1 ≤ bzMaxGroups ∧ nSelectors.1 ≠ 0)
  let selectorMtf ← readSelectorMtf nSelectors.1 nSelectors.2
  let selectors := MoveToFront.decode (mtfGroups nGroups.1 stack) selectorMtf.1
  let built ← readTables alphaSize (List.range nGroups.1) tables selectorMtf.2
  let final ← symbolLoop built.1 maxBlockBytes (alphaSize - 1)
    { br := built.2, selectors := selectors, mtf := seqToUnseq.1 }
  some ({
    origPtr := origPtr.1
    seqToUnseq := seqToUnseq.1
    nGroups := nGroups.1
    selectorMtf := selectorMtf.1
    final := final }, built.1)

/-! ## The inverse transform -/

/-- The array `cftab` once it has been summed up. -/
def cftab (block : List UInt8) : ℕ → ℕ
  | 0 => block.countP fun b => b.toNat + 1 = 0
  | i + 1 => cftab block i + block.countP fun b => b.toNat + 1 = i + 1

/-- A round of the loop that fills `tt`; `cftab` and `tt` go with it. -/
def fillStep (block : List UInt8) (s : (ℕ → ℕ) × (ℕ → ℕ)) (i : ℕ) : (ℕ → ℕ) × (ℕ → ℕ) :=
  let ch := (block.getD i 0).toNat
  (setAt s.1 ch (s.1 ch + 1), setAt s.2 (s.1 ch) i)

/-- The array `tt`, over what the scratch memory held before. -/
def ttOf (scratch : ℕ → ℕ) (block : List UInt8) : ℕ → ℕ :=
  ((List.range block.length).foldl (fillStep block) (cftab block, scratch)).2

/-- How far the run-length undo has come. -/
structure Unrle where
  lastByte : UInt8 := 0
  runLength : ℕ := 0
  out : List UInt8 := []

/-- A byte of the walk: the count of a run, or a byte that is copied. -/
def Unrle.byte (capacity : ℕ) (s : Unrle) (value : UInt8) : Option Unrle :=
  if s.runLength = 4 then
    if capacity < s.out.length + value.toNat then none
    else some { s with out := s.out ++ List.replicate value.toNat s.lastByte, runLength := 0 }
  else if capacity ≤ s.out.length then none
  else if value = s.lastByte then
    some { s with out := s.out ++ [value], runLength := s.runLength + 1 }
  else some { lastByte := value, runLength := 1, out := s.out ++ [value] }

/-- The walk over the block; the first argument is how many bytes are still to be produced. -/
def walk (block : List UInt8) (tt : ℕ → ℕ) (capacity : ℕ) : ℕ → ℕ → Unrle → Option Unrle
  | 0, _, s => some s
  | count + 1, tPos, s =>
    match s.byte capacity (block.getD tPos 0) with
    | none => none
    | some s => walk block tt capacity count (tt tPos) s

/-- `decode_block` after the symbol loop: what is written to `final_out`. -/
def inverseTransform (scratch : ℕ → ℕ) (block : List UInt8) (origPtr capacity : ℕ) :
    Option (List UInt8) :=
  let tt := ttOf scratch block
  (walk block tt capacity block.length (tt origPtr) {}).map Unrle.out

/-- `decode_block`: the bytes written, the tables left behind and the reader. -/
def decodeBlock (stack scratch : ℕ → ℕ) (tables : ℕ → HuffTable) (br : BitReader)
    (maxBlockBytes capacity : ℕ) : Option (List UInt8 × (ℕ → HuffTable) × BitReader) := do
  let entropy ← decodeEntropy stack tables br maxBlockBytes
  guard (entropy.1.origPtr < entropy.1.final.block.length)
  let out ← inverseTransform scratch entropy.1.final.block entropy.1.origPtr capacity
  some (out, entropy.2, entropy.1.final.br)

end Bzip2

end DemonOS
