import DemonOS.QoiDecode
import Mathlib.Data.List.Range

/-!
# What the texture decoder reads and writes

The end of the pixel data is looked at once for each opcode, and the bytes behind the first of an
opcode are read without another look. The decoder stays in its input just where none of the opcodes
that it comes to is cut off (`qoiDecode_inside_iff`); what it writes never depends on that.
-/

namespace DemonOS

/-- How many bytes an opcode has, by its first one. -/
def qoiOpLength (b1 : ℕ) : ℕ :=
  if b1 &&& qoiMask2 = qoiIndex then 1
  else if b1 &&& qoiMask3 = qoiRun8 then 1
  else if b1 &&& qoiMask3 = qoiRun16 then 2
  else if b1 &&& qoiMask2 = qoiDiff8 then 1
  else if b1 &&& qoiMask3 = qoiDiff16 then 2
  else if b1 &&& qoiMask4 = qoiDiff24 then 3
  else if b1 &&& qoiMask4 = qoiColor then
    1 + ((if b1 &&& 8 ≠ 0 then 1 else 0) + (if b1 &&& 4 ≠ 0 then 1 else 0)
      + (if b1 &&& 2 ≠ 0 then 1 else 0) + if b1 &&& 1 ≠ 0 then 1 else 0)
  else 1

/-- How many more pixels an opcode stands for. -/
def qoiOpRun (b1 b2 : ℕ) : ℕ :=
  if b1 &&& qoiMask2 = qoiIndex then 0
  else if b1 &&& qoiMask3 = qoiRun8 then b1 &&& 0x1f
  else if b1 &&& qoiMask3 = qoiRun16 then ((b1 &&& 0x1f) <<< 8 ||| b2) + 32
  else 0

def OpcodesComplete (input : ℕ → UInt8) (length : ℕ) : ℕ → ℕ → Prop
  | 0, _ => True
  | pixels + 1, pos =>
    let b1 := (input (12 + pos)).toNat
    let b2 := (input (13 + pos)).toNat
    pos < length → pos + qoiOpLength b1 ≤ length
      ∧ OpcodesComplete input length (pixels - qoiOpRun b1 b2) (pos + qoiOpLength b1)
termination_by pixels => pixels
decreasing_by omega

namespace QoiState

variable {input : ℕ → UInt8} {length n k b1 : ℕ} {s s' s'' : QoiState}

/-- So many bytes have been read one after the other, and nothing else has been touched. -/
structure Reads (n : ℕ) (s s' : QoiState) : Prop where
  pos : s'.pos = (s.pos + n) % 2 ^ 32
  reads : s'.reads = s.reads ++ (List.range n).map fun i => (s.pos + i) % 2 ^ 32
  writes : s'.writes = s.writes

theorem Reads.trans (h : Reads n s s') (h' : Reads k s' s'') : Reads (n + k) s s'' := by
  obtain ⟨hpos, hreads, hwrites⟩ := h
  obtain ⟨hpos', hreads', hwrites'⟩ := h'
  refine ⟨?_, ?_, hwrites'.trans hwrites⟩
  · rw [hpos', hpos, Nat.mod_add_mod, Nat.add_assoc]
  · rw [hreads', hreads, hpos, List.range_add, List.map_append, List.map_map, List.append_assoc]
    congr 3
    funext i
    simp only [Function.comp_apply]
    rw [Nat.mod_add_mod, Nat.add_assoc]

theorem reads_zero (hpos : s.pos < 2 ^ 32) (hsame : s'.pos = s.pos) (hreads : s'.reads = s.reads)
    (hwrites : s'.writes = s.writes) : Reads 0 s s' :=
  ⟨by rw [hsame, Nat.add_zero, Nat.mod_eq_of_lt hpos], by simp [hreads], hwrites⟩

variable (input) in
theorem readByte_reads (hpos : s.pos < 2 ^ 32) : Reads 1 s (s.readByte input).2 :=
  ⟨rfl, by rw [List.range_one, List.map_singleton, Nat.add_zero, Nat.mod_eq_of_lt hpos]; rfl, rfl⟩

theorem Reads.pos_lt (h : Reads n s s') : s'.pos < 2 ^ 32 := by
  rw [h.pos]
  exact Nat.mod_lt _ (by decide)

variable (input) in
theorem channel_reads (hpos : s.pos < 2 ^ 32) (bit : ℕ) (set : UInt8 → QoiState → QoiState)
    (hset : ∀ v s, (set v s).pos = s.pos ∧ (set v s).reads = s.reads
      ∧ (set v s).writes = s.writes) :
    Reads (if bit ≠ 0 then 1 else 0) s (s.channel input bit set) := by
  unfold channel
  split_ifs
  · have hread := readByte_reads input hpos
    obtain ⟨hsame, hreads, hwrites⟩ := hset (s.readByte input).1 (s.readByte input).2
    exact ⟨hsame.trans hread.pos, hreads.trans hread.reads, hwrites.trans hread.writes⟩
  · exact reads_zero hpos rfl rfl rfl

theorem color_reads (hpos : s.pos < 2 ^ 32) (b1 : ℕ) :
    Reads ((if b1 &&& 8 ≠ 0 then 1 else 0) + (if b1 &&& 4 ≠ 0 then 1 else 0)
      + (if b1 &&& 2 ≠ 0 then 1 else 0) + if b1 &&& 1 ≠ 0 then 1 else 0) s
      (s.color input b1) := by
  have hr := channel_reads input hpos (b1 &&& 8) (fun v s => { s with r := v })
    fun _ _ => ⟨rfl, rfl, rfl⟩
  have hg := channel_reads input hr.pos_lt (b1 &&& 4)
    (fun v s => { s with g := v }) fun _ _ => ⟨rfl, rfl, rfl⟩
  have hb := channel_reads input hg.pos_lt (b1 &&& 2)
    (fun v s => { s with b := v }) fun _ _ => ⟨rfl, rfl, rfl⟩
  have ha := channel_reads input hb.pos_lt (b1 &&& 1)
    (fun v s => { s with a := v }) fun _ _ => ⟨rfl, rfl, rfl⟩
  exact ((hr.trans hg).trans hb).trans ha

theorem diff8_reads (hpos : s.pos < 2 ^ 32) : Reads 0 s (s.diff8 b1) := by
  refine reads_zero hpos ?_ ?_ ?_ <;> rw [diff8]

theorem diff8_run (s : QoiState) (b1 : ℕ) : (s.diff8 b1).run = s.run := by rw [diff8]

theorem run16_reads (hpos : s.pos < 2 ^ 32) : Reads 1 s (s.run16 input b1) := by
  obtain ⟨hpos', hreads, hwrites⟩ := readByte_reads input hpos
  exact ⟨hpos', hreads, hwrites⟩

theorem diff16_reads (hpos : s.pos < 2 ^ 32) : Reads 1 s (s.diff16 input b1) := by
  obtain ⟨hpos', hreads, hwrites⟩ := readByte_reads input hpos
  exact ⟨hpos', hreads, hwrites⟩

theorem diff24_reads (hpos : s.pos < 2 ^ 32) : Reads 2 s (s.diff24 input b1) := by
  have hfirst := readByte_reads input hpos
  obtain ⟨hpos', hreads, hwrites⟩ := hfirst.trans (readByte_reads input hfirst.pos_lt)
  exact ⟨hpos', hreads, hwrites⟩

variable (input b1) in
theorem dispatch_reads (hpos : s.pos < 2 ^ 32) :
    Reads (qoiOpLength b1 - 1) s (s.dispatch input b1) := by
  unfold dispatch qoiOpLength
  by_cases h1 : b1 &&& qoiMask2 = qoiIndex
  · simp only [if_pos h1, Nat.sub_self]
    exact reads_zero hpos rfl rfl rfl
  by_cases h2 : b1 &&& qoiMask3 = qoiRun8
  · simp only [if_neg h1, if_pos h2, Nat.sub_self]
    exact reads_zero hpos rfl rfl rfl
  by_cases h3 : b1 &&& qoiMask3 = qoiRun16
  · simp only [if_neg h1, if_neg h2, if_pos h3, Nat.reduceSub]
    exact run16_reads hpos
  by_cases h4 : b1 &&& qoiMask2 = qoiDiff8
  · simp only [if_neg h1, if_neg h2, if_neg h3, if_pos h4, Nat.sub_self]
    exact diff8_reads hpos
  by_cases h5 : b1 &&& qoiMask3 = qoiDiff16
  · simp only [if_neg h1, if_neg h2, if_neg h3, if_neg h4, if_pos h5, Nat.reduceSub]
    exact diff16_reads hpos
  by_cases h6 : b1 &&& qoiMask4 = qoiDiff24
  · simp only [if_neg h1, if_neg h2, if_neg h3, if_neg h4, if_neg h5, if_pos h6,
      Nat.reduceSub]
    exact diff24_reads hpos
  by_cases h7 : b1 &&& qoiMask4 = qoiColor
  · simp only [if_neg h1, if_neg h2, if_neg h3, if_neg h4, if_neg h5, if_neg h6, if_pos h7,
      Nat.add_sub_cancel_left]
    exact color_reads hpos b1
  · simp only [if_neg h1, if_neg h2, if_neg h3, if_neg h4, if_neg h5, if_neg h6, if_neg h7,
      Nat.sub_self]
    exact reads_zero hpos rfl rfl rfl

theorem one_le_qoiOpLength (b1 : ℕ) : 1 ≤ qoiOpLength b1 := by
  unfold qoiOpLength
  split_ifs <;> omega

theorem diff16_run (s : QoiState) (b1 : ℕ) : (s.diff16 input b1).run = s.run := by
  rw [diff16, readByte]

theorem diff24_run (s : QoiState) (b1 : ℕ) : (s.diff24 input b1).run = s.run := by
  rw [diff24, readByte, readByte]

theorem color_run (s : QoiState) (b1 : ℕ) : (s.color input b1).run = s.run := by
  unfold color channel readByte
  dsimp only
  split_ifs <;> rfl

variable (input b1) in
theorem dispatch_run (h : s.run = 0) :
    (s.dispatch input b1).run = qoiOpRun b1 (input (12 + s.pos)).toNat := by
  unfold dispatch qoiOpRun
  split_ifs
  · exact h
  · rfl
  · rfl
  · exact (diff8_run s b1).trans h
  · exact (diff16_run s b1).trans h
  · exact (diff24_run s b1).trans h
  · exact (color_run s b1).trans h
  · exact h

variable (input) in
theorem opcode_reads (hpos : s.pos < 2 ^ 32) :
    Reads (qoiOpLength (input (12 + s.pos)).toNat) s (s.opcode input) := by
  have hfirst := readByte_reads input hpos
  have hrest := dispatch_reads input (input (12 + s.pos)).toNat hfirst.pos_lt
  have hlength := one_le_qoiOpLength (input (12 + s.pos)).toNat
  obtain ⟨hpos', hreads, hwrites⟩ := hfirst.trans hrest
  rw [Nat.add_sub_cancel' hlength] at hpos' hreads
  exact ⟨hpos', hreads, hwrites⟩

variable (input) in
theorem opcode_run (h : s.run = 0) (hpos : s.pos + 1 < 2 ^ 32) : (s.opcode input).run
    = qoiOpRun (input (12 + s.pos)).toNat (input (13 + s.pos)).toNat := by
  have hrun := dispatch_run input (input (12 + s.pos)).toNat
    (s := (s.readByte input).2) h
  have hnext : (s.readByte input).2.pos = s.pos + 1 := Nat.mod_eq_of_lt hpos
  have hplace : 12 + (s.pos + 1) = 13 + s.pos := by omega
  rw [hnext, hplace] at hrun
  exact hrun

/-! ## The loop -/

@[simp] theorem writePixel_pos (rawPos : ℕ) : (s.writePixel rawPos).pos = s.pos := rfl

@[simp] theorem writePixel_run (rawPos : ℕ) : (s.writePixel rawPos).run = s.run := rfl

@[simp] theorem writePixel_reads (rawPos : ℕ) : (s.writePixel rawPos).reads = s.reads := rfl

theorem writePixel_writes (rawPos : ℕ) :
    (s.writePixel rawPos).writes = s.writes ++ List.range' rawPos 4 := by
  simp [writePixel, write, List.range'_succ]

theorem pixel_cases (input : ℕ → UInt8) (length : ℕ) (s : QoiState) (rawPos : ℕ) :
    (0 < s.run ∧ s.pixel input length rawPos
        = ({ s with run := s.run - 1 } : QoiState).writePixel rawPos)
      ∨ (s.run = 0 ∧ s.pos < length
        ∧ s.pixel input length rawPos = (s.opcode input).writePixel rawPos)
      ∨ (s.run = 0 ∧ length ≤ s.pos ∧ s.pixel input length rawPos = s.writePixel rawPos) := by
  unfold pixel
  by_cases hrun : 0 < s.run
  · rw [if_pos hrun]
    exact .inl ⟨hrun, rfl⟩
  by_cases hmore : s.pos < length
  · rw [if_neg hrun, if_pos hmore]
    exact .inr (.inl ⟨by omega, hmore, rfl⟩)
  · rw [if_neg hrun, if_neg hmore]
    exact .inr (.inr ⟨by omega, by omega, rfl⟩)

variable (input) in
theorem pixel_keeps (length : ℕ) (hpos : s.pos < 2 ^ 32) (rawPos : ℕ) :
    (s.pixel input length rawPos).pos < 2 ^ 32
      ∧ (∀ i ∈ s.reads, i ∈ (s.pixel input length rawPos).reads)
      ∧ (s.pixel input length rawPos).writes = s.writes ++ List.range' rawPos 4 := by
  rcases pixel_cases input length s rawPos with ⟨-, heq⟩ | ⟨-, -, heq⟩ | ⟨-, -, heq⟩
  · rw [heq, writePixel_writes]
    exact ⟨hpos, fun i hi => hi, rfl⟩
  · have hreads := opcode_reads input hpos
    rw [heq, writePixel_writes, hreads.writes]
    refine ⟨hreads.pos_lt, fun i hi => ?_, rfl⟩
    rw [writePixel_reads, hreads.reads]
    exact List.mem_append_left _ hi
  · rw [heq, writePixel_writes]
    exact ⟨hpos, fun i hi => hi, rfl⟩

variable (input) in
theorem pixels_keeps (length : ℕ) : ∀ (count rawPos : ℕ) {s : QoiState}, s.pos < 2 ^ 32 →
    (∀ i ∈ s.reads, i ∈ (pixels input length count rawPos s).reads)
      ∧ (pixels input length count rawPos s).writes = s.writes ++ List.range' rawPos (4 * count)
  | 0, _, s, _ => ⟨fun _ hi => hi, by simp [pixels]⟩
  | count + 1, rawPos, s, hpos => by
    obtain ⟨hpos', hreads, hwrites⟩ := pixel_keeps input length hpos rawPos
    obtain ⟨hrest, hwritten⟩ := pixels_keeps length count (rawPos + 4) hpos'
    have hsum : 4 * (count + 1) = 4 + 4 * count := by omega
    refine ⟨fun i hi => hrest i (hreads i hi), ?_⟩
    rw [pixels, hwritten, hwrites, hsum, List.append_assoc, List.range'_append_1]

variable (input) in
theorem pixels_inside_iff (hlength : length < 2 ^ 32) : ∀ (count rawPos : ℕ) {s : QoiState},
    s.pos ≤ length → (∀ i ∈ s.reads, i < length) →
      ((∀ i ∈ (pixels input length count rawPos s).reads, i < length)
        ↔ OpcodesComplete input length (count - s.run) s.pos)
  | 0, _, s, _, hreads => by
    rw [Nat.zero_sub, OpcodesComplete]
    exact iff_of_true hreads trivial
  | count + 1, rawPos, s, hpos, hreads => by
    rw [pixels]
    rcases pixel_cases input length s rawPos with ⟨hrun, heq⟩ | ⟨hrun, hmore, heq⟩
      | ⟨hrun, hend, heq⟩
    · have ih := pixels_inside_iff hlength count (rawPos + 4)
        (s := ({ s with run := s.run - 1 } : QoiState).writePixel rawPos) hpos hreads
      have hsame : count + 1 - s.run = count - (s.run - 1) := by omega
      rw [heq, ih, hsame, writePixel_run, writePixel_pos]
    · have hop := opcode_reads input (s := s) (by omega)
      have hoprun := opcode_run input hrun (by omega)
      rw [hrun, Nat.sub_zero, OpcodesComplete, heq]
      generalize qoiOpLength (input (12 + s.pos)).toNat = k at hop ⊢
      by_cases hfits : s.pos + k ≤ length
      · have hpos' : (s.opcode input).pos = s.pos + k := by
          rw [hop.pos, Nat.mod_eq_of_lt (by omega)]
        have ih := pixels_inside_iff hlength count (rawPos + 4)
          (s := (s.opcode input).writePixel rawPos) (by rw [writePixel_pos, hpos']; exact hfits) ?_
        · rw [ih, writePixel_run, writePixel_pos, hoprun, hpos']
          exact ⟨fun h _ => ⟨hfits, h⟩, fun h => (h hmore).2⟩
        · intro i hi
          rw [writePixel_reads, hop.reads, List.mem_append, List.mem_map] at hi
          rcases hi with hi | ⟨j, hj, rfl⟩
          · exact hreads i hi
          · rw [List.mem_range] at hj
            rw [Nat.mod_eq_of_lt (by omega)]
            omega
      · -- the byte at the end of the data is one of those read
        refine iff_of_false (fun h => ?_) fun h => hfits (h hmore).1
        have hkept := (pixels_keeps input length count (rawPos + 4)
          (s := (s.opcode input).writePixel rawPos) hop.pos_lt).1 length
        refine lt_irrefl length (h length (hkept ?_))
        rw [writePixel_reads, hop.reads, List.mem_append, List.mem_map]
        refine .inr ⟨length - s.pos, List.mem_range.2 (by omega), ?_⟩
        rw [Nat.add_sub_cancel' hpos, Nat.mod_eq_of_lt hlength]
    · have ih := pixels_inside_iff hlength count (rawPos + 4)
        (s := s.writePixel rawPos) hpos hreads
      have hnone : ∀ pixels, OpcodesComplete input length pixels s.pos := by
        rintro (_ | pixels)
        · rw [OpcodesComplete]
          trivial
        · rw [OpcodesComplete]
          intro hmore
          omega
      rw [heq, ih, writePixel_pos]
      exact iff_of_true (hnone _) (hnone _)

end QoiState

/-- What is promised of a texture that has been decoded: no read outside the pixel data, and the
bytes of the pixels written in the output, in order. -/
structure QoiInside (inputSize outputCapacity : ℕ) (header : QoiHeader) (s : QoiState) : Prop where
  reads : ∀ i ∈ s.reads, i < header.length ∧ 12 + i < inputSize
  writes : ∀ i ∈ s.writes, i < outputCapacity
  written : s.writes = List.range (header.width * header.height * 4)

theorem qoiHeader_some {input : ℕ → UInt8} {inputSize outputCapacity : ℕ} {header : QoiHeader}
    (h : qoiHeader input inputSize outputCapacity = some header) :
    header.length < 2 ^ 32 ∧ 12 + header.length ≤ inputSize
      ∧ header.width * header.height * 4 ≤ outputCapacity := by
  unfold qoiHeader at h
  dsimp only at h
  split_ifs at h with hmagic hempty hshort hlarge
  obtain rfl := Option.some.inj h
  exact ⟨LittleEndian.load_lt input 4 8, by dsimp only; omega, by dsimp only; omega⟩

/-- The decoder stays in its input just where no opcode that it comes to is cut off. -/
theorem qoiDecode_inside_iff {input output : ℕ → UInt8} {inputSize outputCapacity : ℕ}
    {header : QoiHeader} {s : QoiState}
    (h : qoiDecode input inputSize output outputCapacity = some (header, s)) :
    QoiInside inputSize outputCapacity header s
      ↔ OpcodesComplete input header.length (header.width * header.height) 0 := by
  obtain ⟨header', hheader, heq⟩ := Option.map_eq_some_iff.1 h
  obtain ⟨rfl, rfl⟩ := Prod.mk.inj heq
  obtain ⟨hlength, hinput, houtput⟩ := qoiHeader_some hheader
  have hinside := QoiState.pixels_inside_iff input hlength
    (header'.width * header'.height) 0 (s := { output := output })
    (Nat.zero_le _) (by simp)
  have hwritten := (QoiState.pixels_keeps input header'.length
    (header'.width * header'.height) 0 (s := { output := output })
    (by dsimp only; decide)).2
  rw [List.nil_append, ← List.range_eq_range', Nat.mul_comm 4] at hwritten
  rw [Nat.sub_zero] at hinside
  rw [← hinside]
  refine ⟨fun hsound i hi => (hsound.reads i hi).1, fun hreads => ⟨fun i hi => ?_, ?_, hwritten⟩⟩
  · have hlt := hreads i hi
    exact ⟨hlt, by omega⟩
  · rw [hwritten]
    intro i hi
    exact (List.mem_range.1 hi).trans_le houtput

def onePixel (b1 : UInt8) : ℕ → UInt8 := fun i =>
  [0x66, 0x69, 0x6f, 0x71, 1, 0, 1, 0, 1, 0, 0, 0, b1].getD i 0

theorem onePixel_header (b1 : UInt8) :
    qoiHeader (onePixel b1) 13 4 = some { width := 1, height := 1, length := 1 } := rfl

theorem qoiDecode_inside_iff_run8 : ∃ header s,
    qoiDecode (onePixel 0x41) 13 (fun _ => 0) 4 = some (header, s)
      ∧ (QoiInside 13 4 header s ↔ OpcodesComplete (onePixel 0x41) 1 1 0) := by
  have hdecode : qoiDecode (onePixel 0x41) 13 (fun _ => 0) 4 = some _ :=
    Option.map_eq_some_iff.2 ⟨_, onePixel_header 0x41, rfl⟩
  exact ⟨_, _, hdecode, qoiDecode_inside_iff hdecode⟩

/-- A long run of which only the first byte is there: the second one is read behind the input. -/
theorem cut_run_read : ∃ header s,
    qoiDecode (onePixel 0x60) 13 (fun _ => 0) 4 = some (header, s)
      ∧ ¬QoiInside 13 4 header s := by
  have hdecode : qoiDecode (onePixel 0x60) 13 (fun _ => 0) 4 = some _ :=
    Option.map_eq_some_iff.2 ⟨_, onePixel_header 0x60, rfl⟩
  refine ⟨_, _, hdecode, fun h => ?_⟩
  have hread := h.reads 1 (by decide +kernel)
  exact absurd hread.1 (by decide)

end DemonOS
