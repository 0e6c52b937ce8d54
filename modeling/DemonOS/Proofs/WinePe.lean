import DemonOS.WinePe
import DemonOS.Proofs.PortKit.Calls

/-!
# What the loader of Windows executables puts into memory

Each section that `wine_pe_load` accepts begins past all that is committed (`loadSection_loads`), so
no section disturbs an earlier one. Its end is compared with the size of the image by a subtraction
that wraps around for a section larger than the image; with none of these, the sections fill their
places inside the image and nothing outside it changes (`winePeLoad_inside_iff`).
-/

namespace DemonOS

def PortFile.ReadsFrom (f : PortFile) (contents : List UInt8) : Prop :=
  ∀ n offset length bytes, f.readAt n offset length = some bytes → bytes <+: contents.drop offset

def WinePeInfo.sectionAt (info : WinePeInfo) (contents : List UInt8) (index : ℕ) : PeSection :=
  peSection ((contents.drop (info.sectionTableOffset + index * sectionHeaderSize)).take
    sectionHeaderSize)

def PeSection.byteAt (p : PeSection) (contents : List UInt8) (k : ℕ) : UInt8 :=
  if p.rawPointer ≠ 0 ∧ k < min p.rawSize p.virtualSize then contents.getD (p.rawPointer + k) 0
  else 0

section Reads

variable {f f' : PortFile} {contents bytes : List UInt8} {offset length n : ℕ}

theorem demonPortRead_readsFrom (hf : f.ReadsFrom contents) (n : ℕ) :
    (f.demonPortRead n).1 <+: contents.drop f.position
      ∧ (f.demonPortRead n).2.ReadsFrom contents := by
  have hread : ∀ k, (f.readAt f.reads f.position k).getD [] <+: contents.drop f.position := by
    intro k
    cases hanswer : f.readAt f.reads f.position k with
    | none => exact List.nil_prefix
    | some bytes => exact hf _ _ _ _ hanswer
  unfold PortFile.demonPortRead
  dsimp only
  split_ifs
  all_goals
    first
    | exact ⟨List.nil_prefix, hf⟩
    | exact ⟨hread _, hf⟩

theorem demonPortSeek_readsFrom (hf : f.ReadsFrom contents) (h : f.demonPortSeek offset = some f') :
    f'.position = offset ∧ f'.ReadsFrom contents := by
  unfold PortFile.demonPortSeek at h
  split_ifs at h
  obtain rfl := Option.some.inj h
  exact ⟨rfl, hf⟩

theorem readExact_ok {ε : Type} {error : ε} (hf : f.ReadsFrom contents)
    (h : readExact error f offset length = .ok (bytes, f')) :
    bytes = (contents.drop offset).take length ∧ f'.ReadsFrom contents := by
  unfold readExact at h
  cases hseek : f.demonPortSeek offset with
  | none =>
    rw [hseek] at h
    cases h
  | some g =>
    rw [hseek] at h
    obtain ⟨hposition, hg⟩ := demonPortSeek_readsFrom hf hseek
    have hread := demonPortRead_readsFrom hg length
    dsimp only at h
    split_ifs at h with hlength
    rw [Except.ok.inj h, hposition] at hread
    rw [Except.ok.inj h] at hlength
    refine ⟨?_, hread.2⟩
    dsimp only at hread hlength
    rw [List.prefix_iff_eq_take.1 hread.1, hlength]

end Reads

def KeepsFile {ε α : Type} (contents : List UInt8) (file : α → PortFile) (x : Except ε α) : Prop :=
  ∀ r, x = .ok r → (file r).ReadsFrom contents

section Validate

variable {ε α β : Type} {contents : List UInt8} {f : PortFile} {file : α → PortFile}
  {file' : β → PortFile}

theorem KeepsFile.bind {x : Except ε α} {g : α → Except ε β} (hx : KeepsFile contents file x)
    (hg : ∀ r, (file r).ReadsFrom contents → KeepsFile contents file' (g r)) :
    KeepsFile contents file' (x >>= g) := by
  intro r h
  cases x with
  | error e => cases h
  | ok a => exact hg a (hx a rfl) r h

theorem KeepsFile.failIf {c : Prop} [Decidable c] {error : ε} {g : Unit → Except ε β}
    (hg : KeepsFile contents file' (g ())) : KeepsFile contents file' (failIf c error >>= g) := by
  intro r h
  unfold DemonOS.failIf at h
  split_ifs at h
  · cases h
  · exact hg r h

theorem keepsFile_readExact {error : ε} (hf : f.ReadsFrom contents) (offset length : ℕ) :
    KeepsFile contents Prod.snd (readExact error f offset length) :=
  fun _ h => (readExact_ok hf h).2

theorem keepsFile_readDirectories (hf : f.ReadsFrom contents) (offset length : ℕ) :
    KeepsFile contents Prod.snd (readDirectories f offset length) := by
  unfold readDirectories
  split_ifs
  · exact keepsFile_readExact hf _ _
  · intro r h
    obtain rfl := Except.ok.inj h
    exact hf

theorem keepsFile_checkSections (offset : ℕ) : ∀ (indices : List ℕ) {f : PortFile},
    f.ReadsFrom contents → KeepsFile contents id (indices.foldlM (checkSection offset) f)
  | [], f, hf => fun r h => by
    obtain rfl := Except.ok.inj h
    exact hf
  | index :: indices, f, hf => by
    rw [List.foldlM_cons]
    have hfirst : KeepsFile contents id (checkSection offset f index) := by
      refine (keepsFile_readExact hf _ _).bind fun r hr => KeepsFile.failIf fun g h => ?_
      obtain rfl := Except.ok.inj h
      exact hr
    exact hfirst.bind fun g hg => keepsFile_checkSections offset indices hg

theorem winePeValidate_keeps (hf : f.ReadsFrom contents) :
    KeepsFile contents Prod.snd (winePeValidate f) := by
  refine KeepsFile.failIf ((keepsFile_readExact hf _ _).bind fun r hf => KeepsFile.failIf ?_)
  refine KeepsFile.failIf ((keepsFile_readExact hf _ _).bind fun r hf => KeepsFile.failIf ?_)
  refine (keepsFile_readExact hf _ _).bind fun r hf => KeepsFile.failIf (KeepsFile.failIf ?_)
  refine (keepsFile_readExact hf _ _).bind fun r hf => KeepsFile.failIf ?_
  refine (keepsFile_readDirectories hf _ _).bind fun r hf => KeepsFile.failIf ?_
  refine (keepsFile_checkSections _ _ hf).bind fun g hf r h => ?_
  obtain rfl := Except.ok.inj h
  exact hf

end Validate

/-! ## One section -/

namespace PeLoading

variable {answers : CommitAnswers} {contents : List UInt8} {info : WinePeInfo} {base k : ℕ}
  {s s' : PeLoading} {p : PeSection}

/-- What the loader leaves of a section that begins here: the raw bytes, and zeros behind them. -/
structure Filled (contents : List UInt8) (start : ℕ) (p : PeSection) (s s' : PeLoading) :
    Prop where
  file : s'.file.ReadsFrom contents
  committed : s'.committed = s.committed
  memory : ∀ a, s'.memory a = if start ≤ a ∧ a < start + p.virtualSize then
    p.byteAt contents (a - start) else s.memory a
  written : ∀ r ∈ s'.written, r ∈ s.written ∨ r.1 = start ∧ r.2 ≤ p.virtualSize

theorem copySize_eq (p : PeSection) : p.copySize = min p.rawSize p.virtualSize := by
  unfold PeSection.copySize
  split_ifs <;> omega

theorem getD_of_prefix {raw : List UInt8} {offset k : ℕ} (h : raw <+: contents.drop offset)
    (hk : k < raw.length) : raw.getD k 0 = contents.getD (offset + k) 0 := by
  obtain ⟨rest, hrest⟩ := h
  have hget : contents[offset + k]? = raw[k]? := by
    rw [← List.getElem?_drop, ← hrest, List.getElem?_append_left hk]
  rw [List.getD_eq_getElem?_getD, List.getD_eq_getElem?_getD, hget]

theorem copyRaw_filled {start : ℕ} (hfile : s.file.ReadsFrom contents)
    (h : (s.write start p.virtualSize (bytesZero s.memory start p.virtualSize)).copyRaw start p
      = .ok s') : Filled contents start p s s' := by
  have hsize := copySize_eq p
  unfold copyRaw at h
  by_cases hraw : p.rawPointer ≠ 0 ∧ p.rawSize ≠ 0
  · rw [if_pos hraw] at h
    dsimp only [write] at h
    cases hseek : s.file.demonPortSeek p.rawPointer with
    | none =>
      rw [hseek] at h
      cases h
    | some g =>
      rw [hseek] at h
      dsimp only at h
      obtain ⟨hposition, hg⟩ := demonPortSeek_readsFrom hfile hseek
      have hread := demonPortRead_readsFrom hg p.copySize
      split_ifs at h with hlength
      rw [hposition] at hread
      have hprefix := hread.1
      obtain rfl := Except.ok.inj h
      refine ⟨hread.2, rfl, fun a => ?_, fun r hr => ?_⟩
      · dsimp only
        unfold writeBytes PeSection.byteAt
        rw [bytesZero_apply, hlength]
        by_cases hin : start ≤ a ∧ a < start + p.virtualSize
        · rw [if_pos hin, if_pos hin]
          by_cases hk : a - start < p.copySize
          · rw [if_pos (by omega), if_pos ⟨hraw.1, by omega⟩]
            exact getD_of_prefix hprefix (by omega)
          · rw [if_neg (by omega), if_neg (by omega)]
        · rw [if_neg hin, if_neg hin, if_neg (by omega)]
      · simp only [List.mem_cons] at hr
        rcases hr with rfl | rfl | hr
        · exact .inr ⟨rfl, by dsimp only; omega⟩
        · exact .inr ⟨rfl, le_rfl⟩
        · exact .inl hr
  · rw [if_neg hraw] at h
    obtain rfl := Except.ok.inj h
    refine ⟨hfile, rfl, fun a => ?_, fun r hr => ?_⟩
    · dsimp only [write]
      rw [bytesZero_apply]
      unfold PeSection.byteAt
      rw [if_neg (by omega : ¬(p.rawPointer ≠ 0 ∧ a - start < min p.rawSize p.virtualSize))]
    · rcases List.mem_cons.1 hr with rfl | hr
      · exact .inr ⟨rfl, le_rfl⟩
      · exact .inl hr

structure Loads (contents : List UInt8) (base : ℕ) (info : WinePeInfo) (p : PeSection)
    (s s' : PeLoading) : Prop where
  past : s.committed ≤ p.virtualAddress
  checked : p.virtualAddress ≤ sizeT (info.sizeOfImage + 2 ^ 64 - p.extent)
  committed : s.committed ≤ s'.committed
    ∧ roundUpPage (p.virtualAddress + p.extent) ≤ s'.committed
  file : s'.file.ReadsFrom contents
  memory : ∀ a, s'.memory a
    = if sizeT (base + p.virtualAddress) ≤ a
        ∧ a < sizeT (base + p.virtualAddress) + p.virtualSize then
      p.byteAt contents (a - sizeT (base + p.virtualAddress)) else s.memory a
  written : ∀ r ∈ s'.written, r ∈ s.written
    ∨ r.1 = sizeT (base + p.virtualAddress) ∧ r.2 ≤ p.virtualSize

theorem commitTo_some {neededEnd : ℕ} {writable : Bool}
    (h : s.commitTo answers neededEnd writable = some s') :
    s'.file = s.file ∧ s'.memory = s.memory ∧ s'.written = s.written
      ∧ s.committed ≤ s'.committed ∧ neededEnd ≤ s'.committed := by
  unfold commitTo at h
  split_ifs at h with hmore hgiven
  · obtain rfl := Option.some.inj h
    exact ⟨rfl, rfl, rfl, hmore.le, le_rfl⟩
  · obtain rfl := Option.some.inj h
    exact ⟨rfl, rfl, rfl, le_rfl, not_lt.1 hmore⟩

theorem loadSection_loads (hfile : s.file.ReadsFrom contents)
    (h : loadSection answers base info s k = .ok s') :
    Loads contents base info (info.sectionAt contents k) s s' := by
  unfold loadSection at h
  cases hread : readExact WinePeLoadResult.readFailed s.file
      (info.sectionTableOffset + k * sectionHeaderSize) sectionHeaderSize with
  | error e =>
    rw [hread] at h
    cases h
  | ok result =>
    obtain ⟨header, file⟩ := result
    obtain ⟨hheader, hkept⟩ := readExact_ok hfile hread
    have hsection : peSection header = info.sectionAt contents k := by
      rw [hheader]
      rfl
    rw [hread] at h
    dsimp only at h
    rw [hsection] at h
    generalize info.sectionAt contents k = p at h
    split_ifs at h with hbad
    obtain ⟨hpast, hchecked⟩ := not_or.1 hbad
    cases hcommit : ({ s with file := file } : PeLoading).commitTo answers
        (roundUpPage (p.virtualAddress + p.extent)) true with
    | none =>
      rw [hcommit] at h
      cases h
    | some mid =>
      rw [hcommit] at h
      obtain ⟨hmidfile, hmidmemory, hmidwritten, hcommitted⟩ := commitTo_some hcommit
      have hfilled := copyRaw_filled (by rw [hmidfile]; exact hkept) h
      refine ⟨not_lt.1 hpast, not_lt.1 hchecked, ?_, hfilled.file, fun a => ?_, fun r hr => ?_⟩
      · rw [hfilled.committed]
        exact hcommitted
      · rw [hfilled.memory, hmidmemory]
      · have hwritten := hfilled.written r hr
        rw [hmidwritten] at hwritten
        exact hwritten

/-! ## The loop over the sections -/

/-- The first sections are in their places, and nothing else of the memory has changed. -/
structure Loaded (contents : List UInt8) (base : ℕ) (info : WinePeInfo) (memory : ℕ → UInt8)
    (k : ℕ) (s : PeLoading) : Prop where
  file : s.file.ReadsFrom contents
  ends : ∀ i < k, (info.sectionAt contents i).virtualAddress + (info.sectionAt contents i).extent
    ≤ min s.committed info.sizeOfImage
  apart : ∀ i j, i < j → j < k →
    (info.sectionAt contents i).virtualAddress + (info.sectionAt contents i).extent
      ≤ (info.sectionAt contents j).virtualAddress
  written : ∀ r ∈ s.written, base ≤ r.1 ∧ r.1 + r.2 ≤ base + info.sizeOfImage
  frame : ∀ a, a < base ∨ base + info.sizeOfImage ≤ a → s.memory a = memory a
  bytes : ∀ i < k, ∀ j < (info.sectionAt contents i).virtualSize,
    s.memory (base + (info.sectionAt contents i).virtualAddress + j)
      = (info.sectionAt contents i).byteAt contents j

theorem le_roundUpPage {n : ℕ} (h : n + 4095 < 2 ^ 64) : n ≤ roundUpPage n := by
  unfold roundUpPage sizeT
  omega

theorem virtualSize_le (p : PeSection) : p.virtualSize ≤ p.extent := by
  unfold PeSection.extent
  split_ifs <;> omega

theorem Loaded.load {memory : ℕ → UInt8} (h : Loaded contents base info memory k s)
    (hbase : base + info.sizeOfImage < 2 ^ 64) (himage : info.sizeOfImage ≤ winePeMaxImageBytes)
    (hfits : (info.sectionAt contents k).extent ≤ info.sizeOfImage)
    (hload : Loads contents base info (info.sectionAt contents k) s s') :
    Loaded contents base info memory (k + 1) s' := by
  have hvirtual := virtualSize_le (info.sectionAt contents k)
  obtain ⟨hpast, hchecked, hcommitted, hfile, hmemory, hwritten⟩ := hload
  unfold winePeMaxImageBytes at himage
  generalize hp : info.sectionAt contents k = p at *
  have hend : p.virtualAddress + p.extent ≤ info.sizeOfImage := by
    unfold sizeT at hchecked
    omega
  have hround := le_roundUpPage (by omega : p.virtualAddress + p.extent + 4095 < 2 ^ 64)
  have hstart : sizeT (base + p.virtualAddress) = base + p.virtualAddress :=
    Nat.mod_eq_of_lt (by omega)
  rw [hstart] at hmemory hwritten
  refine ⟨hfile, fun i hi => ?_, fun i j hij hj => ?_, fun r hr => ?_, fun a ha => ?_,
    fun i hi j hj => ?_⟩
  · rcases Nat.lt_succ_iff_lt_or_eq.1 hi with hi | rfl
    · have hle := h.ends i hi
      omega
    · rw [hp]
      omega
  · rcases Nat.lt_succ_iff_lt_or_eq.1 hj with hj | rfl
    · exact h.apart i j hij hj
    · have hle := h.ends i hij
      rw [hp]
      omega
  · rcases hwritten r hr with hr | ⟨hfirst, hlength⟩
    · exact h.written r hr
    · omega
  · rw [hmemory, if_neg (by omega)]
    exact h.frame a ha
  · rw [hmemory]
    rcases Nat.lt_succ_iff_lt_or_eq.1 hi with hi | rfl
    · have hle := h.ends i hi
      have hsize := virtualSize_le (info.sectionAt contents i)
      rw [if_neg (by omega)]
      exact h.bytes i hi j hj
    · rw [hp] at hj ⊢
      rw [if_pos (by omega), Nat.add_sub_cancel_left]

theorem loadSections_loaded {memory : ℕ → UInt8} (hbase : base + info.sizeOfImage < 2 ^ 64)
    (himage : info.sizeOfImage ≤ winePeMaxImageBytes) :
    ∀ {k : ℕ} {s s' : PeLoading}, (∀ i < k, (info.sectionAt contents i).extent ≤ info.sizeOfImage) →
      Loaded contents base info memory 0 s →
      (List.range k).foldlM (loadSection answers base info) s = .ok s' →
      Loaded contents base info memory k s'
  | 0, s, s', _, hs, h => by
    obtain rfl := Except.ok.inj h
    exact hs
  | k + 1, s, s', hfits, hs, h => by
    rw [List.range_succ, List.foldlM_append] at h
    cases hmid : (List.range k).foldlM (loadSection answers base info) s with
    | error e =>
      rw [hmid] at h
      cases h
    | ok mid =>
      rw [hmid] at h
      have hloaded := loadSections_loaded hbase himage (fun i hi => hfits i (by omega)) hs hmid
      have hlast : [k].foldlM (loadSection answers base info) mid = .ok s' := h
      have hstep : loadSection answers base info mid k = .ok s' := by simpa using hlast
      exact hloaded.load hbase himage (hfits k (Nat.lt_succ_self k))
        (loadSection_loads hloaded.file hstep)

end PeLoading

structure PeImageLoaded (contents : List UInt8) (image : WinePeImage) (memory : ℕ → UInt8)
    (s : PeLoading) : Prop where
  inside : ∀ i < image.info.sectionCount,
    (image.info.sectionAt contents i).virtualAddress + (image.info.sectionAt contents i).extent
      ≤ image.info.sizeOfImage
  apart : ∀ i j, i < j → j < image.info.sectionCount →
    (image.info.sectionAt contents i).virtualAddress + (image.info.sectionAt contents i).extent
      ≤ (image.info.sectionAt contents j).virtualAddress
  written : ∀ r ∈ s.written, image.base ≤ r.1 ∧ r.1 + r.2 ≤ image.base + image.info.sizeOfImage
  frame : ∀ a, a < image.base ∨ image.base + image.info.sizeOfImage ≤ a → s.memory a = memory a
  bytes : ∀ i < image.info.sectionCount, ∀ j < (image.info.sectionAt contents i).virtualSize,
    s.memory (image.base + (image.info.sectionAt contents i).virtualAddress + j)
      = (image.info.sectionAt contents i).byteAt contents j

/-- An image that the loader accepts lies where it should just when none of its sections is larger
than the image. -/
theorem winePeLoad_inside_iff {answers : CommitAnswers} {file : PortFile} {contents : List UInt8}
    {base : ℕ} {memory : ℕ → UInt8} {image : WinePeImage} {s : PeLoading}
    (hfile : file.ReadsFrom contents)
    (hload : winePeLoad answers file base memory = .ok (image, s))
    (hbase : base + image.info.sizeOfImage < 2 ^ 64) :
    PeImageLoaded contents image memory s ↔ ∀ i < image.info.sectionCount,
      (image.info.sectionAt contents i).extent ≤ image.info.sizeOfImage := by
  refine ⟨fun h i hi => (Nat.le_add_left _ _).trans (h.inside i hi), fun hfits => ?_⟩
  unfold winePeLoad at hload
  by_cases hzero : base = 0
  · rw [if_pos hzero] at hload
    cases hload
  rw [if_neg hzero] at hload
  cases hvalid : winePeValidate file with
  | error e =>
    rw [hvalid] at hload
    cases hload
  | ok result =>
    obtain ⟨info, file'⟩ := result
    have hfile' : file'.ReadsFrom contents := winePeValidate_keeps hfile _ hvalid
    rw [hvalid] at hload
    dsimp only at hload
    by_cases hlarge : info.sizeOfImage = 0 ∨ winePeMaxImageBytes < info.sizeOfImage
    · rw [if_pos hlarge] at hload
      cases hload
    rw [if_neg hlarge] at hload
    cases hloop : (List.range info.sectionCount).foldlM (PeLoading.loadSection answers base info)
        { file := file', memory := memory } with
    | error e =>
      rw [hloop] at hload
      cases hload
    | ok mid =>
      rw [hloop] at hload
      dsimp only at hload
      cases hcommit : mid.commitTo answers info.sizeOfImage false with
      | none =>
        rw [hcommit] at hload
        cases hload
      | some last =>
        rw [hcommit] at hload
        obtain ⟨rfl, rfl⟩ := Prod.mk.inj (Except.ok.inj hload)
        obtain ⟨-, hmemory, hwritten, -⟩ := PeLoading.commitTo_some hcommit
        have hstart : PeLoading.Loaded contents base info memory 0
            { file := file', memory := memory } :=
          ⟨hfile', by simp, by simp, by simp, fun _ _ => rfl, by simp⟩
        have hloaded := PeLoading.loadSections_loaded hbase
          (not_lt.1 (not_or.1 hlarge).2) hfits hstart hloop
        refine ⟨fun i hi => ?_, hloaded.apart, ?_, ?_, ?_⟩
        · exact (hloaded.ends i hi).trans (min_le_right _ _)
        · rw [hwritten]
          exact hloaded.written
        · rw [hmemory]
          exact hloaded.frame
        · rw [hmemory]
          exact hloaded.bytes

def oneSection (sizeOfImage virtualSize rawSize rawPointer : UInt8) (raw : List UInt8) :
    List UInt8 :=
  [0x4D, 0x5A] ++ List.replicate 58 0 ++ [64, 0, 0, 0]
    ++ [0x50, 0x45, 0, 0]
    ++ [0x64, 0x86, 1, 0] ++ List.replicate 12 0 ++ [112, 0, 0, 0]
    ++ [0x0B, 0x02] ++ List.replicate 54 0 ++ [sizeOfImage] ++ List.replicate 55 0
    ++ List.replicate 8 0 ++ [virtualSize, 0, 0, 0, 0, 0, 0, 0, rawSize, 0, 0, 0, rawPointer]
    ++ List.replicate 19 0 ++ raw

def portFileOf (contents : List UInt8) : PortFile :=
  { size := contents.length
    readAt := fun _ offset length => some ((contents.drop offset).take length) }

theorem portFileOf_readsFrom (contents : List UInt8) : (portFileOf contents).ReadsFrom contents := by
  intro n offset length bytes h
  obtain rfl := Option.some.inj h
  exact List.take_prefix _ _

theorem winePeLoad_inside_iff_four :
    let contents := oneSection 16 8 4 240 [1, 2, 3, 4]
    ∃ image s, winePeLoad (fun _ _ _ => true) (portFileOf contents) 65536 (fun _ => 7)
        = .ok (image, s)
      ∧ (PeImageLoaded contents image (fun _ => 7) s ↔ ∀ i < image.info.sectionCount,
        (image.info.sectionAt contents i).extent ≤ image.info.sizeOfImage) := by
  intro contents
  have hsize : (winePeLoad (fun _ _ _ => true) (portFileOf contents) 65536 fun _ => 7).toOption.map
      (fun r => r.1.info.sizeOfImage) = some 16 := by decide +kernel
  cases hload : winePeLoad (fun _ _ _ => true) (portFileOf contents) 65536 fun _ => 7 with
  | error e =>
    rw [hload] at hsize
    cases hsize
  | ok r =>
    rw [hload] at hsize
    have hsixteen : r.1.info.sizeOfImage = 16 := Option.some.inj hsize
    exact ⟨r.1, r.2, rfl, winePeLoad_inside_iff (portFileOf_readsFrom contents) hload
      (by rw [hsixteen]; decide)⟩

/-- A section of 64 bytes in an image of 16: the subtraction wraps around, and the zeros go past the
end of the image. -/
theorem large_section_escapes :
    let contents := oneSection 16 64 0 0 []
    ∃ image s, winePeLoad (fun _ _ _ => true) (portFileOf contents) 65536 (fun _ => 7)
        = .ok (image, s)
      ∧ ¬PeImageLoaded contents image (fun _ => 7) s := by
  intro contents
  have hwrites : (winePeLoad (fun _ _ _ => true) (portFileOf contents) 65536 fun _ => 7).toOption.map
      (fun r => (r.1.base, r.1.info.sizeOfImage, r.2.written)) = some (65536, 16, [(65536, 64)]) := by
    decide +kernel
  cases hload : winePeLoad (fun _ _ _ => true) (portFileOf contents) 65536 fun _ => 7 with
  | error e =>
    rw [hload] at hwrites
    cases hwrites
  | ok r =>
    rw [hload] at hwrites
    obtain ⟨hbase, hrest⟩ := Prod.mk.inj (Option.some.inj hwrites)
    obtain ⟨hsize, hwritten⟩ := Prod.mk.inj hrest
    refine ⟨r.1, r.2, rfl, fun h => ?_⟩
    have hout := (h.written (65536, 64) (by rw [hwritten]; simp)).2
    rw [hbase, hsize] at hout
    exact absurd hout (by decide)

end DemonOS
