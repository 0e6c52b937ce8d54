import DemonOS.Elf64
import Mathlib.Data.List.Induction

/-!
# Loading a program

The two loaders do the same, and what they leave in memory is settled by the program headers.
-/

/-!
## The two ELF loaders

A program is loaded into one range of memory or into a list of page frames. Over frames that are
there, aligned and distinct the two do the same (`loaders_agree`): the bytes of the range are those
of the frames in order, so that a byte of a segment ends in the frame of its page just where it
ends in the range, whatever page boundaries the segment crosses.
-/

namespace DemonOS

namespace Elf64

def place (frames : ℕ → ℕ) (offset : ℕ) : ℕ := frames (offset / pageSize) + offset % pageSize

structure Frames (frames : ℕ → ℕ) (pageCount : ℕ) : Prop where
  nonzero : ∀ page, page < pageCount → frames page ≠ 0
  aligned : ∀ page, page < pageCount → frames page % pageSize = 0
  distinct : ∀ i j, i < pageCount → j < pageCount → frames i = frames j → i = j

def Mirrors (frames : ℕ → ℕ) (memory capacity : ℕ) (m m' : ℕ → UInt8) : Prop :=
  ∀ offset, offset < capacity → m (memory + offset) = m' (place frames offset)

section

variable {image : List UInt8} {frames : ℕ → ℕ} {memory pageCount virtualBase : ℕ}
  {m m' : ℕ → UInt8}

theorem page_lt {offset : ℕ} (h : offset < pageCount * pageSize) :
    offset / pageSize < pageCount := by
  unfold pageSize at *
  omega

theorem Frames.place_injective (hframes : Frames frames pageCount) {i j : ℕ}
    (hi : i < pageCount * pageSize) (hj : j < pageCount * pageSize)
    (h : place frames i = place frames j) : i = j := by
  have hpage := hframes.distinct _ _ (page_lt hi) (page_lt hj)
  have haligned := hframes.aligned _ (page_lt hi)
  have haligned' := hframes.aligned _ (page_lt hj)
  unfold place at h
  unfold pageSize at *
  omega

theorem layoutLoop_spans : ∀ (ps : List ElfProgramHeader) {base end_ base' end_' : ℕ} {e e' : Bool},
    layoutLoop image ps base end_ e = some (base', end_', e') →
    base' ≤ base ∧ end_ ≤ end_' ∧ e' = (e || ps.any (holdsEntry image)) ∧
      ∀ p ∈ ps, p.fileSize ≤ p.memorySize ∧ rangeFits p.offset p.fileSize image.length = true
        ∧ base' ≤ p.virtualAddress ∧ p.virtualAddress + p.memorySize ≤ end_'
  | [], _, _, _, _, _, _, h => by
    obtain ⟨rfl, rfl, rfl⟩ : _ ∧ _ ∧ _ := by simpa [layoutLoop] using h
    exact ⟨le_rfl, le_rfl, by simp, by simp⟩
  | p :: ps, _, _, _, _, _, _, h => by
    rw [layoutLoop] at h
    split_ifs at h with hbad
    simp only [Bool.or_eq_true, decide_eq_true_eq, Bool.not_eq_true', not_or, not_lt,
      Bool.not_eq_false] at hbad
    obtain ⟨⟨hsize, hfits⟩, -⟩ := hbad
    obtain ⟨hbase, hend, hentry, hall⟩ := layoutLoop_spans ps h
    refine ⟨by omega, by omega, by rw [hentry, List.any_cons, Bool.or_assoc], ?_⟩
    rintro q (- | ⟨-, hq⟩)
    · exact ⟨hsize, hfits, by omega, by omega⟩
    · exact hall q hq

theorem clearPages_eq : ∀ (pages : List ℕ) (m : ℕ → UInt8),
    (∀ page ∈ pages, frames page ≠ 0 ∧ frames page % pageSize = 0) →
    clearPages frames pages m = (true, fun a =>
      if ∃ page ∈ pages, frames page ≤ a ∧ a < frames page + pageSize then 0 else m a)
  | [], m, _ => by simp [clearPages]
  | page :: pages, m, h => by
    have hpage := h page (by simp)
    rw [clearPages, if_neg (by omega), clearPages_eq pages _ fun p hp => h p (by simp [hp])]
    refine congrArg _ (funext fun a => ?_)
    simp only [List.mem_cons, exists_eq_or_imp, Bytes.clear]
    rw [if_congr or_comm rfl rfl, ite_or]

theorem Mirrors.clear (hframes : Frames frames pageCount) (m m' : ℕ → UInt8) :
    ∃ cleared, clearPages frames (List.range pageCount) m' = (true, cleared)
      ∧ Mirrors frames memory (pageCount * pageSize)
        (Bytes.clear m memory (pageCount * pageSize)) cleared := by
  refine ⟨_, clearPages_eq _ _ fun page hpage => ?_, fun offset hoffset => ?_⟩
  · have hlt := List.mem_range.1 hpage
    exact ⟨hframes.nonzero page hlt, hframes.aligned page hlt⟩
  · have hmem : ∃ page ∈ List.range pageCount, frames page ≤ place frames offset
        ∧ place frames offset < frames page + pageSize :=
      ⟨offset / pageSize, List.mem_range.2 (page_lt hoffset), Nat.le_add_right _ _,
        Nat.add_lt_add_left (Nat.mod_lt _ (by decide)) _⟩
    rw [Bytes.clear, if_pos (by omega), if_pos hmem]

theorem copyBytes_apply (hframes : Frames frames pageCount) {destination : ℕ} (bytes : ℕ → UInt8)
    (m : ℕ → UInt8) {offset : ℕ} (hoffset : offset < pageCount * pageSize) :
    ∀ n, destination + n ≤ pageCount * pageSize →
    (List.range n).foldl (fun m byte =>
        Function.update m (place frames (destination + byte)) (bytes byte)) m (place frames offset)
      = if destination ≤ offset ∧ offset < destination + n then bytes (offset - destination)
        else m (place frames offset)
  | 0, _ => (if_neg (by omega)).symm
  | n + 1, hn => by
    rw [List.range_succ, List.foldl_append, List.foldl_cons, List.foldl_nil]
    by_cases hlast : offset = destination + n
    · subst hlast
      rw [Function.update_self, if_pos (by omega), Nat.add_sub_cancel_left]
    · have hne : place frames offset ≠ place frames (destination + n) := fun h =>
        hlast (hframes.place_injective hoffset (by omega) h)
      rw [Function.update_of_ne hne, copyBytes_apply hframes bytes m hoffset n (by omega)]
      exact if_congr (by omega) rfl rfl

theorem loadLoop_mirrors (hframes : Frames frames pageCount) :
    ∀ (ps : List ElfProgramHeader) (loaded e : Bool) (m m' : ℕ → UInt8),
    (∀ p ∈ ps, p.fileSize ≤ p.memorySize ∧ rangeFits p.offset p.fileSize image.length = true
      ∧ virtualBase ≤ p.virtualAddress
      ∧ p.virtualAddress + p.memorySize ≤ virtualBase + pageCount * pageSize) →
    Mirrors frames memory (pageCount * pageSize) m m' →
    ∃ copied, loadLoop image virtualBase memory (pageCount * pageSize) ps loaded e m
        = (some (loaded || !ps.isEmpty, e || ps.any (holdsEntry image)), copied)
      ∧ Mirrors frames memory (pageCount * pageSize) copied
        (ps.foldl (fun m p => copyToPages image virtualBase frames p m) m')
  | [], loaded, e, m, m', _, hm => ⟨m, by simp [loadLoop], hm⟩
  | p :: ps, loaded, e, m, m', hfit, hm => by
    obtain ⟨hsize, hfits, hlow, hhigh⟩ := hfit p (by simp)
    have hrange : rangeFits (p.virtualAddress - virtualBase) p.memorySize (pageCount * pageSize)
        = true := by
      simp only [rangeFits, Bool.and_eq_true, decide_eq_true_eq]
      omega
    have hstep : Mirrors frames memory (pageCount * pageSize)
        (fun a => if memory + (p.virtualAddress - virtualBase) ≤ a
            ∧ a < memory + (p.virtualAddress - virtualBase) + p.fileSize
          then image.getD (p.offset + (a - (memory + (p.virtualAddress - virtualBase)))) 0 else m a)
        (copyToPages image virtualBase frames p m') := by
      intro offset hoffset
      have hcopy : copyToPages image virtualBase frames p m' (place frames offset)
          = if p.virtualAddress - virtualBase ≤ offset
                ∧ offset < p.virtualAddress - virtualBase + p.fileSize
            then image.getD (p.offset + (offset - (p.virtualAddress - virtualBase))) 0
            else m' (place frames offset) :=
        copyBytes_apply hframes (fun byte => image.getD (p.offset + byte) 0) m' hoffset p.fileSize
          (by omega)
      rw [hcopy]
      rw [← hm offset hoffset]
      refine if_congr (by omega) ?_ rfl
      rw [show memory + offset - (memory + (p.virtualAddress - virtualBase))
        = offset - (p.virtualAddress - virtualBase) by omega]
    obtain ⟨copied, hloop, hmirrors⟩ := loadLoop_mirrors hframes ps true (e || holdsEntry image p)
      _ _ (fun q hq => hfit q (by simp [hq])) hstep
    refine ⟨copied, ?_, hmirrors⟩
    rw [loadLoop, if_neg (by simp [hsize, hfits, hlow]), if_neg (by simp [hrange]), hloop]
    simp [Bool.or_assoc]

theorem layout_spans {layout : ElfLayout} (h : elf64ExecutableLayout image = some layout) :
    layout.entryPoint = entryPoint image ∧ (loadSegments image).any (holdsEntry image) = true
      ∧ ∀ p ∈ loadSegments image, p.fileSize ≤ p.memorySize
        ∧ rangeFits p.offset p.fileSize image.length = true ∧ layout.virtualBase ≤ p.virtualAddress
        ∧ p.virtualAddress + p.memorySize ≤ layout.virtualEnd := by
  unfold elf64ExecutableLayout at h
  split_ifs at h with hvalid
  rcases hloop : layoutLoop image (loadSegments image) (2 ^ 64 - 1) 0 false with
    _ | ⟨base, end_, executableEntry⟩
  · rw [hloop] at h
    cases h
  · rw [hloop] at h
    dsimp only at h
    split_ifs at h with hbad
    obtain rfl := Option.some.inj h
    obtain ⟨-, -, hentry, hall⟩ := layoutLoop_spans _ hloop
    rw [not_or, not_or, Bool.not_eq_false] at hbad
    exact ⟨rfl, hentry.symm.trans hbad.2.2, hall⟩

/-- The two loaders take the same images and give the same entry point and the same bytes. -/
theorem loaders_agree (image : List UInt8) (virtualBase memory pageCount : ℕ) (frames : ℕ → ℕ)
    (m m' : ℕ → UInt8) (hcapacity : virtualBase + pageCount * pageSize ≤ 2 ^ 64)
    (hframes : Frames frames pageCount) :
    let range := elf64LoadExecutable m image virtualBase memory (pageCount * pageSize)
    let pages := elf64LoadExecutablePages m' image virtualBase frames pageCount
    range.1 = pages.1 ∧ (range.1 = none → range.2 = m ∧ pages.2 = m')
      ∧ (range.1.isSome → Mirrors frames memory (pageCount * pageSize) range.2 pages.2) := by
  rcases hlayout : elf64ExecutableLayout image with _ | layout
  · simp [elf64LoadExecutable, elf64LoadExecutablePages, hlayout]
  obtain ⟨hentry, hany, hall⟩ := layout_spans hlayout
  obtain ⟨p, hp, hholds⟩ := List.any_eq_true.1 hany
  simp only [holdsEntry, Bool.and_eq_true, decide_eq_true_eq] at hholds
  obtain ⟨-, -, hlow, hhigh⟩ := hall p hp
  unfold elf64LoadExecutable elf64LoadExecutablePages
  rw [hlayout]
  dsimp only
  by_cases hfit : virtualBase ≤ layout.virtualBase
      ∧ layout.virtualEnd ≤ virtualBase + pageCount * pageSize
      ∧ virtualBase + pageCount * pageSize < 2 ^ 64
  · have hsegments : ∀ q ∈ loadSegments image, q.fileSize ≤ q.memorySize
        ∧ rangeFits q.offset q.fileSize image.length = true ∧ virtualBase ≤ q.virtualAddress
        ∧ q.virtualAddress + q.memorySize ≤ virtualBase + pageCount * pageSize := fun q hq => by
      obtain ⟨hsize, hfits, hbase, hend⟩ := hall q hq
      exact ⟨hsize, hfits, by omega, by omega⟩
    obtain ⟨cleared, hclear, hmirrors⟩ :
        ∃ cleared, clearPages frames (List.range pageCount) m' = (true, cleared)
          ∧ Mirrors frames memory (pageCount * pageSize)
            (Bytes.clear m memory (pageCount * pageSize)) cleared := Mirrors.clear hframes m m'
    obtain ⟨copied, hloop, hcopied⟩ := loadLoop_mirrors hframes (loadSegments image) false false _ _
      hsegments hmirrors
    have hsome : (loadSegments image).isEmpty = false := by
      rw [List.isEmpty_eq_false_iff]
      exact List.ne_nil_of_mem hp
    have hcount : pageCount ≠ 0 := by
      rintro rfl
      omega
    have hpages : pageCount ≤ (2 ^ 64 - 1) / pageSize := by
      rw [Nat.le_div_iff_mul_le (by decide)]
      omega
    rw [Nat.mod_eq_of_lt hfit.2.2, if_neg (by omega), hloop, if_neg (by omega), if_neg (by omega),
      hclear]
    dsimp only
    rw [hany, hsome, if_neg (by simp; omega), hentry]
    exact ⟨rfl, by simp, fun _ => hcopied⟩
  · -- a range that ends at the end of the address space is refused by both
    rw [if_pos (by omega)]
    split_ifs with h h'
    · simp
    · simp
    · rw [not_or, not_or, not_lt, Nat.le_div_iff_mul_le (by decide)] at h
      omega

def twoPages : List UInt8 :=
  [0x7F, 0x45, 0x4C, 0x46, 2, 1, 1, 0, 0, 0, 0, 0, 0, 0, 0, 0, 2, 0, 62, 0, 1, 0, 0, 0,
    0xFF, 0x1F, 0, 0, 0, 0, 0, 0, 64, 0, 0, 0, 0, 0, 0, 0, 0, 0, 0, 0, 0, 0, 0, 0, 0, 0, 0, 0,
    64, 0, 56, 0, 1, 0, 0, 0, 0, 0, 0, 0,
    1, 0, 0, 0, 5, 0, 0, 0, 120, 0, 0, 0, 0, 0, 0, 0, 0xFF, 0x1F, 0, 0, 0, 0, 0, 0,
    0, 0, 0, 0, 0, 0, 0, 0, 2, 0, 0, 0, 0, 0, 0, 0, 5, 0, 0, 0, 0, 0, 0, 0, 0, 0, 0, 0, 0, 0, 0, 0,
    0x90, 0xC3]

/-- Two frames, the higher one first. -/
theorem loaders_agree_twoPages :
    let range := elf64LoadExecutable (fun _ => 1) twoPages 0x1000 0x8000 (2 * pageSize)
    let pages := elf64LoadExecutablePages (fun _ => 2) twoPages 0x1000
      (fun page => 0x50000 - page * pageSize) 2
    (range.1 = some 0x1FFF ∧ pages.2 0x50FFF = 0x90 ∧ pages.2 0x4F000 = 0xC3)
      ∧ range.1 = pages.1 ∧ (range.1 = none → range.2 = (fun _ => 1) ∧ pages.2 = fun _ => 2)
      ∧ (range.1.isSome → Mirrors (fun page => 0x50000 - page * pageSize) 0x8000 (2 * pageSize)
        range.2 pages.2) := by
  refine ⟨by decide +kernel, loaders_agree twoPages 0x1000 0x8000 2 _ _ _ (by decide) ?_⟩
  refine ⟨fun page h => ?_, fun page h => ?_, fun i j hi hj h => ?_⟩ <;> unfold pageSize at * <;> omega

end

end Elf64

/-!
## What a loaded program is

The layout is settled before the target is cleared, and a layout that lies in the target is one
that every segment of the copying loop fits (`copySegments_eq`). So a load that fails has written
nothing, and one that succeeds leaves at each address the byte of the last segment whose file range
covers it, or zero (`load_spec`). No byte behind the image is read: the loader with a partial image,
which has no result on such a read, always has the loader's own (`fetchExecutable_eq`).
-/

namespace Elf64

/-! ### The last segment wins -/

def fileCovers (address : ℕ) (p : ElfProgramHeader) : Bool :=
  p.virtualAddress ≤ address && address < p.virtualAddress + p.fileSize

def lastCovering (segments : List ElfProgramHeader) (address : ℕ) : Option ElfProgramHeader :=
  segments.reverse.find? (fileCovers address)

def copyToRange (image : List UInt8) (virtualBase memory : ℕ) (p : ElfProgramHeader)
    (m : ℕ → UInt8) : ℕ → UInt8 := fun a =>
  let destination := memory + (p.virtualAddress - virtualBase)
  if destination ≤ a ∧ a < destination + p.fileSize then
    image.getD (p.offset + (a - destination)) 0
  else m a

structure Fits (image : List UInt8) (virtualBase memorySize : ℕ) (p : ElfProgramHeader) :
    Prop where
  size : p.fileSize ≤ p.memorySize
  bytes : p.offset + p.fileSize ≤ image.length
  low : virtualBase ≤ p.virtualAddress
  high : p.virtualAddress + p.memorySize ≤ virtualBase + memorySize

section

variable {image : List UInt8} {virtualBase memory memorySize : ℕ} {m : ℕ → UInt8}

theorem rangeFits_iff {offset length total : ℕ} :
    rangeFits offset length total = true ↔ offset + length ≤ total := by
  simp only [rangeFits, Bool.and_eq_true, decide_eq_true_eq]
  omega

theorem copySegments_eq : ∀ (ps : List ElfProgramHeader) (loaded e : Bool) (m : ℕ → UInt8),
    (∀ p ∈ ps, Fits image virtualBase memorySize p) →
      loadLoop image virtualBase memory memorySize ps loaded e m
        = (some (loaded || !ps.isEmpty, e || ps.any (holdsEntry image)),
          ps.foldl (fun m p => copyToRange image virtualBase memory p m) m)
  | [], loaded, e, m, _ => by simp [loadLoop]
  | p :: ps, loaded, e, m, h => by
    obtain ⟨hsize, hbytes, hlow, hhigh⟩ := h p (List.mem_cons_self ..)
    have hfile : rangeFits p.offset p.fileSize image.length = true := rangeFits_iff.2 hbytes
    have hrange : rangeFits (p.virtualAddress - virtualBase) p.memorySize memorySize = true :=
      rangeFits_iff.2 (by omega)
    have hrest := copySegments_eq ps true (e || holdsEntry image p)
      (copyToRange image virtualBase memory p m) fun q hq => h q (List.mem_cons_of_mem p hq)
    rw [loadLoop, if_neg (by simp [hsize, hfile, hlow]), if_neg (by simp [hrange])]
    refine hrest.trans ?_
    simp [Bool.or_assoc]

theorem copied_last {o : ℕ} (ho : o < memorySize) :
    ∀ (ps : List ElfProgramHeader), (∀ p ∈ ps, Fits image virtualBase memorySize p) →
      ps.foldl (fun m p => copyToRange image virtualBase memory p m)
          (Bytes.clear m memory memorySize) (memory + o)
        = ((lastCovering ps (virtualBase + o)).map fun p =>
            image.getD (p.offset + (virtualBase + o - p.virtualAddress)) 0).getD 0 := by
  intro ps
  induction ps using List.reverseRecOn with
  | nil =>
    intro _
    rw [List.foldl_nil, Bytes.clear, if_pos (by omega)]
    rfl
  | append_singleton ps p ih =>
    intro h
    obtain ⟨-, -, hlow, -⟩ := h p (by simp)
    rw [List.foldl_append, List.foldl_cons, List.foldl_nil, copyToRange, lastCovering,
      List.reverse_append, List.reverse_singleton, List.singleton_append, List.find?_cons]
    by_cases hcovers : fileCovers (virtualBase + o) p = true
    · have hcovers' := hcovers
      simp only [fileCovers, Bool.and_eq_true, decide_eq_true_eq] at hcovers'
      rw [hcovers]
      rw [if_pos (by omega), Option.map_some, Option.getD_some]
      congr 2
      omega
    · have hcovers' := hcovers
      simp only [fileCovers, Bool.and_eq_true, decide_eq_true_eq] at hcovers'
      rw [Bool.not_eq_true] at hcovers
      rw [hcovers]
      rw [if_neg (by omega)]
      exact ih fun q hq => h q (by simp [hq])

theorem copied_outside {a : ℕ} (ha : a < memory ∨ memory + memorySize ≤ a) :
    ∀ (ps : List ElfProgramHeader) (m : ℕ → UInt8), (∀ p ∈ ps, Fits image virtualBase memorySize p) →
      ps.foldl (fun m p => copyToRange image virtualBase memory p m) m a = m a
  | [], m, _ => rfl
  | p :: ps, m, h => by
    obtain ⟨hsize, -, hlow, hhigh⟩ := h p (List.mem_cons_self ..)
    rw [List.foldl_cons, copied_outside ha ps _ fun q hq => h q (List.mem_cons_of_mem p hq),
      copyToRange]
    exact if_neg (by omega)

theorem load_cases (m : ℕ → UInt8) (image : List UInt8) {virtualBase memorySize : ℕ} (memory : ℕ)
    (hrange : virtualBase + memorySize < 2 ^ 64) :
    elf64LoadExecutable m image virtualBase memory memorySize = (none, m)
      ∨ (∀ p ∈ loadSegments image, Fits image virtualBase memorySize p)
        ∧ (loadSegments image).any (holdsEntry image) = true
        ∧ elf64LoadExecutable m image virtualBase memory memorySize
          = (some (entryPoint image),
            (loadSegments image).foldl (fun m p => copyToRange image virtualBase memory p m)
              (Bytes.clear m memory memorySize)) := by
  rcases hlayout : elf64ExecutableLayout image with _ | layout
  · exact .inl (by simp [elf64LoadExecutable, hlayout])
  obtain ⟨-, hany, hall⟩ := layout_spans hlayout
  obtain ⟨p, hp, hholds⟩ := List.any_eq_true.1 hany
  simp only [holdsEntry, Bool.and_eq_true, decide_eq_true_eq] at hholds
  obtain ⟨-, -, hlow, hhigh⟩ := hall p hp
  rw [elf64LoadExecutable, hlayout, Nat.mod_eq_of_lt hrange]
  dsimp only
  split_ifs with houtside
  · exact .inl rfl
  have hfits : ∀ q ∈ loadSegments image, Fits image virtualBase memorySize q := fun q hq => by
    obtain ⟨hsize, hbytes, hbase, hend⟩ := hall q hq
    exact ⟨hsize, rangeFits_iff.1 hbytes, by omega, by omega⟩
  refine .inr ⟨hfits, hany, ?_⟩
  have hsome : (loadSegments image).isEmpty = false := by
    rw [List.isEmpty_eq_false_iff]
    exact List.ne_nil_of_mem hp
  rw [copySegments_eq _ _ _ _ hfits]
  dsimp only
  rw [hany, hsome, if_neg (by simp; omega)]

end

/-! ### The bytes that are read -/

def fetchField (image : ℕ → Option UInt8) (offset n : ℕ) : Option ℕ :=
  ((List.range n).mapM fun i =>
    (image (offset + i)).map fun byte => byte.toNat * 2 ^ (8 * i)).map List.sum

/-- The checks on the file header. Every field is read, whichever check fails first. -/
def fetchHeader (image : ℕ → Option UInt8) (size : ℕ) : Option Bool :=
  if size < headerSize then some false
  else do
    let ident ← (List.range 7).mapM image
    let type ← fetchField image 16 2
    let machine ← fetchField image 18 2
    let version ← fetchField image 20 4
    let programOffset ← fetchField image 32 8
    let ownSize ← fetchField image 52 2
    let entrySize ← fetchField image 54 2
    let count ← fetchField image 56 2
    some (ident == [0x7F, 0x45, 0x4C, 0x46, 2, 1, 1] && type == 2 && machine == 62 && version == 1
      && ownSize == headerSize && entrySize == programHeaderSize && count != 0
      && rangeFits programOffset (count * programHeaderSize) size)

def fetchProgramHeader (image : ℕ → Option UInt8) (programOffset index : ℕ) :
    Option ElfProgramHeader := do
  let at_ := programOffset + index * programHeaderSize
  let type ← fetchField image at_ 4
  let flags ← fetchField image (at_ + 4) 4
  let offset ← fetchField image (at_ + 8) 8
  let virtualAddress ← fetchField image (at_ + 16) 8
  let fileSize ← fetchField image (at_ + 32) 8
  let memorySize ← fetchField image (at_ + 40) 8
  some { type, flags, offset, virtualAddress, fileSize, memorySize }

def fetchSegments (image : ℕ → Option UInt8) : Option (List ElfProgramHeader) := do
  let programOffset ← fetchField image 32 8
  let count ← fetchField image 56 2
  let headers ← (List.range count).mapM (fetchProgramHeader image programOffset)
  some (headers.filter (·.type == ptLoad))

def holdsAddress (entry : ℕ) (p : ElfProgramHeader) : Bool :=
  p.flags % 2 == 1 && p.virtualAddress ≤ entry && entry < p.virtualAddress + p.memorySize

def layoutSpan (size entry : ℕ) :
    List ElfProgramHeader → ℕ → ℕ → Bool → Option (ℕ × ℕ × Bool)
  | [], base, end_, executableEntry => some (base, end_, executableEntry)
  | p :: ps, base, end_, executableEntry =>
    if p.memorySize < p.fileSize || !rangeFits p.offset p.fileSize size
        || 2 ^ 64 - 1 - p.memorySize < p.virtualAddress then none
    else layoutSpan size entry ps (min base p.virtualAddress)
      (max end_ (p.virtualAddress + p.memorySize)) (executableEntry || holdsAddress entry p)

def fetchLoop (image : ℕ → Option UInt8) (size entry virtualBase memory memorySize : ℕ) :
    List ElfProgramHeader → Bool → Bool → (ℕ → UInt8) →
      Option (Option (Bool × Bool) × (ℕ → UInt8))
  | [], loaded, executableEntry, m => some (some (loaded, executableEntry), m)
  | p :: ps, _, executableEntry, m =>
    if p.memorySize < p.fileSize || !rangeFits p.offset p.fileSize size
        || p.virtualAddress < virtualBase then some (none, m)
    else if !rangeFits (p.virtualAddress - virtualBase) p.memorySize memorySize then some (none, m)
    else
      let destination := memory + (p.virtualAddress - virtualBase)
      ((List.range p.fileSize).mapM fun byte => image (p.offset + byte)).bind fun bytes =>
        fetchLoop image size entry virtualBase memory memorySize ps true
          (executableEntry || holdsAddress entry p)
          fun a => if destination ≤ a ∧ a < destination + p.fileSize
            then bytes.getD (a - destination) 0 else m a

def fetchExecutable (m : ℕ → UInt8) (image : ℕ → Option UInt8)
    (size virtualBase memory memorySize : ℕ) : Option (Option ℕ × (ℕ → UInt8)) := do
  let valid ← fetchHeader image size
  if valid = false then some (none, m)
  else
    let entry ← fetchField image 24 8
    let segments ← fetchSegments image
    match layoutSpan size entry segments (2 ^ 64 - 1) 0 false with
    | none => some (none, m)
    | some (base, end_, executableEntry) =>
      if base = 2 ^ 64 - 1 ∨ end_ ≤ base ∨ executableEntry = false then some (none, m)
      else if base < virtualBase ∨ (virtualBase + memorySize) % 2 ^ 64 < end_ then some (none, m)
      else
        match ← fetchLoop image size entry virtualBase memory memorySize segments false false
            (Bytes.clear m memory memorySize) with
        | (none, m) => some (none, m)
        | (some (loaded, executableEntry), m) =>
          if loaded = false ∨ executableEntry = false ∨ entry < virtualBase
              ∨ (virtualBase + memorySize) % 2 ^ 64 ≤ entry then some (none, m)
          else some (some entry, m)

section

variable {image : List UInt8}

theorem mapM_eq_some {α β : Type} {f : α → Option β} {g : α → β} :
    ∀ {l : List α}, (∀ a ∈ l, f a = some (g a)) → l.mapM f = some (l.map g)
  | [], _ => rfl
  | a :: l, h => by
    rw [List.mapM_cons, h a (List.mem_cons_self ..),
      mapM_eq_some fun b hb => h b (List.mem_cons_of_mem a hb)]
    rfl

theorem getElem?_image {i : ℕ} (h : i < image.length) : image[i]? = some (image.getD i 0) := by
  rw [List.getD_eq_getElem?_getD, List.getElem?_eq_getElem h, Option.getD_some]

theorem fetchField_eq {offset n : ℕ} (h : offset + n ≤ image.length) :
    fetchField (image[·]?) offset n = some (elfField image offset n) := by
  rw [fetchField, mapM_eq_some (g := fun i => (image.getD (offset + i) 0).toNat * 2 ^ (8 * i))]
  · rfl
  · intro i hi
    rw [getElem?_image (by have := List.mem_range.1 hi; omega), Option.map_some]

theorem fetchHeader_eq : fetchHeader (image[·]?) image.length = some (validHeader image) := by
  rw [fetchHeader, validHeader]
  split_ifs with hsize
  · simp [not_le.2 hsize]
  · rw [not_lt, headerSize] at hsize
    have hident : (List.range 7).mapM (image[·]?) = some (image.take 7) := by
      rw [mapM_eq_some (g := fun i => image.getD i 0)]
      · refine congrArg some (List.ext_getElem (by simp; omega) fun i hi hi' => ?_)
        simp only [List.length_map, List.length_range] at hi
        rw [List.getElem_map, List.getElem_range, List.getElem_take, List.getD_eq_getElem?_getD,
          List.getElem?_eq_getElem (by omega), Option.getD_some]
      · intro i hi
        exact getElem?_image (by have := List.mem_range.1 hi; omega)
    simp only [hident, fetchField_eq (show 16 + 2 ≤ image.length by omega),
      fetchField_eq (show 18 + 2 ≤ image.length by omega),
      fetchField_eq (show 20 + 4 ≤ image.length by omega),
      fetchField_eq (show 32 + 8 ≤ image.length by omega),
      fetchField_eq (show 52 + 2 ≤ image.length by omega),
      fetchField_eq (show 54 + 2 ≤ image.length by omega),
      fetchField_eq (show 56 + 2 ≤ image.length by omega), Option.bind_eq_bind, Option.bind_some]
    simp [headerSize, hsize, programCount]

theorem validHeader_bounds (h : validHeader image = true) :
    headerSize ≤ image.length
      ∧ elfField image 32 8 + programCount image * programHeaderSize ≤ image.length := by
  simp only [validHeader, Bool.and_eq_true, decide_eq_true_eq] at h
  exact ⟨h.1.1.1.1.1.1.1.1, rangeFits_iff.1 h.2⟩

theorem fetchProgramHeader_eq (h : validHeader image = true) {index : ℕ}
    (hindex : index < programCount image) :
    fetchProgramHeader (image[·]?) (elfField image 32 8) index
      = some (programHeader image index) := by
  obtain ⟨-, htable⟩ := validHeader_bounds h
  have hend : elfField image 32 8 + index * programHeaderSize + 56 ≤ image.length := by
    have hnext : (index + 1) * programHeaderSize ≤ programCount image * programHeaderSize :=
      Nat.mul_le_mul_right _ hindex
    simp only [programHeaderSize] at hnext htable ⊢
    omega
  rw [fetchProgramHeader, programHeader]
  generalize elfField image 32 8 + index * programHeaderSize = at_ at hend ⊢
  simp only [fetchField_eq (show at_ + 4 ≤ image.length by omega),
    fetchField_eq (show at_ + 4 + 4 ≤ image.length by omega),
    fetchField_eq (show at_ + 8 + 8 ≤ image.length by omega),
    fetchField_eq (show at_ + 16 + 8 ≤ image.length by omega),
    fetchField_eq (show at_ + 32 + 8 ≤ image.length by omega),
    fetchField_eq (show at_ + 40 + 8 ≤ image.length by omega), Option.bind_eq_bind,
    Option.bind_some]

theorem fetchSegments_eq (h : validHeader image = true) :
    fetchSegments (image[·]?) = some (loadSegments image) := by
  have hsize := (validHeader_bounds h).1
  simp only [headerSize] at hsize
  have hheaders : (List.range (programCount image)).mapM
      (fetchProgramHeader (image[·]?) (elfField image 32 8))
        = some ((List.range (programCount image)).map (programHeader image)) :=
    mapM_eq_some fun index hindex => fetchProgramHeader_eq h (List.mem_range.1 hindex)
  rw [programCount] at hheaders
  simp only [fetchSegments, fetchField_eq (show 32 + 8 ≤ image.length by omega),
    fetchField_eq (show 56 + 2 ≤ image.length by omega), hheaders, Option.bind_eq_bind,
    Option.bind_some]
  rfl

theorem layoutSpan_eq : ∀ (ps : List ElfProgramHeader) (base end_ : ℕ) (e : Bool),
    layoutSpan image.length (entryPoint image) ps base end_ e = layoutLoop image ps base end_ e
  | [], _, _, _ => rfl
  | p :: ps, base, end_, e => by
    rw [layoutSpan, layoutLoop, layoutSpan_eq ps]
    rfl

theorem fetchLoop_eq {virtualBase memory memorySize : ℕ} :
    ∀ (ps : List ElfProgramHeader) (loaded e : Bool) (m : ℕ → UInt8),
      fetchLoop (image[·]?) image.length (entryPoint image) virtualBase memory memorySize ps loaded
          e m
        = some (loadLoop image virtualBase memory memorySize ps loaded e m)
  | [], _, _, _ => rfl
  | p :: ps, loaded, e, m => by
    rw [fetchLoop, loadLoop]
    split_ifs with hbad hrange
    · rfl
    · rfl
    simp only [Bool.or_eq_true, decide_eq_true_eq, Bool.not_eq_true', not_or, not_lt,
      Bool.not_eq_false] at hbad
    have hfile := rangeFits_iff.1 hbad.1.2
    have hbytes : (List.range p.fileSize).mapM (fun byte => image[p.offset + byte]?)
        = some ((List.range p.fileSize).map fun byte => image.getD (p.offset + byte) 0) :=
      mapM_eq_some fun byte hbyte =>
        getElem?_image (by have := List.mem_range.1 hbyte; omega)
    dsimp only
    rw [hbytes, Option.bind_some, fetchLoop_eq ps]
    refine congrArg (fun m => some (loadLoop image virtualBase memory memorySize ps true _ m))
      (funext fun a => ite_congr rfl (fun ha => ?_) fun _ => rfl)
    rw [List.getD_eq_getElem?_getD, List.getElem?_map, List.getElem?_range (by omega),
      Option.map_some, Option.getD_some]

/-- The loader reads no byte that the image does not have. -/
theorem fetchExecutable_eq (m : ℕ → UInt8) (image : List UInt8)
    (virtualBase memory memorySize : ℕ) :
    fetchExecutable m (image[·]?) image.length virtualBase memory memorySize
      = some (elf64LoadExecutable m image virtualBase memory memorySize) := by
  rw [fetchExecutable, elf64LoadExecutable, elf64ExecutableLayout, fetchHeader_eq]
  rcases hvalid : validHeader image with _ | _
  · rfl
  have hsize := (validHeader_bounds hvalid).1
  simp only [headerSize] at hsize
  simp only [Option.bind_eq_bind, Option.bind_some, Bool.true_eq_false, if_false, Bool.not_true,
    Bool.false_eq_true, fetchField_eq (show 24 + 8 ≤ image.length by omega),
    fetchSegments_eq hvalid]
  rw [show elfField image 24 8 = entryPoint image from rfl, layoutSpan_eq]
  rcases layoutLoop image (loadSegments image) (2 ^ 64 - 1) 0 false with
    _ | ⟨base, end_, executableEntry⟩
  · rfl
  dsimp only
  split_ifs with hempty hfit
  · rfl
  · exact congrArg some (if_pos hfit).symm
  · dsimp only
    rw [if_neg hfit, fetchLoop_eq, Option.bind_some]
    rcases loadLoop image virtualBase memory memorySize (loadSegments image) false false
      (Bytes.clear m memory memorySize) with ⟨_ | ⟨loaded, executableEntry⟩, copied⟩
    · rfl
    · dsimp only
      split_ifs <;> rfl

/-- A load that succeeds leaves every segment in the target, at each address of it the byte of the
last segment whose bytes in the file cover it or else zero, nothing else changed, and an entry point
inside an executable segment; one that fails leaves everything as it was; and neither reads a byte
behind the image. -/
theorem load_spec (m : ℕ → UInt8) (image : List UInt8) (virtualBase memory memorySize : ℕ)
    (hrange : virtualBase + memorySize < 2 ^ 64) :
    fetchExecutable m (image[·]?) image.length virtualBase memory memorySize
        = some (elf64LoadExecutable m image virtualBase memory memorySize)
      ∧ let result := elf64LoadExecutable m image virtualBase memory memorySize
        (∀ entry, result.1 = some entry →
          (∀ p ∈ loadSegments image, virtualBase ≤ p.virtualAddress
              ∧ p.virtualAddress + p.memorySize ≤ virtualBase + memorySize)
            ∧ (∀ o, o < memorySize →
              (∀ p, lastCovering (loadSegments image) (virtualBase + o) = some p →
                  image[p.offset + (virtualBase + o - p.virtualAddress)]?
                    = some (result.2 (memory + o)))
                ∧ (lastCovering (loadSegments image) (virtualBase + o) = none →
                  result.2 (memory + o) = 0))
            ∧ (∀ a, a < memory ∨ memory + memorySize ≤ a → result.2 a = m a)
            ∧ entry = entryPoint image
            ∧ ∃ p ∈ loadSegments image, p.flags % 2 = 1 ∧ p.virtualAddress ≤ entry
              ∧ entry < p.virtualAddress + p.memorySize)
          ∧ (result.1 = none → result.2 = m) := by
  refine ⟨fetchExecutable_eq m image _ _ _, ?_⟩
  intro result
  refine ⟨fun entry hentry => ?_, fun hnone => ?_⟩
  · rcases load_cases m image memory hrange with hfail | ⟨hfits, hany, hload⟩
    · rw [show result = _ from hfail] at hentry
      cases hentry
    obtain ⟨p, hp, hholds⟩ := List.any_eq_true.1 hany
    rw [show result = _ from hload] at hentry ⊢
    obtain rfl := Option.some.inj hentry
    simp only [holdsEntry, Bool.and_eq_true, decide_eq_true_eq, beq_iff_eq] at hholds
    refine ⟨fun q hq => ⟨(hfits q hq).low, (hfits q hq).high⟩, fun o ho => ⟨fun q hq => ?_,
      fun hnone => ?_⟩, fun a ha => ?_, rfl, p, hp, hholds.1.1, hholds.1.2, hholds.2⟩
    · have hmem : q ∈ loadSegments image := List.mem_reverse.1 (List.mem_of_find?_eq_some hq)
      have hcovers := List.find?_some hq
      simp only [fileCovers, Bool.and_eq_true, decide_eq_true_eq] at hcovers
      have hbytes := (hfits q hmem).bytes
      dsimp only
      rw [getElem?_image (by omega), copied_last ho _ hfits, hq]
      rfl
    · dsimp only
      rw [copied_last ho _ hfits, hnone]
      rfl
    · dsimp only
      rw [copied_outside ha _ _ hfits, Bytes.clear, if_neg (by omega)]
  · rcases load_cases m image memory hrange with hfail | ⟨-, -, hload⟩
    · exact congrArg Prod.snd hfail
    · rw [show result = _ from hload] at hnone
      cases hnone

theorem load_spec_twoPages :
    (elf64LoadExecutable (fun _ => 1) twoPages 0x1000 0x8000 0x2000).1 = some 0x1FFF
      ∧ (elf64LoadExecutable (fun _ => 1) twoPages 0x1000 0x8000 0x2000).2 0x8FFF = 0x90
      ∧ fetchExecutable (fun _ => 1) (twoPages[·]?) twoPages.length 0x1000 0x8000 0x2000
        = some (elf64LoadExecutable (fun _ => 1) twoPages 0x1000 0x8000 0x2000) :=
  ⟨by decide +kernel, by decide +kernel,
    (load_spec (fun _ => 1) twoPages 0x1000 0x8000 0x2000 (by decide)).1⟩

end

end Elf64

end DemonOS
