import DemonOS.PeReloc
import DemonOS.Lib.FieldSums

/-!
# What base relocations do to an image

The directory is read from the memory that is being patched. Where no patch changes a part of the
directory that is still to be read, a run does just what the directory says as it was at the call
(`applyBlocks_follows`). Nothing keeps the blocks inside the directory or the pointers inside the
image, and an entry is rejected when others have been applied already; the conditions under which
none of this shows are exact (`winePeApplyRelocations_sound_iff`).
-/

namespace DemonOS

open LittleEndian (load addAll)

/-- A field of a header or an entry of the directory, with the pointer that it names. -/
structure RelocPart where
  address : ℕ
  length : ℕ
  target : Option ℕ := none

def relocTargets (parts : List RelocPart) : List ℕ := parts.filterMap RelocPart.target

namespace WinePeImage

/-- The entries of a block up to the first that is not known, and whether all are known. -/
def entryParts (image : WinePeImage) (memory : ℕ → UInt8) (blockHeader blockVirtualAddress : ℕ) :
    List ℕ → List RelocPart × Bool
  | [] => ([], true)
  | index :: indices =>
    let entry := load memory (relocEntry blockHeader index) 2
    let rest := image.entryParts memory blockHeader blockVirtualAddress indices
    if entry / 2 ^ 12 = imageRelBasedAbsolute then
      (⟨relocEntry blockHeader index, 2, none⟩ :: rest.1, rest.2)
    else if entry / 2 ^ 12 ≠ imageRelBasedDir64 then
      ([⟨relocEntry blockHeader index, 2, none⟩], false)
    else
      (⟨relocEntry blockHeader index, 2,
        some (image.relocTarget blockVirtualAddress (entry % 2 ^ 12))⟩ :: rest.1, rest.2)

def directoryParts (image : WinePeImage) (memory : ℕ → UInt8) (consumed : ℕ) :
    List RelocPart × Bool :=
  if consumed < image.info.relocDirectorySize then
    let header : List RelocPart :=
      [⟨image.blockHeader consumed, 4, none⟩, ⟨image.blockHeader consumed + 4, 4, none⟩]
    let blockSize := load memory (image.blockHeader consumed + 4) 4
    if blockSize < blockHeaderSize then (header, false)
    else
      let entries := image.entryParts memory (image.blockHeader consumed)
        (load memory (image.blockHeader consumed) 4)
        (List.range ((blockSize - blockHeaderSize) / 2))
      if entries.2 then
        let rest := image.directoryParts memory (consumed + blockSize)
        (header ++ entries.1 ++ rest.1, rest.2)
      else (header ++ entries.1, false)
  else ([], true)
termination_by image.info.relocDirectorySize - consumed
decreasing_by
  have hsize : 0 < blockSize := lt_of_lt_of_le (by decide) (not_lt.1 ‹_› : blockHeaderSize ≤ _)
  exact Nat.sub_lt_sub_left ‹consumed < _› (Nat.lt_add_of_pos_right hsize)

end WinePeImage

/-! ## Following the directory -/

namespace PeRelocating

def play (delta : ℕ) (s : PeRelocating) (p : RelocPart) : PeRelocating :=
  p.target.elim (s.read p.address p.length).2 ((s.read p.address p.length).2.patch delta)

/-- Whatever has been read is what this memory holds. -/
def Faithful (memory : ℕ → UInt8) (s : PeRelocating) : Prop :=
  ∀ r ∈ s.readings, r.value = load memory r.address r.length

def Undisturbed (memory : ℕ → UInt8) (delta : ℕ) : PeRelocating → List RelocPart → Prop
  | _, [] => True
  | s, p :: parts => load s.memory p.address p.length = load memory p.address p.length
      ∧ Undisturbed memory delta (s.play delta p) parts

/-- A run does what these parts of the directory ask for, as long as they stay what they are. -/
structure Follows (memory : ℕ → UInt8) (delta : ℕ) (s : PeRelocating) (run : Bool × PeRelocating)
    (parts : List RelocPart × Bool) : Prop where
  kept : ∀ r ∈ s.readings, r ∈ run.2.readings
  plays : Undisturbed memory delta s parts.1 → run = (parts.2, parts.1.foldl (play delta) s)
  undisturbed : Faithful memory run.2 → Undisturbed memory delta s parts.1

variable {memory : ℕ → UInt8} {delta : ℕ} {s : PeRelocating} {p : RelocPart}
  {parts more : List RelocPart} {run : Bool × PeRelocating}

@[simp] theorem read_fst (address length : ℕ) :
    (s.read address length).1 = load s.memory address length := rfl

@[simp] theorem read_memory (address length : ℕ) :
    (s.read address length).2.memory = s.memory := rfl

@[simp] theorem read_targets (address length : ℕ) :
    (s.read address length).2.targets = s.targets := rfl

@[simp] theorem read_readings (address length : ℕ) : (s.read address length).2.readings
    = ⟨address, length, load s.memory address length⟩ :: s.readings := rfl

@[simp] theorem patch_readings (target : ℕ) :
    (s.patch delta target).readings = s.readings := rfl

@[simp] theorem patch_targets (target : ℕ) :
    (s.patch delta target).targets = target :: s.targets := rfl

@[simp] theorem patch_memory (target : ℕ) :
    (s.patch delta target).memory = LittleEndian.add s.memory 8 delta target :=
  LittleEndian.store_mod s.memory target 8 _

@[simp] theorem play_memory :
    (s.play delta p).memory = addAll s.memory 8 delta p.target.toList := by
  unfold play
  cases p.target <;> simp

@[simp] theorem play_targets :
    (s.play delta p).targets = p.target.toList ++ s.targets := by
  unfold play
  cases p.target <;> simp

@[simp] theorem play_readings : (s.play delta p).readings
    = ⟨p.address, p.length, load s.memory p.address p.length⟩ :: s.readings := by
  unfold play
  cases p.target <;> simp

theorem relocTargets_cons : relocTargets (p :: parts) = p.target.toList ++ relocTargets parts := by
  unfold relocTargets
  rw [List.filterMap_cons]
  cases p.target <;> rfl

theorem foldl_play_memory : ∀ {parts : List RelocPart} {s : PeRelocating},
    (parts.foldl (play delta) s).memory = addAll s.memory 8 delta (relocTargets parts)
  | [], _ => rfl
  | p :: parts, s => by
    rw [List.foldl_cons, foldl_play_memory, play_memory, relocTargets_cons,
      LittleEndian.addAll_append]

theorem foldl_play_targets : ∀ {parts : List RelocPart} {s : PeRelocating},
    (parts.foldl (play delta) s).targets = (relocTargets parts).reverse ++ s.targets
  | [], _ => rfl
  | p :: parts, s => by
    rw [List.foldl_cons, foldl_play_targets, play_targets, relocTargets_cons, List.reverse_append,
      List.append_assoc]
    cases p.target <;> simp

theorem undisturbed_append : ∀ {parts : List RelocPart} {s : PeRelocating},
    Undisturbed memory delta s (parts ++ more)
      ↔ Undisturbed memory delta s parts
        ∧ Undisturbed memory delta (parts.foldl (play delta) s) more
  | [], _ => by simp [Undisturbed]
  | p :: parts, s => by
    simp only [List.cons_append, Undisturbed, List.foldl_cons, undisturbed_append, and_assoc]

theorem foldl_play_readings : ∀ {parts : List RelocPart} {s : PeRelocating},
    Undisturbed memory delta s parts → ∀ r, r ∈ (parts.foldl (play delta) s).readings
      ↔ r ∈ s.readings
        ∨ ∃ p ∈ parts, r = ⟨p.address, p.length, load memory p.address p.length⟩
  | [], _, _, r => by simp
  | p :: parts, s, h, r => by
    rw [List.foldl_cons, foldl_play_readings h.2 r, play_readings, h.1]
    simp only [List.mem_cons, exists_eq_or_imp]
    tauto

theorem undisturbed_iff : Undisturbed memory delta s parts
    ↔ ∀ before p after, parts = before ++ p :: after →
      load (addAll s.memory 8 delta (relocTargets before)) p.address p.length
        = load memory p.address p.length := by
  constructor
  · rintro h before p after rfl
    rw [← foldl_play_memory]
    exact (undisturbed_append.1 h).2.1
  · intro h
    induction parts generalizing s with
    | nil => trivial
    | cons p parts ih =>
      refine ⟨h [] p parts rfl, ih fun before q after hsplit => ?_⟩
      rw [play_memory, ← LittleEndian.addAll_append, ← relocTargets_cons]
      exact h (p :: before) q after (by rw [hsplit, List.cons_append])

theorem Follows.stop (accepted : Bool) :
    Follows memory delta s (accepted, s) ([], accepted) :=
  ⟨fun _ hr => hr, fun _ => rfl, fun _ => trivial⟩

theorem Follows.part (rest : List RelocPart × Bool)
    (hkept : ∀ r ∈ (s.read p.address p.length).2.readings, r ∈ run.2.readings)
    (h : load s.memory p.address p.length = load memory p.address p.length →
      Follows memory delta (s.play delta p) run rest) :
    Follows memory delta s run (p :: rest.1, rest.2) := by
  refine ⟨fun r hr => hkept r (List.mem_cons_of_mem _ hr), fun hsame => ?_, fun hfaithful => ?_⟩
  · exact (h hsame.1).plays hsame.2
  · have hsame := hfaithful _ (hkept _ List.mem_cons_self)
    exact ⟨hsame, (h hsame).undisturbed hfaithful⟩

theorem Follows.bind {first rest : List RelocPart × Bool} {next : PeRelocating → Bool × PeRelocating}
    (h : Follows memory delta s run first)
    (hkept : ∀ s : PeRelocating, ∀ r ∈ s.readings, r ∈ (next s).2.readings)
    (hnext : Follows memory delta (first.1.foldl (play delta) s)
      (next (first.1.foldl (play delta) s)) rest) :
    Follows memory delta s (if run.1 then next run.2 else (false, run.2))
      (if first.2 then (first.1 ++ rest.1, rest.2) else (first.1, false)) := by
  have hruns : ∀ r ∈ run.2.readings,
      r ∈ (if run.1 then next run.2 else (false, run.2)).2.readings := by
    intro r hr
    split_ifs
    · exact hkept _ r hr
    · exact hr
  have hplays := h.plays
  have hundisturbed := h.undisturbed
  refine ⟨fun r hr => hruns r (h.kept r hr), fun hsame => ?_, fun hfaithful => ?_⟩
  · by_cases haccepted : first.2
    · rw [if_pos haccepted] at hsame ⊢
      obtain ⟨hfirst, hrest⟩ := undisturbed_append.1 hsame
      rw [hplays hfirst, if_pos haccepted, hnext.plays hrest, List.foldl_append]
    · rw [if_neg haccepted] at hsame ⊢
      rw [hplays hsame, if_neg haccepted]
  · have hfirst := hundisturbed fun r hr => hfaithful r (hruns r hr)
    by_cases haccepted : first.2
    · rw [if_pos haccepted]
      rw [hplays hfirst, if_pos haccepted] at hfaithful
      exact undisturbed_append.2 ⟨hfirst, hnext.undisturbed hfaithful⟩
    · rw [if_neg haccepted]
      exact hfirst

end PeRelocating

/-! ## The loops -/

namespace WinePeImage

open PeRelocating (Follows Undisturbed)

variable {image : WinePeImage} {memory : ℕ → UInt8}

theorem applyEntries_cons (image : WinePeImage) (blockHeader blockVirtualAddress index : ℕ)
    (indices : List ℕ) (s : PeRelocating) :
    image.applyEntries blockHeader blockVirtualAddress (index :: indices) s =
      let entry := load s.memory (relocEntry blockHeader index) 2
      let next := (s.read (relocEntry blockHeader index) 2).2
      if entry / 2 ^ 12 = imageRelBasedAbsolute then
        image.applyEntries blockHeader blockVirtualAddress indices next
      else if entry / 2 ^ 12 ≠ imageRelBasedDir64 then (false, next)
      else image.applyEntries blockHeader blockVirtualAddress indices
        (next.patch image.delta (image.relocTarget blockVirtualAddress (entry % 2 ^ 12))) := rfl

theorem applyEntries_kept (blockHeader blockVirtualAddress : ℕ) :
    ∀ (indices : List ℕ) (s : PeRelocating), ∀ r ∈ s.readings,
      r ∈ (image.applyEntries blockHeader blockVirtualAddress indices s).2.readings
  | [], _, _, hr => hr
  | index :: indices, s, r, hr => by
    have hkept := applyEntries_kept blockHeader blockVirtualAddress indices
    have hread : r ∈ (s.read (relocEntry blockHeader index) 2).2.readings :=
      List.mem_cons_of_mem _ hr
    rw [applyEntries_cons]
    dsimp only
    split_ifs
    · exact hkept _ r hread
    · exact hread
    · exact hkept _ r hread

theorem applyEntries_follows (blockHeader blockVirtualAddress : ℕ) :
    ∀ (indices : List ℕ) (s : PeRelocating), Follows memory image.delta s
      (image.applyEntries blockHeader blockVirtualAddress indices s)
      (image.entryParts memory blockHeader blockVirtualAddress indices)
  | [], s => Follows.stop true
  | index :: indices, s => by
    have hfollows := applyEntries_follows blockHeader blockVirtualAddress indices
    have hkept : ∀ r ∈ (s.read (relocEntry blockHeader index) 2).2.readings,
        r ∈ (image.applyEntries blockHeader blockVirtualAddress (index :: indices) s).2.readings := by
      intro r hr
      rw [applyEntries_cons]
      dsimp only
      split_ifs
      · exact applyEntries_kept _ _ _ _ r hr
      · exact hr
      · exact applyEntries_kept _ _ _ _ r hr
    unfold entryParts
    dsimp only
    split_ifs with habsolute hunknown
    · refine Follows.part _ hkept fun hsame => ?_
      rw [applyEntries_cons, hsame]
      rw [if_pos habsolute]
      exact hfollows _
    · refine Follows.part ([], false) hkept fun hsame => ?_
      rw [applyEntries_cons, hsame]
      rw [if_neg habsolute, if_pos hunknown]
      exact Follows.stop false
    · refine Follows.part _ hkept fun hsame => ?_
      rw [applyEntries_cons, hsame]
      rw [if_neg habsolute, if_neg hunknown]
      exact hfollows _

theorem applyBlocks_eq (image : WinePeImage) (consumed : ℕ) (s : PeRelocating) :
    image.applyBlocks consumed s =
      if consumed < image.info.relocDirectorySize then
        let header := ((s.read (image.blockHeader consumed) 4).2.read
          (image.blockHeader consumed + 4) 4).2
        let blockSize := load s.memory (image.blockHeader consumed + 4) 4
        if blockSize < blockHeaderSize then (false, header)
        else
          let entries := image.applyEntries (image.blockHeader consumed)
            (load s.memory (image.blockHeader consumed) 4)
            (List.range ((blockSize - blockHeaderSize) / 2)) header
          if entries.1 then image.applyBlocks (consumed + blockSize) entries.2
          else (false, entries.2)
      else (true, s) := by
  rw [applyBlocks]
  rfl

theorem applyBlocks_read {consumed : ℕ} {s : PeRelocating}
    (hmore : consumed < image.info.relocDirectorySize)
    (hlater : ∀ later, consumed < later → ∀ (s : PeRelocating), ∀ r ∈ s.readings,
      r ∈ (image.applyBlocks later s).2.readings) :
    ∀ r ∈ ((s.read (image.blockHeader consumed) 4).2.read
      (image.blockHeader consumed + 4) 4).2.readings,
      r ∈ (image.applyBlocks consumed s).2.readings := by
  intro r hr
  rw [applyBlocks_eq, if_pos hmore]
  dsimp only
  split_ifs with hsmall hknown
  · exact hr
  · unfold blockHeaderSize at hsmall
    exact hlater _ (by omega) _ r (applyEntries_kept _ _ _ _ r hr)
  · exact applyEntries_kept _ _ _ _ r hr

theorem applyBlocks_kept (consumed : ℕ) (s : PeRelocating) :
    ∀ r ∈ s.readings, r ∈ (image.applyBlocks consumed s).2.readings := by
  intro r hr
  by_cases hmore : consumed < image.info.relocDirectorySize
  · exact applyBlocks_read hmore (fun later _ => applyBlocks_kept later) r
      (List.mem_cons_of_mem _ (List.mem_cons_of_mem _ hr))
  · rw [applyBlocks_eq, if_neg hmore]
    exact hr
termination_by image.info.relocDirectorySize - consumed

/-- A run over the blocks does what the directory says, as long as it stays what it is. -/
theorem applyBlocks_follows (consumed : ℕ) (s : PeRelocating) :
    Follows memory image.delta s (image.applyBlocks consumed s)
      (image.directoryParts memory consumed) := by
  by_cases hmore : consumed < image.info.relocDirectorySize
  · have hread := applyBlocks_read (s := s) hmore fun later _ => applyBlocks_kept later
    have hfirst : ∀ r ∈ (s.read (image.blockHeader consumed) 4).2.readings,
        r ∈ (image.applyBlocks consumed s).2.readings :=
      fun r hr => hread r (List.mem_cons_of_mem _ hr)
    rw [directoryParts, if_pos hmore]
    by_cases hsmall : load memory (image.blockHeader consumed + 4) 4 < blockHeaderSize
    · rw [if_pos hsmall]
      refine Follows.part ([_], false) hfirst fun _ => ?_
      refine Follows.part ([], false) hread fun hsize => ?_
      have hsize : load s.memory (image.blockHeader consumed + 4) 4 = _ := hsize
      rw [applyBlocks_eq, if_pos hmore, hsize]
      rw [if_pos hsmall]
      exact Follows.stop false
    · rw [if_neg hsmall]
      have hblock : ∀ {parts : List RelocPart × Bool},
          (load s.memory (image.blockHeader consumed) 4
              = load memory (image.blockHeader consumed) 4 →
            load s.memory (image.blockHeader consumed + 4) 4
              = load memory (image.blockHeader consumed + 4) 4 →
            Follows memory image.delta ((s.read (image.blockHeader consumed) 4).2.read
              (image.blockHeader consumed + 4) 4).2 (image.applyBlocks consumed s) parts) →
          Follows memory image.delta s (image.applyBlocks consumed s)
            (⟨image.blockHeader consumed, 4, none⟩ :: ⟨image.blockHeader consumed + 4, 4, none⟩
              :: parts.1, parts.2) := fun h =>
        Follows.part (_ :: _, _) hfirst fun haddress => Follows.part _ hread (h haddress)
      have hrest := hblock fun haddress hsize => by
        rw [applyBlocks_eq, if_pos hmore, hsize, haddress]
        rw [if_neg hsmall]
        exact (applyEntries_follows _ _ _ _).bind (applyBlocks_kept _) (applyBlocks_follows _ _)
      by_cases hknown : (image.entryParts memory (image.blockHeader consumed)
          (load memory (image.blockHeader consumed) 4) (List.range
            ((load memory (image.blockHeader consumed + 4) 4 - blockHeaderSize) / 2))).2
      · rw [if_pos hknown]
        simpa [hknown] using hrest
      · rw [if_neg hknown]
        simpa [hknown] using hrest
  · rw [applyBlocks_eq, directoryParts, if_neg hmore, if_neg hmore]
    exact Follows.stop true
termination_by image.info.relocDirectorySize - consumed
decreasing_by
  unfold blockHeaderSize at hsmall
  omega

/-! ## What is promised, and when -/

def Holds (image : WinePeImage) (address length : ℕ) : Prop :=
  image.base ≤ address ∧ address + length ≤ image.base + image.info.sizeOfImage

def DirectoryHolds (image : WinePeImage) (address length : ℕ) : Prop :=
  image.base + image.info.relocDirectoryRva ≤ address
    ∧ address + length
      ≤ image.base + image.info.relocDirectoryRva + image.info.relocDirectorySize

def namedAddresses (image : WinePeImage) (memory : ℕ → UInt8) : List ℕ :=
  relocTargets (image.directoryParts memory 0).1

end WinePeImage

/-- What is promised of an image whose relocations have been applied: only the directory has been
read as one, nothing outside the image has been touched, every address that an entry names has been
adjusted once, and an image that cannot be relocated is as it was. -/
structure RelocationsSound (image : WinePeImage) (memory : ℕ → UInt8) : Prop where
  directory : ∀ r ∈ (winePeApplyRelocations image memory).2.readings,
    image.DirectoryHolds r.address r.length ∧ r.value = load memory r.address r.length
  reads : ∀ r ∈ (winePeApplyRelocations image memory).2.readings,
    image.Holds r.address r.length
  patches : ∀ t ∈ (winePeApplyRelocations image memory).2.targets, image.Holds t 8
  once : (winePeApplyRelocations image memory).1 = .ok →
    (winePeApplyRelocations image memory).2.targets.Nodup
      ∧ ∀ t, t ∈ (winePeApplyRelocations image memory).2.targets ↔ t ∈ image.namedAddresses memory
  added : (winePeApplyRelocations image memory).1 = .ok →
    (winePeApplyRelocations image memory).2.memory
      = addAll memory 8 image.delta (winePeApplyRelocations image memory).2.targets.reverse
  unchanged : (winePeApplyRelocations image memory).1 = .unsupported →
    ∀ a, image.Holds a 1 → (winePeApplyRelocations image memory).2.memory a = memory a

structure DirectorySound (image : WinePeImage) (memory : ℕ → UInt8) : Prop where
  parts : ∀ p ∈ (image.directoryParts memory 0).1,
    image.DirectoryHolds p.address p.length ∧ image.Holds p.address p.length
  targets : ∀ t ∈ image.namedAddresses memory, image.Holds t 8
  undisturbed : ∀ before p after, (image.directoryParts memory 0).1 = before ++ p :: after →
    load (addAll memory 8 image.delta (relocTargets before)) p.address p.length
      = load memory p.address p.length
  distinct : (image.directoryParts memory 0).2 → (image.namedAddresses memory).Nodup
  rejected : (image.directoryParts memory 0).2 = false →
    image.namedAddresses memory = [] ∨ image.delta = 0 ∨ ¬(image.namedAddresses memory).Nodup
      ∧ addAll memory 8 image.delta (image.namedAddresses memory) = memory

namespace PeRelocating

variable {image : WinePeImage} {memory : ℕ → UInt8}

/-- The state that a run ends in is that of the loop, also where there is no directory. -/
theorem winePeApplyRelocations_snd (image : WinePeImage) (memory : ℕ → UInt8) :
    (winePeApplyRelocations image memory).2 = (image.applyBlocks 0 { memory := memory }).2 := by
  unfold winePeApplyRelocations
  by_cases hnone : image.info.relocDirectorySize = 0
  · rw [if_pos hnone, WinePeImage.applyBlocks_eq, if_neg (by omega)]
  · rw [if_neg hnone]

theorem winePeApplyRelocations_fst
    (h : Undisturbed memory image.delta { memory := memory } (image.directoryParts memory 0).1) :
    (winePeApplyRelocations image memory).1 =
      if image.info.relocDirectorySize = 0 then .none
      else if (image.directoryParts memory 0).2 then .ok else .unsupported := by
  unfold winePeApplyRelocations
  rw [(WinePeImage.applyBlocks_follows 0 { memory := memory }).plays h]
  split_ifs with hnone haccepted
  · rfl
  · simp [haccepted]
  · simp [haccepted]

theorem winePeApplyRelocations_plays
    (h : Undisturbed memory image.delta { memory := memory } (image.directoryParts memory 0).1) :
    (winePeApplyRelocations image memory).2.memory
        = addAll memory 8 image.delta (image.namedAddresses memory)
      ∧ (winePeApplyRelocations image memory).2.targets = (image.namedAddresses memory).reverse
      ∧ ∀ r, r ∈ (winePeApplyRelocations image memory).2.readings
        ↔ ∃ p ∈ (image.directoryParts memory 0).1,
          r = ⟨p.address, p.length, load memory p.address p.length⟩ := by
  rw [winePeApplyRelocations_snd, (WinePeImage.applyBlocks_follows 0 { memory := memory }).plays h]
  refine ⟨foldl_play_memory, ?_, fun r => ?_⟩
  · rw [foldl_play_targets, List.append_nil]
    rfl
  · rw [foldl_play_readings h]
    simp

end PeRelocating

section Sound

open PeRelocating (Undisturbed undisturbed_iff)

variable {image : WinePeImage} {memory : ℕ → UInt8}

theorem RelocationsSound.follows (h : RelocationsSound image memory) :
    Undisturbed memory image.delta { memory := memory } (image.directoryParts memory 0).1 := by
  refine (WinePeImage.applyBlocks_follows 0 _).undisturbed fun r hr => ?_
  rw [← PeRelocating.winePeApplyRelocations_snd] at hr
  exact (h.directory r hr).2

variable (memory) in
theorem namedAddresses_none (h : image.info.relocDirectorySize = 0) :
    image.directoryParts memory 0 = ([], true) := by
  rw [WinePeImage.directoryParts, if_neg (by omega)]

theorem dvd_delta_iff : 256 ^ 8 ∣ image.delta ↔ image.delta = 0 := by
  have hlt : image.delta < 256 ^ 8 := Nat.mod_lt _ (by decide)
  exact ⟨fun h => Nat.eq_zero_of_dvd_of_lt h hlt, fun h => h ▸ dvd_zero _⟩

theorem additions_cancel {targets : List ℕ} (htargets : ∀ t ∈ targets, image.Holds t 8)
    (h : ∀ a, image.Holds a 1 → addAll memory 8 image.delta targets a = memory a) :
    targets = [] ∨ image.delta = 0
      ∨ ¬targets.Nodup ∧ addAll memory 8 image.delta targets = memory := by
  have hall : addAll memory 8 image.delta targets = memory := by
    funext a
    by_cases ha : image.Holds a 1
    · exact h a ha
    · refine LittleEndian.addAll_apply_of_disjoint fun t ht => ?_
      have hin := htargets t ht
      unfold WinePeImage.Holds at ha hin
      omega
  by_cases hnone : targets = []
  · exact .inl hnone
  by_cases hzero : image.delta = 0
  · exact .inr (.inl hzero)
  refine .inr (.inr ⟨fun hnodup => ?_, hall⟩)
  exact LittleEndian.addAll_ne (fun h => hzero (dvd_delta_iff.1 h)) hnone hnodup hall

/-- Relocation keeps its promises just for the directories that do no harm. -/
theorem winePeApplyRelocations_sound_iff (image : WinePeImage) (memory : ℕ → UInt8) :
    RelocationsSound image memory ↔ DirectorySound image memory := by
  constructor
  · intro h
    have hresult := PeRelocating.winePeApplyRelocations_fst h.follows
    obtain ⟨hmemory, htargets, hreadings⟩ :=
      PeRelocating.winePeApplyRelocations_plays h.follows
    have hpatches : ∀ t ∈ image.namedAddresses memory, image.Holds t 8 := fun t ht =>
      h.patches t (by rw [htargets]; exact List.mem_reverse.2 ht)
    by_cases hnone : image.info.relocDirectorySize = 0
    · have hparts := namedAddresses_none memory hnone
      refine ⟨?_, hpatches, undisturbed_iff.1 h.follows, ?_, ?_⟩ <;>
        simp [hparts, WinePeImage.namedAddresses, relocTargets]
    · rw [if_neg hnone] at hresult
      refine ⟨fun p hp => ?_, hpatches, undisturbed_iff.1 h.follows, fun haccepted => ?_,
        fun hrejected => ?_⟩
      · have hread := (hreadings _).2 ⟨p, hp, rfl⟩
        exact ⟨(h.directory _ hread).1, h.reads _ hread⟩
      · rw [if_pos haccepted] at hresult
        have hnodup := (h.once hresult).1
        rw [htargets] at hnodup
        exact List.nodup_reverse.1 hnodup
      · rw [hrejected, if_neg Bool.false_ne_true] at hresult
        have hunchanged := h.unchanged hresult
        rw [hmemory] at hunchanged
        exact additions_cancel hpatches hunchanged
  · intro h
    have hfollows : Undisturbed memory image.delta { memory := memory }
        (image.directoryParts memory 0).1 := undisturbed_iff.2 h.undisturbed
    have hresult := PeRelocating.winePeApplyRelocations_fst hfollows
    obtain ⟨hmemory, htargets, hreadings⟩ := PeRelocating.winePeApplyRelocations_plays hfollows
    refine ⟨fun r hr => ?_, fun r hr => ?_, fun t ht => ?_, fun hok => ?_, fun hok => ?_,
      fun hunsupported a _ => ?_⟩
    · obtain ⟨p, hp, rfl⟩ := (hreadings r).1 hr
      exact ⟨(h.parts p hp).1, rfl⟩
    · obtain ⟨p, hp, rfl⟩ := (hreadings r).1 hr
      exact (h.parts p hp).2
    · rw [htargets, List.mem_reverse] at ht
      exact h.targets t ht
    · rw [hok] at hresult
      split_ifs at hresult with hnone haccepted
      rw [htargets]
      exact ⟨List.nodup_reverse.2 (h.distinct haccepted), fun t => List.mem_reverse⟩
    · rw [htargets, List.reverse_reverse, hmemory]
    · rw [hunsupported] at hresult
      split_ifs at hresult with hnone haccepted
      rw [hmemory]
      rcases h.rejected (by simpa using haccepted) with hempty | hzero | ⟨-, hsame⟩
      · rw [hempty]
        rfl
      · rw [LittleEndian.addAll_of_dvd (dvd_delta_iff.2 hzero)]
      · rw [hsame]

end Sound

/-- An image that prefers another address, with a block of two entries: one of type DIR64 and one of
type HIGHLOW. -/
def halfRelocated : WinePeImage :=
  { base := 0x10000000
    entryPoint := 0x10001000
    info :=
      { machine := machineAmd64
        sectionCount := 1
        optionalHeaderSize := 240
        characteristics := 0x0022
        optionalMagic := optionalMagicPe32Plus
        entryPointRva := 0x1000
        imageBase := 0x140000000
        sizeOfImage := 0x2000
        numberOfRvaAndSizes := 16
        sectionTableOffset := 328
        exportDirectoryRva := 0
        exportDirectorySize := 0
        importDirectoryRva := 0
        importDirectorySize := 0
        relocDirectoryRva := 0x1010
        relocDirectorySize := 12 } }

def halfRelocatedMemory : ℕ → UInt8 :=
  writeBytes (fun _ => 0) 0x10001010 [0, 0x10, 0, 0, 12, 0, 0, 0, 0, 0xA0, 0, 0x30]

/-- The second entry is rejected, and the pointer of the first one is adjusted all the same. -/
theorem rejected_half_relocated : ¬RelocationsSound halfRelocated halfRelocatedMemory := by
  intro h
  have hresult : (winePeApplyRelocations halfRelocated halfRelocatedMemory).1 = .unsupported := by
    decide +kernel
  have hchanged : (winePeApplyRelocations halfRelocated halfRelocatedMemory).2.memory 0x10001003
      ≠ halfRelocatedMemory 0x10001003 := by
    decide +kernel
  exact hchanged (h.unchanged hresult _ (by unfold WinePeImage.Holds; decide))

end DemonOS
