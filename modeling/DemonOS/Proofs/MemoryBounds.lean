import DemonOS.Proofs.Lifecycle

/-!
# What the kernel does to the memory of the processes

Every event of the kernel comes to a few of the operations on the user memory, one after the other
(`step_edits`): what each of them keeps holds over every run (`runFrom_memory`).
-/

namespace DemonOS

open UserMemory

namespace Kernel

/-! ## System calls -/

theorem retHandle_mem (k : Kernel) (r : Option (ℕ × Capabilities)) :
    (k.retHandle r).mem = k.mem := by
  cases r <;> rfl

theorem syscallSurfaceMap_edits (k : Kernel) (f : Frame) :
    Edits k.mem (k.syscallSurfaceMap f).mem := by
  unfold syscallSurfaceMap
  split
  · exact .refl _
  · simp only [mapSurfaceReadonly]
    split_ifs
    · exact .refl _
    split
    · exact .refl _
    split
    · exact .refl _
    rename_i slot _
    split
    · exact .refl _
    rename_i address pages _
    split_ifs
    · exact .refl _
    split
    · exact .refl _
    have h : ∀ mappedSurface, Edits k.mem { (k.mem.editSurfacePtes k.current slot address pages
        true).2 with mappedSurface } := fun mappedSurface =>
      (Edit.surface k.current slot address pages true mappedSurface).edits
    split
    all_goals
      rename_i m heq
      rw [heq] at h
      exact h _

theorem syscallSurfaceUnmap_edits (k : Kernel) (f : Frame) :
    Edits k.mem (k.syscallSurfaceUnmap f).mem := by
  unfold syscallSurfaceUnmap
  split
  · exact .refl _
  · split
    · exact .refl _
    · rename_i k' hk'
      unfold unmapSurfaceId at hk'
      split_ifs at hk'
      rw [Option.map_eq_some_iff] at hk'
      obtain ⟨slot, -, rfl⟩ := hk'
      exact unmapSlot_edits k k.current slot

theorem syscallAnonymousUnmap_edits (k : Kernel) (f : Frame) :
    Edits k.mem (k.syscallAnonymousUnmap f).mem := by
  unfold syscallAnonymousUnmap
  split_ifs
  · exact .refl _
  · exact (Edit.unmap k.current).edits

theorem syscallDispatch_edits (k : Kernel) (user : ℕ → UInt8) (dev : Devices) :
    Edits k.mem (k.syscallDispatch user dev).mem := by
  have call := k.syscallDispatch_call user dev
  generalize k.syscallDispatch user dev = k' at call
  cases call with
  | yield | value => exact .refl _
  | exit => exact (syscallExit_lifecycle k _).mem
  | openService =>
    rw [retHandle_mem]
    exact .refl _
  | spawn => exact (syscallSpawn_lifecycle k _ user).mem
  | wait => exact (schedulerOnWait_lifecycle k _).mem
  | terminate => exact (syscallTerminate_lifecycle k _).mem
  | send => exact (syscallSend_same k _ user).edits
  | receive => exact (syscallReceive_same k _).edits
  | select => exact (syscallSelect_same k _).edits
  | surfaceMap => exact syscallSurfaceMap_edits k _
  | surfaceUnmap => exact syscallSurfaceUnmap_edits k _
  | anonymousMap => exact (Edit.map k.current _).edits
  | anonymousUnmap => exact syscallAnonymousUnmap_edits k _
  | anonymousReserve => exact (Edit.reserve k.current _).edits
  | anonymousCommit => exact (Edit.commit k.current _ _).edits
  | spawnAndWait => exact (syscallSpawnAndWait_lifecycle k _ user).mem
  | reapExited => exact (syscallReapExited_lifecycle k).mem
  | openFile =>
    unfold syscallOpenFile
    split_ifs
    · exact .refl _
    · split
      · exact .refl _
      · rw [retHandle_mem]
        exact .refl _
  | ipcConnect =>
    unfold syscallIpcConnect
    split_ifs
    · exact .refl _
    · rw [retHandle_mem]
      exact .refl _
  | surfaceWrite =>
    unfold syscallSurfaceWrite
    repeat' split
    any_goals exact .refl _
    extract_lets pixel
    split <;> exact .refl _
  | write | close | delete | rename | ipcCreate | inputPoll | surfaceCreate | grant
    | surfaceDamage | takeDamage =>
    first
    | unfold syscallWrite
    | unfold syscallClose
    | unfold syscallDelete
    | unfold syscallRename
    | unfold syscallIpcCreate
    | unfold syscallInputPoll
    | unfold syscallSurfaceCreate
    | unfold syscallGrant
    | unfold syscallSurfaceDamage
    | unfold syscallTakeDamage
    repeat' split
    all_goals exact .refl _

theorem kernelCall_edits (k : Kernel) (call : KernelCall) :
    Edits k.mem (k.kernelCall call).mem := by
  cases call with
  | discardInput => exact .refl _
  | file => exact .refl _
  | _ => exact (kernelCall_lifecycle (by simp) (by simp)).mem

theorem step_edits (k : Kernel) (e : Event) : Edits k.mem (k.step e).mem := by
  cases e with
  | syscall registers user dev =>
    simp only [step]
    split_ifs
    · exact syscallDispatch_edits (k.enter registers) user dev
    · exact .refl _
  | timerTick registers =>
    simp only [step]
    split_ifs
    · exact ((withSched_same k _).trans (schedulerOnTimerTick_same _)).edits
    · exact (schedulerOnTimerTick_same k).edits
  | input event => exact (inputPublish_same k event).edits
  | kernel call =>
    simp only [step]
    split_ifs
    · exact .refl _
    · exact kernelCall_edits k call

/-- What every operation on the memory keeps holds in every run from a memory that has it. -/
theorem runFrom_memory {P : UserMemory → Prop} (hP : ∀ m m', P m → Edit m m' → P m')
    (b : BootInfo) (hb : P (fresh b).mem) (events : List Event) : P (runFrom b events).mem :=
  Machine.run_inv step (I := fun k => P k.mem) (fun k e hk => (step_edits k e).keeps hP hk) events
    (fresh b) hb

end Kernel

/-!
## How much memory a process can have

No process ever has more pages than its regions have room for (`runFrom_bounded`), so what it may
read lies in one of its regions (`runFrom_confined`) and ends below the first gigabyte
(`userRange_end`).
-/

namespace UserMemory

/-- No process has more pages than there is room for. -/
structure Bounded (m : UserMemory) : Prop where
  anonymous : ∀ pid, m.anonymousPageCount pid ≤ userAnonMaxBytes / pageSize
  reserved : ∀ pid, m.anonymousReservedPages pid ≤ userAnonMaxBytes / pageSize
  largeCode : ∀ pid, m.largeCodePageCount pid ≤ userLargeCodeMaxPages
  code : ∀ pid, m.processMemoryUsed pid = true →
    (m.processMemory pid).codePageCount ≤ userspaceCodePages

/-- The two memories agree on the pages that the processes have. -/
structure SamePages (m m' : UserMemory) : Prop where
  memory : m'.processMemory = m.processMemory
  used : m'.processMemoryUsed = m.processMemoryUsed
  anonymous : m'.anonymousPageCount = m.anonymousPageCount
  reserved : m'.anonymousReservedPages = m.anonymousReservedPages
  largeCode : m'.largeCodePageCount = m.largeCodePageCount

variable {m m' : UserMemory}

theorem Bounded.same (hm : Bounded m) (h : SamePages m m') : Bounded m' := by
  obtain ⟨hmemory, hused, hanonymous, hreserved, hlargeCode⟩ := h
  refine ⟨?_, ?_, ?_, ?_⟩
  · rw [hanonymous]
    exact hm.anonymous
  · rw [hreserved]
    exact hm.reserved
  · rw [hlargeCode]
    exact hm.largeCode
  · rw [hused, hmemory]
    exact hm.code

theorem update_le {f : ℕ → ℕ} {bound count : ℕ} (hf : ∀ pid, f pid ≤ bound) (hcount : count ≤ bound)
    (pid : ℕ) : ∀ p, Function.update f pid count p ≤ bound := by
  intro p
  by_cases hp : p = pid
  · rw [hp, Function.update_self]
    exact hcount
  · rw [Function.update_of_ne hp]
    exact hf p

theorem largeCodeRelease_bounded (hm : Bounded m) (pid : ℕ) :
    Bounded (m.largeCodeRelease pid) := by
  unfold largeCodeRelease
  split_ifs
  · exact ⟨hm.anonymous, hm.reserved, update_le hm.largeCode (Nat.zero_le _) pid, hm.code⟩
  · exact hm

theorem anonymousRelease_bounded (hm : Bounded m) (pid : ℕ) :
    Bounded (m.anonymousRelease pid) := by
  unfold anonymousRelease
  split_ifs
  all_goals
    first
    | exact hm
    | exact ⟨update_le hm.anonymous (Nat.zero_le _) pid, update_le hm.reserved (Nat.zero_le _) pid,
        hm.largeCode, hm.code⟩

theorem commitPage_bounded (hm : Bounded m) (pid : ℕ) {page : ℕ} (writable : Bool)
    (hpage : page < userAnonMaxBytes / pageSize) : Bounded (m.commitPage pid page writable).2 := by
  unfold commitPage
  simp only
  split
  · exact hm
  · split
    · exact hm.same ⟨rfl, rfl, rfl, rfl, rfl⟩
    · exact ⟨update_le hm.anonymous hpage pid, hm.reserved, hm.largeCode, hm.code⟩

theorem anonymousCommitPages_bounded (pid : ℕ) (writable : Bool) : ∀ (n page : ℕ) {m : UserMemory},
    Bounded m → page + n ≤ userAnonMaxBytes / pageSize →
      Bounded (anonymousCommitPages pid writable page n m).2
  | 0, _, _, hm, _ => hm
  | n + 1, page, m, hm, hn => by
    have hpage := commitPage_bounded hm pid writable (by omega : page < _)
    unfold anonymousCommitPages
    rcases heq : m.commitPage pid page writable with ⟨_ | _, m'⟩
    · rw [heq] at hpage
      exact hpage
    · rw [heq] at hpage
      exact anonymousCommitPages_bounded pid writable n (page + 1) hpage (by omega)

theorem anonymousMap_bounded (hm : Bounded m) (pid byteCount : ℕ) :
    Bounded (m.anonymousMap pid byteCount).2 := by
  unfold anonymousMap
  split_ifs with hrefused
  · exact hm
  · have hbytes : byteCount ≤ userAnonMaxBytes := by omega
    have hcommit := anonymousCommitPages_bounded pid true ((byteCount + 4095) / pageSize) 0 hm
      (by unfold userAnonMaxBytes pageSize at *; omega)
    rcases heq : anonymousCommitPages pid true 0 ((byteCount + 4095) / pageSize) m with ⟨_ | _, m'⟩
    · rw [heq] at hcommit
      exact anonymousRelease_bounded hcommit pid
    · rw [heq] at hcommit
      exact hcommit

theorem anonymousReserve_bounded (hm : Bounded m) (pid byteCount : ℕ) :
    Bounded (m.anonymousReserve pid byteCount).2 := by
  unfold anonymousReserve
  split_ifs with hrefused
  · exact hm
  · have hbytes : byteCount ≤ userAnonMaxBytes := by omega
    exact ⟨hm.anonymous, update_le hm.reserved (by unfold userAnonMaxBytes pageSize at *; omega) pid,
      hm.largeCode, hm.code⟩

theorem anonymousCommit_bounded (hm : Bounded m) (pid byteCount : ℕ) (writable : Bool) :
    Bounded (m.anonymousCommit pid byteCount writable).2 := by
  unfold anonymousCommit
  simp only
  split_ifs with hrefused
  · exact hm
  · have hreserved := hm.reserved pid
    have hanonymous := hm.anonymous pid
    have hcommit := anonymousCommitPages_bounded pid writable ((byteCount + 4095) / pageSize)
      (m.anonymousPageCount pid) hm (by omega)
    rcases heq : anonymousCommitPages pid writable (m.anonymousPageCount pid)
      ((byteCount + 4095) / pageSize) m with ⟨_ | _, m'⟩
    · rw [heq] at hcommit
      exact hcommit
    · rw [heq] at hcommit
      exact hcommit

theorem largeCodeFramesLoop_bounded (pid table : ℕ) : ∀ (n page : ℕ) {m : UserMemory},
    Bounded m → page + n ≤ userLargeCodeMaxPages →
      Bounded (largeCodeFramesLoop pid table page n m).2
  | 0, _, _, hm, _ => hm
  | n + 1, page, m, hm, hn => by
    unfold largeCodeFramesLoop
    split
    · refine largeCodeRelease_bounded ?_ pid
      exact ⟨hm.anonymous, hm.reserved, update_le hm.largeCode (by omega) pid, hm.code⟩
    · refine largeCodeFramesLoop_bounded pid table n (page + 1) ?_ (by omega)
      exact ⟨hm.anonymous, hm.reserved, update_le hm.largeCode (by omega) pid, hm.code⟩

theorem largeCodeFill_bounded (hm : Bounded m) (pid table : ℕ) (image : List UInt8) {pages : ℕ}
    (hpages : pages ≤ userLargeCodeMaxPages) :
    Bounded (m.largeCodeFill pid table image pages).2 := by
  have hloop := largeCodeFramesLoop_bounded pid table pages 0 hm (by omega)
  unfold largeCodeFill
  rcases heq : largeCodeFramesLoop pid table 0 pages m with ⟨_ | _, m'⟩
  · rw [heq] at hloop
    exact hloop
  · rw [heq] at hloop
    simp only
    split
    · refine largeCodeRelease_bounded ?_ pid
      exact hloop.same ⟨rfl, rfl, rfl, rfl, rfl⟩
    · exact hloop.same ⟨rfl, rfl, rfl, rfl, rfl⟩

theorem largeCodeLoad_bounded (hm : Bounded m) (pid : ℕ) (image : List UInt8) (layout : ElfLayout) :
    Bounded (m.largeCodeLoad pid image layout).2 := by
  unfold largeCodeLoad
  split_ifs with hrefused
  · exact hm
  · split
    · exact hm
    · refine largeCodeFill_bounded ?_ pid _ image ?_
      · exact hm.same ⟨rfl, rfl, rfl, rfl, rfl⟩
      simp only [not_or, not_not, Bool.not_eq_false, validLargeLayout, Bool.and_eq_true,
        decide_eq_true_eq] at hrefused
      unfold largeCodePages
      unfold userLargeCodeMaxPages pageSize at *
      omega

theorem loadImage_bounded (hm : Bounded m) (pid : ℕ) (image : List UInt8) :
    Bounded (m.loadImage pid image).2 ∧ ((m.loadImage pid image).1.isSome →
      (m.processMemory pid).codePageCount ≤ userspaceCodePages) := by
  unfold loadImage
  simp only
  split
  · exact ⟨hm, fun h => by cases h⟩
  · rename_i hrefused
    have hcode : (m.processMemory pid).codePageCount ≤ userspaceCodePages := by
      simp only [not_or, not_lt] at hrefused
      exact hrefused.2.1
    refine ⟨?_, fun _ => hcode⟩
    split
    · exact hm.same ⟨rfl, rfl, rfl, rfl, rfl⟩
    · rename_i layout _
      split
      all_goals
        rename_i m' heq
        have hm' : Bounded m' := by
          split_ifs at heq
          · obtain rfl : _ = m' := congrArg Prod.snd heq
            refine largeCodeLoad_bounded ?_ pid image layout
            exact hm.same ⟨rfl, rfl, rfl, rfl, rfl⟩
          · simp only [Prod.mk.injEq] at heq
            rw [← heq.2]
            exact hm.same ⟨rfl, rfl, rfl, rfl, rfl⟩
      · exact hm'
      · exact hm'.same ⟨rfl, rfl, rfl, rfl, rfl⟩

theorem takeSurfaceTable_bounded (hm : Bounded m) (pid slot : ℕ) :
    Bounded (m.takeSurfaceTable pid slot) := by
  unfold takeSurfaceTable
  split_ifs
  · exact hm
  · split
    · exact hm
    · exact hm.same ⟨rfl, rfl, rfl, rfl, rfl⟩

theorem editSurfacePtes_bounded (hm : Bounded m) (pid slot physicalAddress pageCount : ℕ)
    (isPresent : Bool) :
    Bounded (m.editSurfacePtes pid slot physicalAddress pageCount isPresent).2 := by
  have htaken := takeSurfaceTable_bounded hm pid slot
  unfold editSurfacePtes
  split_ifs
  · exact htaken
  · exact htaken.same ⟨rfl, rfl, rfl, rfl, rfl⟩

theorem releaseSurfaceTables_bounded (hm : Bounded m) (pid : ℕ) :
    Bounded (m.releaseSurfaceTables pid) := by
  unfold releaseSurfaceTables
  generalize List.range userSurfaceMapSlots = slots
  induction slots generalizing m with
  | nil => exact hm
  | cons slot slots ih =>
    rw [List.foldl_cons]
    refine ih ?_
    split_ifs
    · exact hm
    · exact hm.same ⟨rfl, rfl, rfl, rfl, rfl⟩

theorem Edit.bounded (h : Edit m m') (hm : Bounded m) : Bounded m' := by
  cases h with
  | map pid byteCount => exact anonymousMap_bounded hm pid byteCount
  | reserve pid byteCount => exact anonymousReserve_bounded hm pid byteCount
  | commit pid byteCount writable => exact anonymousCommit_bounded hm pid byteCount writable
  | unmap pid => exact anonymousRelease_bounded hm pid
  | unload pid => exact largeCodeRelease_bounded hm pid
  | load pid image => exact (loadImage_bounded hm pid image).1
  | @own pid entry image m' loaded =>
    obtain ⟨hloaded, hcode⟩ := loadImage_bounded hm pid image
    have hmemory := (loadImage_same m pid image).processMemory
    rw [loaded] at hloaded hcode hmemory
    refine ⟨hloaded.anonymous, hloaded.reserved, hloaded.largeCode, fun p hp => ?_⟩
    by_cases hpid : p = pid
    · rw [hpid]
      exact (congrArg (fun memory => (memory pid).codePageCount) hmemory).trans_le (hcode rfl)
    · exact hloaded.code p (by simpa [hpid] using hp)
  | disown pid =>
    refine ⟨hm.anonymous, hm.reserved, hm.largeCode, fun p hp => hm.code p ?_⟩
    by_cases hpid : p = pid
    · simp [hpid] at hp
    · simpa [hpid] using hp
  | surface pid slot physicalAddress pageCount isPresent mappedSurface =>
    have h := editSurfacePtes_bounded hm pid slot physicalAddress pageCount isPresent
    exact h.same ⟨rfl, rfl, rfl, rfl, rfl⟩
  | surfaceTables pid => exact releaseSurfaceTables_bounded hm pid

theorem pagesRange_end {base pages address length : ℕ}
    (h : pagesRange base pages address length = true) :
    base ≤ address ∧ address + length ≤ base + pages * pageSize := by
  simp only [pagesRange, Bool.and_eq_true, decide_eq_true_eq] at h
  omega

/-- Code, heap and stack, the anonymous region, mapped surfaces, large code: all but the kernel. -/
def userRegions : List (ℕ × ℕ) :=
  [(userCode, userHeap), (userHeap, userAddressEnd),
    (userAnonBase, userAnonBase + userAnonMaxBytes),
    (userSurfaceMapBase, userSurfaceMapBase + userSurfaceMapSlots * userSurfaceMapSlotStride),
    (userLargeCodeBase, userLargeCodeBase + userLargeCodeMaxPages * pageSize)]

example : userRegions.Pairwise fun r r' => r.2 ≤ r'.1 := by decide

/-- A range that is accepted for a process never leaves the region it starts in. -/
def Confined (m : UserMemory) : Prop :=
  ∀ pid address length, m.userRange pid address length = true →
    ∃ r ∈ userRegions, r.1 ≤ address ∧ address + length ≤ r.2

theorem Bounded.confined (hm : Bounded m) : Confined m := by
  intro pid address length h
  have hanonymous := hm.anonymous pid
  have hlarge := hm.largeCode pid
  simp only [userRange, userWriteRange, anonymousRange, Bool.or_eq_true, Bool.and_eq_true,
    decide_eq_true_eq] at h
  simp only [userRegions, List.mem_cons, List.not_mem_nil, or_false, exists_eq_or_imp,
    exists_eq_left]
  rcases h with (((h | h) | ⟨⟨-, hused⟩, h⟩) | ⟨-, h⟩) | h
  · unfold userAnonMaxBytes pageSize at *
    omega
  · omega
  · have hcode := hm.code pid hused
    have hend := pagesRange_end h
    unfold userCode userHeap userspaceCodePages pageSize at *
    omega
  · have hend := pagesRange_end h
    unfold userLargeCodeMaxPages pageSize at *
    omega
  · omega

/-- What a process may read ends below the first gigabyte. -/
theorem userRange_end (hm : Bounded m) {pid address length : ℕ}
    (h : m.userRange pid address length = true) : address + length ≤ 2 ^ 30 := by
  have hlow : ∀ r ∈ userRegions, r.2 ≤ 2 ^ 30 := by decide
  obtain ⟨r, hr, -, hend⟩ := hm.confined pid address length h
  exact hend.trans (hlow r hr)

end UserMemory

namespace Kernel

theorem runFrom_bounded (b : BootInfo) (events : List Event) : (runFrom b events).mem.Bounded :=
  runFrom_memory (fun _ _ hm h => h.bounded hm) b
    ⟨fun _ => Nat.zero_le _, fun _ => Nat.zero_le _, fun _ => Nat.zero_le _, fun _ h => by cases h⟩
    events

end Kernel

end DemonOS
