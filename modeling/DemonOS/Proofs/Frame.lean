import DemonOS.Syscall

/-!
# What the functions leave alone

The memory operations keep which slots are loaded and what is mapped in them (`SameProcesses`), and
delivering messages and events, waking and blocking change the scheduler, the channels and the input
queue only (`SameStores`).
-/

namespace DemonOS

namespace UserMemory

/-- The two memories agree on the process slots and on the surfaces mapped in them. -/
structure SameProcesses (m m' : UserMemory) : Prop where
  processMemory : m'.processMemory = m.processMemory
  used : m'.processMemoryUsed = m.processMemoryUsed
  mapped : m'.mappedSurface = m.mappedSurface

theorem SameProcesses.refl (m : UserMemory) : SameProcesses m m := ⟨rfl, rfl, rfl⟩

theorem SameProcesses.trans {m₁ m₂ m₃ : UserMemory} (h : SameProcesses m₁ m₂)
    (h' : SameProcesses m₂ m₃) : SameProcesses m₁ m₃ :=
  ⟨h'.1.trans h.1, h'.2.trans h.2, h'.3.trans h.3⟩

theorem largeCodeRelease_same (m : UserMemory) (pid : ℕ) :
    SameProcesses m (m.largeCodeRelease pid) := by
  unfold largeCodeRelease
  split_ifs <;> exact ⟨rfl, rfl, rfl⟩

theorem largeCodeFramesLoop_same (pid table : ℕ) :
    ∀ (n page : ℕ) (m : UserMemory), SameProcesses m (largeCodeFramesLoop pid table page n m).2
  | 0, _, m => .refl m
  | n + 1, page, m => by
    unfold largeCodeFramesLoop
    split
    · refine SameProcesses.trans ?_ (largeCodeRelease_same _ pid)
      exact ⟨rfl, rfl, rfl⟩
    · refine SameProcesses.trans ?_ (largeCodeFramesLoop_same pid table n _ _)
      exact ⟨rfl, rfl, rfl⟩

theorem largeCodeFill_same (m : UserMemory) (pid table : ℕ) (image : List UInt8) (pages : ℕ) :
    SameProcesses m (m.largeCodeFill pid table image pages).2 := by
  unfold largeCodeFill
  have hloop := largeCodeFramesLoop_same pid table pages 0 m
  split
  · rename_i m' heq
    simpa only [heq] using hloop
  · rename_i m' heq
    simp only [heq] at hloop
    split
    · refine hloop.trans (SameProcesses.trans ?_ (largeCodeRelease_same _ pid))
      exact ⟨rfl, rfl, rfl⟩
    · exact hloop.trans ⟨rfl, rfl, rfl⟩

theorem largeCodeLoad_same (m : UserMemory) (pid : ℕ) (image : List UInt8) (layout : ElfLayout) :
    SameProcesses m (m.largeCodeLoad pid image layout).2 := by
  unfold largeCodeLoad
  split_ifs
  · exact .refl m
  · split
    · exact .refl m
    · refine SameProcesses.trans ?_ (largeCodeFill_same _ pid _ image _)
      exact ⟨rfl, rfl, rfl⟩

theorem anonymousRelease_same (m : UserMemory) (pid : ℕ) :
    SameProcesses m (m.anonymousRelease pid) := by
  unfold anonymousRelease
  split_ifs <;> exact ⟨rfl, rfl, rfl⟩

theorem commitPage_same (m : UserMemory) (pid page : ℕ) (writable : Bool) :
    SameProcesses m (m.commitPage pid page writable).2 := by
  unfold commitPage
  simp only
  split
  · exact .refl m
  · split <;> exact ⟨rfl, rfl, rfl⟩

theorem anonymousCommitPages_same (pid : ℕ) (writable : Bool) :
    ∀ (n page : ℕ) (m : UserMemory),
      SameProcesses m (anonymousCommitPages pid writable page n m).2
  | 0, _, m => .refl m
  | n + 1, page, m => by
    unfold anonymousCommitPages
    have hpage := commitPage_same m pid page writable
    split
    · rename_i m' heq
      simpa only [heq] using hpage
    · rename_i m' heq
      simp only [heq] at hpage
      exact hpage.trans (anonymousCommitPages_same pid writable n _ m')

theorem anonymousMap_same (m : UserMemory) (pid byteCount : ℕ) :
    SameProcesses m (m.anonymousMap pid byteCount).2 := by
  unfold anonymousMap
  split_ifs
  · exact .refl m
  · have h := anonymousCommitPages_same pid true ((byteCount + 4095) / pageSize) 0 m
    split
    · rename_i m' heq
      simp only [heq] at h
      exact h.trans (anonymousRelease_same m' pid)
    · rename_i m' heq
      simpa only [heq] using h

theorem anonymousReserve_same (m : UserMemory) (pid byteCount : ℕ) :
    SameProcesses m (m.anonymousReserve pid byteCount).2 := by
  unfold anonymousReserve
  split_ifs <;> exact ⟨rfl, rfl, rfl⟩

theorem anonymousCommit_same (m : UserMemory) (pid byteCount : ℕ) (writable : Bool) :
    SameProcesses m (m.anonymousCommit pid byteCount writable).2 := by
  unfold anonymousCommit
  simp only
  split_ifs
  · exact .refl m
  · have h := anonymousCommitPages_same pid writable ((byteCount + 4095) / pageSize)
      (m.anonymousPageCount pid) m
    split
    all_goals
      rename_i m' heq
      simpa only [heq] using h

theorem takeSurfaceTable_same (m : UserMemory) (pid slot : ℕ) :
    SameProcesses m (m.takeSurfaceTable pid slot) := by
  unfold takeSurfaceTable
  split_ifs
  · exact .refl m
  · split
    · exact .refl m
    · exact ⟨rfl, rfl, rfl⟩

theorem editSurfacePtes_same (m : UserMemory) (pid slot physicalAddress pageCount : ℕ)
    (isPresent : Bool) :
    SameProcesses m (m.editSurfacePtes pid slot physicalAddress pageCount isPresent).2 := by
  have h := takeSurfaceTable_same m pid slot
  unfold editSurfacePtes
  split_ifs
  · exact h
  · exact h.trans ⟨rfl, rfl, rfl⟩

theorem releaseSurfaceTables_same (m : UserMemory) (pid : ℕ) :
    SameProcesses m (m.releaseSurfaceTables pid) := by
  unfold releaseSurfaceTables
  generalize List.range userSurfaceMapSlots = slots
  induction slots generalizing m with
  | nil => exact .refl m
  | cons slot slots ih =>
    rw [List.foldl_cons]
    refine SameProcesses.trans ?_ (ih _)
    split_ifs <;> exact ⟨rfl, rfl, rfl⟩

theorem loadImage_same (m : UserMemory) (pid : ℕ) (image : List UInt8) :
    SameProcesses m (m.loadImage pid image).2 := by
  unfold loadImage
  simp only
  split
  · exact .refl m
  · split
    · exact ⟨rfl, rfl, rfl⟩
    · rename_i layout _
      split
      all_goals
        rename_i m' heq
        have hm' : SameProcesses m m' := by
          split_ifs at heq
          · have h := congrArg Prod.snd heq ▸ largeCodeLoad_same _ pid image layout
            exact ⟨h.1, h.2, h.3⟩
          · simp only [Prod.mk.injEq] at heq
            rw [← heq.2]
            exact ⟨rfl, rfl, rfl⟩
      · exact hm'
      · exact hm'.trans ⟨rfl, rfl, rfl⟩

end UserMemory

theorem Input.enqueue_waiter (input : Input) (event : InputEvent) :
    (input.enqueue event).waiter = input.waiter := by
  unfold Input.enqueue
  dsimp only
  split_ifs <;> rfl

namespace Kernel

/-- The two kernels agree outside the scheduler, the channels and the input queue. -/
structure SameStores (k k' : Kernel) : Prop where
  objects : k'.objects = k.objects
  files : k'.files = k.files
  mem : k'.mem = k.mem
  initialized : k'.initialized = k.initialized

theorem SameStores.refl (k : Kernel) : SameStores k k := ⟨rfl, rfl, rfl, rfl⟩

theorem SameStores.trans {k₁ k₂ k₃ : Kernel} (h : SameStores k₁ k₂) (h' : SameStores k₂ k₃) :
    SameStores k₁ k₃ :=
  ⟨h'.1.trans h.1, h'.2.trans h.2, h'.3.trans h.3, h'.4.trans h.4⟩

theorem withSched_same (k : Kernel) (s : Scheduler) : SameStores k (k.withSched s) :=
  ⟨rfl, rfl, rfl, rfl⟩

theorem setChannel_same (k : Kernel) (i : ℕ) (c : IpcChannel) : SameStores k (k.setChannel i c) :=
  ⟨rfl, rfl, rfl, rfl⟩

theorem foldl_inv {α : Type} {P : Kernel → Prop} {f : Kernel → α → Kernel}
    (hf : ∀ k a, P k → P (f k a)) : ∀ (l : List α) (k : Kernel), P k → P (l.foldl f k)
  | [], _, h => h
  | a :: l, k, h => foldl_inv hf l (f k a) (hf k a h)

theorem foldl_same {α : Type} {f : Kernel → α → Kernel} (hf : ∀ k a, SameStores k (f k a))
    (l : List α) (k : Kernel) : SameStores k (l.foldl f k) :=
  foldl_inv (fun _ a h => h.trans (hf _ a)) l k (.refl k)

theorem takeWaiter_same (k : Kernel) (i : ℕ) : SameStores k (k.takeWaiter i) := by
  unfold takeWaiter
  split_ifs <;> exact ⟨rfl, rfl, rfl, rfl⟩

theorem deliverToWaiter_same (k : Kernel) (i pid : ℕ) (data : List UInt8) :
    SameStores k (k.deliverToWaiter i pid data).2 := by
  have h := takeWaiter_same k i
  unfold deliverToWaiter
  simp only
  split_ifs
  · exact h
  · split
    · exact h
    · exact h.trans (withSched_same _ _)

theorem ipcSendImpl_same (k : Kernel) (pid handle : ℕ) (data : List UInt8) (block : Bool) :
    SameStores k (k.ipcSendImpl pid handle data block).2 := by
  unfold ipcSendImpl
  split
  · exact .refl k
  · simp only
    split_ifs
    any_goals exact ⟨rfl, rfl, rfl, rfl⟩
    exact deliverToWaiter_same k _ pid data

theorem drainSlot_same (k : Kernel) (i : ℕ) : SameStores k (k.drainSlot i) := by
  unfold drainSlot
  simp only
  split_ifs <;> exact ⟨rfl, rfl, rfl, rfl⟩

theorem ipcReceive_same {k k' : Kernel} {pid handle capacity : ℕ} {m : IpcMessage}
    (h : k.ipcReceive pid handle capacity = some (m, k')) : SameStores k k' := by
  unfold ipcReceive at h
  split at h
  · cases h
  · simp only at h
    split_ifs at h
    simp only [Option.some.injEq, Prod.mk.injEq] at h
    rw [← h.2]
    exact drainSlot_same k _

theorem wakeSleepers_same (k : Kernel) (c : IpcChannel) : SameStores k (k.wakeSleepers c) := by
  unfold wakeSleepers
  simp only
  split_ifs <;> exact ⟨rfl, rfl, rfl, rfl⟩

theorem cleanupChannel_same (k : Kernel) (pid i : ℕ) : SameStores k (k.cleanupChannel pid i) := by
  unfold cleanupChannel
  split_ifs
  · exact .refl k
  · exact setChannel_same k i _
  · exact (wakeSleepers_same k _).trans (setChannel_same _ i _)

theorem ipcProcessCleanup_same (k : Kernel) (pid : ℕ) :
    SameStores k (k.ipcProcessCleanup pid) := by
  refine SameStores.trans ?_ (foldl_same (fun k i => cleanupChannel_same k pid i) _ _)
  exact ⟨rfl, rfl, rfl, rfl⟩

theorem cancelWaits_same (k : Kernel) (pid : ℕ) : SameStores k (k.cancelWaits pid) :=
  ⟨rfl, rfl, rfl, rfl⟩

theorem inputPublish_same (k : Kernel) (event : InputEvent) :
    SameStores k (k.inputPublish event) := by
  unfold inputPublish
  split_ifs
  · exact .refl k
  · exact ⟨rfl, rfl, rfl, rfl⟩
  · simp only
    split <;> exact ⟨rfl, rfl, rfl, rfl⟩

theorem expireWait_same (k : Kernel) (pid : ℕ) : SameStores k (k.expireWait pid) := by
  unfold expireWait
  simp only
  split_ifs <;> exact ⟨rfl, rfl, rfl, rfl⟩

theorem schedulerOnTimerTick_same (k : Kernel) : SameStores k k.schedulerOnTimerTick := by
  have h : SameStores k.countTick k.countTick.expireWaits :=
    foldl_same (fun k i => expireWait_same k (i + 1)) _ _
  exact (withSched_same k _).trans (h.trans (withSched_same _ _))

/-! ## The end of a process -/

/-- What unmapping surfaces leaves alone. -/
structure SameProcess (k k' : Kernel) : Prop where
  sched : k'.sched = k.sched
  caps : k'.objects.caps = k.objects.caps
  used : k'.mem.processMemoryUsed = k.mem.processMemoryUsed
  memory : k'.mem.processMemory = k.mem.processMemory
  initialized : k'.initialized = k.initialized
  ipc : k'.ipc = k.ipc
  input : k'.input = k.input
  files : k'.files = k.files

theorem SameProcess.refl (k : Kernel) : SameProcess k k :=
  ⟨rfl, rfl, rfl, rfl, rfl, rfl, rfl, rfl⟩

theorem SameProcess.trans {k₁ k₂ k₃ : Kernel} (h : SameProcess k₁ k₂) (h' : SameProcess k₂ k₃) :
    SameProcess k₁ k₃ :=
  ⟨h'.1.trans h.1, h'.2.trans h.2, h'.3.trans h.3, h'.4.trans h.4, h'.5.trans h.5, h'.6.trans h.6,
    h'.7.trans h.7, h'.8.trans h.8⟩

theorem unmapSlot_same (k : Kernel) (pid slot : ℕ) : SameProcess k (k.unmapSlot pid slot) :=
  let h := UserMemory.editSurfacePtes_same k.mem pid slot 0 0 false
  ⟨rfl, rfl, h.used, h.processMemory, rfl, rfl, rfl, rfl⟩

theorem unmapSurface_same (k : Kernel) (pid : ℕ) : SameProcess k (k.unmapSurface pid) := by
  unfold unmapSurface
  split_ifs
  · have h := foldl_inv (P := SameProcess k) (f := fun k slot =>
        if k.mem.mappedSurface pid slot = 0 then k else k.unmapSlot pid slot)
      (fun k' slot h => iteInduction (fun _ => h) fun _ => h.trans (unmapSlot_same k' pid slot))
      (List.range userSurfaceMapSlots) k (.refl k)
    simp only
    generalize (List.range userSurfaceMapSlots).foldl _ k = k₁ at h ⊢
    have hm := UserMemory.releaseSurfaceTables_same k₁.mem pid
    exact h.trans ⟨rfl, rfl, hm.used, hm.processMemory, rfl, rfl, rfl, rfl⟩
  · exact .refl k

theorem schedulerReapExited_eq {k k' : Kernel} {parent child : ℕ} {code : UInt64}
    (h : k.schedulerReapExited parent = some (child, code, k')) :
    k.schedulerReap parent child = some (code, k') := by
  unfold schedulerReapExited at h
  split at h
  · cases h
  · rename_i i _
    cases hr : k.schedulerReap parent (i + 1) with
    | none => simp [hr] at h
    | some r =>
      simp only [hr, Option.map_some, Option.some.injEq, Prod.mk.injEq] at h
      obtain ⟨rfl, rfl, rfl⟩ := h
      exact hr

/-! ## Spawning -/

/-- What loading an image leaves alone. -/
structure SameWaits (k k' : Kernel) : Prop where
  ipc : k'.ipc = k.ipc
  input : k'.input = k.input
  files : k'.files = k.files

theorem loadProcess_same (k : Kernel) (expectedPid parentPid : ℕ) (image : List UInt8)
    (mask : BitVec 32) : SameWaits k (k.loadProcess expectedPid parentPid image mask).2 := by
  unfold loadProcess
  split
  · exact ⟨rfl, rfl, rfl⟩
  · simp only
    split
    · exact ⟨rfl, rfl, rfl⟩
    · split_ifs
      · exact ⟨rfl, rfl, rfl⟩
      · split <;> exact ⟨rfl, rfl, rfl⟩

theorem spawnLoop_same (parentPid : ℕ) (image : List UInt8) (mask : BitVec 32) :
    ∀ (candidates : List ℕ) (k : Kernel),
      SameWaits k (spawnLoop parentPid image mask candidates k).2
  | [], k => ⟨rfl, rfl, rfl⟩
  | candidate :: candidates, k => by
    unfold spawnLoop
    have hload := loadProcess_same k candidate parentPid image mask
    split_ifs
    · exact spawnLoop_same parentPid image mask candidates k
    · generalize k.loadProcess candidate parentPid image mask = r at hload
      obtain ⟨_ | _, k'⟩ := r
      · have h := spawnLoop_same parentPid image mask candidates k'
        exact ⟨h.1.trans hload.1, h.2.trans hload.2, h.3.trans hload.3⟩
      · exact hload

theorem userspaceSpawnPath_same (k : Kernel) (parentPid : ℕ) (path : List UInt8)
    (mask : BitVec 32) : SameWaits k (k.userspaceSpawnPath parentPid path mask).2 := by
  unfold userspaceSpawnPath
  split_ifs
  · exact ⟨rfl, rfl, rfl⟩
  · split
    · exact ⟨rfl, rfl, rfl⟩
    · split
      · exact ⟨rfl, rfl, rfl⟩
      · exact spawnLoop_same parentPid _ mask _ k

theorem userspaceInit_same {k k' : Kernel} {image : List UInt8}
    (h : k.userspaceInit image = some k') : SameWaits k k' := by
  unfold userspaceInit at h
  have h1 := loadProcess_same k 1 0 image bootstrapServices
  split at h
  · cases h
  · rename_i k₁ heq₁
    rw [heq₁] at h1
    have h2 := loadProcess_same k₁ 2 0 image bootstrapServices
    split at h
    · cases h
    · rename_i k₂ heq₂
      rw [heq₂] at h2
      simp only [Option.some.injEq] at h
      subst h
      exact ⟨h2.1.trans h1.1, h2.2.trans h1.2, h2.3.trans h1.3⟩

end Kernel

end DemonOS
