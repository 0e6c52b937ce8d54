import DemonOS.Proofs.Frame

/-!
# System calls that stay with the caller

Most system calls change registers of the caller, its capabilities, surfaces and memory, and nothing
that other processes wait for (`Local`). The others, those that hand on the processor, start or
end processes, move messages or change files, are listed in `Control`.
-/

namespace DemonOS

namespace Kernel

/-- The two kernels have the same tasks, waits, channels, files, masks and loaded slots. -/
structure Local (k k' : Kernel) : Prop where
  sched : ∃ frames, k'.sched = { k.sched with frames := frames }
  ipc : k'.ipc = k.ipc
  waiter : k'.input.waiter = k.input.waiter
  files : k'.files = k.files
  used : k'.mem.processMemoryUsed = k.mem.processMemoryUsed
  memory : k'.mem.processMemory = k.mem.processMemory
  assigned : k'.objects.caps.assignedServices = k.objects.caps.assignedServices
  initialized : k'.initialized = k.initialized

theorem Local.refl (k : Kernel) : Local k k := ⟨⟨_, rfl⟩, rfl, rfl, rfl, rfl, rfl, rfl, rfl⟩

theorem Local.currentPid {k k' : Kernel} (h : Local k k') :
    k'.sched.currentPid = k.sched.currentPid := by
  obtain ⟨frames, hs⟩ := h.sched
  rw [hs]

theorem Local.ret {k k₁ : Kernel} (h : Local k k₁) (rax : UInt64) : Local k (k₁.ret rax) := by
  obtain ⟨⟨frames, hs⟩, hi, hw, hf, hu, hm, ha, hinit⟩ := h
  refine ⟨⟨(k₁.ret rax).sched.frames, ?_⟩, hi, hw, hf, hu, hm, ha, hinit⟩
  change { k₁.sched with frames := (k₁.ret rax).sched.frames } = _
  rw [hs]

theorem ret_local (k : Kernel) (rax : UInt64) : Local k (k.ret rax) := (Local.refl k).ret rax

theorem Opens_assigned {c c' : Capabilities} {pid slot : ℕ} {payload : CapabilityPayload}
    (h : c.Opens pid slot payload c') : c'.assignedServices = c.assignedServices := by
  rw [h.eq]
  rfl

theorem SurfaceOpening_assigned {o o' : Objects} {pid id : ℕ} {rights : BitVec 32}
    {r : Option ℕ} (h : Objects.SurfaceOpening o pid id rights r o') :
    o'.caps.assignedServices = o.caps.assignedServices := by
  cases h with
  | refused => rfl
  | rolledBack => rfl
  | opened hpos hlt hassigned hr opens => exact Opens_assigned opens

theorem withObjects_local (k : Kernel) {o : Objects}
    (h : o.caps.assignedServices = k.objects.caps.assignedServices) :
    Local k (k.withObjects o) := ⟨⟨_, rfl⟩, rfl, rfl, rfl, rfl, rfl, h, rfl⟩

theorem withSurfaces_local (k : Kernel) (s : Surfaces) :
    Local k (k.withObjects (k.objects.withSurfaces s)) :=
  ⟨⟨_, rfl⟩, rfl, rfl, rfl, rfl, rfl, rfl, rfl⟩

theorem retHandle_local (k : Kernel) {r : Option (ℕ × Capabilities)}
    (h : ∀ handle c, r = some (handle, c) →
      c.assignedServices = k.objects.caps.assignedServices) : Local k (k.retHandle r) := by
  cases r with
  | none => exact ret_local k _
  | some r => exact (withObjects_local k (o := { k.objects with caps := r.2 }) (h r.1 r.2 rfl)).ret _

@[simp] theorem retHandle_files (k : Kernel) (r : Option (ℕ × Capabilities)) :
    (k.retHandle r).files = k.files := by cases r <;> rfl

theorem syscallWrite_local (k : Kernel) (f : Frame) (user : ℕ → UInt8) :
    Local (k.withFiles (k.syscallWrite f user).files) (k.syscallWrite f user) := by
  unfold syscallWrite
  split
  · exact ret_local k _
  · split
    · exact ret_local k _
    · split
      · split
        · exact ret_local k _
        · exact ret_local (k.withFiles _) _
      · exact ret_local k _

theorem syscallClose_local (k : Kernel) (f : Frame) : Local k (k.syscallClose f) := by
  unfold syscallClose
  split
  · exact ret_local k _
  · rename_i o ho
    obtain ⟨-, slot, hrel⟩ := Objects.capabilityClose_spec ho
    exact (withObjects_local k (Objects.releaseSlot_released hrel).2).ret _

theorem syscallOpenFile_local (k : Kernel) (f : Frame) (user : ℕ → UInt8) :
    Local (k.withFiles (k.syscallOpenFile f user).files) (k.syscallOpenFile f user) := by
  unfold syscallOpenFile
  split
  · exact ret_local k _
  · split
    · exact ret_local k _
    · rw [retHandle_files]
      refine retHandle_local (k.withFiles _) fun handle c h => ?_
      obtain ⟨-, -, -, slot, -, hopen⟩ := Capabilities.capabilityOpenFile_spec h
      exact Opens_assigned hopen

theorem syscallDelete_local (k : Kernel) (f : Frame) (user : ℕ → UInt8) :
    Local (k.withFiles (k.syscallDelete f user).files) (k.syscallDelete f user) := by
  unfold syscallDelete
  split
  · exact ret_local k _
  · split
    · exact ret_local k _
    · exact ret_local (k.withFiles _) _

theorem syscallRename_local (k : Kernel) (f : Frame) (user : ℕ → UInt8) :
    Local (k.withFiles (k.syscallRename f user).files) (k.syscallRename f user) := by
  unfold syscallRename
  split
  · exact ret_local k _
  · split
    · exact ret_local k _
    · exact ret_local (k.withFiles _) _

theorem syscallIpcConnect_local (k : Kernel) (f : Frame) (user : ℕ → UInt8) :
    Local k (k.syscallIpcConnect f user) := by
  unfold syscallIpcConnect
  split
  · exact ret_local k _
  · refine retHandle_local k fun handle c h => ?_
    unfold Ipc.ipcConnect at h
    split_ifs at h
    split at h
    · cases h
    · obtain ⟨-, -, -, -, slot, -, hopen⟩ := Capabilities.capabilityOpenIpc_spec h
      exact Opens_assigned hopen

theorem syscallInputPoll_local (k : Kernel) (f : Frame) : Local k (k.syscallInputPoll f) := by
  unfold syscallInputPoll
  split
  · exact ret_local k _
  · split
    · exact ret_local k _
    · rename_i event input hpoll
      refine Local.ret ?_ _
      refine ⟨⟨_, rfl⟩, rfl, ?_, rfl, rfl, rfl, rfl, rfl⟩
      unfold Input.inputPoll at hpoll
      split_ifs at hpoll
      simp only [Option.some.injEq, Prod.mk.injEq] at hpoll
      rw [withInput_input, ← hpoll.2]

theorem syscallSurfaceCreate_local (k : Kernel) (f : Frame) :
    Local k (k.syscallSurfaceCreate f) := by
  unfold syscallSurfaceCreate
  split
  · exact ret_local k _
  · split
    · exact ret_local k _
    · rename_i id s hs
      have hopen := SurfaceOpening_assigned (Objects.capabilityOpenSurface_spec
        (k.objects.withSurfaces s) k.current id (rightRead ||| rightWrite ||| rightQuery))
      split
      all_goals
        rename_i heq
        rw [heq] at hopen
        exact Local.ret (withObjects_local k (by exact hopen)) _

theorem syscallSurfaceWrite_local (k : Kernel) (f : Frame) (user : ℕ → UInt8) :
    Local k (k.syscallSurfaceWrite f user) := by
  unfold syscallSurfaceWrite
  split
  · exact ret_local k _
  · split
    · exact ret_local k _
    · split
      · exact ret_local k _
      · extract_lets pixel
        split
        · exact ret_local k _
        · exact (withSurfaces_local k _).ret _

theorem syscallGrant_local (k : Kernel) (f : Frame) : Local k (k.syscallGrant f) := by
  unfold syscallGrant
  split
  · exact ret_local k _
  · rename_i target _
    refine Local.ret (withObjects_local k ?_) _
    rcases Objects.capabilityGrant_spec k.objects k.current f.rdi.toNat target
      (rightRead ||| rightQuery) with h | ⟨source, -, -, -, h⟩
    · rw [h]
    · exact SurfaceOpening_assigned h

theorem syscallSurfaceMap_local (k : Kernel) (f : Frame) :
    Local k (k.syscallSurfaceMap f) := by
  unfold syscallSurfaceMap
  split
  · exact ret_local k _
  · rename_i id _
    refine Local.ret ?_ _
    unfold mapSurfaceReadonly
    simp only
    split_ifs
    · exact .refl k
    · split
      · exact .refl k
      · split
        · exact .refl k
        · rename_i slot _
          split
          · exact .refl k
          · rename_i address pages _
            split_ifs
            · exact .refl k
            · split
              · exact .refl k
              · have hm := UserMemory.editSurfacePtes_same k.mem k.current slot address pages true
                split
                all_goals
                  rename_i heq
                  rw [heq] at hm
                  exact ⟨⟨_, rfl⟩, rfl, rfl, rfl, hm.used, hm.processMemory, rfl, rfl⟩

theorem syscallSurfaceDamage_local (k : Kernel) (f : Frame) :
    Local k (k.syscallSurfaceDamage f) := by
  unfold syscallSurfaceDamage
  split
  · exact ret_local k _
  · split
    · exact ret_local k _
    · exact (withSurfaces_local k _).ret _

theorem syscallTakeDamage_local (k : Kernel) (f : Frame) :
    Local k (k.syscallTakeDamage f) := by
  unfold syscallTakeDamage
  split
  · exact ret_local k _
  · split
    · exact ret_local k _
    · exact (withSurfaces_local k _).ret _

theorem syscallSurfaceUnmap_local (k : Kernel) (f : Frame) :
    Local k (k.syscallSurfaceUnmap f) := by
  unfold syscallSurfaceUnmap
  split
  · exact ret_local k _
  · split
    · exact ret_local k _
    · rename_i k' hk'
      unfold unmapSurfaceId at hk'
      split_ifs at hk'
      rw [Option.map_eq_some_iff] at hk'
      obtain ⟨slot, -, rfl⟩ := hk'
      refine Local.ret ?_ _
      have hm := UserMemory.editSurfacePtes_same k.mem k.current slot 0 0 false
      exact ⟨⟨_, rfl⟩, rfl, rfl, rfl, hm.used, hm.processMemory, rfl, rfl⟩

theorem retMem_local {k : Kernel} {m : UserMemory} (h : UserMemory.SameProcesses k.mem m)
    (rax : UInt64) : Local k ((k.withMem m).ret rax) := by
  refine Local.ret ?_ rax
  exact ⟨⟨_, rfl⟩, rfl, rfl, rfl, h.used, h.processMemory, rfl, rfl⟩

theorem syscallAnonymousUnmap_local (k : Kernel) (f : Frame) :
    Local k (k.syscallAnonymousUnmap f) := by
  unfold syscallAnonymousUnmap
  split
  · exact ret_local k _
  · exact retMem_local (UserMemory.anonymousRelease_same _ _) _

/-- The system calls that reach beyond the caller. -/
inductive Control (k : Kernel) (f : Frame) (user : ℕ → UInt8) : Kernel → Prop
  | yield : Control k f user ((k.ret 0).withSched (k.ret 0).sched.onYield)
  | exit (number : f.rax.toNat = 2) : Control k f user (k.syscallExit f)
  | write (number : f.rax.toNat = 6) : Control k f user (k.syscallWrite f user)
  | openFile (number : f.rax.toNat = 9) : Control k f user (k.syscallOpenFile f user)
  | delete (number : f.rax.toNat = 43) : Control k f user (k.syscallDelete f user)
  | rename (number : f.rax.toNat = 44) : Control k f user (k.syscallRename f user)
  | spawn (number : f.rax.toNat = 11) : Control k f user (k.syscallSpawn f user)
  | wait (number : f.rax.toNat = 12) : Control k f user (k.schedulerOnWait (low32 f.rdi))
  | terminate (number : f.rax.toNat = 13) : Control k f user (k.syscallTerminate f)
  | ipcCreate (number : f.rax.toNat = 14) : Control k f user (k.syscallIpcCreate f user)
  | send (number : f.rax.toNat = 16) : Control k f user (k.syscallSend f user)
  | receive (number : f.rax.toNat = 17) : Control k f user (k.syscallReceive f)
  | select (number : f.rax.toNat = 26) : Control k f user (k.syscallSelect f)
  | spawnAndWait (number : f.rax.toNat = 50) : Control k f user (k.syscallSpawnAndWait f user)
  | reapExited (number : f.rax.toNat = 51) : Control k f user k.syscallReapExited

theorem syscallDispatch_control (k : Kernel) (user : ℕ → UInt8) (dev : Devices) :
    Local k (k.syscallDispatch user dev)
      ∨ Control k (k.sched.frames k.current) user (k.syscallDispatch user dev) := by
  have call := k.syscallDispatch_call user dev
  generalize k.syscallDispatch user dev = k' at call
  cases call with
  | yield => exact .inr .yield
  | exit number => exact .inr (.exit number)
  | openService =>
    refine .inl (retHandle_local k fun handle c h => ?_)
    obtain ⟨-, -, -, -, slot, -, hopen⟩ := Capabilities.capabilityOpen_spec h
    exact Opens_assigned hopen
  | write number => exact .inr (.write number)
  | close => exact .inl (syscallClose_local k _)
  | openFile number => exact .inr (.openFile number)
  | delete number => exact .inr (.delete number)
  | rename number => exact .inr (.rename number)
  | spawn number => exact .inr (.spawn number)
  | wait number => exact .inr (.wait number)
  | terminate number => exact .inr (.terminate number)
  | ipcCreate number => exact .inr (.ipcCreate number)
  | ipcConnect => exact .inl (syscallIpcConnect_local k _ user)
  | send number => exact .inr (.send number)
  | receive number => exact .inr (.receive number)
  | inputPoll => exact .inl (syscallInputPoll_local k _)
  | surfaceCreate => exact .inl (syscallSurfaceCreate_local k _)
  | surfaceWrite => exact .inl (syscallSurfaceWrite_local k _ user)
  | grant => exact .inl (syscallGrant_local k _)
  | select number => exact .inr (.select number)
  | surfaceMap => exact .inl (syscallSurfaceMap_local k _)
  | surfaceDamage => exact .inl (syscallSurfaceDamage_local k _)
  | takeDamage => exact .inl (syscallTakeDamage_local k _)
  | surfaceUnmap => exact .inl (syscallSurfaceUnmap_local k _)
  | anonymousMap => exact .inl (retMem_local (UserMemory.anonymousMap_same _ _ _) _)
  | anonymousUnmap => exact .inl (syscallAnonymousUnmap_local k _)
  | anonymousReserve => exact .inl (retMem_local (UserMemory.anonymousReserve_same _ _ _) _)
  | anonymousCommit => exact .inl (retMem_local (UserMemory.anonymousCommit_same _ _ _ _) _)
  | spawnAndWait number => exact .inr (.spawnAndWait number)
  | reapExited number => exact .inr (.reapExited number)
  | value => exact .inl (ret_local k _)

end Kernel

end DemonOS
