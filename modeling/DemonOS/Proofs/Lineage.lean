import DemonOS.Proofs.Channels
import DemonOS.Proofs.Processes

/-!
# The tasks of a run and their origins

A task is created by a spawn with a parent and an address space, and keeps both until its slot is
emptied. `Scheduler.Heirs` says so of the task table and `Kernel.Survives` of the whole kernel,
where a task that is left also has its memory. Every event survives in this sense, but for at most
one spawn (`step_passes`).
-/

namespace DemonOS

variable {child pid : ℕ} {k k' : Kernel} {s s' : Scheduler}

namespace Scheduler

/-- No task is created, and each task that is left is of the same origin. -/
structure Heirs (s s' : Scheduler) : Prop where
  tasks : ∀ p, p ≠ 0 → s'.state p ≠ .unused →
    s.state p ≠ .unused ∧ (s'.tasks p).origin = (s.tasks p).origin
  idle : (s'.tasks 0).origin = (s.tasks 0).origin

theorem Heirs.refl (s : Scheduler) : Heirs s s := ⟨fun _ _ h => ⟨h, rfl⟩, rfl⟩

theorem Heirs.trans {s₁ s₂ s₃ : Scheduler} (h : Heirs s₁ s₂) (h' : Heirs s₂ s₃) :
    Heirs s₁ s₃ := by
  refine ⟨fun p hp hlive => ?_, h'.idle.trans h.idle⟩
  obtain ⟨hlive', horigin'⟩ := h'.tasks p hp hlive
  obtain ⟨hlive'', horigin⟩ := h.tasks p hp hlive'
  exact ⟨hlive'', horigin'.trans horigin⟩

theorem Heirs.unused (h : Heirs s s') {p : ℕ} (hp : p ≠ 0)
    (hu : s.state p = .unused) : s'.state p = .unused := by
  by_contra hlive
  exact (h.tasks p hp hlive).1 hu

theorem Heirs.of_tasks (h : s'.tasks = s.tasks) : Heirs s s' := by
  refine ⟨fun p _ hlive => ?_, by rw [h]⟩
  unfold state at *
  rw [h] at hlive ⊢
  exact ⟨hlive, rfl⟩

theorem Wakes.heirs (h : Wakes s s') : Heirs s s' := by
  have horigin : ∀ p, (s'.tasks p).origin = (s.tasks p).origin := by
    intro p
    rcases h.tasks p with heq | ⟨-, -, hp⟩
    · rw [heq]
    · exact hp
  exact ⟨fun p hp hlive => ⟨fun hu => hlive ((h.moves.unused hp).2 hu), horigin p⟩, horigin 0⟩

theorem Moves.heirs (h : Moves s s')
    (hidle : (s'.tasks 0).origin = (s.tasks 0).origin) : Heirs s s' := by
  refine ⟨fun p hp hlive => ⟨fun hu => hlive ((h.unused hp).2 hu), ?_⟩, hidle⟩
  rcases h p hp with heq | ⟨-, -, horigin⟩
  · rw [heq]
  · exact horigin

theorem Exits.heirs (h : Exits s pid s') (hpid : pid ≠ 0)
    (hgone : s'.state pid = .unused) : Heirs s s' := by
  refine ⟨fun p _ hlive => ?_, ?_⟩
  · have hne : p ≠ pid := fun heq => hlive (heq ▸ hgone)
    refine ⟨fun hu => hlive ((h.unused hne).2 hu), ?_⟩
    rcases h.tasks p hne with heq | ⟨-, -, horigin⟩
    · rw [heq]
    · exact horigin
  · rcases h.tasks 0 hpid.symm with heq | ⟨-, -, horigin⟩
    · rw [heq]
    · exact horigin

section

variable (s : Scheduler)

theorem setTask_origin {t : Task} (h : t.origin = (s.tasks pid).origin) (p : ℕ) :
    ((s.setTask pid t).tasks p).origin = (s.tasks p).origin := by
  rcases eq_or_ne p pid with rfl | hne
  · simpa using h
  · simp [hne]

theorem setState_origin (pid : ℕ) (st : TaskState) (p : ℕ) :
    ((s.setState pid st).tasks p).origin = (s.tasks p).origin :=
  setTask_origin s (t := { s.tasks pid with state := st }) rfl p

theorem dispatch_origin (pid p : ℕ) :
    ((s.dispatch pid).tasks p).origin = (s.tasks p).origin :=
  setTask_origin s (t := { s.tasks pid with state := .running, sliceTicks := 0 }) rfl p

theorem returnIdle_origin (p : ℕ) : (s.returnIdle.tasks p).origin = (s.tasks p).origin :=
  setState_origin s 0 .running p

theorem reschedule_origin (p : ℕ) : (s.reschedule.tasks p).origin = (s.tasks p).origin := by
  unfold reschedule
  simp only
  have hyield : ((if s.state s.currentPid = .running then s.setState s.currentPid .ready
      else s).tasks p).origin = (s.tasks p).origin := by
    split_ifs
    · exact setState_origin s _ _ p
    · rfl
  generalize (if s.state s.currentPid = .running then s.setState s.currentPid .ready
    else s) = s₁ at hyield ⊢
  rw [← hyield]
  split
  · split_ifs
    · exact setState_origin s₁ _ _ p
    · exact returnIdle_origin s₁ p
  · exact dispatch_origin s₁ _ p

theorem reschedule_heirs : Heirs s s.reschedule :=
  (reschedule_moves s).heirs (reschedule_origin s 0)

theorem returnIdle_heirs : Heirs s s.returnIdle :=
  (returnIdle_moves s).heirs (returnIdle_origin s 0)

theorem onYield_heirs : Heirs s s.onYield := by
  unfold onYield
  split_ifs
  · exact .refl s
  · exact reschedule_heirs s

end

theorem dispatch_heirs (h : s.state pid = .ready) :
    Heirs s (s.dispatch pid) := (dispatch_moves h).heirs (dispatch_origin s pid 0)

theorem setTask_heirs {t : Task} (hlive : s.state pid ≠ .unused)
    (h : t.origin = (s.tasks pid).origin) : Heirs s (s.setTask pid t) := by
  refine ⟨fun p _ hl => ⟨?_, setTask_origin s h p⟩, setTask_origin s h 0⟩
  rcases eq_or_ne p pid with rfl | hne
  · exact hlive
  · simpa [state, hne] using hl

theorem Inv.live (hs : s.Inv) (hne : s.currentPid ≠ 0) :
    s.state s.currentPid ≠ .unused := by
  rw [hs.running hne]
  decide

theorem chargeSlice_heirs (hs : s.Inv) : Heirs s s.chargeSlice := by
  unfold chargeSlice
  split_ifs with hidle
  · exact .refl s
  · simp only [not_or] at hidle
    simp only
    have hslice := setTask_heirs (s := s) (t := { s.tasks s.currentPid with
      sliceTicks := (s.tasks s.currentPid).sliceTicks + 1 }) (hs.live hidle.2) rfl
    split_ifs
    · exact hslice
    · exact hslice.trans (reschedule_heirs _)

theorem blockCurrent_heirs (hs : s.Inv) : Heirs s s.blockCurrent := by
  unfold blockCurrent
  split_ifs with hidle
  · exact .refl s
  · simp only [not_or] at hidle
    refine Heirs.trans ?_ (reschedule_heirs _)
    exact setTask_heirs (hs.live hidle.2) rfl

theorem blockCurrentTimeout_heirs (hs : s.Inv) (delay result : UInt64) :
    Heirs s (s.blockCurrentTimeout delay result) := by
  unfold blockCurrentTimeout
  split_ifs with hidle
  · exact blockCurrent_heirs hs
  · simp only [not_or] at hidle
    refine Heirs.trans ?_ (reschedule_heirs _)
    exact setTask_heirs (hs.live hidle.2.1) rfl

theorem startUsers_heirs (h : s.startUsers = some s') : Heirs s s' := by
  refine (Kernel.startUsers_moves h).1.heirs ?_
  unfold startUsers at h
  split_ifs at h
  split at h
  · cases h
  · simp only [Option.some.injEq] at h
    rw [← h, dispatch_origin]
    exact setState_origin s 0 .ready 0

def Spawns (parent : ℕ) (s s' : Scheduler) : Prop :=
  ∀ p, s'.tasks p = s.tasks p ∨ (UserMemory.validPid p ∧ s.state p = .unused ∧ ∃ space, s'.tasks p
    = { parentPid := parent, state := .ready, addressSpace := space, waitingFor := none })

theorem Spawns.trans {parent : ℕ} {s₁ s₂ s₃ : Scheduler} (h : Spawns parent s₁ s₂)
    (h' : Spawns parent s₂ s₃) : Spawns parent s₁ s₃ := by
  intro p
  rcases h p with heq | ⟨hp, hu, space, ht⟩
  · unfold state
    rw [← heq]
    exact h' p
  · rcases h' p with heq' | ⟨-, hu', -⟩
    · exact .inr ⟨hp, hu, space, heq'.trans ht⟩
    · unfold state at hu'
      rw [ht] at hu'
      cases hu'

end Scheduler

open Scheduler

namespace Kernel

/-- No task is created, and each task that is left is of the same origin and as loaded as before. -/
structure Survives (k k' : Kernel) : Prop where
  heirs : Heirs k.sched k'.sched
  used : ∀ p, p ≠ 0 → k'.sched.state p ≠ .unused →
    k'.mem.processMemoryUsed p = k.mem.processMemoryUsed p
  memory : k'.mem.processMemory = k.mem.processMemory

theorem Survives.trans {k₁ k₂ k₃ : Kernel} (h : Survives k₁ k₂) (h' : Survives k₂ k₃) :
    Survives k₁ k₃ := by
  refine ⟨h.heirs.trans h'.heirs, fun p hp hlive => ?_, h'.memory.trans h.memory⟩
  exact (h'.used p hp hlive).trans (h.used p hp (h'.heirs.tasks p hp hlive).1)

theorem SameStores.survives (h : SameStores k k')
    (hs : Heirs k.sched k'.sched) : Survives k k' :=
  ⟨hs, fun _ _ _ => by rw [h.mem], by rw [h.mem]⟩

theorem Survives.refl (k : Kernel) : Survives k k := (SameStores.refl k).survives (.refl _)

theorem Local.survives (h : Local k k') : Survives k k' :=
  ⟨h.sameTasks.wakes.heirs, fun _ _ _ => by rw [h.used], h.memory⟩

theorem Local.survives_of_files {files : Ramfs}
    (h : Local (k.withFiles files) k') : Survives k k' :=
  let h := h.survives
  ⟨h.heirs, h.used, h.memory⟩

theorem withSched_survives (h : Heirs k.sched s) :
    Survives k (k.withSched s) := (withSched_same k s).survives h

theorem ret_survives (k : Kernel) (rax : UInt64) : Survives k (k.ret rax) :=
  (ret_local k rax).survives

theorem ret2_survives (k : Kernel) (rax rdx : UInt64) : Survives k (k.ret2 rax rdx) :=
  withSched_survives (setFrame_wakes _ _ _).heirs

/-! ## The end of a process -/

theorem ipcProcessCleanup_survives (k : Kernel) (pid : ℕ) :
    Survives k (k.ipcProcessCleanup pid) :=
  (ipcProcessCleanup_same k pid).survives (ipcProcessCleanup_wakes k pid).heirs

theorem closeAll_survives (k : Kernel) (pid : ℕ) : Survives k (k.closeAll pid) :=
  ⟨.refl _, fun _ _ _ => rfl, rfl⟩

theorem cleanup_survives (k : Kernel) (pid : ℕ) :
    Survives k ((k.ipcProcessCleanup pid).closeAll pid) :=
  (ipcProcessCleanup_survives k pid).trans (closeAll_survives _ pid)

theorem freeSlot_gone (k : Kernel) (child : ℕ) : (k.freeSlot child).sched.state child = .unused := by
  simp [freeSlot, state]

theorem userspaceReleaseProcess_memory (k : Kernel) (pid : ℕ) :
    (k.userspaceReleaseProcess pid).mem.processMemory = k.mem.processMemory
      ∧ ∀ p, p ≠ pid → (k.userspaceReleaseProcess pid).mem.processMemoryUsed p
        = k.mem.processMemoryUsed p := by
  have hmem : ((k.ipcProcessCleanup pid).closeAll pid).mem = k.mem :=
    (ipcProcessCleanup_same k pid).mem
  have hunmap := unmapSurface_same ((k.ipcProcessCleanup pid).closeAll pid) pid
  have hused := hunmap.used
  have hmemory := hunmap.memory
  rw [hmem] at hused hmemory
  unfold userspaceReleaseProcess
  split_ifs
  · simp only
    generalize ((k.ipcProcessCleanup pid).closeAll pid).unmapSurface pid = k₁ at hused hmemory ⊢
    have hsame := (UserMemory.anonymousRelease_same k₁.mem pid).trans
      (UserMemory.largeCodeRelease_same _ pid)
    refine ⟨hsame.processMemory.trans hmemory, fun p hp => ?_⟩
    simp [hp, hsame.used, hused]
  · exact ⟨rfl, fun _ _ => rfl⟩

theorem freeSlot_survives (k : Kernel) (hchild : UserMemory.validPid child) :
    Survives k (k.freeSlot child) := by
  obtain ⟨hmemory, hused⟩ := userspaceReleaseProcess_memory k child
  refine ⟨(freeSlot_spec k hchild).2.heirs hchild.1 (freeSlot_gone k child), fun p _ hlive => ?_,
    hmemory⟩
  exact hused p fun heq => hlive (heq ▸ freeSlot_gone k child)

def ParentWaits (k : Kernel) (child : ℕ) : Prop :=
  let parent := (k.sched.tasks child).parentPid
  parent ≠ 0 ∧ parent < processLimit ∧ k.sched.state parent = .blocked
    ∧ ((k.sched.tasks parent).waitingFor = some 0
      ∨ (k.sched.tasks parent).waitingFor = some child)

instance (k : Kernel) (child : ℕ) : Decidable (k.ParentWaits child) :=
  inferInstanceAs (Decidable (_ ∧ _))

theorem parentWaits_iff (k : Kernel) (child : ℕ) :
    k.ParentWaits child ↔ ¬((k.sched.tasks child).parentPid = 0
      ∨ processLimit ≤ (k.sched.tasks child).parentPid
      ∨ k.sched.state (k.sched.tasks child).parentPid ≠ .blocked
      ∨ ((k.sched.tasks (k.sched.tasks child).parentPid).waitingFor ≠ some 0
        ∧ (k.sched.tasks (k.sched.tasks child).parentPid).waitingFor ≠ some child)) := by
  simp only [ParentWaits, not_or, not_not, not_le, not_and_or, ne_eq]

theorem wakeWaitingParent_of_not (h : ¬k.ParentWaits child) :
    k.wakeWaitingParent child = k := by
  rw [parentWaits_iff, not_not] at h
  unfold wakeWaitingParent
  rw [if_pos h]

theorem wakeWaitingParent_of_waits (h : k.ParentWaits child) :
    ∃ s, Wakes k.sched s ∧ s.state (k.sched.tasks child).parentPid = .ready
      ∧ k.wakeWaitingParent child = (k.withSched s).freeSlot child := by
  have hblocked := h.2.2.1
  rw [parentWaits_iff] at h
  unfold wakeWaitingParent
  rw [if_neg h]
  generalize (k.sched.tasks child).parentPid = parent at hblocked
  refine ⟨(k.sched.setResult parent (UInt64.ofNat child) (k.sched.tasks child).exitCode).setTask
    parent { k.sched.tasks parent with waitingFor := none, state := .ready },
    ⟨rfl, rfl, rfl, fun p => ?_⟩, by simp [state], rfl⟩
  rcases eq_or_ne p parent with rfl | hp
  · exact .inr ⟨hblocked, by simp [state], by simp⟩
  · exact .inl (by simp [hp])

theorem wakeWaitingParent_survives (k : Kernel) (hchild : UserMemory.validPid child) :
    Survives k (k.wakeWaitingParent child) := by
  by_cases h : k.ParentWaits child
  · obtain ⟨s, hw, -, heq⟩ := wakeWaitingParent_of_waits h
    rw [heq]
    exact (withSched_survives hw.heirs).trans (freeSlot_survives (k.withSched s) hchild)
  · rw [wakeWaitingParent_of_not h]
    exact .refl k

def markExited (k : Kernel) (pid : ℕ) (code : UInt64) : Kernel :=
  k.withSched (k.sched.setTask pid
    { k.sched.tasks pid with exitCode := code, state := .exited })

theorem markExited_survives (hlive : k.sched.state pid ≠ .unused)
    (code : UInt64) : Survives k (k.markExited pid code) :=
  withSched_survives (setTask_heirs hlive rfl)

theorem exitTask_survives (hpid : UserMemory.validPid pid)
    (hlive : k.sched.state pid ≠ .unused) (code : UInt64) : Survives k (k.exitTask pid code) :=
  (markExited_survives hlive code).trans
    (wakeWaitingParent_survives (k.markExited pid code) hpid)

theorem schedulerOnExit_survives (hs : k.sched.Inv) (code : UInt64) :
    Survives k (k.schedulerOnExit code) := by
  unfold schedulerOnExit
  split_ifs with hidle
  · exact .refl k
  · simp only [not_or] at hidle
    have h := exitTask_survives ⟨hidle.2, hs.current_lt⟩ (hs.live hidle.2) code
    simp only
    split
    · rename_i next hnext
      exact h.trans (withSched_survives (dispatch_heirs (nextReady_spec hnext).2.2))
    · exact h.trans (withSched_survives (returnIdle_heirs _))

theorem schedulerTerminate_survives {code : UInt64}
    (h : k.schedulerTerminate pid code = some k') : Survives k k' := by
  unfold schedulerTerminate at h
  split_ifs at h with hc
  simp only [not_or, not_le] at hc
  simp only [Option.some.injEq] at h
  rw [← h]
  exact exitTask_survives ⟨hc.1, hc.2.1⟩ hc.2.2.2.1 code

theorem schedulerReap_eq {parent child : ℕ} {code : UInt64}
    (h : k.schedulerReap parent child = some (code, k')) :
    UserMemory.validPid child ∧ (k.sched.tasks child).parentPid = parent
      ∧ k.sched.state child = .exited ∧ k' = k.freeSlot child := by
  unfold schedulerReap at h
  split_ifs at h with hc
  simp only [not_or, not_not, not_le] at hc
  simp only [Option.some.injEq, Prod.mk.injEq] at h
  exact ⟨⟨hc.1, hc.2.1⟩, hc.2.2.1, hc.2.2.2, h.2.symm⟩

theorem schedulerReap_survives {parent child : ℕ} {code : UInt64}
    (h : k.schedulerReap parent child = some (code, k')) : Survives k k' := by
  obtain ⟨hchild, -, -, rfl⟩ := schedulerReap_eq h
  exact freeSlot_survives k hchild

theorem schedulerOnWait_survives (hs : k.sched.Inv) (hne : k.sched.currentPid ≠ 0)
    (child : ℕ) : Survives k (k.schedulerOnWait child) := by
  unfold schedulerOnWait
  simp only
  split
  · rename_i status k' hr
    exact (schedulerReap_survives hr).trans (withSched_survives (setFrame_wakes _ _ _).heirs)
  · split_ifs
    · exact withSched_survives (setFrame_wakes _ _ _).heirs
    · refine withSched_survives (Heirs.trans ?_ (reschedule_heirs _))
      exact setTask_heirs (hs.live hne) rfl

theorem schedulerOnTimerTick_survives (hs : k.sched.Inv) :
    Survives k k.schedulerOnTimerTick := by
  have hcount : Wakes k.sched k.countTick.sched := ⟨rfl, rfl, rfl, fun _ => .inl rfl⟩
  have htick := hcount.trans (expireWaits_wakes k.countTick)
  refine (schedulerOnTimerTick_same k).survives ?_
  unfold schedulerOnTimerTick
  generalize k.countTick.expireWaits = k₁ at htick ⊢
  exact htick.heirs.trans (chargeSlice_heirs (htick.inv hs))

/-! ## Spawning -/

theorem loadProcess_spawns (k : Kernel) (expectedPid parentPid : ℕ) (image : List UInt8)
    (mask : BitVec 32) :
    Spawns parentPid k.sched (k.loadProcess expectedPid parentPid image mask).2.sched := by
  unfold loadProcess
  split
  · exact fun _ => .inl rfl
  · simp only
    split
    · exact fun _ => .inl rfl
    · rename_i m _ _ pid s hcreate
      obtain ⟨hpos, hlt, -, hunused, -, -, htasks⟩ := createUser_spec hcreate
      have hs : Spawns parentPid k.sched s := by
        intro p
        rw [htasks]
        rcases eq_or_ne p pid with rfl | hp
        · exact .inr ⟨⟨hpos, hlt⟩, hunused, (m.processMemory expectedPid).addressSpace, by simp⟩
        · exact .inl (by simp [hp])
      split_ifs
      · exact hs
      · split <;> exact hs

theorem spawnLoop_spawns (parentPid : ℕ) (image : List UInt8) (mask : BitVec 32) :
    ∀ (candidates : List ℕ) (k : Kernel),
      Spawns parentPid k.sched (spawnLoop parentPid image mask candidates k).2.sched
  | [], _ => fun _ => .inl rfl
  | candidate :: candidates, k => by
    unfold spawnLoop
    have hload := loadProcess_spawns k candidate parentPid image mask
    split_ifs
    · exact spawnLoop_spawns parentPid image mask candidates k
    · generalize k.loadProcess candidate parentPid image mask = r at hload
      obtain ⟨_ | _, k'⟩ := r
      · exact hload.trans (spawnLoop_spawns parentPid image mask candidates k')
      · exact hload

theorem userspaceSpawnPath_spawns (k : Kernel) (parentPid : ℕ) (path : List UInt8)
    (mask : BitVec 32) :
    Spawns parentPid k.sched (k.userspaceSpawnPath parentPid path mask).2.sched := by
  unfold userspaceSpawnPath
  split_ifs
  · exact fun _ => .inl rfl
  · split
    · exact fun _ => .inl rfl
    · split
      · exact fun _ => .inl rfl
      · exact spawnLoop_spawns parentPid _ mask _ k

theorem userspaceInit_spawns {image : List UInt8}
    (h : k.userspaceInit image = some k') : Spawns 0 k.sched k'.sched := by
  unfold userspaceInit at h
  have h1 := loadProcess_spawns k 1 0 image bootstrapServices
  split at h
  · cases h
  · rename_i k₁ heq₁
    rw [heq₁] at h1
    have h2 := loadProcess_spawns k₁ 2 0 image bootstrapServices
    split at h
    · cases h
    · rename_i k₂ heq₂
      rw [heq₂] at h2
      simp only [Option.some.injEq] at h
      subst h
      exact h1.trans h2

/-! ## System calls -/

theorem syscallExit_survives (hs : k.sched.Inv) (f : Frame) :
    Survives k (k.syscallExit f) := by
  have hclean := cleanup_survives k k.current
  have hinv : ((k.ipcProcessCleanup k.current).closeAll k.current).sched.Inv :=
    (ipcProcessCleanup_wakes k k.current).inv hs
  exact hclean.trans (schedulerOnExit_survives hinv _)

theorem syscallTerminate_survives (k : Kernel) (f : Frame) : Survives k (k.syscallTerminate f) := by
  have hclean := cleanup_survives k (low32 f.rdi)
  unfold syscallTerminate
  simp only
  generalize (k.ipcProcessCleanup (low32 f.rdi)).closeAll (low32 f.rdi) = k₁ at hclean ⊢
  split
  · exact hclean.trans (ret_survives k₁ _)
  · rename_i k' hk'
    exact (hclean.trans (schedulerTerminate_survives hk')).trans (ret_survives k' _)

theorem syscallReapExited_survives (k : Kernel) : Survives k k.syscallReapExited := by
  unfold syscallReapExited
  split
  · exact ret2_survives k _ _
  · rename_i k' hk'
    exact (schedulerReap_survives (schedulerReapExited_eq hk')).trans (ret2_survives k' _ _)

theorem syscallIpcCreate_survives (k : Kernel) (f : Frame) (user : ℕ → UInt8) :
    Survives k (k.syscallIpcCreate f user) := by
  have h := syscallIpcCreate_same k f user
  refine ⟨h.wakes.heirs, fun _ _ _ => by rw [h.used], ?_⟩
  unfold syscallIpcCreate
  split <;> rfl

theorem syscallSend_survives (hs : k.sched.Inv) (f : Frame) (user : ℕ → UInt8) :
    Survives k (k.syscallSend f user) := by
  unfold syscallSend
  split
  · exact ret_survives k _
  · have hsame := ipcSendImpl_same k k.current f.rdi.toNat
      (readUser user f.rsi.toNat f.rdx.toNat) true
    have hwakes := ipcSendImpl_wakes k k.current f.rdi.toNat
      (readUser user f.rsi.toNat f.rdx.toNat) true
    unfold ipcSendBlock
    generalize k.ipcSendImpl k.current f.rdi.toNat (readUser user f.rsi.toNat f.rdx.toNat) true
      = r at hsame hwakes
    obtain ⟨result, k₁⟩ := r
    have h := hsame.survives hwakes.heirs
    cases result with
    | failed => exact h.trans (ret_survives k₁ _)
    | delivered => exact h.trans (ret_survives k₁ _)
    | parked => exact h.trans (withSched_survives (blockCurrent_heirs (hwakes.inv hs)))

theorem syscallReceive_survives (hs : k.sched.Inv) (f : Frame) :
    Survives k (k.syscallReceive f) := by
  unfold syscallReceive
  split
  · exact ret_survives k _
  · split
    · rename_i m k' hr
      refine ((ipcReceive_same hr).survives (ipcReceive_wakes hr).heirs).trans ?_
      split
      · exact ret_survives k' _
      · exact ret2_survives k' _ _
    · split
      · exact ret_survives k _
      · split
        · exact ret_survives k _
        · exact SameStores.survives ⟨rfl, rfl, rfl, rfl⟩ (blockCurrent_heirs hs)

theorem syscallSelect_survives (hs : k.sched.Inv) (f : Frame) :
    Survives k (k.syscallSelect f) := by
  have hframe : ∀ g, Heirs k.sched (k.sched.setFrame k.current g) :=
    fun g => (setFrame_wakes _ _ g).heirs
  unfold syscallSelect
  split
  · exact ret_survives k _
  · split
    · rename_i m k' hr
      exact ((ipcReceive_same hr).survives (ipcReceive_wakes hr).heirs).trans (ret2_survives k' _ _)
    · split
      · exact SameStores.survives ⟨rfl, rfl, rfl, rfl⟩ (hframe _)
      · split
        · exact SameStores.survives ⟨rfl, rfl, rfl, rfl⟩ (hframe _)
        · split
          · exact SameStores.survives ⟨rfl, rfl, rfl, rfl⟩ (hframe _)
          · refine SameStores.survives ⟨rfl, rfl, rfl, rfl⟩ ?_
            split_ifs
            · exact blockCurrentTimeout_heirs hs _ _
            · exact blockCurrent_heirs hs

/-! ## One step -/

def actor (k : Kernel) : Event → ℕ
  | .syscall _ _ _ => k.current
  | _ => 0

def spawnedPath (k : Kernel) : Event → Option (List UInt8)
  | .syscall registers user _ =>
    if k.userMode ∧ (registers.rax.toNat = 11 ∨ registers.rax.toNat = 50)
        ∧ k.validPath registers = true then
      some (readUser user registers.rdi.toNat registers.rsi.toNat)
    else none
  | .kernel (.spawn path _) => if k.sched.usersRunning then none else some path
  | _ => none

/-- What a spawn starts from: the kernel, but for registers and waits. -/
structure Poised (k k₀ : Kernel) : Prop where
  stores : SameStores k k₀
  tasks : k₀.sched.tasks = k.sched.tasks
  inv : k.sched.Inv → k₀.sched.Inv

theorem enter_poised (k : Kernel) (registers : Frame) : Poised k (k.enter registers) :=
  ⟨withSched_same k _, rfl, (enter_same k registers).wakes.inv⟩

theorem Poised.survives {k k₀ : Kernel} (h : Poised k k₀) : Survives k k₀ :=
  h.stores.survives (.of_tasks h.tasks)

/-- An event creates tasks by one spawn or by `userspace_init`, if at all; all else survives. -/
inductive Passes (k : Kernel) (e : Event) (k' : Kernel) : Prop
  | survives (h : Survives k k')
  | spawns {k₀ : Kernel} {path : List UInt8} (mask : BitVec 32) (poised : Poised k k₀)
    (requested : k.spawnedPath e = some path)
    (after : Survives (k₀.userspaceSpawnPath (k.actor e) path mask).2 k')
  | init {image : List UInt8} (event : e = .kernel (.init image))
    (h : k.userspaceInit image = some k')

theorem userspaceSpawnPath_inv (hs : k.sched.Inv) (parentPid : ℕ) (path : List UInt8)
    (mask : BitVec 32) : (k.userspaceSpawnPath parentPid path mask).2.sched.Inv := by
  rcases userspaceSpawnPath_births k parentPid path mask with heq | ⟨-, hb⟩
  · rw [heq]
    exact hs
  · exact hb.inv hs

theorem userspaceSpawnPath_currentPid (k : Kernel) (parentPid : ℕ) (path : List UInt8)
    (mask : BitVec 32) :
    (k.userspaceSpawnPath parentPid path mask).2.sched.currentPid = k.sched.currentPid := by
  rcases userspaceSpawnPath_births k parentPid path mask with heq | ⟨-, hb⟩
  · rw [heq]
  · exact hb.currentPid

theorem spawnAndWait_survives (hs : k.sched.Inv) (hne : k.sched.currentPid ≠ 0)
    (pid parent : ℕ) (path : List UInt8) (mask : BitVec 32) :
    Survives ((k.cancelWaits pid).userspaceSpawnPath parent path mask).2
      (match (k.cancelWaits pid).userspaceSpawnPath parent path mask with
        | (none, k) => k.ret u64Max
        | (some pid, k) => k.schedulerOnWait pid) := by
  have hinv := userspaceSpawnPath_inv (k := k.cancelWaits pid) hs parent path mask
  have hcur := userspaceSpawnPath_currentPid (k.cancelWaits pid) parent path mask
  generalize (k.cancelWaits pid).userspaceSpawnPath parent path mask = r at hinv hcur ⊢
  obtain ⟨_ | child, k₁⟩ := r
  · exact ret_survives k₁ _
  · refine schedulerOnWait_survives hinv ?_ child
    rw [hcur]
    exact hne

theorem syscallDispatch_passes (hs : k.sched.Inv) (hu : k.userMode)
    (registers : Frame) (user : ℕ → UInt8) (dev : Devices) :
    Passes k (.syscall registers user dev) ((k.enter registers).syscallDispatch user dev) := by
  have hpoised := enter_poised k registers
  have henter := hpoised.survives
  have hinv := hpoised.inv hs
  have hcontrol := (k.enter registers).syscallDispatch_control user dev
  rw [enter_frame] at hcontrol
  generalize (k.enter registers).syscallDispatch user dev = k' at hcontrol
  rcases hcontrol with hlocal | control
  · exact .survives (henter.trans hlocal.survives)
  cases control with
  | yield =>
    exact .survives (henter.trans ((ret_survives _ 0).trans
      (withSched_survives (onYield_heirs _))))
  | exit => exact .survives (henter.trans (syscallExit_survives hinv _))
  | write => exact .survives (henter.trans (syscallWrite_local _ _ user).survives_of_files)
  | openFile => exact .survives (henter.trans (syscallOpenFile_local _ _ user).survives_of_files)
  | delete => exact .survives (henter.trans (syscallDelete_local _ _ user).survives_of_files)
  | rename => exact .survives (henter.trans (syscallRename_local _ _ user).survives_of_files)
  | spawn number =>
    unfold syscallSpawn
    split
    · exact .survives (henter.trans (ret_survives _ _))
    · rename_i hpath
      rw [Bool.not_eq_true, Bool.not_eq_false'] at hpath
      exact .spawns _ hpoised (if_pos ⟨hu, .inl number, hpath⟩) (ret_survives _ _)
  | wait => exact .survives (henter.trans (schedulerOnWait_survives hinv hu.2 _))
  | terminate => exact .survives (henter.trans (syscallTerminate_survives _ _))
  | ipcCreate => exact .survives (henter.trans (syscallIpcCreate_survives _ _ user))
  | send => exact .survives (henter.trans (syscallSend_survives hinv _ user))
  | receive => exact .survives (henter.trans (syscallReceive_survives hinv _))
  | select => exact .survives (henter.trans (syscallSelect_survives hinv _))
  | spawnAndWait number =>
    unfold syscallSpawnAndWait
    split
    · exact .survives (henter.trans (ret_survives _ _))
    · rename_i hpath
      rw [Bool.not_eq_true, Bool.not_eq_false'] at hpath
      have hcancelled : Poised k ((k.enter registers).cancelWaits (k.enter registers).current) :=
        ⟨⟨rfl, rfl, rfl, rfl⟩, rfl, fun _ => hinv⟩
      exact .spawns _ hcancelled (if_pos ⟨hu, .inr number, hpath⟩)
        (spawnAndWait_survives hinv hu.2 _ _ _ _)
  | reapExited => exact .survives (henter.trans (syscallReapExited_survives _))

theorem step_passes (hs : k.sched.Inv) (e : Event) : Passes k e (k.step e) := by
  cases e with
  | syscall registers user dev =>
    simp only [step]
    split_ifs with hu
    · exact syscallDispatch_passes hs hu registers user dev
    · exact .survives (.refl k)
  | timerTick registers =>
    simp only [step]
    split_ifs
    · have henter := enter_poised k registers
      exact .survives (henter.survives.trans (schedulerOnTimerTick_survives (henter.inv hs)))
    · exact .survives (schedulerOnTimerTick_survives hs)
  | input event =>
    exact .survives ((inputPublish_same k event).survives (inputPublish_wakes k event).heirs)
  | kernel call =>
    simp only [step]
    split_ifs with hu
    · exact .survives (.refl k)
    cases call with
    | init image =>
      simp only [kernelCall]
      split_ifs
      · exact .survives (.refl k)
      · cases h : k.userspaceInit image with
        | none => exact .survives (.refl k)
        | some k' => exact .init rfl h
    | startUsers =>
      simp only [kernelCall]
      split_ifs
      · cases h : k.sched.startUsers with
        | none => exact .survives (.refl k)
        | some s => exact .survives (withSched_survives (startUsers_heirs h))
      · exact .survives (.refl k)
    | spawn path mask =>
      refine .spawns mask ⟨.refl k, rfl, id⟩ (if_neg hu) ?_
      exact .refl _
    | reap child =>
      simp only [kernelCall]
      cases h : k.schedulerReap 0 child with
      | none => exact .survives (.refl k)
      | some r => exact .survives (schedulerReap_survives h)
    | kill pid =>
      simp only [kernelCall]
      cases h : k.schedulerTerminate pid 137 with
      | none => exact .survives (.refl k)
      | some k' => exact .survives (schedulerTerminate_survives h)
    | discardInput => exact .survives (SameStores.survives ⟨rfl, rfl, rfl, rfl⟩ (.refl _))
    | file call => exact .survives ⟨.refl _, fun _ _ _ => rfl, rfl⟩

end Kernel

end DemonOS
