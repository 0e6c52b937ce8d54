import DemonOS.Proofs.Calls
import DemonOS.Proofs.Objects
import DemonOS.Proofs.Tasks

/-!
# The life of processes along a run

A slot has a task, a loaded address space and a mask of services. `Births` is what spawning does to
them and `Wanes` everything else: a slot is emptied only with its capabilities and its mask. So in
every state of every run a process that holds a capability or may open one is loaded, and a loaded
slot has a task (`ProcInv`).
-/

namespace DemonOS

open Scheduler

namespace Kernel

variable {code : UInt64} {image : List UInt8} {k k' k₁ : Kernel} {mask : BitVec 32} {pid : ℕ}

/-- Slots are emptied, masks dropped and capabilities closed, none the other way. -/
structure Wanes (k k' : Kernel) : Prop where
  shrinks : Shrinks k.view k'.view
  initialized : k'.initialized = k.initialized
  unused : ∀ p, p ≠ 0 → k.sched.state p = .unused → k'.sched.state p = .unused
  emptied : ∀ p, p ≠ 0 → k'.sched.state p = .unused →
    k.sched.state p = .unused ∨ k'.mem.processMemoryUsed p = false
  used : ∀ p, k'.mem.processMemoryUsed p = true → k.mem.processMemoryUsed p = true
  assigned : ∀ p, k'.objects.caps.assignedServices p = k.objects.caps.assignedServices p
    ∨ k'.objects.caps.assignedServices p = 0#32
  closed : ∀ p, k.mem.processMemoryUsed p = true → k'.mem.processMemoryUsed p = false →
    k'.objects.caps.assignedServices p = 0#32
      ∧ ∀ slot < slotsPerProcess, (k'.objects.caps.entry p slot).isOpen = false

theorem Wanes.trans {k₁ k₂ k₃ : Kernel} (h : Wanes k₁ k₂) (h' : Wanes k₂ k₃) : Wanes k₁ k₃ where
  shrinks := h.shrinks.trans h'.shrinks
  initialized := h'.initialized.trans h.initialized
  unused p hp hu := h'.unused p hp (h.unused p hp hu)
  emptied p hp hu := by
    rcases h'.emptied p hp hu with hu | hused
    · refine (h.emptied p hp hu).imp_right fun hused => ?_
      by_contra hused'
      rw [h'.used p (by simpa using hused')] at hused
      cases hused
    · exact .inr hused
  used p hp := h.used p (h'.used p hp)
  assigned p := by
    rcases h'.assigned p with heq | hz
    · rw [heq]
      exact h.assigned p
    · exact .inr hz
  closed p hused hused' := by
    cases hmid : k₂.mem.processMemoryUsed p with
    | true => exact h'.closed p hmid hused'
    | false =>
      obtain ⟨hz, hclosed⟩ := h.closed p hused hmid
      refine ⟨?_, fun slot hslot => ?_⟩
      · rcases h'.assigned p with heq | hz'
        · rw [heq, hz]
        · exact hz'
      · rcases h'.shrinks.released p slot with heq | ⟨hopen, -⟩
        · exact (congrArg SlotEntry.isOpen heq).trans (hclosed slot hslot)
        · exact absurd ((hclosed slot hslot).symm.trans hopen) (by simp)

/-- Only the scheduler, the channels and the input queue change, and no task slot is emptied or
filled. -/
theorem SameStores.wanes (h : SameStores k k')
    (hs : ∀ p, p ≠ 0 → (k'.sched.state p = .unused ↔ k.sched.state p = .unused)) :
    Wanes k k' where
  shrinks := h.shrinks
  initialized := h.initialized
  unused p hp := (hs p hp).2
  emptied p hp hu := .inl ((hs p hp).1 hu)
  used p hp := h.mem ▸ hp
  assigned p := .inl (by rw [h.objects])
  closed p hused hused' := by
    rw [h.mem, hused] at hused'
    cases hused'

theorem SameStores.wanes_of_moves (h : SameStores k k')
    (hs : Moves k.sched k'.sched) : Wanes k k' := h.wanes fun _ hp => hs.unused hp

theorem Wanes.refl (k : Kernel) : Wanes k k := (SameStores.refl k).wanes fun _ _ => Iff.rfl

theorem withSched_wanes (k : Kernel) {s : Scheduler} (hs : Moves k.sched s) :
    Wanes k (k.withSched s) := (withSched_same k s).wanes_of_moves hs

theorem ipcProcessCleanup_wanes (k : Kernel) (pid : ℕ) : Wanes k (k.ipcProcessCleanup pid) :=
  (ipcProcessCleanup_same k pid).wanes_of_moves (ipcProcessCleanup_wakes k pid).moves

theorem closeAll_wanes (k : Kernel) (pid : ℕ) : Wanes k (k.closeAll pid) where
  shrinks := (closeAll_lifecycle k pid).view
  initialized := rfl
  unused p _ hu := hu
  emptied p _ hu := .inl hu
  used p hp := hp
  assigned p := by
    rw [show (k.closeAll pid).objects = k.objects.capabilitiesCloseAll pid from rfl,
      Objects.capabilitiesCloseAll_assignedServices]
    split_ifs
    · exact .inl rfl
    · rcases eq_or_ne p pid with rfl | hp
      · exact .inr (by simp)
      · exact .inl (by simp [hp])
  closed p hused hused' := absurd (hused.symm.trans hused') (by simp)

/-! ## The end of a process -/

theorem SameProcess.wanes (h : SameProcess k k')
    (hs : Shrinks k.view k'.view) : Wanes k k' where
  shrinks := hs
  initialized := h.initialized
  unused p _ hu := h.sched ▸ hu
  emptied p _ hu := .inl (h.sched ▸ hu)
  used p hp := h.used ▸ hp
  assigned p := .inl (by rw [h.caps])
  closed p hused hused' := by
    rw [h.used, hused] at hused'
    cases hused'

theorem userspaceReleaseProcess_spec (k : Kernel) (hpid : UserMemory.validPid pid) :
    Wanes k (k.userspaceReleaseProcess pid) ∧ Wakes k.sched (k.userspaceReleaseProcess pid).sched
      ∧ (k.userspaceReleaseProcess pid).mem.processMemoryUsed pid = false := by
  have hclean := ipcProcessCleanup_wanes k pid
  have hclose := closeAll_wanes (k.ipcProcessCleanup pid) pid
  have hunmap := unmapSurface_same ((k.ipcProcessCleanup pid).closeAll pid) pid
  have hkeep := (hclean.trans hclose).trans (hunmap.wanes (unmapSurface_lifecycle _ pid).view)
  have hmem := (UserMemory.anonymousRelease_same
    (((k.ipcProcessCleanup pid).closeAll pid).unmapSurface pid).mem pid).trans
      (UserMemory.largeCodeRelease_same _ pid)
  have hclosed : ∀ slot < slotsPerProcess,
      ((((k.ipcProcessCleanup pid).closeAll pid).unmapSurface pid).objects.caps.entry pid
        slot).isOpen = false := by
    intro slot hslot
    rw [hunmap.caps]
    exact Objects.capabilitiesCloseAll_closed _ hpid.1 hpid.2 hslot
  have hassigned : (((k.ipcProcessCleanup pid).closeAll pid).unmapSurface
      pid).objects.caps.assignedServices pid = 0#32 := by
    rw [hunmap.caps]
    change (Objects.capabilitiesCloseAll _ pid).caps.assignedServices pid = 0#32
    have hlt := hpid.2
    rw [Objects.capabilitiesCloseAll_assignedServices, if_neg (by have := hpid.1; omega)]
    simp
  have hsched : Wakes k.sched
      (((k.ipcProcessCleanup pid).closeAll pid).unmapSurface pid).sched := by
    rw [hunmap.sched]
    exact ipcProcessCleanup_wakes k pid
  have hshrinks := (userspaceReleaseProcess_lifecycle k pid).view
  unfold userspaceReleaseProcess at hshrinks ⊢
  rw [if_neg (not_not.2 hpid)] at hshrinks ⊢
  refine ⟨⟨hshrinks, hkeep.initialized, hkeep.unused, fun p hp hu => ?_, fun p hp => ?_,
    hkeep.assigned, fun p hused hused' => ?_⟩, hsched, by simp⟩
  · rcases eq_or_ne p pid with rfl | hne
    · exact .inr (by simp)
    · refine (hkeep.emptied p hp hu).imp_right fun h => ?_
      simpa [hne, hmem.used] using h
  · rcases eq_or_ne p pid with rfl | hne
    · simp at hp
    · exact hkeep.used p (by simpa [hne, hmem.used] using hp)
  · rcases eq_or_ne p pid with rfl | hne
    · exact ⟨hassigned, hclosed⟩
    · exact hkeep.closed p hused (by simpa [hne, hmem.used] using hused')

theorem freeSlot_spec (k : Kernel) {child : ℕ} (hchild : UserMemory.validPid child) :
    Wanes k (k.freeSlot child) ∧ Exits k.sched child (k.freeSlot child).sched := by
  obtain ⟨hw, hs, hused⟩ := userspaceReleaseProcess_spec k hchild
  unfold freeSlot
  generalize k.userspaceReleaseProcess child = k₁ at *
  have hstate : ∀ p, p ≠ child → (k₁.sched.setTask child {}).state p = k₁.sched.state p := by
    intro p hp
    simp [state, hp]
  refine ⟨⟨hw.shrinks, hw.initialized, fun p hp hu => ?_, fun p hp hu => ?_, hw.used,
    hw.assigned, hw.closed⟩, hs.currentPid, hs.usersRunning, hs.dispatched, fun p hp => ?_, .inr ?_⟩
  · rcases eq_or_ne p child with rfl | hne
    · simp [state]
    · exact (hstate p hne).trans (hw.unused p hp hu)
  · rcases eq_or_ne p child with rfl | hne
    · exact .inr hused
    · exact hw.emptied p hp ((hstate p hne).symm.trans hu)
  · have := hs.tasks p
    simpa [hp, state] using this
  · simp [state]

theorem wakeWaitingParent_spec (k : Kernel) {child : ℕ} (hchild : UserMemory.validPid child)
    (hexited : k.sched.state child = .exited) :
    Wanes k (k.wakeWaitingParent child)
      ∧ Exits k.sched child (k.wakeWaitingParent child).sched := by
  unfold wakeWaitingParent
  simp only
  split_ifs with hc
  · exact ⟨.refl k, rfl, rfl, rfl, fun _ _ => .inl rfl, .inl hexited⟩
  · simp only [not_or, not_not, not_le] at hc
    obtain ⟨hpos, hlt, hblocked, -⟩ := hc
    generalize (k.sched.tasks child).parentPid = parent at *
    have hwakes : ∀ rax rdx, Wakes k.sched ((k.sched.setResult parent rax rdx).setTask parent
        { (k.sched.setResult parent rax rdx).tasks parent with
          waitingFor := none, state := .ready }) := by
      refine fun rax rdx => ⟨rfl, rfl, rfl, fun p => ?_⟩
      rcases eq_or_ne p parent with rfl | hp
      · exact .inr ⟨hblocked, by simp [state], by simp⟩
      · exact .inl (by simp [hp])
    obtain ⟨hw, he⟩ := freeSlot_spec (k.withSched ((k.sched.setResult parent _ _).setTask parent
      { (k.sched.setResult parent _ _).tasks parent with
        waitingFor := none, state := .ready })) hchild
    exact ⟨(withSched_wanes k (hwakes _ _).moves).trans hw, (hwakes _ _).exits he⟩

theorem exitTask_spec (k : Kernel) (hpid : UserMemory.validPid pid)
    (hstate : k.sched.state pid ≠ .unused) (code : UInt64) :
    Wanes k (k.exitTask pid code) ∧ Exits k.sched pid (k.exitTask pid code).sched := by
  unfold exitTask
  generalize ht : { k.sched.tasks pid with exitCode := code, state := TaskState.exited } = t
  have hexited : t.state = .exited := by rw [← ht]
  have hsame : ∀ p, p ≠ pid → (k.sched.setTask pid t).tasks p = k.sched.tasks p :=
    fun p hp => by simp [hp]
  obtain ⟨hw, he⟩ := wakeWaitingParent_spec (k.withSched (k.sched.setTask pid t)) hpid
    (by simp [state, hexited])
  refine ⟨Wanes.trans ((withSched_same k _).wanes fun p hp => ?_) hw, he.currentPid,
    he.usersRunning, he.dispatched, fun p hp => ?_, he.ended⟩
  · rcases eq_or_ne p pid with rfl | hne
    · simpa [state, hexited] using hstate
    · simp only [withSched_sched, state, hsame p hne]
  · have := he.tasks p hp
    simpa only [withSched_sched, state, hsame p hp] using this

theorem schedulerOnExit_spec (hs : k.sched.Inv) (code : UInt64) :
    Wanes k (k.schedulerOnExit code) ∧ (k.schedulerOnExit code).sched.Inv := by
  unfold schedulerOnExit
  split_ifs with hidle
  · exact ⟨.refl k, hs⟩
  · simp only [not_or, Bool.not_eq_false] at hidle
    obtain ⟨hu, hne⟩ := hidle
    have hvalid : UserMemory.validPid k.sched.currentPid := ⟨hne, hs.current_lt⟩
    obtain ⟨hw, he⟩ := exitTask_spec k hvalid (by rw [hs.running hne]; decide) code
    simp only
    generalize k.exitTask k.sched.currentPid code = k₁ at hw he ⊢
    split
    · rename_i next hnext
      obtain ⟨-, hlt, hready⟩ := nextReady_spec hnext
      exact ⟨hw.trans (withSched_wanes k₁ (dispatch_moves hready)),
        dispatch_inv hlt (he.usersRunning.trans hu)⟩
    · exact ⟨hw.trans (withSched_wanes k₁ (returnIdle_moves _)), returnIdle_inv _⟩

theorem schedulerTerminate_spec
    (h : k.schedulerTerminate pid code = some k') :
    pid ≠ k.sched.currentPid ∧ Wanes k k' ∧ Exits k.sched pid k'.sched := by
  unfold schedulerTerminate at h
  split_ifs at h with hc
  simp only [not_or, not_le] at hc
  simp only [Option.some.injEq] at h
  subst h
  exact ⟨hc.2.2.1, exitTask_spec k ⟨hc.1, hc.2.1⟩ hc.2.2.2.1 code⟩

theorem schedulerTerminate_pos
    (h : k.schedulerTerminate pid code = some k') : pid ≠ 0 := by
  unfold schedulerTerminate at h
  split_ifs at h with hc
  exact fun h0 => hc (.inl h0)

theorem schedulerReap_spec {parent child : ℕ}
    (h : k.schedulerReap parent child = some (code, k')) :
    k.sched.state child = .exited ∧ Wanes k k' ∧ Exits k.sched child k'.sched := by
  unfold schedulerReap at h
  split_ifs at h with hc
  simp only [not_or, not_not, not_le] at hc
  simp only [Option.some.injEq, Prod.mk.injEq] at h
  rw [← h.2]
  exact ⟨hc.2.2.2, freeSlot_spec k ⟨hc.1, hc.2.1⟩⟩

theorem schedulerReap_inv {parent child : ℕ}
    (h : k.schedulerReap parent child = some (code, k')) (hs : k.sched.Inv)
    (hchild : child ≠ 0) : k'.sched.Inv := by
  obtain ⟨hexited, -, he⟩ := schedulerReap_spec h
  refine he.inv hs fun heq => ?_
  have := hs.running (heq ▸ hchild)
  rw [← heq, hexited] at this
  cases this

theorem schedulerReap_pos {parent child : ℕ}
    (h : k.schedulerReap parent child = some (code, k')) : child ≠ 0 := by
  unfold schedulerReap at h
  split_ifs at h with hc
  exact fun h0 => hc (.inl h0)

theorem schedulerOnWait_spec (hs : k.sched.Inv) (hne : k.sched.currentPid ≠ 0)
    (child : ℕ) :
    Wanes k (k.schedulerOnWait child) ∧ (k.schedulerOnWait child).sched.Inv := by
  unfold schedulerOnWait
  simp only
  split
  · rename_i status k' hr
    have hframe := setFrame_wakes k'.sched k.sched.currentPid
      { k'.sched.frames k.sched.currentPid with rax := UInt64.ofNat child, rdx := status }
    exact ⟨(schedulerReap_spec hr).2.1.trans (withSched_wanes k' hframe.moves),
      hframe.inv (schedulerReap_inv hr hs (schedulerReap_pos hr))⟩
  · split_ifs
    · have hframe := setFrame_wakes k.sched k.sched.currentPid
        { k.sched.frames k.sched.currentPid with rax := u64Max }
      exact ⟨withSched_wanes k hframe.moves, hframe.inv hs⟩
    · have hu := hs.userMode hne
      have hblocks : Blocks k.sched { k.sched.tasks k.sched.currentPid with
          state := .blocked, waitingFor := some child } (k.sched.setTask k.sched.currentPid
          { k.sched.tasks k.sched.currentPid with
            state := .blocked, waitingFor := some child }).reschedule :=
        ⟨rfl, rfl, reschedule_moves _, reschedule_inv hs.current_lt hu⟩
      exact ⟨(withSched_same k _).wanes fun p hp => hblocks.unused hs hne hp, hblocks.inv⟩

/-! ## Spawning -/

structure Untouched (k k' : Kernel) (p : ℕ) : Prop where
  tasks : k'.sched.tasks p = k.sched.tasks p
  used : k'.mem.processMemoryUsed p = k.mem.processMemoryUsed p
  assigned : k'.objects.caps.assignedServices p = k.objects.caps.assignedServices p

/-- Slot `p`, empty before, holds a task now, with the mask where it has been loaded. -/
structure Born (mask : BitVec 32) (k k' : Kernel) (p : ℕ) : Prop where
  valid : UserMemory.validPid p
  unused : k.sched.state p = .unused
  ready : k'.sched.state p = .ready
  loaded : (k'.mem.processMemoryUsed p = k.mem.processMemoryUsed p
      ∧ k'.objects.caps.assignedServices p = k.objects.caps.assignedServices p)
    ∨ (k'.mem.processMemoryUsed p = true ∧ k'.objects.caps.assignedServices p = mask)

structure Births (mask : BitVec 32) (k k' : Kernel) : Prop where
  currentPid : k'.sched.currentPid = k.sched.currentPid
  usersRunning : k'.sched.usersRunning = k.sched.usersRunning
  initialized : k'.initialized = k.initialized
  tables : k'.objects.caps.tables = k.objects.caps.tables
  slots : ∀ p, Untouched k k' p ∨ Born mask k k' p

theorem Births.refl (mask : BitVec 32) (k : Kernel) : Births mask k k :=
  ⟨rfl, rfl, rfl, rfl, fun _ => .inl ⟨rfl, rfl, rfl⟩⟩

theorem Births.trans {k₁ k₂ k₃ : Kernel} (h : Births mask k₁ k₂)
    (h' : Births mask k₂ k₃) : Births mask k₁ k₃ := by
  refine ⟨h'.1.trans h.1, h'.2.trans h.2, h'.3.trans h.3, h'.4.trans h.4, fun p => ?_⟩
  rcases h.slots p with ⟨ht, hu, ha⟩ | ⟨hv, hunused, hready, hl⟩
  · rcases h'.slots p with ⟨ht', hu', ha'⟩ | ⟨hv, hunused, hready, hl⟩
    · exact .inl ⟨ht'.trans ht, hu'.trans hu, ha'.trans ha⟩
    · refine .inr ⟨hv, ?_, hready, ?_⟩
      · unfold state at *
        rw [← ht]
        exact hunused
      · rw [hu, ha] at hl
        exact hl
  · rcases h'.slots p with ⟨ht', hu', ha'⟩ | ⟨-, hunused', -, -⟩
    · refine .inr ⟨hv, hunused, ?_, ?_⟩
      · unfold state at *
        rw [ht']
        exact hready
      · rw [hu', ha']
        exact hl
    · rw [hready] at hunused'
      cases hunused'

theorem Births.inv (h : Births mask k k')
    (hs : k.sched.Inv) : k'.sched.Inv := by
  refine ⟨h.1 ▸ hs.1, fun hne => ?_, fun hu => ?_⟩
  · rw [h.currentPid] at hne ⊢
    have hrun := hs.running hne
    rcases h.slots k.sched.currentPid with hsame | hborn
    · unfold state at *
      rw [hsame.tasks]
      exact hrun
    · have := hborn.unused
      rw [hrun] at this
      cases this
  · rw [h.currentPid]
    exact hs.idle (h.usersRunning ▸ hu)

theorem loadProcess_births (k : Kernel) (expectedPid parentPid : ℕ) (image : List UInt8)
    (mask : BitVec 32) : Births mask k (k.loadProcess expectedPid parentPid image mask).2 := by
  have hload := UserMemory.loadImage_same k.mem expectedPid image
  unfold loadProcess
  generalize k.mem.loadImage expectedPid image = r at hload
  obtain ⟨_ | entry, m⟩ := r
  · exact ⟨rfl, rfl, rfl, rfl, fun p => .inl ⟨rfl, by rw [← hload.used]; rfl, rfl⟩⟩
  · have hrel := hload.trans (UserMemory.largeCodeRelease_same m expectedPid)
    simp only
    split
    · exact ⟨rfl, rfl, rfl, rfl, fun p => .inl ⟨rfl, by rw [← hrel.used]; rfl, rfl⟩⟩
    · rename_i pid s hcreate
      obtain ⟨hpos, hlt, -, hunused, hcur, husers, htasks⟩ := createUser_spec hcreate
      simp only [withMem_sched] at hunused hcur husers htasks
      have hother : ∀ p, p ≠ pid → s.tasks p = k.sched.tasks p := by
        intro p hp
        rw [htasks, Function.update_of_ne hp]
      have hready : s.state pid = .ready := by
        unfold state
        rw [htasks, Function.update_self]
      have hfailed : Births mask k
          (((k.withMem m).withSched s).withMem (m.largeCodeRelease expectedPid)) := by
        refine ⟨hcur, husers, rfl, rfl, fun p => ?_⟩
        rcases eq_or_ne p pid with rfl | hp
        · exact .inr ⟨⟨hpos, hlt⟩, hunused, hready, .inl ⟨by rw [← hrel.used]; rfl, rfl⟩⟩
        · exact .inl ⟨hother p hp, by rw [← hrel.used]; rfl, rfl⟩
      split_ifs with hpid
      · exact hfailed
      · split
        · exact hfailed
        · rename_i caps hassign
          unfold Capabilities.capabilityAssignServices at hassign
          split_ifs at hassign
          simp only [Option.some.injEq] at hassign
          subst hassign
          refine ⟨hcur, husers, rfl, rfl, fun p => ?_⟩
          rcases eq_or_ne p pid with rfl | hp
          · exact .inr ⟨⟨hpos, hlt⟩, hunused, hready, .inr (by simp)⟩
          · refine .inl ⟨hother p hp, ?_, ?_⟩
            · simpa [hp] using congrFun hload.used p
            · simp [hp]

theorem spawnLoop_births (parentPid : ℕ) (image : List UInt8) (mask : BitVec 32) :
    ∀ (candidates : List ℕ) (k : Kernel),
      Births mask k (spawnLoop parentPid image mask candidates k).2
  | [], k => .refl mask k
  | candidate :: candidates, k => by
    unfold spawnLoop
    have hload := loadProcess_births k candidate parentPid image mask
    split_ifs
    · exact spawnLoop_births parentPid image mask candidates k
    · generalize k.loadProcess candidate parentPid image mask = r at hload
      obtain ⟨_ | _, k'⟩ := r
      · exact hload.trans (spawnLoop_births parentPid image mask candidates k')
      · exact hload

theorem userspaceSpawnPath_births (k : Kernel) (parentPid : ℕ) (path : List UInt8)
    (mask : BitVec 32) :
    (k.userspaceSpawnPath parentPid path mask).2 = k
      ∨ k.initialized = true ∧ Births mask k (k.userspaceSpawnPath parentPid path mask).2 := by
  unfold userspaceSpawnPath
  split_ifs with hinit
  · exact .inl rfl
  · split
    · exact .inl rfl
    · split
      · exact .inl rfl
      · simp only [not_or, Bool.not_eq_false] at hinit
        exact .inr ⟨hinit.1, spawnLoop_births parentPid _ mask _ k⟩

/-! ## One step -/

structure SameTasks (k k' : Kernel) : Prop where
  wakes : Wakes k.sched k'.sched
  used : k'.mem.processMemoryUsed = k.mem.processMemoryUsed
  assigned : k'.objects.caps.assignedServices = k.objects.caps.assignedServices
  initialized : k'.initialized = k.initialized

/-- What one event does to the process slots: it fills some and then empties some, or leaves them
alone. -/
inductive Evolves (mask : BitVec 32) (k k' : Kernel) : Prop
  | same (h : SameTasks k k')
  | wanes (h : Wanes k k') (inv : k'.sched.Inv)
  | spawns {k₁ : Kernel} (initialized : k.initialized = true) (births : Births mask k k₁)
    (h : Wanes k₁ k') (inv : k'.sched.Inv)

theorem SameStores.sameTasks (h : SameStores k k') (hw : Wakes k.sched k'.sched) :
    SameTasks k k' :=
  ⟨hw, by rw [h.mem], by rw [h.objects], h.initialized⟩

theorem SameTasks.refl (k : Kernel) : SameTasks k k := ⟨.refl _, rfl, rfl, rfl⟩

theorem SameTasks.ret (h : SameTasks k k₁) (rax : UInt64) :
    SameTasks k (k₁.ret rax) :=
  ⟨h.wakes.trans (setFrame_wakes _ _ _), h.used, h.assigned, h.initialized⟩

theorem SameTasks.ret2 (h : SameTasks k k₁) (rax rdx : UInt64) :
    SameTasks k (k₁.ret2 rax rdx) :=
  ⟨h.wakes.trans (setFrame_wakes _ _ _), h.used, h.assigned, h.initialized⟩

theorem ret_same (k : Kernel) (rax : UInt64) : SameTasks k (k.ret rax) := (SameTasks.refl k).ret rax

theorem Local.sameTasks (h : Local k k') : SameTasks k k' := by
  obtain ⟨⟨frames, hs⟩, -, -, -, hu, -, ha, hi⟩ := h
  exact ⟨hs ▸ ⟨rfl, rfl, rfl, fun _ => .inl rfl⟩, hu, ha, hi⟩

theorem withInput_same (k : Kernel) (input : Input) : SameTasks k (k.withInput input) :=
  ⟨.refl _, rfl, rfl, rfl⟩

theorem withFiles_same (k : Kernel) (files : Ramfs) : SameTasks k (k.withFiles files) :=
  ⟨.refl _, rfl, rfl, rfl⟩

theorem Local.sameTasks_of_files {files : Ramfs}
    (h : Local (k.withFiles files) k') : SameTasks k k' :=
  let h := h.sameTasks
  ⟨h.wakes, h.used, h.assigned, h.initialized⟩

theorem ipcCreate_assigned (ipc : Ipc) (caps : Capabilities) (owner : ℕ) (name : List UInt8) :
    (ipc.ipcCreate caps owner name).2.2.assignedServices = caps.assignedServices := by
  unfold Ipc.ipcCreate
  split
  · rfl
  · split
    · rfl
    · split
      · rfl
      · simp only
        split
        · rfl
        · rename_i handle c h
          obtain ⟨-, -, -, -, slot, -, hopen⟩ := Capabilities.capabilityOpenIpc_spec h
          exact Opens_assigned hopen

theorem syscallIpcCreate_same (k : Kernel) (f : Frame) (user : ℕ → UInt8) :
    SameTasks k (k.syscallIpcCreate f user) := by
  unfold syscallIpcCreate
  split
  · exact ret_same k _
  · have h := ipcCreate_assigned k.ipc k.objects.caps k.current
      (readUser user f.rdi.toNat f.rsi.toNat)
    refine SameTasks.ret ?_ _
    exact ⟨.refl _, rfl, h, rfl⟩

theorem Blocks.evolves {t : Task} (hs : k.sched.Inv)
    (hne : k.current ≠ 0) (h : SameStores k k') (hb : Blocks k.sched t k'.sched) :
    Evolves mask k k' :=
  .wanes (h.wanes fun _ hp => hb.unused hs hne hp) hb.inv

theorem blockCurrent_evolves (hs : k.sched.Inv)
    (hne : k.current ≠ 0) (h : SameStores k k₁) :
    Evolves mask k (k₁.withSched k.sched.blockCurrent) :=
  Blocks.evolves hs hne (h.trans (withSched_same k₁ _)) (blockCurrent_spec hs hne)

theorem syscallExit_evolves (hs : k.sched.Inv) (f : Frame) (mask : BitVec 32) :
    Evolves mask k (k.syscallExit f) := by
  have hclean := ipcProcessCleanup_wanes k k.current
  have hclose := closeAll_wanes (k.ipcProcessCleanup k.current) k.current
  obtain ⟨hw, hinv⟩ := schedulerOnExit_spec
    (k := (k.ipcProcessCleanup k.current).closeAll k.current)
    ((ipcProcessCleanup_wakes k k.current).inv hs) f.rdi
  exact .wanes ((hclean.trans hclose).trans hw) hinv

theorem syscallSpawn_evolves (hs : k.sched.Inv) (f : Frame) (user : ℕ → UInt8) :
    Evolves (BitVec.ofNat 32 f.rdx.toNat) k (k.syscallSpawn f user) := by
  unfold syscallSpawn
  split
  · exact .same (ret_same k _)
  · simp only
    rcases userspaceSpawnPath_births k k.current (readUser user f.rdi.toNat f.rsi.toNat)
      (BitVec.ofNat 32 f.rdx.toNat) with heq | ⟨hinit, hb⟩
    · rw [heq]
      exact .same (ret_same k _)
    · have hwakes := setFrame_wakes (k.userspaceSpawnPath k.current
        (readUser user f.rdi.toNat f.rsi.toNat) (BitVec.ofNat 32 f.rdx.toNat)).2.sched
      exact .spawns hinit hb (withSched_wanes _ (hwakes _ _).moves) ((hwakes _ _).inv (hb.inv hs))

theorem syscallSpawnAndWait_evolves (hs : k.sched.Inv) (hne : k.current ≠ 0)
    (f : Frame) (user : ℕ → UInt8) :
    Evolves (BitVec.ofNat 32 f.rdx.toNat) k (k.syscallSpawnAndWait f user) := by
  unfold syscallSpawnAndWait
  split
  · exact .same (ret_same k _)
  · have hcancel := cancelWaits_same k k.current
    have hbirths := userspaceSpawnPath_births (k.cancelWaits k.current) k.current
      (readUser user f.rdi.toNat f.rsi.toNat) (BitVec.ofNat 32 f.rdx.toNat)
    generalize (k.cancelWaits k.current).userspaceSpawnPath k.current
      (readUser user f.rdi.toNat f.rsi.toNat) (BitVec.ofNat 32 f.rdx.toNat) = r at hbirths
    obtain ⟨result, k₁⟩ := r
    rcases hbirths with heq | ⟨hinit, hb⟩
    · simp only at heq
      subst heq
      cases result with
      | none => exact .same (SameTasks.ret (hcancel.sameTasks (.refl _)) _)
      | some pid =>
        obtain ⟨hw, hinv⟩ := schedulerOnWait_spec (k := k.cancelWaits k.current) hs hne pid
        exact .wanes ((hcancel.wanes fun _ _ => Iff.rfl).trans hw) hinv
    · have hb' : Births (BitVec.ofNat 32 f.rdx.toNat) k k₁ :=
        ⟨hb.1, hb.2, hb.3, hb.4, fun p => (hb.slots p).imp (fun h => ⟨h.1, h.2, h.3⟩)
          fun h => ⟨h.1, h.2, h.3, h.4⟩⟩
      have hinv := hb'.inv hs
      cases result with
      | none =>
        have hwakes := setFrame_wakes k₁.sched k₁.current
          { k₁.sched.frames k₁.current with rax := u64Max }
        exact .spawns hinit hb' (withSched_wanes k₁ hwakes.moves) (hwakes.inv hinv)
      | some pid =>
        obtain ⟨hw, hinv'⟩ := schedulerOnWait_spec hinv (hb'.currentPid ▸ hne) pid
        exact .spawns hinit hb' hw hinv'

theorem syscallTerminate_evolves (hs : k.sched.Inv) (f : Frame)
    (mask : BitVec 32) : Evolves mask k (k.syscallTerminate f) := by
  have hclean := ipcProcessCleanup_wanes k (low32 f.rdi)
  have hclose := closeAll_wanes (k.ipcProcessCleanup (low32 f.rdi)) (low32 f.rdi)
  have hinv : ((k.ipcProcessCleanup (low32 f.rdi)).closeAll (low32 f.rdi)).sched.Inv :=
    (ipcProcessCleanup_wakes k (low32 f.rdi)).inv hs
  have hw := hclean.trans hclose
  unfold syscallTerminate
  simp only
  generalize (k.ipcProcessCleanup (low32 f.rdi)).closeAll (low32 f.rdi) = k₁ at hw hinv ⊢
  split
  · have hwakes := setFrame_wakes k₁.sched k₁.current
      { k₁.sched.frames k₁.current with rax := u64Max }
    exact .wanes (hw.trans (withSched_wanes k₁ hwakes.moves)) (hwakes.inv hinv)
  · rename_i k' hk'
    obtain ⟨hpid, hw', he⟩ := schedulerTerminate_spec hk'
    have hwakes := setFrame_wakes k'.sched k'.current { k'.sched.frames k'.current with rax := 0 }
    exact .wanes ((hw.trans hw').trans (withSched_wanes k' hwakes.moves))
      (hwakes.inv (he.inv hinv hpid))

theorem syscallReapExited_evolves (hs : k.sched.Inv) (mask : BitVec 32) :
    Evolves mask k k.syscallReapExited := by
  unfold syscallReapExited
  split
  · exact .same (SameTasks.ret2 (.refl k) _ _)
  · rename_i child status k' hk'
    have hr := schedulerReapExited_eq hk'
    have hwakes := setFrame_wakes k'.sched k'.current
      { k'.sched.frames k'.current with rax := UInt64.ofNat child, rdx := status }
    exact .wanes ((schedulerReap_spec hr).2.1.trans (withSched_wanes k' hwakes.moves))
      (hwakes.inv (schedulerReap_inv hr hs (schedulerReap_pos hr)))

theorem syscallSend_evolves (hs : k.sched.Inv) (hne : k.current ≠ 0) (f : Frame)
    (user : ℕ → UInt8) (mask : BitVec 32) : Evolves mask k (k.syscallSend f user) := by
  unfold syscallSend
  split
  · exact .same (ret_same k _)
  · have hsame := ipcSendImpl_same k k.current f.rdi.toNat
      (readUser user f.rsi.toNat f.rdx.toNat) true
    have hwakes := ipcSendImpl_wakes k k.current f.rdi.toNat
      (readUser user f.rsi.toNat f.rdx.toNat) true
    unfold ipcSendBlock
    generalize k.ipcSendImpl k.current f.rdi.toNat (readUser user f.rsi.toNat f.rdx.toNat) true
      = r at hsame hwakes
    obtain ⟨result, k₁⟩ := r
    cases result with
    | failed => exact .same ((hsame.sameTasks hwakes).ret _)
    | delivered => exact .same ((hsame.sameTasks hwakes).ret _)
    | parked =>
      have hne₁ : k₁.sched.currentPid ≠ 0 := by
        rw [hwakes.currentPid]
        exact hne
      have hb := blockCurrent_spec (hwakes.inv hs) hne₁
      refine .wanes ((hsame.wanes_of_moves hwakes.moves).trans
        ((withSched_same k₁ _).wanes fun p hp => ?_)) hb.inv
      exact hb.unused (hwakes.inv hs) hne₁ hp

theorem syscallReceive_evolves (hs : k.sched.Inv) (hne : k.current ≠ 0) (f : Frame)
    (mask : BitVec 32) : Evolves mask k (k.syscallReceive f) := by
  unfold syscallReceive
  split
  · exact .same (ret_same k _)
  · split
    · rename_i m k' hr
      have h := (ipcReceive_same hr).sameTasks (ipcReceive_wakes hr)
      split
      · exact .same (h.ret _)
      · exact .same (h.ret2 _ _)
    · split
      · exact .same (ret_same k _)
      · split
        · exact .same (ret_same k _)
        · rename_i ipc _
          have hsame : SameStores k (k.withIpc ipc) := ⟨rfl, rfl, rfl, rfl⟩
          exact blockCurrent_evolves hs hne hsame

theorem syscallSelect_evolves (hs : k.sched.Inv) (hne : k.current ≠ 0) (f : Frame)
    (mask : BitVec 32) : Evolves mask k (k.syscallSelect f) := by
  unfold syscallSelect
  split
  · exact .same (ret_same k _)
  · split
    · rename_i m k' hr
      exact .same (((ipcReceive_same hr).sameTasks (ipcReceive_wakes hr)).ret2 _ _)
    · split
      · exact .same ((withInput_same k _).ret2 _ _)
      · have hipc : ∀ ipc, SameTasks k (k.withIpc ipc) := fun ipc => ⟨.refl _, rfl, rfl, rfl⟩
        split
        · exact .same ((hipc _).ret _)
        · rename_i ipc _
          split
          · exact .same ((hipc _).ret _)
          · rename_i input _
            have hsame : ∀ s, SameStores k (((k.withIpc ipc).withInput input).withSched s) :=
              fun s => ⟨rfl, rfl, rfl, rfl⟩
            split_ifs with hd
            · exact Blocks.evolves hs hne (hsame _) (blockCurrentTimeout_spec hs hne hd 3)
            · exact Blocks.evolves hs hne (hsame _) (blockCurrent_spec hs hne)

theorem syscallDispatch_evolves (hs : k.sched.Inv) (hne : k.current ≠ 0)
    (user : ℕ → UInt8) (dev : Devices) :
    Evolves (BitVec.ofNat 32 (k.sched.frames k.current).rdx.toNat) k
      (k.syscallDispatch user dev) := by
  have hcontrol := k.syscallDispatch_control user dev
  generalize k.syscallDispatch user dev = k' at hcontrol
  rcases hcontrol with hlocal | control
  · exact .same hlocal.sameTasks
  cases control with
  | yield =>
    obtain ⟨hm, hinv⟩ := onYield_spec ((ret_same k 0).wakes.inv hs)
    exact .wanes ((withSched_same k _).wanes_of_moves ((ret_same k 0).wakes.moves.trans hm)) hinv
  | exit => exact syscallExit_evolves hs _ _
  | write => exact .same (syscallWrite_local k _ user).sameTasks_of_files
  | openFile => exact .same (syscallOpenFile_local k _ user).sameTasks_of_files
  | delete => exact .same (syscallDelete_local k _ user).sameTasks_of_files
  | rename => exact .same (syscallRename_local k _ user).sameTasks_of_files
  | spawn => exact syscallSpawn_evolves hs _ user
  | wait =>
    obtain ⟨hw, hinv⟩ := schedulerOnWait_spec hs hne (low32 (k.sched.frames k.current).rdi)
    exact .wanes hw hinv
  | terminate => exact syscallTerminate_evolves hs _ _
  | ipcCreate => exact .same (syscallIpcCreate_same k _ user)
  | send => exact syscallSend_evolves hs hne _ user _
  | receive => exact syscallReceive_evolves hs hne _ _
  | select => exact syscallSelect_evolves hs hne _ _
  | spawnAndWait => exact syscallSpawnAndWait_evolves hs hne _ user
  | reapExited => exact syscallReapExited_evolves hs _

def requested : Event → BitVec 32
  | .syscall registers _ _ => BitVec.ofNat 32 registers.rdx.toNat
  | .kernel (.spawn _ serviceMask) => serviceMask
  | .kernel (.init _) => bootstrapServices
  | _ => 0#32

theorem startUsers_moves {s s' : Scheduler} (h : s.startUsers = some s') :
    Moves s s' ∧ s'.Inv := by
  unfold startUsers at h
  split_ifs at h
  split at h
  · cases h
  · rename_i first hfirst
    simp only [Option.some.injEq] at h
    obtain ⟨hpos, hlt, hready⟩ := nextReady_spec hfirst
    rw [← h]
    have hstart : Moves s { s.setState 0 .ready with usersRunning := true } :=
      fun p hp => .inl (by simp [hp])
    refine ⟨hstart.trans (dispatch_moves ?_), dispatch_inv hlt rfl⟩
    simpa [state, hpos] using hready

theorem kernelCall_evolves (hs : k.sched.Inv)
    (call : KernelCall) (hinit : ∀ image, call ≠ .init image) :
    Evolves (requested (.kernel call)) k (k.kernelCall call) := by
  cases call with
  | init image => exact absurd rfl (hinit image)
  | startUsers =>
    simp only [kernelCall]
    split_ifs
    · cases h : k.sched.startUsers with
      | none => exact .same (.refl k)
      | some s =>
        obtain ⟨hm, hinv⟩ := startUsers_moves h
        exact .wanes (withSched_wanes k hm) hinv
    · exact .same (.refl k)
  | spawn path mask =>
    rcases userspaceSpawnPath_births k 0 path mask with heq | ⟨hinit, hb⟩
    · simp only [kernelCall, heq]
      exact .same (.refl k)
    · exact .spawns hinit hb (.refl _) (hb.inv hs)
  | reap child =>
    simp only [kernelCall]
    cases h : k.schedulerReap 0 child with
    | none => exact .same (.refl k)
    | some r =>
      exact .wanes (schedulerReap_spec h).2.1 (schedulerReap_inv h hs (schedulerReap_pos h))
  | kill pid =>
    simp only [kernelCall]
    cases h : k.schedulerTerminate pid 137 with
    | none => exact .same (.refl k)
    | some k' =>
      obtain ⟨hpid, hw, he⟩ := schedulerTerminate_spec h
      exact .wanes hw (he.inv hs hpid)
  | discardInput => exact .same (withInput_same k _)
  | file call => exact .same (withFiles_same k _)

theorem schedulerOnTimerTick_moves (hs : k.sched.Inv) :
    Moves k.sched k.schedulerOnTimerTick.sched ∧ k.schedulerOnTimerTick.sched.Inv := by
  have hcount : Wakes k.sched k.countTick.sched := ⟨rfl, rfl, rfl, fun _ => .inl rfl⟩
  have htick := hcount.trans (expireWaits_wakes k.countTick)
  unfold schedulerOnTimerTick
  generalize k.countTick.expireWaits = k₁ at htick ⊢
  obtain ⟨hm, hinv⟩ := chargeSlice_spec (htick.inv hs)
  exact ⟨htick.moves.trans hm, hinv⟩

theorem enter_same (k : Kernel) (registers : Frame) : SameTasks k (k.enter registers) :=
  ⟨setFrame_wakes _ _ _, rfl, rfl, rfl⟩

theorem Evolves.of_enter {registers : Frame}
    (h : Evolves mask (k.enter registers) k') : Evolves mask k k' := by
  cases h with
  | same h =>
    exact .same ⟨(enter_same k registers).wakes.trans h.wakes, h.used, h.assigned, h.initialized⟩
  | wanes h hinv =>
    exact .wanes ⟨h.shrinks, h.initialized, h.unused, h.emptied, h.used, h.assigned, h.closed⟩ hinv
  | @spawns k₁ hinit hb h hinv =>
    refine .spawns hinit ⟨hb.1, hb.2, hb.3, hb.4, fun p => ?_⟩ h hinv
    exact (hb.slots p).imp (fun h => ⟨h.1, h.2, h.3⟩) fun h => ⟨h.1, h.2, h.3, h.4⟩

theorem step_evolves (hs : k.sched.Inv) (e : Event)
    (hinit : ∀ image, e ≠ .kernel (.init image)) : Evolves (requested e) k (k.step e) := by
  cases e with
  | syscall registers user dev =>
    simp only [step]
    split_ifs with hu
    · apply Evolves.of_enter
      have h := syscallDispatch_evolves (k := k.enter registers)
        ((enter_same k registers).wakes.inv hs) hu.2 user dev
      have hf : (k.enter registers).sched.frames (k.enter registers).current = registers := by
        simp [current]
      rw [hf] at h
      exact h
    · exact .same (.refl k)
  | timerTick registers =>
    have h : ∀ k₁ : Kernel, SameStores k k₁ → Wakes k.sched k₁.sched →
        Evolves (requested (.timerTick registers)) k k₁.schedulerOnTimerTick := by
      intro k₁ hsame hwakes
      obtain ⟨hm, hinv⟩ := schedulerOnTimerTick_moves (hwakes.inv hs)
      exact .wanes ((hsame.trans (schedulerOnTimerTick_same k₁)).wanes_of_moves
        (hwakes.moves.trans hm)) hinv
    have henter : SameStores k (k.enter registers) := withSched_same k _
    simp only [step]
    split_ifs
    · exact h (k.enter registers) henter (enter_same k registers).wakes
    · exact h k (.refl k) (.refl _)
  | input event => exact .same ((inputPublish_same k event).sameTasks (inputPublish_wakes k event))
  | kernel call =>
    simp only [step]
    split_ifs
    · exact .same (.refl k)
    · exact kernelCall_evolves hs call fun image h => hinit image (h ▸ rfl)

/-! ## The invariant -/

/-- A slot that holds a capability or may open one is loaded, and a loaded slot has a task; before
`userspace_init` there are no tasks. -/
structure ProcInv (k : Kernel) : Prop where
  sched : k.sched.Inv
  loaded : ∀ p, UserMemory.validPid p → k.mem.processMemoryUsed p = true →
    k.sched.state p ≠ .unused
  assigned : k.initialized = true → ∀ p, UserMemory.validPid p →
    k.objects.caps.assignedServices p ≠ 0#32 → k.mem.processMemoryUsed p = true
  held : ∀ p slot, (k.objects.caps.entry p slot).isOpen = true →
    UserMemory.validPid p ∧ slot < slotsPerProcess ∧ k.mem.processMemoryUsed p = true
  booted : k.initialized = false → ∀ p, UserMemory.validPid p → k.sched.state p = .unused
  unassigned : k.initialized = false → ∀ p, p ≠ 1 → p ≠ 2 →
    k.objects.caps.assignedServices p = 0#32

theorem fresh_procInv (b : BootInfo) : ProcInv (fresh b) where
  sched := ⟨by simp [fresh, processLimit], fun h => absurd rfl h, fun _ => rfl⟩
  loaded p _ h := by cases h
  assigned h := by cases h
  held p slot h := by cases h
  booted _ p hp := by simp [fresh, state, hp.1]
  unassigned _ p h1 h2 := by simp [fresh, Capabilities.capabilitiesInit, h1, h2]

theorem Wanes.procInv (h : Wanes k k') (hk : ProcInv k) (hs : k'.sched.Inv) :
    ProcInv k' where
  sched := hs
  loaded p hp hu hstate := by
    rcases h.emptied p hp.1 hstate with hunused | hfalse
    · exact hk.loaded p hp (h.used p hu) hunused
    · rw [hu] at hfalse
      cases hfalse
  assigned hinit p hp ha := by
    rcases h.assigned p with heq | hz
    · by_contra hu
      have hused := hk.assigned (h.initialized ▸ hinit) p hp (heq ▸ ha)
      exact ha (h.closed p hused (by simpa using hu)).1
    · exact absurd hz ha
  held p slot hopen := by
    rcases h.shrinks.released p slot with heq | ⟨-, hclosed, -⟩
    · obtain ⟨hp, hslot, hused⟩ := hk.held p slot ((congrArg SlotEntry.isOpen heq).symm.trans hopen)
      refine ⟨hp, hslot, ?_⟩
      by_contra hu
      exact absurd (((h.closed p hused (by simpa using hu)).2 slot hslot).symm.trans hopen) (by simp)
    · exact absurd (hclosed.symm.trans hopen) (by simp)
  booted hinit p hp := h.unused p hp.1 (hk.booted (h.initialized ▸ hinit) p hp)
  unassigned hinit p h1 h2 := by
    rcases h.assigned p with heq | hz
    · rw [heq]
      exact hk.unassigned (h.initialized ▸ hinit) p h1 h2
    · exact hz

theorem Births.loaded (h : Births mask k k')
    (hk : ProcInv k) : ∀ p, UserMemory.validPid p → k'.mem.processMemoryUsed p = true →
      k'.sched.state p ≠ .unused := by
  intro p hp hu
  rcases h.slots p with hsame | hb
  · unfold state
    rw [hsame.tasks]
    exact hk.loaded p hp (hsame.used ▸ hu)
  · rw [hb.ready]
    decide

theorem Births.used (h : Births mask k k') {p : ℕ}
    (hu : k.mem.processMemoryUsed p = true) : k'.mem.processMemoryUsed p = true := by
  rcases h.slots p with hsame | hb
  · exact hsame.used.trans hu
  · rcases hb.loaded with ⟨heq, -⟩ | ⟨hu', -⟩
    · exact heq.trans hu
    · exact hu'

theorem Births.held (h : Births mask k k')
    (hk : ProcInv k) : ∀ p slot, (k'.objects.caps.entry p slot).isOpen = true →
      UserMemory.validPid p ∧ slot < slotsPerProcess ∧ k'.mem.processMemoryUsed p = true := by
  intro p slot hopen
  unfold Capabilities.entry at hopen
  rw [h.tables] at hopen
  obtain ⟨hp, hslot, hu⟩ := hk.held p slot hopen
  exact ⟨hp, hslot, h.used hu⟩

theorem Births.assigned (h : Births mask k k') {p : ℕ} :
    k'.objects.caps.assignedServices p = k.objects.caps.assignedServices p
      ∨ k.sched.state p = .unused ∧ k'.mem.processMemoryUsed p = true
        ∧ k'.objects.caps.assignedServices p = mask := by
  rcases h.slots p with hsame | hb
  · exact .inl hsame.assigned
  · exact hb.loaded.imp (·.2) fun h => ⟨hb.unused, h⟩

theorem Births.procInv (h : Births mask k k')
    (hk : ProcInv k) (hinit : k.initialized = true) : ProcInv k' where
  sched := h.inv hk.sched
  loaded := h.loaded hk
  assigned _ p hp ha := by
    rcases h.assigned (p := p) with heq | ⟨-, hu, -⟩
    · exact h.used (hk.assigned hinit p hp (heq ▸ ha))
    · exact hu
  held := h.held hk
  booted hf := by
    rw [h.initialized, hinit] at hf
    cases hf
  unassigned hf := by
    rw [h.initialized, hinit] at hf
    cases hf

theorem loadProcess_used {expectedPid parentPid : ℕ}
    (h : k.loadProcess expectedPid parentPid image mask = (true, k')) :
    k'.mem.processMemoryUsed expectedPid = true := by
  unfold loadProcess at h
  split at h
  · cases h
  · simp only at h
    split at h
    · cases h
    · split_ifs at h with hpid
      · cases h
      · rw [not_not] at hpid
        split at h
        · cases h
        · simp only [Prod.mk.injEq, true_and] at h
          rw [← h, ← hpid]
          simp

theorem userspaceInit_spec
    (h : k.userspaceInit image = some k') :
    ∃ k₂, Births bootstrapServices k k₂ ∧ k' = { k₂ with initialized := true }
      ∧ k'.mem.processMemoryUsed 1 = true ∧ k'.mem.processMemoryUsed 2 = true := by
  unfold userspaceInit at h
  have hb1 := loadProcess_births k 1 0 image bootstrapServices
  split at h
  · cases h
  · rename_i k₁ h1
    rw [h1] at hb1
    have hb2 := loadProcess_births k₁ 2 0 image bootstrapServices
    split at h
    · cases h
    · rename_i k₂ h2
      rw [h2] at hb2
      simp only [Option.some.injEq] at h
      have hu2 := loadProcess_used h2
      subst h
      exact ⟨k₂, hb1.trans hb2, rfl, hb2.used (loadProcess_used h1), hu2⟩

/-- The masks after `userspace_init`. The bootstrap slots have theirs from the first load on, since
loading a slot that has a task leaves its mask alone. -/
theorem userspaceInit_assigned (hk : ProcInv k)
    (hinit : k.initialized = false) (h : k.userspaceInit image = some k') (p : ℕ)
    (hp : UserMemory.validPid p) :
    k'.objects.caps.assignedServices p = 0#32
      ∨ k.sched.state p = .unused ∧ k'.objects.caps.assignedServices p = bootstrapServices := by
  obtain ⟨k₂, hb, rfl, hu1, hu2⟩ := userspaceInit_spec h
  have hunused := hk.booted hinit p hp
  have hother : k₂.mem.processMemoryUsed p = k.mem.processMemoryUsed p →
      k.objects.caps.assignedServices p = 0#32 := by
    intro hsame
    have hu : k₂.mem.processMemoryUsed p ≠ true := fun hu => hk.loaded p hp (hsame ▸ hu) hunused
    exact hk.unassigned hinit p (fun h => hu (h ▸ hu1)) fun h => hu (h ▸ hu2)
  rcases hb.slots p with hsame | hborn
  · exact .inl (hsame.assigned.trans (hother hsame.used))
  · rcases hborn.loaded with ⟨hused, hassigned⟩ | ⟨-, hmask⟩
    · exact .inl (hassigned.trans (hother hused))
    · exact .inr ⟨hunused, hmask⟩

theorem userspaceInit_procInv (hk : ProcInv k)
    (hinit : k.initialized = false) (h : k.userspaceInit image = some k') : ProcInv k' := by
  obtain ⟨k₂, hb, rfl, hu1, hu2⟩ := userspaceInit_spec h
  refine ⟨hb.inv hk.sched, hb.loaded hk, fun _ p hp ha => ?_, hb.held hk, fun hf => ?_,
    fun hf => ?_⟩
  · rcases eq_or_ne p 1 with rfl | h1
    · exact hu1
    · rcases eq_or_ne p 2 with rfl | h2
      · exact hu2
      · rcases hb.assigned (p := p) with heq | ⟨-, hu, -⟩
        · exact absurd (heq.trans (hk.unassigned hinit p h1 h2)) ha
        · exact hu
  · cases hf
  · cases hf

theorem Opens_held {c c' : Capabilities} {pid slot : ℕ} {payload : CapabilityPayload}
    (h : c.Opens pid slot payload c') {p i : ℕ} (hopen : (c'.entry p i).isOpen = true) :
    (c.entry p i).isOpen = true ∨ p = pid ∧ i = slot ∧ i < slotsPerProcess := by
  rcases h.entry_cases p i with heq | ⟨hp, hi, -⟩
  · exact .inl (heq ▸ hopen)
  · exact .inr ⟨hp, hi, hi ▸ h.slot_lt⟩

theorem Grows.held {v : ObjectView} (h : k.Grows v) {p i : ℕ}
    (hopen : (v.objects.caps.entry p i).isOpen = true) :
    (k.objects.caps.entry p i).isOpen = true
      ∨ UserMemory.validPid p ∧ i < slotsPerProcess
        ∧ (k.objects.caps.assignedServices p ≠ 0#32
          ∨ ∃ slot, (k.objects.caps.entry p slot).isOpen = true) := by
  have hne : ∀ {a b : BitVec 32}, a &&& b ≠ 0#32 → a ≠ 0#32 := by
    rintro a b hab rfl
    exact hab BitVec.zero_and
  cases h with
  | service valid rights assigned opens =>
    refine (Opens_held opens hopen).imp_right fun ⟨hp, _, hi⟩ => ⟨hp ▸ valid, hi, .inl ?_⟩
    exact hp ▸ hne assigned
  | file valid id_pos storage opens =>
    refine (Opens_held opens hopen).imp_right fun ⟨hp, _, hi⟩ => ⟨hp ▸ valid, hi, .inr ?_⟩
    unfold holds resolveObject at storage
    split at storage
    · cases storage
    · rename_i hres
      obtain ⟨slot, -, -, hslot, -⟩ := Capabilities.capabilityResolveObject_eq_some.1 hres
      exact ⟨slot, hp ▸ hslot⟩
  | ipc valid id_pos assigned opens =>
    refine (Opens_held opens hopen).imp_right fun ⟨hp, _, hi⟩ => ⟨hp ▸ valid, hi, .inl ?_⟩
    exact hp ▸ hne assigned
  | create created opened =>
    cases opened with
    | opened hpos hlt hassigned hr opens =>
      refine (Opens_held opens hopen).imp_right fun ⟨hp, _, hi⟩ => ⟨hp ▸ ⟨hpos, hlt⟩, hi, .inl ?_⟩
      exact hp ▸ hne hassigned
  | grant resolved surface opened =>
    cases opened with
    | opened hpos hlt hassigned hr opens =>
      refine (Opens_held opens hopen).imp_right fun ⟨hp, _, hi⟩ => ⟨hp ▸ ⟨hpos, hlt⟩, hi, .inl ?_⟩
      exact hp ▸ hne hassigned
  | map resolved valid used slot_lt free retained => exact .inl hopen

theorem SameTasks.wanes (h : SameTasks k k') (hs : Shrinks k.view k'.view) :
    Wanes k k' where
  shrinks := hs
  initialized := h.initialized
  unused p hp := (h.wakes.moves.unused hp).2
  emptied p hp hu := .inl ((h.wakes.moves.unused hp).1 hu)
  used p hp := h.used ▸ hp
  assigned p := .inl (by rw [h.assigned])
  closed p hused hused' := by
    rw [h.used, hused] at hused'
    cases hused'

theorem SameTasks.procInv (h : SameTasks k k') (hk : ProcInv k)
    (hinit : k.initialized = true) (hg : Grows k k'.view) : ProcInv k' where
  sched := h.wakes.inv hk.sched
  loaded p hp hu := by
    rw [Ne, h.wakes.moves.unused hp.1]
    exact hk.loaded p hp (h.used ▸ hu)
  assigned _ p hp ha := by
    rw [h.used]
    exact hk.assigned hinit p hp (h.assigned ▸ ha)
  held p slot hopen := by
    rw [h.used]
    rcases hg.held hopen with hold | ⟨hp, hslot, ha | ⟨slot', hold⟩⟩
    · exact hk.held p slot hold
    · exact ⟨hp, hslot, hk.assigned hinit p hp ha⟩
    · exact ⟨hp, hslot, (hk.held p slot' hold).2.2⟩
  booted hf := by
    rw [h.initialized, hinit] at hf
    cases hf
  unassigned hf := by
    rw [h.initialized, hinit] at hf
    cases hf

theorem ProcInv.userMode (h : ProcInv k) (hne : k.current ≠ 0) :
    k.initialized = true := by
  by_contra hf
  have := h.booted (by simpa using hf) k.current ⟨hne, h.sched.current_lt⟩
  rw [current, h.sched.running hne] at this
  cases this

theorem Grows.current_pos {v : ObjectView} (h : k.Grows v) (hk : ProcInv k) :
    k.current ≠ 0 := by
  cases h with
  | service valid rights assigned opens => exact valid.1
  | file valid id_pos storage opens => exact valid.1
  | ipc valid id_pos assigned opens => exact valid.1
  | create created opened =>
    obtain ⟨-, -, -, -, -, hpos, -⟩ := Surfaces.surfaceCreate_spec created
    exact hpos
  | grant resolved surface opened =>
    obtain ⟨slot, -, -, hopen, -⟩ := Capabilities.capabilityResolveObject_eq_some.1 resolved
    exact (hk.held _ slot hopen).1.1
  | map resolved valid used slot_lt free retained => exact valid.1

theorem Evolves.procInv (h : Evolves mask k k')
    (hc : Changes k k') (hk : ProcInv k) : ProcInv k' := by
  cases h with
  | same h =>
    rcases hc with hs | hg
    · exact (h.wanes hs).procInv hk (h.wakes.inv hk.sched)
    · exact h.procInv hk (hk.userMode (hg.current_pos hk)) hg
  | wanes h hinv => exact h.procInv hk hinv
  | spawns hinit hb h hinv => exact h.procInv (hb.procInv hk hinit) hinv

theorem step_procInv (hk : ProcInv k) (e : Event) : ProcInv (k.step e) := by
  by_cases hinit : ∃ image, e = .kernel (.init image)
  · obtain ⟨image, rfl⟩ := hinit
    simp only [step, kernelCall]
    split_ifs with hu hi
    · exact hk
    · exact hk
    · cases h : k.userspaceInit image with
      | none => exact hk
      | some k' => exact userspaceInit_procInv hk (by simpa using hi) h
  · simp only [not_exists] at hinit
    exact (step_evolves hk.sched e hinit).procInv (k.step_view e) hk

theorem runFrom_procInv (b : BootInfo) (events : List Event) : ProcInv (runFrom b events) :=
  Machine.run_inv step (I := ProcInv) (fun _ e hk => step_procInv hk e) events _ (fresh_procInv b)

end Kernel

end DemonOS
