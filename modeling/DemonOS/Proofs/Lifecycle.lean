import DemonOS.Proofs.Frame

/-!
# How processes end and begin

What the functions that end, reap and load processes do to each part of the kernel (`Lifecycle`):
they only take waits off channels and the input queue, or close channels (`Quiet`), only take
capabilities and mappings away (`Shrinks`), change the memory by its own operations (`Edits`), and
touch neither the files nor the tick counter.
-/

namespace DemonOS

variable {c c' : Capabilities} {k k' : Kernel}

/-! ## The channels -/

/-- Where `c'` is live it is `c`, but for a wait or a parked message taken off. -/
structure IpcChannel.Kept (c c' : IpcChannel) : Prop where
  active : c.active = true
  owner : c'.owner = c.owner
  name : c'.name = c.name
  read : c'.read = c.read
  write : c'.write = c.write
  count : c'.count = c.count
  messages : c'.messages = c.messages
  waiter : c'.waiter.active = true → c'.waiter = c.waiter
  sender : c'.sender.active = true → c'.sender = c.sender

def IpcChannel.Calms (c c' : IpcChannel) : Prop := c'.active = true → c.Kept c'

namespace IpcChannel

theorem Calms.refl (c : IpcChannel) : c.Calms c :=
  fun h => ⟨h, rfl, rfl, rfl, rfl, rfl, rfl, fun _ => rfl, fun _ => rfl⟩

theorem Calms.trans {c₁ c₂ c₃ : IpcChannel} (h : c₁.Calms c₂) (h' : c₂.Calms c₃) :
    c₁.Calms c₃ := by
  intro hactive
  have h₂ := h' hactive
  have h₁ := h h₂.active
  refine ⟨h₁.active, h₂.owner.trans h₁.owner, h₂.name.trans h₁.name, h₂.read.trans h₁.read,
    h₂.write.trans h₁.write, h₂.count.trans h₁.count, h₂.messages.trans h₁.messages,
    fun hw => ?_, fun hs => ?_⟩
  · have heq := h₂.waiter hw
    exact heq.trans (h₁.waiter (heq ▸ hw))
  · have heq := h₂.sender hs
    exact heq.trans (h₁.sender (heq ▸ hs))

theorem clearWaiter_calms (c : IpcChannel) : c.Calms c.clearWaiter :=
  fun h => ⟨h, rfl, rfl, rfl, rfl, rfl, rfl, (fun h => by cases h), fun _ => rfl⟩

theorem clearSender_calms (c : IpcChannel) : c.Calms c.clearSender :=
  fun h => ⟨h, rfl, rfl, rfl, rfl, rfl, rfl, fun _ => rfl, (fun h => by cases h)⟩

theorem forget_calms (c : IpcChannel) (pid : ℕ) : c.Calms (c.forget pid) := by
  unfold forget
  simp only
  split_ifs
  · exact c.clearWaiter_calms.trans (clearSender_calms _)
  · exact c.clearWaiter_calms
  · exact c.clearSender_calms
  · exact .refl c

theorem closed_calms (c c' : IpcChannel) : c.Calms c'.closed := fun h => by cases h

end IpcChannel

/-! ## The input queue -/

namespace Input

/-- The queue is the same, and no process has begun to wait. -/
structure Quiets (input input' : Input) : Prop where
  queue : input'.queue = input.queue
  read : input'.readIndex = input.readIndex
  write : input'.writeIndex = input.writeIndex
  waiter : input'.waiter.active = true → input'.waiter = input.waiter

theorem Quiets.refl (input : Input) : input.Quiets input := ⟨rfl, rfl, rfl, fun _ => rfl⟩

theorem Quiets.trans {i₁ i₂ i₃ : Input} (h : i₁.Quiets i₂) (h' : i₂.Quiets i₃) : i₁.Quiets i₃ :=
  ⟨h'.1.trans h.1, h'.2.trans h.2, h'.3.trans h.3, fun hw =>
    (h'.waiter hw).trans (h.waiter (h'.waiter hw ▸ hw))⟩

theorem inputCancelWait_quiets (input : Input) (pid : ℕ) :
    input.Quiets (input.inputCancelWait pid) := by
  unfold inputCancelWait
  split_ifs
  · exact .refl input
  · exact ⟨rfl, rfl, rfl, fun h => by cases h⟩

end Input

/-! ## Capabilities, surfaces and mappings -/

open Capabilities Objects

structure ObjectView where
  objects : Objects
  mapped : ℕ → ℕ → ℕ

structure Surfaces.Touches (s s' : Surfaces) : Prop where
  active : ∀ i, (s'.objects i).active = (s.objects i).active
  references : ∀ i, (s'.objects i).references = (s.objects i).references

/-- A change that opens no capability and maps nothing. -/
inductive Shrink (v : ObjectView) : ObjectView → Prop
  | release {p i : ℕ} {o : Objects} (hp : p < processLimit)
    (h : v.objects.releaseSlot p i = some o) : Shrink v ⟨o, v.mapped⟩
  | assign (assigned : ℕ → BitVec 32) :
    Shrink v ⟨{ v.objects with caps := { v.objects.caps with assignedServices := assigned } },
      v.mapped⟩
  | touch {s : Surfaces} (h : v.objects.surfaces.Touches s) :
    Shrink v ⟨v.objects.withSurfaces s, v.mapped⟩
  | bounce {id : ℕ} {s : Surfaces} (h : v.objects.surfaces.surfaceRetain id = some s) :
    Shrink v ⟨v.objects.withSurfaces ((s.surfaceRelease id).getD s), v.mapped⟩
  | uncreate {i : ℕ} {s : Surfaces} (inactive : (v.objects.surfaces.objects i).active = false)
    (h : s.objects = Function.update v.objects.surfaces.objects i {}) :
    Shrink v ⟨v.objects.withSurfaces s, v.mapped⟩
  | unmap {p slot : ℕ} (hp : p < processLimit) (hslot : slot < userSurfaceMapSlots)
    (h : v.mapped p slot ≠ 0) :
    Shrink v ⟨v.objects.withSurfaces ((v.objects.surfaces.surfaceRelease
        (v.mapped p slot)).getD v.objects.surfaces), UserMemory.update2 v.mapped p slot 0⟩

def Shrinks : ObjectView → ObjectView → Prop := Relation.ReflTransGen Shrink

theorem Shrinks.refl (v : ObjectView) : Shrinks v v := Relation.ReflTransGen.refl

theorem Shrinks.trans {v₁ v₂ v₃ : ObjectView} (h : Shrinks v₁ v₂) (h' : Shrinks v₂ v₃) :
    Shrinks v₁ v₃ := Relation.ReflTransGen.trans h h'

theorem Shrink.shrinks {v v' : ObjectView} (h : Shrink v v') : Shrinks v v' :=
  Relation.ReflTransGen.single h

/-! ## The memory -/

namespace UserMemory

inductive Edit (m : UserMemory) : UserMemory → Prop
  | map (pid byteCount : ℕ) : Edit m (m.anonymousMap pid byteCount).2
  | reserve (pid byteCount : ℕ) : Edit m (m.anonymousReserve pid byteCount).2
  | commit (pid byteCount : ℕ) (writable : Bool) :
    Edit m (m.anonymousCommit pid byteCount writable).2
  | unmap (pid : ℕ) : Edit m (m.anonymousRelease pid)
  | unload (pid : ℕ) : Edit m (m.largeCodeRelease pid)
  | load (pid : ℕ) (image : List UInt8) : Edit m (m.loadImage pid image).2
  | own {pid entry : ℕ} {image : List UInt8} {m' : UserMemory}
    (loaded : m.loadImage pid image = (some entry, m')) :
    Edit m { m' with processMemoryUsed := Function.update m'.processMemoryUsed pid true }
  | disown (pid : ℕ) :
    Edit m { m with processMemoryUsed := Function.update m.processMemoryUsed pid false }
  | surface (pid slot physicalAddress pageCount : ℕ) (isPresent : Bool)
    (mappedSurface : ℕ → ℕ → ℕ) :
    Edit m { (m.editSurfacePtes pid slot physicalAddress pageCount isPresent).2 with mappedSurface }
  | surfaceTables (pid : ℕ) : Edit m (m.releaseSurfaceTables pid)

def Edits : UserMemory → UserMemory → Prop := Relation.ReflTransGen Edit

theorem Edits.refl (m : UserMemory) : Edits m m := Relation.ReflTransGen.refl

theorem Edits.trans {m₁ m₂ m₃ : UserMemory} (h : Edits m₁ m₂) (h' : Edits m₂ m₃) : Edits m₁ m₃ :=
  Relation.ReflTransGen.trans h h'

theorem Edit.edits {m m' : UserMemory} (h : Edit m m') : Edits m m' := Relation.ReflTransGen.single h

theorem Edits.keeps {P : UserMemory → Prop} (hP : ∀ m m', P m → Edit m m' → P m')
    {m m' : UserMemory} (h : Edits m m') (hm : P m) : P m' := by
  induction h with
  | refl => exact hm
  | tail _ hlast ih => exact hP _ _ ih hlast

end UserMemory

open UserMemory

/-! ## The tick counter -/

namespace Scheduler

variable (s : Scheduler)

theorem reschedule_ticks : s.reschedule.ticks = s.ticks := by
  unfold reschedule
  dsimp only
  have hyield : (if s.state s.currentPid = .running then
      s.setState s.currentPid .ready else s).ticks = s.ticks := by
    split_ifs <;> rfl
  generalize (if s.state s.currentPid = .running then
    s.setState s.currentPid .ready else s) = s₁ at hyield ⊢
  rw [← hyield]
  split
  · split_ifs <;> rfl
  · rfl

theorem onYield_ticks : s.onYield.ticks = s.ticks := by
  unfold onYield
  split_ifs
  · rfl
  · exact reschedule_ticks s

theorem blockCurrent_ticks : s.blockCurrent.ticks = s.ticks := by
  unfold blockCurrent
  split_ifs
  · rfl
  · exact reschedule_ticks _

theorem blockCurrentTimeout_ticks (delay result : UInt64) :
    (s.blockCurrentTimeout delay result).ticks = s.ticks := by
  unfold blockCurrentTimeout
  split_ifs
  · exact blockCurrent_ticks s
  · exact reschedule_ticks _

theorem chargeSlice_ticks : s.chargeSlice.ticks = s.ticks := by
  unfold chargeSlice
  split_ifs
  · rfl
  · dsimp only
    split_ifs
    · rfl
    · exact reschedule_ticks _

theorem wake_ticks {s s' : Scheduler} {pid : ℕ} {result detail : UInt64}
    (h : s.wake pid result detail = some s') : s'.ticks = s.ticks := by
  unfold wake at h
  split_ifs at h
  rw [← Option.some.inj h]
  rfl

theorem createUser_ticks {s s' : Scheduler} {parent space pid : ℕ} {entry stack : UInt64}
    (h : s.createUser parent entry stack space = some (pid, s')) : s'.ticks = s.ticks := by
  unfold createUser at h
  split_ifs at h
  split at h
  · cases h
  · simp only [Option.some.injEq, Prod.mk.injEq] at h
    rw [← h.2]
    rfl

theorem startUsers_ticks {s s' : Scheduler} (h : s.startUsers = some s') :
    s'.ticks = s.ticks := by
  unfold startUsers at h
  split_ifs at h
  split at h
  · cases h
  · rw [← Option.some.inj h]
    rfl

end Scheduler

open Scheduler

namespace Kernel

theorem wakeIfBlocked_ticks (k : Kernel) (pid : ℕ) (result detail : UInt64) :
    (k.wakeIfBlocked pid result detail).sched.ticks = k.sched.ticks := by
  unfold wakeIfBlocked
  cases h : k.sched.wake pid result detail with
  | none => rfl
  | some s => exact wake_ticks h

theorem wakeSleepers_ticks (k : Kernel) (c : IpcChannel) :
    (k.wakeSleepers c).sched.ticks = k.sched.ticks := by
  unfold wakeSleepers
  dsimp only
  split_ifs
  any_goals rfl
  all_goals first
    | exact wakeIfBlocked_ticks _ _ _ _
    | exact (wakeIfBlocked_ticks _ _ _ _).trans (wakeIfBlocked_ticks _ _ _ _)

/-! ## The parts -/

/-- No message moves and no channel comes to life. -/
def Quiet (k k' : Kernel) : Prop := ∀ i, (k.ipc.channels i).Calms (k'.ipc.channels i)

theorem Quiet.refl (k : Kernel) : Quiet k k := fun _ => .refl _

theorem Quiet.trans {k₁ k₂ k₃ : Kernel} (h : Quiet k₁ k₂) (h' : Quiet k₂ k₃) : Quiet k₁ k₃ :=
  fun i => (h i).trans (h' i)

theorem Quiet.of_ipc {k k' : Kernel} (h : k'.ipc = k.ipc) : Quiet k k' := by
  intro i
  rw [h]
  exact .refl _

theorem setChannel_quiet {k : Kernel} {i : ℕ} {c : IpcChannel}
    (h : (k.ipc.channels i).Calms c) : Quiet k (k.setChannel i c) := by
  intro j
  rcases eq_or_ne j i with rfl | hj
  · simpa using h
  · simpa [hj] using IpcChannel.Calms.refl _

theorem ipcCancelWait_quiet (k : Kernel) (pid : ℕ) : Quiet k (k.withIpc (k.ipc.ipcCancelWait pid)) := by
  unfold Ipc.ipcCancelWait
  split
  · exact .refl k
  · exact setChannel_quiet (IpcChannel.clearWaiter_calms _)

theorem wakeSleepers_ipc (k : Kernel) (c : IpcChannel) : (k.wakeSleepers c).ipc = k.ipc := by
  unfold wakeSleepers
  simp only
  split_ifs <;> rfl

def view (k : Kernel) : ObjectView := ⟨k.objects, k.mem.mappedSurface⟩

theorem SameStores.view (h : SameStores k k') : k'.view = k.view := by
  unfold Kernel.view
  rw [h.objects, h.mem]

theorem SameStores.shrinks (h : SameStores k k') : Shrinks k.view k'.view :=
  h.view ▸ Shrinks.refl _

theorem closeAll_shrinks (k : Kernel) (pid : ℕ) : Shrinks k.view (k.closeAll pid).view := by
  unfold closeAll capabilitiesCloseAll
  split_ifs with hpid
  · exact .refl _
  · simp only [not_or, not_le] at hpid
    have h := foldl_releaseSlot_inv pid
      (P := fun o => Shrinks k.view ⟨o, k.mem.mappedSurface⟩)
      (fun o o' slot h hr => h.trans (Shrink.release hpid.2 hr).shrinks)
      (List.range slotsPerProcess) k.objects (.refl _)
    exact h.trans (Shrink.assign _).shrinks

theorem unmapSlot_shrink {pid slot : ℕ} (hpid : pid < processLimit)
    (hslot : slot < userSurfaceMapSlots) (h : k.mem.mappedSurface pid slot ≠ 0) :
    Shrink k.view (k.unmapSlot pid slot).view := by
  have hv : (k.unmapSlot pid slot).view =
      ⟨k.objects.withSurfaces ((k.objects.surfaces.surfaceRelease
        (k.mem.mappedSurface pid slot)).getD k.objects.surfaces),
        UserMemory.update2 k.mem.mappedSurface pid slot 0⟩ := by
    have hm := (UserMemory.editSurfacePtes_same k.mem pid slot 0 0 false).mapped
    unfold view unmapSlot
    simp only [withObjects_objects, withObjects_mem, withMem_mem, hm]
  rw [hv]
  exact Shrink.unmap (v := k.view) hpid hslot h

theorem unmapSurface_shrinks (k : Kernel) (pid : ℕ) :
    Shrinks k.view (k.unmapSurface pid).view := by
  unfold unmapSurface
  split_ifs with hpid
  · have h : ∀ (slots : List ℕ) (k₀ : Kernel), (∀ i ∈ slots, i < userSurfaceMapSlots) →
        Shrinks k₀.view (slots.foldl (fun k slot =>
          if k.mem.mappedSurface pid slot = 0 then k else k.unmapSlot pid slot) k₀).view := by
      intro slots
      induction slots with
      | nil => exact fun k₀ _ => .refl _
      | cons slot slots ih =>
        intro k₀ hlt
        rw [List.foldl_cons]
        refine Shrinks.trans ?_ (ih _ fun i hi => hlt i (List.mem_cons_of_mem _ hi))
        split_ifs with hz
        · exact .refl _
        · exact (unmapSlot_shrink hpid.2 (hlt slot List.mem_cons_self) hz).shrinks
    refine (h _ k fun i hi => List.mem_range.1 hi).trans ?_
    unfold view
    simp only [withMem_objects, withMem_mem, (UserMemory.releaseSurfaceTables_same _ pid).mapped]
    exact .refl _
  · exact .refl _

theorem SameStores.edits {k k' : Kernel} (h : SameStores k k') : Edits k.mem k'.mem :=
  h.mem ▸ Edits.refl _

theorem unmapSlot_edits (k : Kernel) (pid slot : ℕ) : Edits k.mem (k.unmapSlot pid slot).mem :=
  (Edit.surface pid slot 0 0 false _).edits

theorem unmapSurface_edits (k : Kernel) (pid : ℕ) : Edits k.mem (k.unmapSurface pid).mem := by
  unfold unmapSurface
  split_ifs
  · have h := foldl_inv (P := fun k' => Edits k.mem k'.mem) (f := fun k slot =>
        if k.mem.mappedSurface pid slot = 0 then k else k.unmapSlot pid slot)
      (fun k' slot h => by
        split_ifs
        · exact h
        · exact h.trans (unmapSlot_edits k' pid slot))
      (List.range userSurfaceMapSlots) k (.refl _)
    generalize (List.range userSurfaceMapSlots).foldl _ k = k₁ at h ⊢
    exact h.trans (Edit.surfaceTables pid).edits
  · exact .refl _

/-! ## Processes -/

structure Lifecycle (k k' : Kernel) : Prop where
  ticks : k'.sched.ticks = k.sched.ticks
  files : k'.files = k.files
  input : k.input.Quiets k'.input
  ipc : Quiet k k'
  mem : Edits k.mem k'.mem
  view : Shrinks k.view k'.view

theorem Lifecycle.refl (k : Kernel) : Lifecycle k k :=
  ⟨rfl, rfl, .refl _, .refl k, .refl _, .refl _⟩

theorem Lifecycle.trans {k₁ k₂ k₃ : Kernel} (h : Lifecycle k₁ k₂) (h' : Lifecycle k₂ k₃) :
    Lifecycle k₁ k₃ :=
  ⟨h'.ticks.trans h.ticks, h'.files.trans h.files, h.input.trans h'.input, h.ipc.trans h'.ipc,
    h.mem.trans h'.mem, h.view.trans h'.view⟩

theorem SameStores.lifecycle (h : SameStores k k') (ticks : k'.sched.ticks = k.sched.ticks)
    (input : k.input.Quiets k'.input) (ipc : Quiet k k') : Lifecycle k k' :=
  ⟨ticks, h.files, input, ipc, h.edits, h.shrinks⟩

theorem withSched_lifecycle {s : Scheduler} (h : s.ticks = k.sched.ticks) :
    Lifecycle k (k.withSched s) :=
  (withSched_same k s).lifecycle h (.refl _) (.of_ipc rfl)

theorem cancelWaits_lifecycle (k : Kernel) (pid : ℕ) : Lifecycle k (k.cancelWaits pid) :=
  (cancelWaits_same k pid).lifecycle rfl (Input.inputCancelWait_quiets _ _) (ipcCancelWait_quiet k pid)

theorem setChannel_lifecycle {i : ℕ} {c : IpcChannel} (h : (k.ipc.channels i).Calms c) :
    Lifecycle k (k.setChannel i c) :=
  (setChannel_same k i c).lifecycle rfl (.refl _) (setChannel_quiet h)

theorem wakeSleepers_lifecycle (k : Kernel) (c : IpcChannel) :
    Lifecycle k (k.wakeSleepers c) := by
  refine (wakeSleepers_same k c).lifecycle (wakeSleepers_ticks k c) ?_
    (.of_ipc (wakeSleepers_ipc k c))
  unfold wakeSleepers
  split_ifs
  any_goals exact .refl _
  all_goals exact Input.inputCancelWait_quiets _ _

theorem cleanupChannel_lifecycle (k : Kernel) (pid i : ℕ) :
    Lifecycle k (k.cleanupChannel pid i) := by
  unfold cleanupChannel
  split_ifs
  · exact .refl k
  · exact setChannel_lifecycle (IpcChannel.forget_calms _ pid)
  · exact (wakeSleepers_lifecycle k _).trans (setChannel_lifecycle (IpcChannel.closed_calms _ _))

theorem ipcProcessCleanup_lifecycle (k : Kernel) (pid : ℕ) :
    Lifecycle k (k.ipcProcessCleanup pid) := by
  refine foldl_inv (P := Lifecycle k)
    (fun k' i h => h.trans (cleanupChannel_lifecycle k' pid i)) _ _ ?_
  exact SameStores.lifecycle ⟨rfl, rfl, rfl, rfl⟩ rfl (Input.inputCancelWait_quiets _ pid) (.of_ipc rfl)

theorem closeAll_lifecycle (k : Kernel) (pid : ℕ) : Lifecycle k (k.closeAll pid) :=
  ⟨rfl, rfl, .refl _, .of_ipc rfl, .refl _, closeAll_shrinks k pid⟩

/-- Its channels closed, its waits withdrawn and its capabilities released. -/
theorem torn_lifecycle (k : Kernel) (pid : ℕ) :
    Lifecycle k ((k.ipcProcessCleanup pid).closeAll pid) :=
  (ipcProcessCleanup_lifecycle k pid).trans (closeAll_lifecycle _ pid)

theorem unmapSurface_lifecycle (k : Kernel) (pid : ℕ) : Lifecycle k (k.unmapSurface pid) :=
  let h := unmapSurface_same k pid
  ⟨by rw [h.sched], h.files, h.input ▸ .refl _, .of_ipc h.ipc, unmapSurface_edits k pid,
    unmapSurface_shrinks k pid⟩

/-- The memory changes, and no mapping with it. -/
theorem withMem_lifecycle {m : UserMemory} (h : Edits k.mem m)
    (hmapped : m.mappedSurface = k.mem.mappedSurface) : Lifecycle k (k.withMem m) := by
  refine ⟨rfl, rfl, .refl _, .of_ipc rfl, h, ?_⟩
  unfold view
  rw [withMem_objects, withMem_mem, hmapped]
  exact .refl _

theorem userspaceReleaseProcess_lifecycle (k : Kernel) (pid : ℕ) :
    Lifecycle k (k.userspaceReleaseProcess pid) := by
  unfold userspaceReleaseProcess
  split_ifs
  · refine ((torn_lifecycle k pid).trans (unmapSurface_lifecycle _ pid)).trans
      (withMem_lifecycle ?_ ?_)
    · exact ((Edit.unmap pid).edits.trans (Edit.unload pid).edits).trans (Edit.disown pid).edits
    · exact ((anonymousRelease_same _ pid).trans (largeCodeRelease_same _ pid)).mapped
  · exact .refl k

theorem freeSlot_lifecycle (k : Kernel) (child : ℕ) : Lifecycle k (k.freeSlot child) :=
  (userspaceReleaseProcess_lifecycle k child).trans (withSched_lifecycle rfl)

theorem wakeWaitingParent_lifecycle (k : Kernel) (child : ℕ) :
    Lifecycle k (k.wakeWaitingParent child) := by
  unfold wakeWaitingParent
  dsimp only
  split_ifs
  · exact .refl k
  · refine Lifecycle.trans ?_ (freeSlot_lifecycle _ child)
    exact withSched_lifecycle rfl

theorem exitTask_lifecycle (k : Kernel) (pid : ℕ) (code : UInt64) :
    Lifecycle k (k.exitTask pid code) := by
  refine Lifecycle.trans ?_ (wakeWaitingParent_lifecycle _ pid)
  exact withSched_lifecycle rfl

theorem schedulerOnExit_lifecycle (k : Kernel) (code : UInt64) :
    Lifecycle k (k.schedulerOnExit code) := by
  have h := exitTask_lifecycle k k.sched.currentPid code
  unfold schedulerOnExit
  split_ifs
  · exact withSched_lifecycle rfl
  · dsimp only
    split <;> exact h.trans (withSched_lifecycle rfl)

theorem schedulerTerminate_lifecycle {pid : ℕ} {code : UInt64}
    (h : k.schedulerTerminate pid code = some k') : Lifecycle k k' := by
  unfold schedulerTerminate at h
  split_ifs at h
  exact Option.some.inj h ▸ exitTask_lifecycle k pid code

theorem schedulerReap_lifecycle {parent child : ℕ} {code : UInt64}
    (h : k.schedulerReap parent child = some (code, k')) : Lifecycle k k' := by
  unfold schedulerReap at h
  split_ifs at h
  cases h
  exact freeSlot_lifecycle k child

theorem schedulerOnWait_lifecycle (k : Kernel) (child : ℕ) :
    Lifecycle k (k.schedulerOnWait child) := by
  unfold schedulerOnWait
  dsimp only
  split
  · rename_i status k' hr
    exact (schedulerReap_lifecycle hr).trans (withSched_lifecycle rfl)
  · split_ifs
    · exact withSched_lifecycle rfl
    · exact withSched_lifecycle (reschedule_ticks _)

/-! ## Loading -/

theorem loadProcess_ticks (k : Kernel) (expectedPid parentPid : ℕ) (image : List UInt8)
    (mask : BitVec 32) :
    (k.loadProcess expectedPid parentPid image mask).2.sched.ticks = k.sched.ticks := by
  unfold loadProcess
  split
  · rfl
  · dsimp only
    split
    · rfl
    · rename_i pid s hs
      have h := createUser_ticks hs
      split_ifs
      · exact h
      · split <;> exact h

theorem loadProcess_shrinks (k : Kernel) (expectedPid parentPid : ℕ) (image : List UInt8)
    (mask : BitVec 32) :
    Shrinks k.view (k.loadProcess expectedPid parentPid image mask).2.view := by
  have hload := (UserMemory.loadImage_same k.mem expectedPid image)
  have hview : ∀ m : UserMemory, UserMemory.SameProcesses k.mem m →
      ∀ s : Scheduler, ((k.withMem m).withSched s).view = k.view := by
    intro m hm s
    unfold view
    simp only [withSched_objects, withMem_objects, withSched_mem, withMem_mem, hm.mapped]
  unfold loadProcess
  generalize k.mem.loadImage expectedPid image = r at hload
  obtain ⟨_ | entry, m⟩ := r
  · exact (hview m hload k.sched).symm ▸ Shrinks.refl _
  · have hrel := hload.trans (UserMemory.largeCodeRelease_same m expectedPid)
    simp only
    split
    · exact (hview _ hrel k.sched).symm ▸ Shrinks.refl _
    · split_ifs
      · exact (hview _ hrel _).symm ▸ Shrinks.refl _
      · split
        · exact (hview _ hrel _).symm ▸ Shrinks.refl _
        · rename_i caps hassign
          unfold capabilityAssignServices at hassign
          split_ifs at hassign
          simp only [Option.some.injEq] at hassign
          subst hassign
          have hm : m.mappedSurface = k.mem.mappedSurface := hload.mapped
          simp only [withMem_objects, withSched_objects, hm]
          exact (Shrink.assign (v := k.view) _).shrinks

theorem loadProcess_edits (k : Kernel) (expectedPid parentPid : ℕ) (image : List UInt8)
    (mask : BitVec 32) :
    Edits k.mem (k.loadProcess expectedPid parentPid image mask).2.mem := by
  have hload := (Edit.load expectedPid image : Edit k.mem _).edits
  unfold loadProcess
  rcases hloaded : k.mem.loadImage expectedPid image with ⟨_ | entry, m⟩
  · rw [hloaded] at hload
    exact hload
  · rw [hloaded] at hload
    have hrelease := hload.trans (Edit.unload expectedPid).edits
    simp only
    split
    · exact hrelease
    · split_ifs with hpid
      · exact hrelease
      · split
        · exact hrelease
        · rw [not_not] at hpid
          subst hpid
          exact (Edit.own hloaded).edits

theorem loadProcess_lifecycle (k : Kernel) (expectedPid parentPid : ℕ) (image : List UInt8)
    (mask : BitVec 32) : Lifecycle k (k.loadProcess expectedPid parentPid image mask).2 :=
  let h := loadProcess_same k expectedPid parentPid image mask
  ⟨loadProcess_ticks .., h.files, h.input ▸ .refl _, .of_ipc h.ipc, loadProcess_edits ..,
    loadProcess_shrinks ..⟩

theorem spawnLoop_lifecycle (parentPid : ℕ) (image : List UInt8) (mask : BitVec 32) :
    ∀ (candidates : List ℕ) (k : Kernel),
      Lifecycle k (spawnLoop parentPid image mask candidates k).2
  | [], k => .refl k
  | candidate :: candidates, k => by
    unfold spawnLoop
    have hload := loadProcess_lifecycle k candidate parentPid image mask
    split_ifs
    · exact spawnLoop_lifecycle parentPid image mask candidates k
    · generalize k.loadProcess candidate parentPid image mask = r at hload
      obtain ⟨_ | _, k'⟩ := r
      · exact hload.trans (spawnLoop_lifecycle parentPid image mask candidates k')
      · exact hload

theorem userspaceSpawnPath_lifecycle (k : Kernel) (parentPid : ℕ) (path : List UInt8)
    (mask : BitVec 32) : Lifecycle k (k.userspaceSpawnPath parentPid path mask).2 := by
  unfold userspaceSpawnPath
  split_ifs
  · exact .refl k
  · split
    · exact .refl k
    · split
      · exact .refl k
      · exact spawnLoop_lifecycle parentPid _ mask _ k

theorem userspaceInit_lifecycle {image : List UInt8} (h : k.userspaceInit image = some k') :
    Lifecycle k k' := by
  unfold userspaceInit at h
  have h1 := loadProcess_lifecycle k 1 0 image bootstrapServices
  generalize k.loadProcess 1 0 image bootstrapServices = r at h h1
  obtain ⟨_ | _, k₁⟩ := r
  · cases h
  · dsimp only at h
    have h2 := loadProcess_lifecycle k₁ 2 0 image bootstrapServices
    generalize k₁.loadProcess 2 0 image bootstrapServices = r at h h2
    obtain ⟨_ | _, k₂⟩ := r
    · cases h
    · cases h
      have hrest := h1.trans h2
      exact ⟨hrest.ticks, hrest.files, hrest.input, hrest.ipc, hrest.mem, hrest.view⟩

/-! ## System calls -/

theorem syscallExit_lifecycle (k : Kernel) (f : Frame) : Lifecycle k (k.syscallExit f) :=
  (torn_lifecycle k k.current).trans (schedulerOnExit_lifecycle _ f.rdi)

theorem syscallSpawn_lifecycle (k : Kernel) (f : Frame) (user : ℕ → UInt8) :
    Lifecycle k (k.syscallSpawn f user) := by
  unfold syscallSpawn
  split_ifs
  · exact withSched_lifecycle rfl
  · exact (userspaceSpawnPath_lifecycle k _ _ _).trans (withSched_lifecycle rfl)

theorem syscallSpawnAndWait_lifecycle (k : Kernel) (f : Frame) (user : ℕ → UInt8) :
    Lifecycle k (k.syscallSpawnAndWait f user) := by
  have h := (cancelWaits_lifecycle k k.current).trans
    (userspaceSpawnPath_lifecycle (k.cancelWaits k.current) k.current
      (readUser user f.rdi.toNat f.rsi.toNat) (BitVec.ofNat 32 f.rdx.toNat))
  unfold syscallSpawnAndWait
  split_ifs
  · exact withSched_lifecycle rfl
  · generalize (k.cancelWaits k.current).userspaceSpawnPath k.current
      (readUser user f.rdi.toNat f.rsi.toNat) (BitVec.ofNat 32 f.rdx.toNat) = r at h ⊢
    obtain ⟨_ | pid, k'⟩ := r
    · exact h.trans (withSched_lifecycle rfl)
    · exact h.trans (schedulerOnWait_lifecycle k' pid)

theorem syscallTerminate_lifecycle (k : Kernel) (f : Frame) :
    Lifecycle k (k.syscallTerminate f) := by
  have h := torn_lifecycle k (low32 f.rdi)
  unfold syscallTerminate
  dsimp only
  split
  · exact h.trans (withSched_lifecycle rfl)
  · rename_i k' hk'
    exact (h.trans (schedulerTerminate_lifecycle hk')).trans (withSched_lifecycle rfl)

theorem syscallReapExited_lifecycle (k : Kernel) : Lifecycle k k.syscallReapExited := by
  unfold syscallReapExited
  split
  · exact withSched_lifecycle rfl
  · rename_i child status k' hr
    exact (schedulerReap_lifecycle (schedulerReapExited_eq hr)).trans (withSched_lifecycle rfl)

theorem syscallSend_same (k : Kernel) (f : Frame) (user : ℕ → UInt8) :
    SameStores k (k.syscallSend f user) := by
  have h := ipcSendImpl_same k k.current f.rdi.toNat (readUser user f.rsi.toNat f.rdx.toNat) true
  unfold syscallSend ipcSendBlock
  split_ifs
  · exact withSched_same k _
  · generalize k.ipcSendImpl k.current f.rdi.toNat (readUser user f.rsi.toNat f.rdx.toNat) true = r
      at h ⊢
    obtain ⟨_ | _ | _, k'⟩ := r <;> exact h.trans (withSched_same k' _)

theorem syscallReceive_same (k : Kernel) (f : Frame) : SameStores k (k.syscallReceive f) := by
  unfold syscallReceive
  split
  · exact withSched_same k _
  · split
    · rename_i m k' hr
      split_ifs <;> exact (ipcReceive_same hr).trans (withSched_same k' _)
    · split
      · exact withSched_same k _
      · split <;> exact ⟨rfl, rfl, rfl, rfl⟩

theorem syscallSelect_same (k : Kernel) (f : Frame) : SameStores k (k.syscallSelect f) := by
  unfold syscallSelect
  split
  · exact withSched_same k _
  · split
    · rename_i m k' hr
      exact (ipcReceive_same hr).trans (withSched_same k' _)
    · split
      · exact ⟨rfl, rfl, rfl, rfl⟩
      · split
        · exact ⟨rfl, rfl, rfl, rfl⟩
        · split <;> exact ⟨rfl, rfl, rfl, rfl⟩

/-! ## The kernel's own calls and the timer -/

theorem kernelCall_lifecycle {call : KernelCall} (hdiscard : call ≠ .discardInput)
    (hfile : ∀ file, call ≠ .file file) : Lifecycle k (k.kernelCall call) := by
  cases call with
  | init image =>
    simp only [kernelCall]
    split_ifs
    · exact .refl k
    · cases h : k.userspaceInit image with
      | none => exact .refl k
      | some k' => exact userspaceInit_lifecycle h
  | startUsers =>
    simp only [kernelCall]
    split_ifs
    · cases h : k.sched.startUsers with
      | none => exact withSched_lifecycle rfl
      | some s => exact withSched_lifecycle (startUsers_ticks h)
    · exact .refl k
  | spawn path mask => exact userspaceSpawnPath_lifecycle k 0 path mask
  | reap child =>
    simp only [kernelCall]
    cases h : k.schedulerReap 0 child with
    | none => exact .refl k
    | some r => exact schedulerReap_lifecycle h
  | kill pid =>
    simp only [kernelCall]
    cases h : k.schedulerTerminate pid 137 with
    | none => exact .refl k
    | some k' => exact schedulerTerminate_lifecycle h
  | discardInput => exact absurd rfl hdiscard
  | file call => exact absurd rfl (hfile call)

theorem expireWait_lifecycle (k : Kernel) (pid : ℕ) : Lifecycle k (k.expireWait pid) := by
  unfold expireWait
  dsimp only
  split_ifs
  · exact .refl k
  · exact (cancelWaits_lifecycle k pid).trans (withSched_lifecycle rfl)

/-- A tick counts, and is charged to the running process. -/
theorem schedulerOnTimerTick_lifecycle (k : Kernel) :
    Lifecycle k.countTick k.schedulerOnTimerTick := by
  have h : Lifecycle k.countTick k.countTick.expireWaits :=
    foldl_inv (P := Lifecycle k.countTick)
      (fun k' i h => h.trans (expireWait_lifecycle k' (i + 1))) _ _ (.refl _)
  unfold schedulerOnTimerTick
  exact h.trans (withSched_lifecycle (chargeSlice_ticks _))

end Kernel

end DemonOS
