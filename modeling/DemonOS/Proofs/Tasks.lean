import DemonOS.Proofs.Frame

/-!
# The task table along a run

`Wakes` is what delivering messages, events and timeouts does to the task table: blocked tasks
become ready and nothing else changes. `Moves` is that together with handing the processor on. The
task that runs is in the table and running while users run (`Scheduler.Inv`).
-/

namespace DemonOS

/-- What a task is created with and keeps: its parent and its address space. -/
@[simp] def Task.origin (t : Task) : ℕ × ℕ := (t.parentPid, t.addressSpace)

namespace Scheduler

variable {pid : ℕ} {s s' : Scheduler}

/-- Some blocked tasks become ready. -/
structure Wakes (s s' : Scheduler) : Prop where
  currentPid : s'.currentPid = s.currentPid
  usersRunning : s'.usersRunning = s.usersRunning
  dispatched : s'.dispatched = s.dispatched
  tasks : ∀ p, s'.tasks p = s.tasks p ∨ (s.state p = .blocked ∧ s'.state p = .ready
    ∧ (s'.tasks p).origin = (s.tasks p).origin)

/-- A task that neither is empty nor has exited. -/
def Alive (s : Scheduler) (p : ℕ) : Prop :=
  s.state p = .ready ∨ s.state p = .running ∨ s.state p = .blocked

/-- Tasks that have not exited become ready or running. -/
def Moves (s s' : Scheduler) : Prop :=
  ∀ p, p ≠ 0 → s'.tasks p = s.tasks p ∨ (s.Alive p ∧ (s'.state p = .ready ∨ s'.state p = .running)
    ∧ (s'.tasks p).origin = (s.tasks p).origin)

/-- The running task is one of the table, and runs; the idle task runs while no user does. -/
structure Inv (s : Scheduler) : Prop where
  current_lt : s.currentPid < processLimit
  running : s.currentPid ≠ 0 → s.state s.currentPid = .running
  idle : s.usersRunning = false → s.currentPid = 0

theorem Wakes.refl (s : Scheduler) : Wakes s s := ⟨rfl, rfl, rfl, fun _ => .inl rfl⟩

theorem Wakes.trans {s₁ s₂ s₃ : Scheduler} (h : Wakes s₁ s₂) (h' : Wakes s₂ s₃) :
    Wakes s₁ s₃ := by
  refine ⟨h'.1.trans h.1, h'.2.trans h.2, h'.3.trans h.3, fun p => ?_⟩
  rcases h'.tasks p with heq | ⟨hb, hr, hp⟩
  · rcases h.tasks p with heq' | ⟨hb, hr, hp⟩
    · exact .inl (heq.trans heq')
    · refine .inr ⟨hb, ?_, heq ▸ hp⟩
      unfold state
      rw [heq]
      exact hr
  · rcases h.tasks p with heq' | ⟨hb', hr', hp'⟩
    · unfold state at *
      rw [heq'] at hb hp
      exact .inr ⟨hb, hr, hp⟩
    · rw [hr'] at hb
      cases hb

theorem Moves.refl (s : Scheduler) : Moves s s := fun _ _ => .inl rfl

theorem Moves.trans {s₁ s₂ s₃ : Scheduler} (h : Moves s₁ s₂) (h' : Moves s₂ s₃) :
    Moves s₁ s₃ := by
  intro p hp
  rcases h' p hp with heq | ⟨ha, hr, hpar⟩
  · unfold state
    rw [heq]
    exact h p hp
  · refine .inr ?_
    rcases h p hp with heq' | ⟨ha', -, hpar'⟩
    · unfold Alive state at *
      rw [heq'] at ha hpar
      exact ⟨ha, hr, hpar⟩
    · exact ⟨ha', hr, hpar.trans hpar'⟩

theorem Wakes.moves (h : Wakes s s') : Moves s s' :=
  fun p _ => (h.tasks p).imp id fun ⟨hb, hr, hp⟩ => ⟨.inr (.inr hb), .inl hr, hp⟩

theorem Wakes.inv (h : Wakes s s') (hs : s.Inv) : s'.Inv := by
  refine ⟨h.1 ▸ hs.1, fun hne => ?_, fun hu => ?_⟩
  · rw [h.1] at hne ⊢
    have hrun := hs.running hne
    rcases h.tasks s.currentPid with heq | ⟨hb, -⟩
    · unfold state at *
      rw [heq]
      exact hrun
    · rw [hrun] at hb
      cases hb
  · rw [h.1]
    exact hs.idle (h.2 ▸ hu)

theorem Moves.unused (h : Moves s s') {p : ℕ} (hp : p ≠ 0) :
    s'.state p = .unused ↔ s.state p = .unused := by
  rcases h p hp with heq | ⟨ha, hr, -⟩
  · unfold state
    rw [heq]
  · constructor <;> intro hu
    · rcases hr with hr | hr <;> rw [hu] at hr <;> cases hr
    · rcases ha with ha | ha | ha <;> rw [hu] at ha <;> cases ha

/-! ## The operations -/

theorem setFrame_wakes (s : Scheduler) (pid : ℕ) (f : Frame) : Wakes s (s.setFrame pid f) :=
  ⟨rfl, rfl, rfl, fun _ => .inl rfl⟩

theorem wake_spec {result detail : UInt64}
    (h : s.wake pid result detail = some s') :
    pid ≠ 0 ∧ pid < processLimit ∧ s.state pid = .blocked ∧ s'.state pid = .ready
      ∧ Wakes s s' := by
  unfold wake at h
  split_ifs at h with hc
  simp only [not_or, not_not, not_le] at hc
  simp only [Option.some.injEq] at h
  subst h
  refine ⟨hc.1, hc.2.1, hc.2.2, by simp [state], rfl, rfl, rfl, fun p => ?_⟩
  rcases eq_or_ne p pid with rfl | hp
  · exact .inr ⟨hc.2.2, by simp [state], by simp⟩
  · exact .inl (by simp [hp])

theorem wake_getD_wakes (s : Scheduler) (pid : ℕ) (result detail : UInt64) :
    Wakes s ((s.wake pid result detail).getD s) := by
  cases h : s.wake pid result detail with
  | none => exact .refl s
  | some s' => exact (wake_spec h).2.2.2.2

theorem nextReady_spec {after pid : ℕ} (h : s.nextReady after = some pid) :
    pid ≠ 0 ∧ pid < processLimit ∧ s.state pid = .ready := by
  unfold nextReady at h
  have hmem := List.mem_of_find?_eq_some h
  have hready := List.find?_some h
  simp only [List.mem_map, List.mem_range] at hmem
  obtain ⟨n, -, rfl⟩ := hmem
  refine ⟨by omega, ?_, by simpa using hready⟩
  unfold processLimit
  omega

theorem setTask_moves {t : Task} (ha : s.Alive pid)
    (ht : t.state = .ready ∨ t.state = .running)
    (hp : t.origin = (s.tasks pid).origin) : Moves s (s.setTask pid t) := by
  intro p _
  rcases eq_or_ne p pid with rfl | hne
  · exact .inr ⟨ha, by simpa [state] using ht, by simpa using hp⟩
  · exact .inl (by simp [hne])

theorem dispatch_moves (h : s.state pid = .ready) :
    Moves s (s.dispatch pid) :=
  setTask_moves (t := { s.tasks pid with state := .running, sliceTicks := 0 }) (.inl h) (.inr rfl)
    rfl

theorem dispatch_inv (hlt : pid < processLimit)
    (hu : s.usersRunning = true) : (s.dispatch pid).Inv := by
  refine ⟨hlt, fun _ => by simp [dispatch, state], fun h => ?_⟩
  change s.usersRunning = false at h
  rw [hu] at h
  cases h

theorem returnIdle_moves (s : Scheduler) : Moves s s.returnIdle :=
  fun p hp => .inl (by simp [returnIdle, hp])

theorem returnIdle_inv (s : Scheduler) : s.returnIdle.Inv :=
  ⟨by simp [returnIdle, processLimit], fun h => absurd rfl h, fun _ => rfl⟩

theorem reschedule_moves (s : Scheduler) : Moves s s.reschedule := by
  unfold reschedule
  simp only
  have hyield : Moves s (if s.state s.currentPid = .running then
      s.setState s.currentPid .ready else s) := by
    split_ifs with h
    · exact setTask_moves (.inr (.inl h)) (.inl rfl) rfl
    · exact .refl s
  generalize (if s.state s.currentPid = .running then
    s.setState s.currentPid .ready else s) = s₁ at hyield ⊢
  refine hyield.trans ?_
  split
  · split_ifs with h
    · exact setTask_moves (.inl h) (.inr rfl) rfl
    · exact returnIdle_moves s₁
  · rename_i next hnext
    exact dispatch_moves (nextReady_spec hnext).2.2

theorem reschedule_inv (hlt : s.currentPid < processLimit)
    (hu : s.usersRunning = true) : s.reschedule.Inv := by
  unfold reschedule
  simp only
  have hsame : ∀ s₁ : Scheduler, s₁ = (if s.state s.currentPid = .running then
      s.setState s.currentPid .ready else s) →
      s₁.currentPid = s.currentPid ∧ s₁.usersRunning = true := by
    intro s₁ h
    subst h
    split_ifs <;> exact ⟨rfl, hu⟩
  generalize hs₁ : (if s.state s.currentPid = .running then
    s.setState s.currentPid .ready else s) = s₁
  obtain ⟨hcur, hu₁⟩ := hsame s₁ hs₁.symm
  split
  · split_ifs with h
    · refine ⟨hcur ▸ hlt, fun _ => by simp [state, hcur], fun hf => ?_⟩
      change s₁.usersRunning = false at hf
      rw [hu₁] at hf
      cases hf
    · exact returnIdle_inv s₁
  · rename_i next hnext
    exact dispatch_inv (nextReady_spec hnext).2.1 hu₁

theorem Inv.userMode (h : s.Inv) (hne : s.currentPid ≠ 0) :
    s.usersRunning = true := by
  by_contra hu
  exact hne (h.idle (by simpa using hu))

theorem chargeSlice_spec (hs : s.Inv) : Moves s s.chargeSlice ∧ s.chargeSlice.Inv := by
  unfold chargeSlice
  split_ifs with hidle
  · exact ⟨.refl s, hs⟩
  · simp only [not_or, Bool.not_eq_false] at hidle
    obtain ⟨hu, hne⟩ := hidle
    have hrun := hs.running hne
    simp only
    have hmoves : ∀ slice, Moves s
        (s.setTask s.currentPid { s.tasks s.currentPid with sliceTicks := slice }) :=
      fun slice => setTask_moves (.inr (.inl hrun)) (.inr hrun) rfl
    split_ifs
    · refine ⟨hmoves _, hs.current_lt, fun _ => ?_, fun h => ?_⟩
      · simpa [state] using hrun
      · exact hs.idle h
    · exact ⟨(hmoves _).trans (reschedule_moves _), reschedule_inv hs.current_lt hu⟩

theorem onYield_spec (hs : s.Inv) : Moves s s.onYield ∧ s.onYield.Inv := by
  unfold onYield
  split_ifs with hidle
  · exact ⟨.refl s, hs⟩
  · simp only [not_or, Bool.not_eq_false] at hidle
    exact ⟨reschedule_moves s, reschedule_inv hs.current_lt hidle.1⟩

/-- The running task is put to sleep with `t`, and another one runs. -/
structure Blocks (s : Scheduler) (t : Task) (s' : Scheduler) : Prop where
  blocked : t.state = .blocked
  origin : t.origin = (s.tasks s.currentPid).origin
  moves : Moves (s.setTask s.currentPid t) s'
  inv : s'.Inv

theorem blockCurrent_spec (hs : s.Inv) (hne : s.currentPid ≠ 0) :
    Blocks s { s.tasks s.currentPid with state := .blocked, waitingFor := none }
      s.blockCurrent := by
  have hu := hs.userMode hne
  unfold blockCurrent
  rw [if_neg (by simp [hu, hne])]
  exact ⟨rfl, rfl, reschedule_moves _, reschedule_inv hs.current_lt hu⟩

theorem blockCurrentTimeout_spec (hs : s.Inv) (hne : s.currentPid ≠ 0)
    {delay : UInt64} (hd : delay ≠ 0) (result : UInt64) :
    Blocks s { s.tasks s.currentPid with
      state := .blocked, wakeTick := s.ticks + delay, timeoutResult := result
      timedWait := true, waitingFor := none } (s.blockCurrentTimeout delay result) := by
  have hu := hs.userMode hne
  unfold blockCurrentTimeout
  rw [if_neg (by simp [hu, hne, hd])]
  exact ⟨rfl, rfl, reschedule_moves _, reschedule_inv hs.current_lt hu⟩

theorem Blocks.unused {t : Task} (h : Blocks s t s') (hs : s.Inv)
    (hne : s.currentPid ≠ 0) {p : ℕ} (hp : p ≠ 0) :
    s'.state p = .unused ↔ s.state p = .unused := by
  rw [h.moves.unused hp]
  rcases eq_or_ne p s.currentPid with rfl | hpc
  · simp [state, h.blocked]
    have := hs.running hne
    simpa [state] using fun h' => by rw [state, h'] at this; cases this
  · simp [state, hpc]

structure Exits (s : Scheduler) (pid : ℕ) (s' : Scheduler) : Prop where
  currentPid : s'.currentPid = s.currentPid
  usersRunning : s'.usersRunning = s.usersRunning
  dispatched : s'.dispatched = s.dispatched
  tasks : ∀ p, p ≠ pid → s'.tasks p = s.tasks p ∨ (s.state p = .blocked ∧ s'.state p = .ready
    ∧ (s'.tasks p).origin = (s.tasks p).origin)
  ended : s'.state pid = .exited ∨ s'.state pid = .unused

theorem Wakes.exits {s₁ s₂ s₃ : Scheduler} (h : Wakes s₁ s₂) (h' : Exits s₂ pid s₃) :
    Exits s₁ pid s₃ := by
  refine ⟨h'.1.trans h.1, h'.2.trans h.2, h'.3.trans h.3, fun p hp => ?_, h'.ended⟩
  rcases h'.tasks p hp with heq | ⟨hb, hr, hpar⟩
  · unfold state
    rw [heq]
    exact h.tasks p
  · rcases h.tasks p with heq' | ⟨-, hr', -⟩
    · unfold state at *
      rw [heq'] at hb hpar
      exact .inr ⟨hb, hr, hpar⟩
    · rw [hr'] at hb
      cases hb

theorem Exits.inv (h : Exits s pid s') (hs : s.Inv)
    (hpid : pid ≠ s.currentPid) : s'.Inv := by
  refine ⟨h.1 ▸ hs.1, fun hne => ?_, fun hu => ?_⟩
  · rw [h.1] at hne ⊢
    have hrun := hs.running hne
    rcases h.tasks s.currentPid hpid.symm with heq | ⟨hb, -⟩
    · unfold state at *
      rw [heq]
      exact hrun
    · rw [hrun] at hb
      cases hb
  · rw [h.1]
    exact hs.idle (h.2 ▸ hu)

theorem Exits.unused {pid p : ℕ} (h : Exits s pid s') (hp : p ≠ pid) :
    s'.state p = .unused ↔ s.state p = .unused := by
  rcases h.tasks p hp with heq | ⟨hb, hr, -⟩
  · unfold state
    rw [heq]
  · rw [hb, hr]
    decide

theorem createUser_spec {parent space pid : ℕ} {entry stack : UInt64}
    (h : s.createUser parent entry stack space = some (pid, s')) :
    pid ≠ 0 ∧ pid < processLimit ∧ parent < processLimit ∧ s.state pid = .unused
      ∧ s'.currentPid = s.currentPid ∧ s'.usersRunning = s.usersRunning
      ∧ s'.tasks = Function.update s.tasks pid
          { parentPid := parent, state := .ready, addressSpace := space, waitingFor := none } := by
  unfold createUser at h
  split_ifs at h with hc
  simp only [not_or, not_le] at hc
  split at h
  · cases h
  · rename_i i hi
    obtain ⟨hlt, hunused, -⟩ := Table.firstIndex_eq_some.1 hi
    simp only [Option.some.injEq, Prod.mk.injEq] at h
    obtain ⟨rfl, rfl⟩ := h
    refine ⟨by omega, ?_, hc.2.2.2, by simpa using hunused, rfl, rfl, rfl⟩
    unfold processLimit at *
    omega

end Scheduler

/-! ## Delivery only wakes -/

namespace Kernel

open Scheduler

theorem wakeIfBlocked_wakes (k : Kernel) (pid : ℕ) (result detail : UInt64) :
    Wakes k.sched (k.wakeIfBlocked pid result detail).sched :=
  wake_getD_wakes k.sched pid result detail

theorem takeWaiter_sched (k : Kernel) (i : ℕ) : (k.takeWaiter i).sched = k.sched := by
  unfold takeWaiter
  split_ifs <;> rfl

theorem deliverToWaiter_wakes (k : Kernel) (i pid : ℕ) (data : List UInt8) :
    Wakes k.sched (k.deliverToWaiter i pid data).2.sched := by
  have h := takeWaiter_sched k i
  unfold deliverToWaiter
  simp only
  split_ifs
  · rw [h]
    exact .refl _
  · split
    · rw [h]
      exact .refl _
    · rename_i s hs
      rw [h] at hs
      exact (wake_spec hs).2.2.2.2

theorem ipcSendImpl_wakes (k : Kernel) (pid handle : ℕ) (data : List UInt8) (block : Bool) :
    Wakes k.sched (k.ipcSendImpl pid handle data block).2.sched := by
  unfold ipcSendImpl
  split
  · exact .refl _
  · simp only
    split_ifs
    any_goals exact .refl _
    exact deliverToWaiter_wakes k _ pid data

theorem ipcReceive_wakes {k k' : Kernel} {pid handle capacity : ℕ} {m : IpcMessage}
    (h : k.ipcReceive pid handle capacity = some (m, k')) : Wakes k.sched k'.sched := by
  unfold ipcReceive at h
  split at h
  · cases h
  · simp only at h
    split_ifs at h
    simp only [Option.some.injEq, Prod.mk.injEq] at h
    rw [← h.2]
    unfold drainSlot
    simp only
    split_ifs
    · exact wakeIfBlocked_wakes _ _ _ _
    · exact .refl _

theorem wakeSleepers_wakes (k : Kernel) (c : IpcChannel) :
    Wakes k.sched (k.wakeSleepers c).sched := by
  unfold wakeSleepers
  simp only
  split_ifs
  any_goals exact .refl _
  any_goals exact wakeIfBlocked_wakes _ _ _ _
  all_goals exact (wakeIfBlocked_wakes _ _ _ _).trans (wakeIfBlocked_wakes _ _ _ _)

theorem cleanupChannel_wakes (k : Kernel) (pid i : ℕ) :
    Wakes k.sched (k.cleanupChannel pid i).sched := by
  unfold cleanupChannel
  split_ifs
  · exact .refl _
  · exact .refl _
  · exact wakeSleepers_wakes k _

theorem ipcProcessCleanup_wakes (k : Kernel) (pid : ℕ) :
    Wakes k.sched (k.ipcProcessCleanup pid).sched :=
  foldl_inv (P := fun k' => Wakes k.sched k'.sched)
    (fun k' i h => h.trans (cleanupChannel_wakes k' pid i)) _ _ (.refl _)

theorem inputPublish_wakes (k : Kernel) (event : InputEvent) :
    Wakes k.sched (k.inputPublish event).sched := by
  unfold inputPublish
  split_ifs
  · exact .refl _
  · exact .refl _
  · simp only
    split
    · rename_i s hs
      split_ifs at hs
      exact (wake_spec hs).2.2.2.2
    · exact .refl _

theorem expireWait_wakes (k : Kernel) (pid : ℕ) : Wakes k.sched (k.expireWait pid).sched := by
  unfold expireWait
  simp only
  split_ifs with h
  · exact .refl _
  · simp only [not_or, not_not] at h
    refine ⟨rfl, rfl, rfl, fun p => ?_⟩
    rcases eq_or_ne p pid with rfl | hp
    · exact .inr ⟨h.1, by simp [state], by simp⟩
    · exact .inl (by simp [hp, cancelWaits])

theorem expireWaits_wakes (k : Kernel) : Wakes k.sched k.expireWaits.sched :=
  foldl_inv (P := fun k' => Wakes k.sched k'.sched)
    (fun k' i h => h.trans (expireWait_wakes k' (i + 1))) _ _ (.refl _)

end Kernel

end DemonOS
