import DemonOS.Proofs.Channels
import DemonOS.Proofs.Processes

/-!
# Terminating a process

System call 13 takes the target's messages and capabilities away before `scheduler_terminate` looks
at the target, so a call that is refused leaves everything as it is only where there was nothing to
take away (`terminate_failure_unchanged_iff`). What the cleanup does to each channel is
`ipcProcessCleanup_channels`.
-/

namespace DemonOS

def IpcChannel.cleaned (c : IpcChannel) (pid : ℕ) : IpcChannel :=
  if c.active = false then c else if c.owner ≠ pid then c.forget pid else (c.forget pid).closed

namespace Kernel

open Scheduler

theorem cleanupChannel_channels (k : Kernel) (pid i : ℕ) :
    (k.cleanupChannel pid i).ipc.channels
      = Function.update k.ipc.channels i ((k.ipc.channels i).cleaned pid) := by
  unfold cleanupChannel IpcChannel.cleaned
  split_ifs
  · rw [Function.update_eq_self]
  · rfl
  · rw [setChannel_ipc_channels, wakeSleepers_ipc]

theorem foldl_cleanup_channels (pid n : ℕ) (k : Kernel) (i : ℕ) :
    ((List.range n).foldl (fun k i => k.cleanupChannel pid i) k).ipc.channels i
      = if i < n then (k.ipc.channels i).cleaned pid else k.ipc.channels i := by
  induction n generalizing i with
  | zero => simp
  | succ n ih =>
    rw [List.range_succ, List.foldl_append, List.foldl_cons, List.foldl_nil,
      cleanupChannel_channels]
    rcases eq_or_ne i n with rfl | hne
    · rw [Function.update_self, ih, if_neg (lt_irrefl i), if_pos (Nat.lt_succ_self i)]
    · rw [Function.update_of_ne hne, ih]
      simp only [show i < n + 1 ↔ i < n by omega]

theorem ipcProcessCleanup_channels (k : Kernel) (pid i : ℕ) :
    (k.ipcProcessCleanup pid).ipc.channels i
      = if i < ipcChannelLimit then (k.ipc.channels i).cleaned pid else k.ipc.channels i :=
  foldl_cleanup_channels pid ipcChannelLimit _ i

theorem ipcProcessCleanup_waiter (k : Kernel) (pid : ℕ) :
    ¬((k.ipcProcessCleanup pid).input.waiter.active = true
      ∧ (k.ipcProcessCleanup pid).input.waiter.pid = pid) := by
  have hcancel : ∀ (input : Input) (p : ℕ),
      ¬(input.waiter.active = true ∧ input.waiter.pid = pid) →
      ¬((input.inputCancelWait p).waiter.active = true
        ∧ (input.inputCancelWait p).waiter.pid = pid) := by
    intro input p h
    unfold Input.inputCancelWait
    split_ifs
    · exact h
    · simp [Input.clearWaiter]
  unfold ipcProcessCleanup
  refine foldl_inv (P := fun k' => ¬(k'.input.waiter.active = true ∧ k'.input.waiter.pid = pid))
    (fun k' i h => ?_) _ _ ?_
  · unfold cleanupChannel wakeSleepers
    simp only
    split_ifs
    any_goals exact h
    all_goals exact hcancel _ _ h
  · unfold Input.inputCancelWait
    simp only [withInput_input]
    split_ifs with hc
    · rintro ⟨ha, hp⟩
      rcases hc with hc | hc
      · exact absurd (hc.symm.trans ha) (by simp)
      · exact hc hp
    · simp [Input.clearWaiter]

/-! ## A refused call -/

/-- The channels with their waits and parked senders, the capability slots, the surfaces, the wait
for input and the tasks are the same. -/
structure Unchanged (k k' : Kernel) : Prop where
  channels : ∀ i < ipcChannelLimit, k'.ipc.channels i = k.ipc.channels i
  waiter : k'.input.waiter = k.input.waiter
  slots : ∀ pid slot, k'.objects.caps.entry pid slot = k.objects.caps.entry pid slot
  surfaces : k'.objects.surfaces = k.objects.surfaces
  tasks : k'.sched.tasks = k.sched.tasks

def Terminable (k : Kernel) (target : ℕ) : Prop :=
  target ≠ 0 ∧ target < processLimit ∧ target ≠ k.current ∧ k.sched.state target ≠ .unused
    ∧ k.sched.state target ≠ .exited

/-- The target owns no channel, sleeps on none and not on the input queue, and has no capability
open. -/
structure HoldsNothing (k : Kernel) (target : ℕ) : Prop where
  owner : ∀ i < ipcChannelLimit, (k.ipc.channels i).active = true →
    (k.ipc.channels i).owner ≠ target
  waiter : ∀ i < ipcChannelLimit, (k.ipc.channels i).active = true →
    ¬((k.ipc.channels i).waiter.active = true ∧ (k.ipc.channels i).waiter.pid = target)
  sender : ∀ i < ipcChannelLimit, (k.ipc.channels i).active = true →
    ¬((k.ipc.channels i).sender.active = true ∧ (k.ipc.channels i).sender.pid = target)
  input : ¬(k.input.waiter.active = true ∧ k.input.waiter.pid = target)
  slots : target ≠ 0 → target < processLimit → ∀ slot < slotsPerProcess,
    (k.objects.caps.entry target slot).isOpen = false

def TerminateFails (k : Kernel) (f : Frame) : Prop :=
  ((k.syscallTerminate f).sched.frames k.current).rax = u64Max

/-- The tables at the moment `scheduler_terminate` looks at the target. -/
def torn (k : Kernel) (target : ℕ) : Kernel := (k.ipcProcessCleanup target).closeAll target

theorem torn_wakes (k : Kernel) (target : ℕ) : Wakes k.sched (k.torn target).sched :=
  ipcProcessCleanup_wakes k target

theorem Wakes.state_eq {s s' : Scheduler} (h : Wakes s s') (p : ℕ) :
    (s'.state p = .unused ↔ s.state p = .unused) ∧ (s'.state p = .exited ↔ s.state p = .exited) := by
  rcases h.tasks p with heq | ⟨hb, hr, -⟩
  · unfold state
    rw [heq]
    exact ⟨Iff.rfl, Iff.rfl⟩
  · rw [hb, hr]
    decide

theorem schedulerTerminate_torn (k : Kernel) (target : ℕ) (code : UInt64) :
    (k.torn target).schedulerTerminate target code = none ↔ ¬k.Terminable target := by
  have hw := torn_wakes k target
  have hcur : (k.torn target).sched.currentPid = k.current := hw.currentPid
  unfold schedulerTerminate Terminable
  simp only [hcur, (Wakes.state_eq hw target).1, (Wakes.state_eq hw target).2,
    ite_eq_left_iff, reduceCtorEq, imp_false, not_not]
  generalize k.sched.state target = st
  constructor
  · rintro (h | h | h | h | h) ⟨h1, h2, h3, h4, h5⟩
    all_goals first | contradiction | omega
  · intro h
    by_contra hc
    simp only [not_or, not_le] at hc
    exact h hc

theorem terminateFails_iff (k : Kernel) (f : Frame) :
    k.TerminateFails f ↔ ¬k.Terminable (low32 f.rdi) := by
  have hcur : (k.torn (low32 f.rdi)).current = k.current :=
    (torn_wakes k (low32 f.rdi)).currentPid
  rw [← schedulerTerminate_torn k (low32 f.rdi) f.rsi]
  unfold TerminateFails syscallTerminate
  simp only
  rw [show (k.ipcProcessCleanup (low32 f.rdi)).closeAll (low32 f.rdi) = k.torn (low32 f.rdi)
    from rfl]
  cases h : (k.torn (low32 f.rdi)).schedulerTerminate (low32 f.rdi) f.rsi with
  | none => simp only [ret_sched_frames, hcur, Function.update_self]
  | some k₁ =>
    have hcur' : k₁.current = k.current :=
      (schedulerTerminate_spec h).2.2.currentPid.trans hcur
    simp only [ret_sched_frames, hcur', Function.update_self, reduceCtorEq, iff_false]
    decide

theorem HoldsNothing.torn {k : Kernel} {target : ℕ} (h : k.HoldsNothing target) :
    Unchanged k (k.torn target) := by
  have hinput : k.withInput (k.input.inputCancelWait target) = k := by
    unfold Input.inputCancelWait
    rw [if_pos]
    · rfl
    · have := h.input
      rw [not_and_or, Bool.not_eq_true] at this
      exact this
  have hchannel : ∀ i < ipcChannelLimit, k.cleanupChannel target i = k := by
    intro i hi
    unfold cleanupChannel
    split_ifs with hactive howner
    · rfl
    · rw [Bool.not_eq_false] at hactive
      have hforget : (k.ipc.channels i).forget target = k.ipc.channels i := by
        unfold IpcChannel.forget
        simp only
        rw [if_neg (h.waiter i hi hactive), if_neg (h.sender i hi hactive)]
      unfold setChannel Ipc.setChannel
      rw [hforget, Function.update_eq_self]
      rfl
    · rw [Bool.not_eq_false] at hactive
      exact absurd (not_not.1 howner) (h.owner i hi hactive)
  have hfold : ∀ l : List ℕ, (∀ i ∈ l, i < ipcChannelLimit) →
      l.foldl (fun k i => k.cleanupChannel target i) k = k := by
    intro l
    induction l with
    | nil => exact fun _ => rfl
    | cons i l ih =>
      intro hl
      rw [List.foldl_cons, hchannel i (hl i (List.mem_cons_self ..))]
      exact ih fun j hj => hl j (List.mem_cons_of_mem i hj)
  have hclean : k.ipcProcessCleanup target = k := by
    unfold ipcProcessCleanup
    rw [hinput]
    exact hfold _ fun i hi => List.mem_range.1 hi
  have hclose : ∀ slots : List ℕ, (∀ slot ∈ slots, slot < slotsPerProcess) → target ≠ 0 →
      target < processLimit →
      slots.foldl (fun o slot => (o.releaseSlot target slot).getD o) k.objects = k.objects := by
    intro slots
    induction slots with
    | nil => exact fun _ _ _ => rfl
    | cons slot slots ih =>
      intro hl hne hlt
      have hnone : k.objects.releaseSlot target slot = none := by
        rw [Option.eq_none_iff_forall_ne_some]
        intro o' ho'
        obtain ⟨hslot, hopen, -⟩ := Objects.releaseSlot_spec ho'
        exact absurd (hopen.symm.trans (h.slots hne hlt slot hslot)) (by simp)
      rw [List.foldl_cons, hnone]
      exact ih (fun j hj => hl j (List.mem_cons_of_mem slot hj)) hne hlt
  have hobjects : (k.closeAll target).objects.caps.tables = k.objects.caps.tables
      ∧ (k.closeAll target).objects.surfaces = k.objects.surfaces := by
    unfold closeAll Objects.capabilitiesCloseAll
    simp only [withObjects_objects]
    split_ifs with hc
    · exact ⟨rfl, rfl⟩
    · rw [not_or, not_le] at hc
      rw [hclose _ (fun slot hs => List.mem_range.1 hs) hc.1 hc.2]
      exact ⟨rfl, rfl⟩
  unfold Kernel.torn
  rw [hclean]
  refine ⟨fun _ _ => rfl, rfl, fun pid slot => ?_, hobjects.2, rfl⟩
  unfold Capabilities.entry
  rw [hobjects.1]

theorem Unchanged.holdsNothing {k : Kernel} {target : ℕ} (h : Unchanged k (k.torn target)) :
    k.HoldsNothing target := by
  have hchannel : ∀ i < ipcChannelLimit, (k.ipc.channels i).cleaned target = k.ipc.channels i := by
    intro i hi
    have := h.channels i hi
    rw [show (k.torn target).ipc = (k.ipcProcessCleanup target).ipc from rfl,
      ipcProcessCleanup_channels, if_pos hi] at this
    exact this
  have howner : ∀ i < ipcChannelLimit, (k.ipc.channels i).active = true →
      (k.ipc.channels i).owner ≠ target ∧ (k.ipc.channels i).forget target = k.ipc.channels i := by
    intro i hi hactive
    have hc := hchannel i hi
    unfold IpcChannel.cleaned at hc
    rw [if_neg (by simp [hactive])] at hc
    split_ifs at hc with ho
    · exact ⟨ho, hc⟩
    · rw [← hc] at hactive
      exact absurd hactive (by simp [IpcChannel.closed])
  refine ⟨fun i hi ha => (howner i hi ha).1, fun i hi ha hw => ?_, fun i hi ha hs => ?_, ?_, ?_⟩
  · have hf := (howner i hi ha).2
    have hdead : ((k.ipc.channels i).forget target).waiter.active = false := by
      unfold IpcChannel.forget
      simp only [hw, and_self, if_true]
      split_ifs <;> rfl
    rw [hf, hw.1] at hdead
    cases hdead
  · have hf := (howner i hi ha).2
    have hdead : ((k.ipc.channels i).forget target).sender.active = false := by
      unfold IpcChannel.forget
      simp only
      split_ifs with _ h2
      · rfl
      · exact absurd hs h2
      · rfl
    rw [hf, hs.1] at hdead
    cases hdead
  · have hw := ipcProcessCleanup_waiter k target
    rw [show (k.ipcProcessCleanup target).input.waiter = k.input.waiter from h.waiter] at hw
    exact hw
  · intro hne hlt slot hslot
    rw [← h.slots target slot]
    exact Objects.capabilitiesCloseAll_closed _ hne hlt hslot

/-- A terminate call that fails changes nothing, if and only if the call does not fail or its target
holds nothing. -/
theorem terminate_failure_unchanged_iff (k : Kernel) (f : Frame) :
    (k.TerminateFails f → Unchanged k (k.syscallTerminate f))
      ↔ k.Terminable (low32 f.rdi) ∨ k.HoldsNothing (low32 f.rdi) := by
  rw [terminateFails_iff]
  by_cases ht : k.Terminable (low32 f.rdi)
  · simp [ht]
  · have hnone := (schedulerTerminate_torn k (low32 f.rdi) f.rsi).2 ht
    have heq : k.syscallTerminate f = (k.torn (low32 f.rdi)).ret u64Max := by
      unfold syscallTerminate
      simp only
      rw [show (k.ipcProcessCleanup (low32 f.rdi)).closeAll (low32 f.rdi) = k.torn (low32 f.rdi)
        from rfl, hnone]
    simp only [ht, not_false_eq_true, true_imp_iff, false_or, heq]
    constructor
    · intro h
      exact Unchanged.holdsNothing ⟨h.channels, h.waiter, h.slots, h.surfaces, h.tasks⟩
    · intro h
      have := h.torn
      exact ⟨this.channels, this.waiter, this.slots, this.surfaces, this.tasks⟩

/-- A process terminates itself: the call fails, and its open capability is gone. -/
theorem terminate_self_closes_capabilities :
    let k := runFrom smallBoot (bootEvents ++ [call { rax := 5, rdi := 2 }])
    k.TerminateFails { rdi := 1 } ∧ ¬Unchanged k (k.syscallTerminate { rdi := 1 }) := by
  refine ⟨by unfold TerminateFails; decide +kernel, fun h => ?_⟩
  have hslot := congrArg SlotEntry.isOpen (h.slots 1 0)
  revert hslot
  decide +kernel

end Kernel

end DemonOS
