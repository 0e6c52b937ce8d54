import DemonOS.Proofs.Channels
import DemonOS.Proofs.Processes

/-!
# IPC handles and channel instances

A capability for a channel holds the number of a slot of the channel table. The slot is free for
the next channel once the owner of its channel is gone, while capabilities of other processes for
it stay open. A handle names the channel it was issued for as long as no channel is created in a
slot that an open capability still names (`ipc_handle_identity`).
-/

namespace DemonOS

namespace Kernel

def KeepsDead (k k' : Kernel) : Prop :=
  ∀ i, (k'.ipc.channels i).active = true → (k.ipc.channels i).active = true

theorem KeepsDead.refl (k : Kernel) : KeepsDead k k := fun _ h => h

theorem Quiet.keepsDead {k k' : Kernel} (h : Quiet k k') : KeepsDead k k' :=
  fun i hi => (h i hi).active

theorem setChannel_keepsDead {k : Kernel} {i : ℕ} {c : IpcChannel}
    (h : c.active = true → (k.ipc.channels i).active = true) : KeepsDead k (k.setChannel i c) := by
  intro j hj
  rcases eq_or_ne j i with rfl | hne
  · exact h (by simpa using hj)
  · simpa [hne] using hj

theorem takeWaiter_quiet (k : Kernel) (i : ℕ) : Quiet k (k.takeWaiter i) := by
  unfold takeWaiter
  split_ifs
  · exact setChannel_quiet (IpcChannel.clearWaiter_calms _)
  · exact setChannel_quiet (IpcChannel.clearWaiter_calms _)

theorem deliverToWaiter_quiet (k : Kernel) (i pid : ℕ) (data : List UInt8) :
    Quiet k (k.deliverToWaiter i pid data).2 := by
  have h := takeWaiter_quiet k i
  unfold deliverToWaiter
  simp only
  split_ifs
  · exact h
  · split
    · exact h
    · exact h.trans (.of_ipc rfl)

theorem ipcSendImpl_keepsDead (k : Kernel) (pid handle : ℕ) (data : List UInt8) (block : Bool) :
    KeepsDead k (k.ipcSendImpl pid handle data block).2 := by
  unfold ipcSendImpl
  split
  · exact .refl k
  · simp only
    split_ifs
    any_goals exact .refl k
    · exact (deliverToWaiter_quiet k _ pid data).keepsDead
    · exact setChannel_keepsDead fun h => h
    · exact setChannel_keepsDead fun h => h

theorem ipcReceive_keepsDead {k k' : Kernel} {pid handle capacity : ℕ} {m : IpcMessage}
    (h : k.ipcReceive pid handle capacity = some (m, k')) : KeepsDead k k' := by
  unfold ipcReceive at h
  split at h
  · cases h
  · simp only at h
    split_ifs at h
    simp only [Option.some.injEq, Prod.mk.injEq] at h
    rw [← h.2]
    unfold drainSlot
    simp only
    split_ifs
    · exact setChannel_keepsDead fun h => h
    · exact setChannel_keepsDead fun h => h

theorem registerWait_keepsDead {k : Kernel} {ipc : Ipc} {multiplex : Bool}
    {pid handle address capacity : ℕ}
    (h : k.ipc.registerWait k.objects.caps multiplex pid handle address capacity = some ipc) :
    KeepsDead k (k.withIpc ipc) := by
  unfold Ipc.registerWait at h
  split at h
  · cases h
  · split_ifs at h
    simp only [Option.some.injEq] at h
    subst h
    exact setChannel_keepsDead (k := k) fun h => h

theorem syscallSend_keepsDead (k : Kernel) (f : Frame) (user : ℕ → UInt8) :
    KeepsDead k (k.syscallSend f user) := by
  unfold syscallSend
  split
  · exact .refl k
  · have h := ipcSendImpl_keepsDead k k.current f.rdi.toNat
      (readUser user f.rsi.toNat f.rdx.toNat) true
    unfold ipcSendBlock
    generalize k.ipcSendImpl k.current f.rdi.toNat (readUser user f.rsi.toNat f.rdx.toNat) true
      = r at h
    obtain ⟨_ | _ | _, k₁⟩ := r <;> exact h

theorem syscallReceive_keepsDead (k : Kernel) (f : Frame) : KeepsDead k (k.syscallReceive f) := by
  unfold syscallReceive
  split
  · exact .refl k
  · split
    · rename_i m k' hr
      have h := ipcReceive_keepsDead hr
      split_ifs <;> exact h
    · split
      · exact .refl k
      · split
        · exact .refl k
        · rename_i ipc hwait
          exact registerWait_keepsDead hwait

theorem syscallSelect_keepsDead (k : Kernel) (f : Frame) : KeepsDead k (k.syscallSelect f) := by
  unfold syscallSelect
  split
  · exact .refl k
  · split
    · rename_i m k' hr
      have h := ipcReceive_keepsDead hr
      exact h
    · split
      · exact .refl k
      · split
        · exact (ipcCancelWait_quiet k _).keepsDead
        · rename_i ipc hwait
          have h := registerWait_keepsDead hwait
          split
          · intro i hi
            exact h i ((ipcCancelWait_quiet (k.withIpc ipc) k.current).keepsDead i hi)
          · exact h

/-! ## Creation -/

def createdChannel (k : Kernel) : Event → Option ℕ
  | .syscall registers user _ =>
    if k.userMode ∧ registers.rax.toNat = 14 ∧ k.validName registers = true
        ∧ k.ipc.findName (readUser user registers.rdi.toNat registers.rsi.toNat) = none then
      k.ipc.firstInactive.filter fun i => (k.objects.caps.capabilityOpenIpc k.current (i + 1)
        (rightSend ||| rightReceive ||| rightQuery)).isSome
    else none
  | _ => none

theorem ipcCreate_active {ipc : Ipc} {caps : Capabilities} {o : ℕ} {name : List UInt8} {i : ℕ}
    (hdead : (ipc.channels i).active = false)
    (hlive : ((ipc.ipcCreate caps o name).2.1.channels i).active = true) :
    ipc.findName name = none ∧ ipc.firstInactive = some i
      ∧ (caps.capabilityOpenIpc o (i + 1)
        (rightSend ||| rightReceive ||| rightQuery)).isSome = true := by
  unfold Ipc.ipcCreate at hlive
  split_ifs at hlive
  · rw [hdead] at hlive
    cases hlive
  · split at hlive
    · rw [hdead] at hlive
      cases hlive
    · rename_i hfind
      split at hlive
      · rw [hdead] at hlive
        cases hlive
      · rename_i j hj
        split at hlive
        · rcases eq_or_ne i j with rfl | hij
          · simp at hlive
          · simp [hij, hdead] at hlive
        · rename_i handle c hopen
          rcases eq_or_ne i j with rfl | hij
          · exact ⟨hfind, hj, by rw [hopen]; rfl⟩
          · simp [hij, hdead] at hlive

theorem step_createdChannel {k : Kernel} {e : Event} {i : ℕ}
    (hdead : (k.ipc.channels i).active = false)
    (hlive : ((k.step e).ipc.channels i).active = true) : k.createdChannel e = some i := by
  have hno : ¬KeepsDead k (k.step e) := by
    intro h
    rw [h i hlive] at hdead
    cases hdead
  by_cases hcall : k.messageCall e
  swap
  · exact absurd (step_quiet hcall).keepsDead hno
  cases e with
  | syscall registers user dev =>
    obtain ⟨hu, h14 | h16 | h17 | h26⟩ := hcall
    · rw [step_ipcCreate user dev hu h14] at hlive
      unfold syscallIpcCreate at hlive
      split at hlive
      · rw [show ((k.enter registers).ret u64Max).ipc = k.ipc from rfl, hdead] at hlive
        cases hlive
      · rename_i hname
        obtain ⟨hfind, hfirst, hopen⟩ := ipcCreate_active (o := k.current) hdead hlive
        have hname' : k.validName registers = true := by
          rw [Bool.not_eq_true, Bool.not_eq_false'] at hname
          exact hname
        simp only [createdChannel]
        rw [if_pos ⟨hu, h14, hname', hfind⟩, hfirst, Option.filter_some]
        exact if_pos hopen
    · rw [step_send user dev hu h16] at hno
      exact absurd (syscallSend_keepsDead (k.enter registers) registers user) hno
    · rw [step_receive user dev hu h17] at hno
      exact absurd (syscallReceive_keepsDead (k.enter registers) registers) hno
    · rw [step_select user dev hu h26] at hno
      exact absurd (syscallSelect_keepsDead (k.enter registers) registers) hno
  | _ => cases hcall

/-! ## Handles -/

/-- The channels of a run, and the capability slots that name them. -/
def channelWatch : Instances.Watch Kernel ℕ (ℕ × ℕ) where
  live := fun k i => (k.ipc.channels i).active
  names := fun k a => objectOf .ipc (k.objects.caps.entry a.1 a.2)

def channelHistory (b : BootInfo) (events : List Event) : Instances.History ℕ (ℕ × ℕ) :=
  (Machine.run (channelWatch.traced step) (fresh b, {}) events).2

def CreatesUnnamed (k : Kernel) (e : Event) : Prop :=
  ∀ i ∈ k.createdChannel e, ∀ p < processLimit, ∀ slot < slotsPerProcess,
    objectOf .ipc (k.objects.caps.entry p slot) ≠ some i

instance (k : Kernel) (e : Event) : Decidable (CreatesUnnamed k e) :=
  inferInstanceAs (Decidable (∀ i ∈ k.createdChannel e, ∀ p < processLimit,
    ∀ slot < slotsPerProcess, objectOf .ipc (k.objects.caps.entry p slot) ≠ some i))

theorem step_channelFaithful (t : Kernel × Instances.History ℕ (ℕ × ℕ)) (e : Event)
    (h : ProcInv t.1 ∧ channelWatch.Faithful t) (hok : CreatesUnnamed t.1 e) :
    ProcInv (channelWatch.traced step t e).1
      ∧ channelWatch.Faithful (channelWatch.traced step t e) := by
  obtain ⟨k, history⟩ := t
  refine ⟨step_procInv h.1 e, h.2.next (fun a i ha => (k.step_keeps e).objectOf ha) ?_⟩
  intro i hdead hlive a ha
  obtain ⟨hp, hslot, -⟩ := h.1.held a.1 a.2 (objectOf_eq_some.1 ha).1
  exact hok i (step_createdChannel hdead hlive) a.1 hp.2 a.2 hslot ha

/-- In a run in which no channel is created in a slot that an open IPC capability names, a handle
that resolves names the channel it was issued for, and so does one that a send or receive takes. -/
theorem ipc_handle_identity (b : BootInfo) (events : List Event)
    (hok : Machine.Meets step CreatesUnnamed (fresh b) events) :
    (∀ pid handle right v,
      (runFrom b events).objects.caps.capabilityResolveObject pid handle right = some v →
      v.service = .ipc →
        ∃ slot generation, decodeHandle handle = some (pid, slot, generation)
          ∧ (channelHistory b events).issued (pid, slot)
            = (channelHistory b events).born (v.objectId - 1))
    ∧ ∀ pid handle right i,
      (runFrom b events).ipc.resolve (runFrom b events).objects.caps pid handle right = some i →
        ∃ slot generation, decodeHandle handle = some (pid, slot, generation)
          ∧ (channelHistory b events).issued (pid, slot) = (channelHistory b events).born i := by
  have h : channelWatch.Faithful (Machine.run (channelWatch.traced step) (fresh b, {}) events) :=
    (Machine.run_inv_of_meets _ step_channelFaithful events (fresh b, {})
      ⟨fresh_procInv b, fun a i ha => by cases ha⟩ (channelWatch.meets_traced events _ hok)).2
  have hrun : (Machine.run (channelWatch.traced step) (fresh b, {}) events).1 = runFrom b events :=
    channelWatch.run_traced_fst step events _
  have hresolve : ∀ pid handle right v,
      (runFrom b events).objects.caps.capabilityResolveObject pid handle right = some v →
      v.service = .ipc →
        ∃ slot generation, decodeHandle handle = some (pid, slot, generation)
          ∧ (channelHistory b events).issued (pid, slot)
            = (channelHistory b events).born (v.objectId - 1) := by
    intro pid handle right v hv hservice
    obtain ⟨slot, hd, -, hopen, hpay, -⟩ := Capabilities.capabilityResolveObject_eq_some.1 hv
    have hid := runFrom_numbered b events pid slot hopen (.inr (hpay ▸ hservice))
    rw [hpay] at hid
    refine ⟨slot, _, hd, h (pid, slot) (v.objectId - 1) ?_⟩
    rw [hrun]
    exact objectOf_eq_some.2 ⟨hopen, hpay ▸ hservice, by rw [hpay]; omega⟩
  refine ⟨hresolve, fun pid handle right i hi => ?_⟩
  unfold Ipc.resolve at hi
  split at hi
  · cases hi
  · rename_i v hv
    split_ifs at hi with hservice
    unfold Ipc.byId at hi
    split_ifs at hi
    simp only [Option.some.injEq] at hi
    rw [← hi]
    exact hresolve pid handle right v hv (not_not.1 hservice)

/-- The first process creates a channel, and the second connects to it. -/
def connection : List Event :=
  bootEvents ++ [call { rax := 14, rdi := 0x330000, rsi := 1 }, call { rax := 1 },
    call { rax := 15, rdi := 0x330000, rsi := 1 }]

theorem ipc_handle_identity_connection :
    (runFrom smallBoot connection).ipc.resolve (runFrom smallBoot connection).objects.caps 2
        (makeHandle 2 0 1) rightSend = some 0
      ∧ ∃ slot generation, decodeHandle (makeHandle 2 0 1) = some (2, slot, generation)
        ∧ (channelHistory smallBoot connection).issued (2, slot)
          = (channelHistory smallBoot connection).born 0 := by
  have hresolve : (runFrom smallBoot connection).ipc.resolve
      (runFrom smallBoot connection).objects.caps 2 (makeHandle 2 0 1) rightSend = some 0 := by
    decide +kernel
  exact ⟨hresolve, (ipc_handle_identity smallBoot connection (by decide +kernel)).2 2 _ _ 0 hresolve⟩

/-- The owner exits, and the second process creates another channel. Its old handle names that
one. -/
theorem ipc_handle_reaches_later_channel :
    ¬ ∀ (b : BootInfo) (events : List Event) (pid handle : ℕ) (right : BitVec 32) (i : ℕ),
      (runFrom b events).ipc.resolve (runFrom b events).objects.caps pid handle right = some i →
        ∃ slot generation, decodeHandle handle = some (pid, slot, generation)
          ∧ (channelHistory b events).issued (pid, slot) = (channelHistory b events).born i := by
  intro h
  let events := connection ++ [call { rax := 1 }, call { rax := 2 },
    call { rax := 14, rdi := 0x330000, rsi := 2 }]
  have hresolve : (runFrom smallBoot events).ipc.resolve
      (runFrom smallBoot events).objects.caps 2 (makeHandle 2 0 1) rightSend = some 0 := by
    decide +kernel
  obtain ⟨slot, generation, hd, heq⟩ := h smallBoot events 2 _ _ 0 hresolve
  have hd' : decodeHandle (makeHandle 2 0 1) = some (2, 0, 1) := by decide
  rw [hd'] at hd
  simp only [Option.some.injEq, Prod.mk.injEq] at hd
  obtain ⟨-, rfl, -⟩ := hd
  revert heq
  decide +kernel

end Kernel

end DemonOS
