import DemonOS.Proofs.Messages
import DemonOS.Proofs.Reaping

/-!
# What can still wake a sleeper

A blocked process is registered for a message, for room on a channel or for input, or waits for a
child, or has a deadline. A message or an event that the kernel refuses to copy to a waiting process
takes its registration away and does not wake it. In a run in which that befalls only processes with
a deadline, every blocked process has something that can still wake it (`no_lost_wakeup`).
-/

namespace DemonOS

open Scheduler

variable {c p : ℕ} {e : Event} {k : Kernel}

namespace Scheduler

structure WaitsFor (s : Scheduler) (p c : ℕ) : Prop where
  valid : UserMemory.validPid p
  blocked : s.state p = .blocked
  waitingFor : (s.tasks p).waitingFor = some c
  parent : (s.tasks c).parentPid = p
  other : p ≠ c

theorem WaitsFor.of_wakes {s s' : Scheduler} (h : s.WaitsFor p c) (hw : Wakes s s')
    (hb : s'.state p = .blocked) : s'.WaitsFor p c := by
  have hparent : (s'.tasks c).parentPid = (s.tasks c).parentPid := by
    rcases hw.tasks c with heq | ⟨-, -, horigin⟩
    · rw [heq]
    · exact congrArg Prod.fst horigin
  rcases hw.tasks p with heq | ⟨-, hready, -⟩
  · exact ⟨h.valid, hb, by rw [heq]; exact h.waitingFor, hparent.trans h.parent, h.other⟩
  · rw [hready] at hb
    cases hb

end Scheduler

namespace Kernel

/-! ## The end of a child -/

theorem exitTask_unblocks (hc : UserMemory.validPid c)
    (hlive : k.sched.state c ≠ .unused) (hne : p ≠ c)
    (h : k.sched.state p = .blocked → k.sched.WaitsFor p c) (code : UInt64) :
    (k.exitTask c code).sched.state p ≠ .blocked := by
  intro hb
  have hwaits : k.sched.WaitsFor p c := by
    refine h ?_
    unfold state at hb ⊢
    rcases (exitTask_spec k hc hlive code).2.tasks p hne with hsame | ⟨hblocked, -⟩
    · rw [← hsame]
      exact hb
    · exact hblocked
  have htask : (k.markExited c code).sched.tasks p = k.sched.tasks p := by
    simp [markExited, hne]
  have hparent : ((k.markExited c code).sched.tasks c).parentPid = p := by
    simpa [markExited] using hwaits.parent
  have hparentWaits : (k.markExited c code).ParentWaits c := by
    unfold ParentWaits state
    simp only [hparent, htask]
    exact ⟨hwaits.valid.1, hwaits.valid.2, hwaits.blocked, .inr hwaits.waitingFor⟩
  obtain ⟨s, -, hready, heq⟩ := wakeWaitingParent_of_waits hparentWaits
  rw [hparent] at hready
  rw [show k.exitTask c code = (k.markExited c code).wakeWaitingParent c from rfl, heq] at hb
  rcases (freeSlot_spec ((k.markExited c code).withSched s) hc).2.tasks p hne with
    hsame | ⟨-, hready', -⟩
  · unfold state at hb hready
    rw [hsame, show (((k.markExited c code).withSched s).sched.tasks p).state = .ready
      from hready] at hb
    cases hb
  · rw [hready'] at hb
    cases hb

theorem schedulerOnExit_unblocks (hs : k.sched.Inv) (hcur : k.current ≠ 0)
    (hne : p ≠ k.current) (h : k.sched.state p = .blocked → k.sched.WaitsFor p k.current)
    (code : UInt64) : (k.schedulerOnExit code).sched.state p ≠ .blocked := by
  have hp := exitTask_unblocks ⟨hcur, hs.current_lt⟩ (hs.live hcur) hne h code
  have hu := hs.userMode hcur
  unfold schedulerOnExit
  unfold current at hcur hp
  rw [if_neg (by simp [hu, hcur])]
  simp only
  generalize k.exitTask k.sched.currentPid code = k₁ at hp ⊢
  have hkept : ∀ {s}, Leaves k₁.sched s → s.state p ≠ .blocked := by
    intro s hl hb
    have heq := hl.sleeps p hb
    unfold state at hb hp
    rw [heq] at hb
    exact hp hb
  split
  · rename_i next hnext
    exact hkept (dispatch_leaves (nextReady_spec hnext).2.2)
  · exact hkept (returnIdle_leaves _)

theorem schedulerTerminate_unblocks {k k' : Kernel} {code : UInt64}
    (hk' : k.schedulerTerminate c code = some k') (hne : p ≠ c)
    (h : k.sched.state p = .blocked → k.sched.WaitsFor p c) : k'.sched.state p ≠ .blocked := by
  unfold schedulerTerminate at hk'
  split_ifs at hk' with hc
  simp only [not_or, not_le] at hc
  simp only [Option.some.injEq] at hk'
  rw [← hk']
  exact exitTask_unblocks ⟨hc.1, hc.2.1⟩ hc.2.2.2.1 hne h code

theorem ending_unblocks (hk : Calm k) (h : k.sched.WaitsFor p c)
    (hc : c ≠ 0) (hlive : ¬k.sched.Ended c) (hended : (k.step e).sched.Ended c) :
    (k.step e).sched.state p ≠ .blocked := by
  have hcleaned : ∀ f d, Wakes k.sched (((k.enter f).ipcProcessCleanup d).closeAll d).sched :=
    fun f d => (enter_same k f).wakes.trans (ipcProcessCleanup_wakes (k.enter f) d)
  rcases step_ends hk hc hlive hended with ⟨f, user, dev, rfl, hu, hends⟩ | ⟨rfl, hidle⟩
  · rcases hends with ⟨number, rfl⟩ | ⟨number, rfl⟩
    · rw [step_exit user dev hu number]
      have hwakes := hcleaned f k.current
      have hcur : (((k.enter f).ipcProcessCleanup k.current).closeAll k.current).current
        = k.current := hwakes.currentPid
      refine schedulerOnExit_unblocks (hwakes.inv hk.procs.sched) (by rw [hcur]; exact hu.2)
        (by rw [hcur]; exact h.other) (fun hb => ?_) f.rdi
      rw [hcur]
      exact h.of_wakes hwakes hb
    · rw [step_terminate user dev hu number] at hended ⊢
      have hwakes := hcleaned f (low32 f.rdi)
      unfold syscallTerminate at hended ⊢
      simp only at hended ⊢
      generalize ((k.enter f).ipcProcessCleanup (low32 f.rdi)).closeAll (low32 f.rdi) = k₁ at *
      split
      · rename_i hnone
        rw [hnone] at hended
        have hst := Wakes.state_eq hwakes (low32 f.rdi)
        exact absurd (hended.imp hst.2.1 hst.1.1) hlive
      · rename_i k₂ hk₂
        have hp : k₂.sched.state p ≠ .blocked :=
          schedulerTerminate_unblocks hk₂ h.other fun hb => h.of_wakes hwakes hb
        exact hp
  · simp only [step, hidle] at hended ⊢
    simp only [Bool.false_eq_true, if_false, kernelCall] at hended ⊢
    cases hkill : k.schedulerTerminate c 137 with
    | none =>
      rw [hkill] at hended
      exact absurd hended hlive
    | some k' => exact schedulerTerminate_unblocks hkill h.other fun _ => h

/-! ## Registrations that are dropped -/

/-- The process whose registration an event takes away without waking it: what is sent to it does
not fit its buffer, or cannot be copied there. -/
def dropped (k : Kernel) : Event → Option ℕ
  | .syscall f _ _ =>
    match k.sendTarget f with
    | none => none
    | some i =>
      if (k.ipc.channels i).waiter.active = true
          ∧ k.accepts (k.ipc.channels i).waiter f.rdx.toNat = false then
        some (k.ipc.channels i).waiter.pid
      else none
  | .input event =>
    if ¬(event.type < inputKeyDown ∨ inputMouseScroll < event.type)
        ∧ k.input.waiter.active = true
        ∧ k.userspaceCopyTo k.input.waiter.pid k.input.waiter.address inputEventSize = false then
      some k.input.waiter.pid
    else none
  | _ => none

/-- Only a process with a deadline has its registration dropped. -/
def KeepsWaits (k : Kernel) (e : Event) : Prop :=
  ∀ p ∈ k.dropped e, (k.sched.tasks p).timedWait = true

instance (k : Kernel) (e : Event) : Decidable (KeepsWaits k e) :=
  inferInstanceAs (Decidable (∀ p ∈ k.dropped e, _))

theorem withdrawn_dropped (h : k.fate e p .withdrawn)
    (hbusy : ¬k.Free p) (hfree : (k.step e).Free p) : p ∈ k.dropped e := by
  rcases fate_withdrawn h with ⟨f, user, dev, i, rfl, h16, hi, hactive, rfl, haccepts⟩ |
    ⟨event, rfl, ⟨hactive, rfl⟩, hcopies⟩
  · have hu : k.userMode := by
      by_contra hu
      simp only [step, if_neg hu] at hfree
      exact hbusy hfree
    have hcheck : (!k.canRead f.rsi f.rdx || f.rdx == 0 || ipcMessageMax < f.rdx.toNat)
        = false := by
      by_contra hcheck
      rw [Bool.not_eq_false] at hcheck
      refine hbusy fun t ht => hfree t ?_
      rw [step_send user dev hu h16]
      unfold syscallSend
      rw [show (!(k.enter f).canRead f.rsi f.rdx || f.rdx == 0 || ipcMessageMax < f.rdx.toNat)
        = true from hcheck]
      cases t <;> exact ht
    have htarget : k.sendTarget f = some i := by
      unfold sendTarget
      rw [if_pos ⟨hu, h16, hcheck⟩, hi]
    simp [dropped, htarget, hactive, haccepts]
  · have htype : ¬(event.type < inputKeyDown ∨ inputMouseScroll < event.type) := by
      intro htype
      simp only [step, inputPublish, if_pos htype] at hfree
      exact hbusy hfree
    simp [dropped, htype, hactive, hcopies]

/-! ## Who is asleep can be woken -/

/-- What can wake a process. -/
inductive Wakeable (k : Kernel) (p : ℕ) : Prop
  | message (i : ℕ) (multiplex : Bool) (h : (k.ipc.channels i).Waits p multiplex)
  | event (h : k.input.Waits p)
  | room (i : ℕ) (h : (k.ipc.channels i).Parks p)
  | child (c : ℕ) (waits : (k.sched.tasks p).waitingFor = some c) (live : ¬k.sched.Ended c)
    (parent : (k.sched.tasks c).parentPid = p)
  | deadline (h : (k.sched.tasks p).timedWait = true)

structure Rested (k : Kernel) (p : ℕ) : Prop where
  bound : p < processLimit
  child : ∀ c, (k.sched.tasks p).waitingFor = some c → k.sched.LiveChild p c
  cause : (k.sched.tasks p).waitingFor ≠ none ∨ ¬k.Free p ∨ (k.sched.tasks p).timedWait = true

/-- Every blocked process has a cause to sleep, and the idle task is nobody's child. -/
structure Wakeful (k : Kernel) : Prop where
  calm : Calm k
  idle : k.sched.state 0 ≠ .blocked
  orphan : (k.sched.tasks 0).parentPid = 0
  rested : ∀ p, p ≠ 0 → k.sched.state p = .blocked → k.Rested p

theorem Wakeful.child_ne (hk : Wakeful k) (hp : p ≠ 0)
    (h : k.sched.LiveChild p c) : c ≠ 0 := by
  rintro rfl
  exact hp (h.parent.symm.trans hk.orphan)

theorem Wakeful.wakeable (hk : Wakeful k) (hb : k.sched.state p = .blocked) :
    k.Wakeable p := by
  have hp : p ≠ 0 := by
    rintro rfl
    exact hk.idle hb
  obtain ⟨-, hchild, hcause⟩ := hk.rested p hp hb
  rcases hcause with hwaits | hbusy | htimed
  · obtain ⟨c, hc⟩ := Option.ne_none_iff_exists'.1 hwaits
    have hlive := hchild c hc
    exact .child c hc (hlive.live (hk.child_ne hp hlive)) hlive.parent
  · simp only [Free, not_forall, not_not] at hbusy
    obtain ⟨t, ht⟩ := hbusy
    cases t with
    | message i multiplex => exact .message i multiplex ht
    | room i => exact .room i ht
    | event => exact .event ht
  · exact .deadline htimed

theorem Wakeful.child_step (hk : Wakeful k) (hp : p ≠ 0)
    (hbound : p < processLimit) (hb : k.sched.state p = .blocked)
    (hc : (k.sched.tasks p).waitingFor = some c) (hlive : k.sched.LiveChild p c)
    (hb' : (k.step e).sched.state p = .blocked) : (k.step e).sched.LiveChild p c := by
  have hne := hk.child_ne hp hlive
  have hlive' : ¬(k.step e).sched.Ended c := by
    intro hended
    rcases eq_or_ne p c with rfl | hother
    · unfold Ended at hended
      rw [hb'] at hended
      simp at hended
    · exact ending_unblocks hk.calm ⟨⟨hp, hbound⟩, hb, hc, hlive.parent, hother⟩ hne
        (hlive.live hne) hended hb'
  refine ⟨hlive.bound, fun _ => hlive', ?_⟩
  rcases (step_parentage hk.calm.procs.sched e).tasks c hne (fun h => hlive' (.inr h)) with
    ⟨-, heq⟩ | ⟨-, hunused, -⟩
  · exact heq.trans hlive.parent
  · exact absurd (.inr hunused) (hlive.live hne)

theorem step_wakeful (hk : Wakeful k) (hok : k.KeepsWaits e) :
    Wakeful (k.step e) := by
  have hs := hk.calm.procs.sched
  have hserves := step_serves hk.calm.rests hs e
  have hblocked : ∀ p, p ≠ k.current ∨ k.current = 0 → (k.step e).sched.state p = .blocked →
      k.sched.state p = .blocked := by
    intro p hcur hb
    have heq := hserves.sleeps p hcur hb
    unfold state at hb ⊢
    rw [← heq]
    exact hb
  refine ⟨step_calm hk.calm e, fun hb => hk.idle (hblocked 0 ?_ hb),
    (step_parentage hs e).idle.trans hk.orphan, fun p hp hb => ?_⟩
  · rcases eq_or_ne k.current 0 with hcur | hcur
    · exact .inr hcur
    · exact .inl hcur.symm
  rcases eq_or_ne p k.current with rfl | hcur
  · exact ⟨hs.current_lt, hserves.child hp hb, (hserves.waits hp hb).imp_right .inl⟩
  have hb₀ := hblocked p (.inl hcur) hb
  have heq := hserves.sleeps p (.inl hcur) hb
  obtain ⟨hbound, hchild, hcause⟩ := hk.rested p hp hb₀
  refine ⟨hbound, fun c hc => ?_, ?_⟩
  · rw [heq] at hc
    exact hk.child_step hp hbound hb₀ hc (hchild c hc) hb
  · rw [heq]
    refine hcause.imp_right fun hcause => ?_
    rcases hcause with hbusy | htimed
    · by_cases hfree : (k.step e).Free p
      · right
        cases hserves.outcome p hp hcur with
        | spared h => exact absurd (h.free_iff.1 hfree) hbusy
        | dropped _ h => exact hok p (withdrawn_dropped h hbusy hfree)
        | woken _ awake =>
          unfold Awake at awake
          rw [hb] at awake
          simp at awake
        | exited h => exact absurd (hb.symm.trans h) (by decide)
        | gone _ h => exact absurd (hb.symm.trans h) (by decide)
      · exact .inl hfree
    · exact .inr htimed

theorem fresh_wakeful (b : BootInfo) : Wakeful (fresh b) := by
  refine ⟨fresh_calm b, by simp [fresh, state], rfl, fun p hp hb => ?_⟩
  simp [fresh, state, hp] at hb

/-- In a run in which no event takes the registration of a process without a deadline away and
leaves it asleep, every blocked process waits for a message, for input, for room or for a child that
has not ended, or has a deadline. -/
theorem no_lost_wakeup (b : BootInfo) (events : List Event)
    (h : Machine.Meets step KeepsWaits (fresh b) events) (p : ℕ)
    (hblocked : (runFrom b events).sched.state p = .blocked) : (runFrom b events).Wakeable p :=
  (Machine.run_inv_of_meets step (I := Wakeful) (fun _ _ => step_wakeful) events (fresh b)
    (fresh_wakeful b) h).wakeable hblocked

/-- In every run, a process that is registered anywhere has ended, or is blocked and registered just
once or, in a select, just twice. -/
theorem runFrom_asleep (b : BootInfo) (events : List Event) (p : ℕ) :
    (runFrom b events).Asleep (p + 1) :=
  (runFrom_calm b events).rests.asleep _ p.succ_ne_zero p.succ_ne_zero

/-- The first process creates a channel and waits there with room for one byte. -/
def waitingEvents : List Event :=
  bootEvents ++ [call { rax := 14, rdi := 0x330000, rsi := 1 },
    call { rax := 17, rdi := 0x10100, rsi := 0x330000, rdx := 1 }]

theorem no_lost_wakeup_waiting : (runFrom smallBoot waitingEvents).Wakeable 1 :=
  no_lost_wakeup smallBoot waitingEvents (by decide +kernel) 1 (by decide +kernel)

/-- The second process sends two bytes there. -/
def refusedEvents : List Event :=
  waitingEvents ++ [call { rax := 15, rdi := 0x330000, rsi := 1 },
    call { rax := 16, rdi := 0x10200, rsi := 0x330000, rdx := 2 }]

/-- The send fails, and the first process sleeps on with nothing that can wake it. -/
theorem refused_message_strands_receiver :
    (runFrom smallBoot refusedEvents).sched.state 1 = .blocked
      ∧ ((runFrom smallBoot refusedEvents).sched.frames 2).rax = u64Max
      ∧ ¬(runFrom smallBoot refusedEvents).Wakeable 1 := by
  refine ⟨by decide +kernel, by decide +kernel, fun h => ?_⟩
  have hbound := (runFrom_calm smallBoot refusedEvents).rests.bound
  cases h with
  | message i multiplex h =>
    have hnone : ∀ i < ipcChannelLimit,
        ((runFrom smallBoot refusedEvents).ipc.channels i).waiter.active = false := by
      decide +kernel
    exact absurd (h.2.1.symm.trans (hnone i (hbound i h.1))) (by simp)
  | event h => exact absurd h.1 (by decide +kernel)
  | room i h =>
    have hnone : ∀ i < ipcChannelLimit,
        ((runFrom smallBoot refusedEvents).ipc.channels i).sender.active = false := by
      decide +kernel
    exact absurd (h.2.1.symm.trans (hnone i (hbound i h.1))) (by simp)
  | child c waits =>
    have hnone : ((runFrom smallBoot refusedEvents).sched.tasks 1).waitingFor = none := by
      decide +kernel
    exact absurd (hnone.symm.trans waits) (by simp)
  | deadline h => exact absurd h (by decide +kernel)

end Kernel

end DemonOS
