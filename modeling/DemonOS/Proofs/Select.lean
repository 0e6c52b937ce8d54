import DemonOS.Proofs.Sleepers

/-!
# Waiting for a message or an input event

System call 26 registers the caller with a channel and with the input queue. As long as the shell's
`kill` hits no process in such a wait, the two registrations come and go together
(`select_all_or_nothing`): a message, an input event, a timeout or the end of the channel's owner
concludes the wait once, and takes both away.
-/

namespace DemonOS

open Scheduler

namespace Kernel

/-- The results a select returns: 1 for a message, 2 for an input event, 3 for a timeout, and failure
where the channel is closed. -/
inductive Delivery (k : Kernel) (p : ℕ) : Event → UInt64 → UInt64 → Prop
  | channel {registers : Frame} {user : ℕ → UInt8} {dev : Devices} {i : ℕ}
    (number : registers.rax.toNat = 16)
    (target : k.ipc.resolve k.objects.caps k.current registers.rdi.toNat rightSend = some i)
    (waits : (k.ipc.channels i).Waits p true) :
    Delivery k p (.syscall registers user dev) 1
      (UInt64.ofNat (readUser user registers.rsi.toNat registers.rdx.toNat).length)
  | input {event : InputEvent} (waits : k.input.Waits p) :
    Delivery k p (.input event) 2 (UInt64.ofNat inputEventSize)
  | timeout {registers : Frame} (timed : (k.sched.tasks p).timedWait = true)
    (due : (k.sched.tasks p).wakeTick ≤ k.sched.ticks + 1) :
    Delivery k p (.timerTick registers) 3 0
  | error {e : Event} {i : ℕ} (waits : (k.ipc.channels i).Waits p true)
    (closes : k.closers e (k.ipc.channels i).owner) : Delivery k p e u64Max 0

/-- The event ends a wait of `p`, with all its registrations: `p` wakes with a result, or sleeps on
without one, or ends. -/
structure Concludes (k : Kernel) (p : ℕ) (e : Event) : Prop where
  free : (k.step e).Free p
  how : ((k.step e).sched.Awake p
      ∧ Delivery k p e ((k.step e).sched.frames p).rax ((k.step e).sched.frames p).rdx)
    ∨ (k.step e).sched.tasks p = k.sched.tasks p ∨ (k.step e).sched.Ended p

structure StillWaits (k : Kernel) (p : ℕ) (k' : Kernel) : Prop where
  tokens : ∀ t, k'.Awaits p t ↔ k.Awaits p t
  task : k'.sched.tasks p = k.sched.tasks p

instance (input : Input) (p : ℕ) : Decidable (input.Waits p) :=
  inferInstanceAs (Decidable (_ ∧ _))

/-- The shell's `kill` does not hit a process that waits for input. -/
def SparesSelecting (k : Kernel) (e : Event) : Prop :=
  ∀ pid ∈ killTarget e, k.sched.usersRunning = true ∨ ¬k.input.Waits pid

instance (k : Kernel) (e : Event) : Decidable (SparesSelecting k e) :=
  inferInstanceAs (Decidable (∀ pid ∈ killTarget e, _))

/-- A process that has exited is registered for no select. -/
structure Tidy (k : Kernel) : Prop where
  calm : Calm k
  exited : ∀ p, p ≠ 0 → k.sched.state p = .exited →
    ¬k.Awaits p .event ∧ ∀ i, ¬k.Awaits p (.message i true)

theorem Asleep.no_select {k : Kernel} {p : ℕ} (h : k.Asleep p) (he : k.sched.state p ≠ .exited)
    (hinput : ¬k.Awaits p .event) (i : ℕ) : ¬k.Awaits p (.message i true) := by
  intro hi
  cases h with
  | free h => exact h _ hi
  | exited h => exact he h
  | receives j h => exact absurd ((h.tokens _).1 hi) (by simp)
  | selects j h => exact hinput ((h.tokens _).2 (.inr rfl))
  | parked j h => exact absurd ((h.tokens _).1 hi) (by simp)

theorem step_tidy {k : Kernel} {e : Event} (hk : Tidy k) (hok : k.SparesSelecting e) :
    Tidy (k.step e) := by
  refine ⟨step_calm hk.calm e, fun p hp hexited => ⟨?_, fun i => ?_⟩⟩
  · refine step_exited_awaits hk.calm hp hexited (fun h => (hk.exited p hp h).1) ?_
    rintro rfl hidle hw
    rcases hok p rfl with husers | hinput
    · rw [hidle] at husers
      cases husers
    · exact hinput hw
  · refine step_exited_awaits hk.calm hp hexited (fun h => (hk.exited p hp h).2 i) ?_
    rintro rfl hidle hw
    by_cases he : k.sched.state p = .exited
    · exact (hk.exited p hp he).2 i hw
    rcases hok p rfl with husers | hinput
    · rw [hidle] at husers
      cases husers
    · exact (hk.calm.rests.asleep p hp hp).no_select he hinput i hw

theorem fresh_tidy (b : BootInfo) : Tidy (fresh b) := by
  refine ⟨fresh_calm b, fun p hp he => ?_⟩
  simp [fresh, state, hp] at he

/-! ## One event -/

theorem withdrawn_tasks {k : Kernel} {e : Event} {p : ℕ}
    (h : k.fate e p .withdrawn) : (k.step e).sched.tasks = k.sched.tasks := by
  rcases h with ⟨q, -, ⟨-, hr⟩ | ⟨hr, -⟩⟩ | h
  · cases hr
  · cases hr
  cases e with
  | syscall registers user dev =>
    rcases h with ⟨number, i, hi, hactive, -, hr⟩ | ⟨-, i, -, -, -, hr⟩
    swap
    · cases hr
    by_cases hu : k.userMode
    swap
    · simp only [step, if_neg hu]
    have hrefused : (k.enter registers).accepts ((k.enter registers).ipc.channels i).waiter
        (readUser user registers.rsi.toNat registers.rdx.toNat).length = false := by
      split_ifs at hr with haccepts
      exact Bool.not_eq_true _ ▸ haccepts
    have hsend : ∀ pid, ((k.enter registers).deliverToWaiter i pid
        (readUser user registers.rsi.toNat registers.rdx.toNat))
          = (.failed, (k.enter registers).takeWaiter i) := by
      intro pid
      unfold deliverToWaiter
      simp only [hrefused, Bool.not_false, if_true]
    rw [step_send user dev hu number]
    unfold syscallSend
    split
    · rfl
    unfold ipcSendBlock ipcSendImpl
    rw [show (k.enter registers).ipc.resolve (k.enter registers).objects.caps
      (k.enter registers).current registers.rdi.toNat rightSend = some i from hi]
    simp only
    split_ifs with hlength hwaiter
    · rfl
    · rw [hsend]
      change ((k.enter registers).takeWaiter i).sched.tasks = k.sched.tasks
      rw [takeWaiter_sched]
      rfl
    · exact absurd hactive hwaiter
    · exact absurd hactive hwaiter
    · exact absurd hactive hwaiter
  | timerTick registers => cases h.2.2.2
  | input event =>
    have hrefused : k.userspaceCopyTo k.input.waiter.pid k.input.waiter.address inputEventSize
        = false := by
      have hr := h.2
      split_ifs at hr with hcopy
      rw [← h.1.2] at hcopy
      exact Bool.not_eq_true _ ▸ hcopy
    simp only [step]
    unfold inputPublish
    split_ifs with htype hidle
    · rfl
    · rfl
    · simp only
      rw [show ((k.withInput k.input.clearWaiter).withIpc
        (k.ipc.ipcCancelWait k.input.waiter.pid)).userspaceCopyTo k.input.waiter.pid
        k.input.waiter.address inputEventSize = false from hrefused]
      rfl
  | kernel call =>
    cases call with
    | kill pid => cases h.2
    | _ => exact h.elim

theorem selected_delivery {k : Kernel} {e : Event} {p i : ℕ} {rax rdx : UInt64} (hk : Rests 0 k)
    (hp : p ≠ 0) (hsleeps : k.Sleeps p fun t => t = .message i true ∨ t = .event)
    (h : k.fate e p (.woken rax rdx)) : Delivery k p e rax rdx := by
  have hmultiplex : ∀ {j m}, (k.ipc.channels j).Waits p m → (k.ipc.channels j).Waits p true := by
    intro j m hj
    have := (hsleeps.tokens (.message j m)).1 hj
    simp only [Token.message.injEq, reduceCtorEq, or_false] at this
    rw [← this.2]
    exact hj
  have hparks : ∀ j, ¬(k.ipc.channels j).Parks p :=
    fun j hj => absurd ((hsleeps.tokens (.room j)).1 hj) (by simp)
  rcases h with ⟨q, hcloses, ⟨-, hr⟩ | ⟨hr, j, hactive, rfl, ⟨m, hw⟩ | hs⟩⟩ | h
  · cases hr
  · cases hr
    exact .error (hmultiplex hw) hcloses
  · exact absurd hs (hparks j)
  cases e with
  | syscall registers user dev =>
    rcases h with ⟨number, j, hj, hactive, hpid, hr⟩ | ⟨-, j, hj, hactive, hpid, -⟩
    · have hw := hmultiplex ⟨resolve_active hj, hactive, hpid, rfl⟩
      split_ifs at hr
      simp only [wakeResult, hw.2.2.2, if_true, Ending.woken.injEq] at hr
      rw [hr.1, hr.2]
      exact .channel number hj hw
    · exact absurd ⟨resolve_active hj, hactive, hpid⟩ (hparks j)
  | timerTick registers =>
    obtain ⟨-, htimed, hdue, hr⟩ := h
    rw [(hk.settled p hp).result htimed, Ending.woken.injEq] at hr
    rw [hr.1, hr.2]
    exact .timeout htimed hdue
  | input event =>
    obtain ⟨hw, hr⟩ := h
    split_ifs at hr
    rw [Ending.woken.injEq] at hr
    rw [hr.1, hr.2]
    exact .input hw
  | kernel call =>
    cases call with
    | kill pid => cases h.2
    | _ => exact h.elim

theorem select_stays_or_concludes {k : Kernel} {e : Event} {p : ℕ} (hk : Tidy k)
    (hok : k.SparesSelecting e) (hp : p ≠ 0) (hw : k.input.Waits p) :
    StillWaits k p (k.step e) ∨ Concludes k p e := by
  have hserves := step_serves hk.calm.rests hk.calm.procs.sched e
  have hcur : p ≠ k.current := by
    rintro rfl
    exact hk.calm.rests.current_free hk.calm.procs.sched hp .event hw
  have hasleep : ∃ i, k.Sleeps p fun t => t = .message i true ∨ t = .event := by
    cases hk.calm.rests.asleep p hp hp with
    | free h => exact absurd hw (h .event)
    | exited h => exact absurd hw (hk.exited p hp h).1
    | receives i h => exact absurd ((h.tokens .event).1 hw) (by simp)
    | selects i h => exact ⟨i, h⟩
    | parked i h => exact absurd ((h.tokens .event).1 hw) (by simp)
  obtain ⟨i, hsleeps⟩ := hasleep
  cases hserves.outcome p hp hcur with
  | spared h => exact .inl ⟨h.tokens, h.task fun hfree => hfree .event hw⟩
  | dropped free h => exact .inr ⟨free, .inr (.inl (by rw [withdrawn_tasks h]))⟩
  | woken free awake h =>
    exact .inr ⟨free, .inl ⟨awake, selected_delivery hk.calm.rests hp hsleeps h⟩⟩
  | exited h less left =>
    refine .inr ⟨?_, .inr (.inr (.inl h))⟩
    have htidy := step_tidy hk hok
    obtain ⟨hevent, hmessage⟩ := htidy.exited p hp h
    intro t ht
    rcases (hsleeps.tokens t).1 (less t ht) with rfl | rfl
    · exact hmessage i ht
    · exact hevent ht
  | gone free h => exact .inr ⟨free, .inr (.inr (.inr h))⟩

/-! ## Runs -/

/-- In every state of a run in which `kill` hits no process that waits for input, a process is
registered for input exactly where one channel carries its select, and then it is blocked; and from
there on the wait stays as it is until one event concludes it. -/
theorem select_all_or_nothing (b : BootInfo) (events : List Event)
    (h : Machine.Meets step SparesSelecting (fresh b) events) (p : ℕ) (hp : p ≠ 0) :
    ((runFrom b events).input.Waits p
        ↔ ∃! i, ((runFrom b events).ipc.channels i).Waits p true)
      ∧ ((runFrom b events).input.Waits p → (runFrom b events).sched.state p = .blocked)
      ∧ ∀ rest, (runFrom b events).input.Waits p →
        Machine.Meets step SparesSelecting (runFrom b events) rest →
        (∀ before, before <+: rest → StillWaits (runFrom b events) p
            (Machine.run step (runFrom b events) before))
          ∨ ∃ before e after, rest = before ++ e :: after
            ∧ (∀ first, first <+: before → StillWaits (runFrom b events) p
              (Machine.run step (runFrom b events) first))
            ∧ Concludes (Machine.run step (runFrom b events) before) p e := by
  have hk : Tidy (runFrom b events) :=
    Machine.run_inv_of_meets step (fun _ _ => step_tidy) events (fresh b) (fresh_tidy b) h
  generalize runFrom b events = k at hk ⊢
  refine ⟨?_, fun hw => ?_, fun rest hw hrest => ?_⟩
  · cases hasleep : hk.calm.rests.asleep p hp hp with
    | free h => exact iff_of_false (h .event) fun ⟨i, hi, _⟩ => h (.message i true) hi
    | exited h =>
      obtain ⟨hevent, hmessage⟩ := hk.exited p hp h
      exact iff_of_false hevent fun ⟨i, hi, _⟩ => hmessage i hi
    | receives i h =>
      refine iff_of_false (fun hw => ?_) fun ⟨j, hj, _⟩ => ?_
      · exact absurd ((h.tokens .event).1 hw) (by simp)
      · exact absurd ((h.tokens (.message j true)).1 hj) (by simp)
    | selects i h =>
      refine iff_of_true ((h.tokens .event).2 (.inr rfl))
        ⟨i, (h.tokens (.message i true)).2 (.inl rfl), fun j hj => ?_⟩
      have := (h.tokens (.message j true)).1 hj
      simp only [Token.message.injEq, and_true, reduceCtorEq, or_false] at this
      exact this
    | parked i h =>
      refine iff_of_false (fun hw => ?_) fun ⟨j, hj, _⟩ => ?_
      · exact absurd ((h.tokens .event).1 hw) (by simp)
      · exact absurd ((h.tokens (.message j true)).1 hj) (by simp)
  · refine ((hk.calm.rests.asleep p hp hp).blocked_of_not_free (fun h => h .event hw) ?_).1
    exact fun he => (hk.exited p hp he).1 hw
  · refine Machine.run_until step (StillWaits k p) (fun s e => Concludes s p e) (I := Tidy)
      (fun _ _ => step_tidy) (fun s e hs hok hstays => ?_) rest k hk hrest ⟨fun _ => Iff.rfl, rfl⟩
    refine (select_stays_or_concludes hs hok hp ((hstays.tokens .event).2 hw)).imp_left fun h => ?_
    exact ⟨fun t => (h.tokens t).trans (hstays.tokens t), h.task.trans hstays.task⟩

/-- Three processes run, the third with access to input and messages. -/
def selectBoot : List Event :=
  bootEvents.take 2 ++ [.kernel (.spawn [0x61]
    (CapabilityService.input.bit ||| CapabilityService.ipc.bit)), .kernel .startUsers]

/-- The first two processes wait for a message each, and the third for a message or input. -/
def selectEvents : List Event :=
  selectBoot ++
    [call { rax := 14, rdi := 0x330000, rsi := 1 },
      call { rax := 17, rdi := 0x10100, rsi := 0x330000, rdx := 8 },
      call { rax := 14, rdi := 0x330000, rsi := 2 },
      call { rax := 17, rdi := 0x10200, rsi := 0x330000, rdx := 8 },
      call { rax := 14, rdi := 0x330000, rsi := 3 },
      call { rax := 5, rdi := 8 },
      call { rax := 26, rdi := 0x10300, rsi := 0x10301, rdx := 0x330000, r10 := 0x330000 }]

theorem select_all_or_nothing_waiting :
    (runFrom smallBoot selectEvents).input.Waits 3
      ∧ (runFrom smallBoot selectEvents).sched.state 3 = .blocked := by
  have hwaits : (runFrom smallBoot selectEvents).input.Waits 3 := by decide +kernel
  have h := select_all_or_nothing smallBoot selectEvents (by decide +kernel) 3 (by decide)
  exact ⟨hwaits, h.2.1 hwaits⟩

/-- The shell kills the third process: it has exited, and is still registered for input. -/
theorem killed_process_still_selects :
    (runFrom smallBoot (selectEvents ++ [.kernel (.kill 3)])).input.Waits 3
      ∧ (runFrom smallBoot (selectEvents ++ [.kernel (.kill 3)])).sched.state 3 ≠ .blocked := by
  decide +kernel

end Kernel

end DemonOS
