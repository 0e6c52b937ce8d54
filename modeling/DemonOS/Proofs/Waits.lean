import DemonOS.Proofs.Lineage
import DemonOS.Proofs.Termination
import DemonOS.Proofs.Ticks

/-!
# Who sleeps, and what for

A sleeping process is registered with what it sleeps for: a message on a channel, room on a channel
for a message of its own, an input event (`Token`). In every state of every run a process has no
registration, or has exited, or is blocked with one of three sets of them: it receives, it selects,
or it is parked (`Asleep`). `Releases` is what events do to sleepers: a sleeper's registrations and
its task stay as they are, or the registrations all go (`step_rests`).
-/

namespace DemonOS

variable {d i p pid q : ℕ} {fate : Fate} {k k' : Kernel} {s : Scheduler}

/-- A task that is awake, or waits for a child, has no deadline, and a wait that runs out returns
3. -/
structure Task.Settled (t : Task) : Prop where
  awake : t.state = .ready ∨ t.state = .running → t.timedWait = false
  child : t.state = .blocked → t.waitingFor ≠ none → t.timedWait = false
  result : t.timedWait = true → t.timeoutResult = 3

theorem Task.Settled.of_untimed {t : Task} (h : t.timedWait = false) : t.Settled :=
  ⟨fun _ => h, fun _ _ => h, fun ht => by rw [h] at ht; cases ht⟩

def IpcChannel.Waits (c : IpcChannel) (p : ℕ) (multiplex : Bool) : Prop :=
  c.active = true ∧ c.waiter.active = true ∧ c.waiter.pid = p ∧ c.waiter.multiplex = multiplex

def IpcChannel.Parks (c : IpcChannel) (p : ℕ) : Prop :=
  c.active = true ∧ c.sender.active = true ∧ c.sender.pid = p

def Input.Waits (input : Input) (p : ℕ) : Prop :=
  input.waiter.active = true ∧ input.waiter.pid = p

/-- What a process can be registered for. -/
inductive Token where
  | message (i : ℕ) (multiplex : Bool)
  | room (i : ℕ)
  | event

theorem Input.cancelWait_waits (input : Input) (q p : ℕ) :
    (input.inputCancelWait q).Waits p ↔ input.Waits p ∧ p ≠ q := by
  unfold Input.Waits Input.inputCancelWait
  split_ifs with h
  · constructor
    · rintro ⟨hactive, rfl⟩
      refine ⟨⟨hactive, rfl⟩, h.resolve_left ?_⟩
      simp [hactive]
    · exact fun h => h.1
  · simp only [not_or, ne_eq, not_not] at h
    constructor
    · rintro ⟨hactive, -⟩
      cases hactive
    · rintro ⟨⟨-, hp⟩, hne⟩
      exact absurd (hp.symm.trans h.2) hne

namespace IpcChannel

theorem clearWaiter_not_waits (c : IpcChannel) (p : ℕ) (multiplex : Bool) :
    ¬c.clearWaiter.Waits p multiplex := by
  rintro ⟨-, hactive, -⟩
  cases hactive

theorem closed_not_waits (c : IpcChannel) (p : ℕ) (multiplex : Bool) :
    ¬c.closed.Waits p multiplex := by
  rintro ⟨hactive, -⟩
  cases hactive

theorem closed_not_parks (c : IpcChannel) (p : ℕ) : ¬c.closed.Parks p := by
  rintro ⟨hactive, -⟩
  cases hactive

theorem forget_waits (c : IpcChannel) (q p : ℕ) (multiplex : Bool) :
    (c.forget q).Waits p multiplex ↔ c.Waits p multiplex ∧ p ≠ q := by
  unfold forget Waits
  simp only
  split_ifs with hw hs hs
  any_goals simp only [clearWaiter, clearSender, Bool.false_eq_true, false_and, and_false,
    false_iff, not_and]
  · rintro ⟨-, -, rfl, -⟩ hne
    exact hne hw.2
  · rintro ⟨-, -, rfl, -⟩ hne
    exact hne hw.2
  all_goals
    constructor
    · rintro ⟨ha, hwa, rfl, hm⟩
      exact ⟨⟨ha, hwa, rfl, hm⟩, fun heq => hw ⟨hwa, heq⟩⟩
    · exact fun h => h.1

theorem forget_parks (c : IpcChannel) (q p : ℕ) :
    (c.forget q).Parks p ↔ c.Parks p ∧ p ≠ q := by
  unfold forget Parks
  simp only
  split_ifs with hw hs hs
  any_goals simp only [clearWaiter, clearSender, Bool.false_eq_true, false_and, and_false,
    false_iff, not_and]
  · rintro ⟨-, -, rfl⟩ hne
    exact hne hs.2
  · constructor
    · rintro ⟨ha, hsa, rfl⟩
      exact ⟨⟨ha, hsa, rfl⟩, fun heq => hs ⟨hsa, heq⟩⟩
    · exact fun h => h.1
  · rintro ⟨-, -, rfl⟩ hne
    exact hne hs.2
  · constructor
    · rintro ⟨ha, hsa, rfl⟩
      exact ⟨⟨ha, hsa, rfl⟩, fun heq => hs ⟨hsa, heq⟩⟩
    · exact fun h => h.1

end IpcChannel

theorem Ipc.ipcCancelWait_cases (ipc : Ipc) (q : ℕ) :
    (ipc.ipcCancelWait q = ipc ∧ ∀ i < ipcChannelLimit, ∀ m, ¬(ipc.channels i).Waits q m)
      ∨ ∃ i m, (ipc.channels i).Waits q m
        ∧ ipc.ipcCancelWait q = ipc.setChannel i (ipc.channels i).clearWaiter := by
  unfold Ipc.ipcCancelWait
  split
  · rename_i hnone
    refine .inl ⟨rfl, fun i hi m hw => ?_⟩
    have := Table.firstIndex_eq_none.1 hnone i hi
    simp [hw.1, hw.2.1, hw.2.2.1] at this
  · rename_i i hi
    obtain ⟨-, htest, -⟩ := Table.firstIndex_eq_some.1 hi
    simp only [Bool.and_eq_true, beq_iff_eq] at htest
    exact .inr ⟨i, _, ⟨htest.1.1, htest.1.2, htest.2, rfl⟩, rfl⟩

namespace Scheduler

def Awake (s : Scheduler) (p : ℕ) : Prop := s.state p = .ready ∨ s.state p = .running

/-- The task has exited, or its slot is empty. -/
def Ended (s : Scheduler) (p : ℕ) : Prop := s.state p = .exited ∨ s.state p = .unused

/-- Tasks that are awake stay awake; those asleep for something else than a child, and those that
have ended, are left alone. -/
structure Leaves (s s' : Scheduler) : Prop where
  kept : ∀ p, p ≠ 0 → (s.state p = .blocked ∧ (s.tasks p).waitingFor = none) ∨ s.Ended p →
    s'.tasks p = s.tasks p
  sleeps : ∀ p, s'.state p = .blocked → s'.tasks p = s.tasks p
  settled : ∀ p, p ≠ 0 → (s.tasks p).Settled → (s'.tasks p).Settled
  awake : ∀ p, p ≠ 0 → s.Awake p → s'.Awake p
  ends : ∀ p, p ≠ 0 → s'.Ended p → s.Ended p
  frames : s'.frames = s.frames

theorem Leaves.of_tasks {s s' : Scheduler} (h : ∀ p, p ≠ 0 → s'.tasks p = s.tasks p)
    (hidle : s'.state 0 = .blocked → s'.tasks 0 = s.tasks 0)
    (hframes : s'.frames = s.frames) : Leaves s s' := by
  refine ⟨fun p hp _ => h p hp, fun p hb => ?_, fun p hp hs => (h p hp).symm ▸ hs,
    fun p hp ha => ?_, fun p hp he => ?_, hframes⟩
  · rcases eq_or_ne p 0 with rfl | hp
    · exact hidle hb
    · exact h p hp
  · unfold Awake state at *
    rw [h p hp]
    exact ha
  · unfold Ended state at *
    rw [← h p hp]
    exact he

theorem Leaves.refl (s : Scheduler) : Leaves s s := .of_tasks (fun _ _ => rfl) (fun _ => rfl) rfl

theorem Leaves.trans {s₁ s₂ s₃ : Scheduler} (h : Leaves s₁ s₂) (h' : Leaves s₂ s₃) :
    Leaves s₁ s₃ := by
  refine ⟨fun p hp hs => ?_, fun p hb => ?_, fun p hp hs => h'.settled p hp (h.settled p hp hs),
    fun p hp ha => h'.awake p hp (h.awake p hp ha), fun p hp he => h.ends p hp (h'.ends p hp he),
    h'.frames.trans h.frames⟩
  · have heq := h.kept p hp hs
    refine (h'.kept p hp ?_).trans heq
    unfold Ended state at *
    rw [heq]
    exact hs
  · have heq := h'.sleeps p hb
    refine heq.trans (h.sleeps p ?_)
    unfold state at hb ⊢
    rw [← heq]
    exact hb

theorem setTask_leaves {t : Task} (ha : s.Awake pid)
    (ht : t.state = .ready ∨ t.state = .running)
    (hs : (s.tasks pid).Settled → t.Settled) : Leaves s (s.setTask pid t) := by
  have hother : ∀ p, p ≠ pid → (s.setTask pid t).tasks p = s.tasks p := fun p hp => by simp [hp]
  have hself : (s.setTask pid t).tasks pid = t := by simp
  refine ⟨fun p _ h => hother p ?_, fun p h => hother p ?_, fun p _ h => ?_, fun p _ h => ?_,
    fun p _ h => ?_, rfl⟩
  · rintro rfl
    unfold Awake Ended at *
    rcases ha with ha | ha <;> rw [ha] at h <;> simp at h
  · rintro rfl
    unfold state at h
    rw [hself] at h
    rcases ht with ht | ht <;> rw [ht] at h <;> cases h
  · rcases eq_or_ne p pid with rfl | hp
    · rw [hself]
      exact hs h
    · rw [hother p hp]
      exact h
  · unfold Awake state
    rcases eq_or_ne p pid with rfl | hp
    · rw [hself]
      exact ht
    · rw [hother p hp]
      exact h
  · unfold Ended state at *
    rcases eq_or_ne p pid with rfl | hp
    · rw [hself] at h
      rcases ht with ht | ht <;> rw [ht] at h <;> simp at h
    · rw [hother p hp] at h
      exact h

theorem dispatch_leaves (h : s.state pid = .ready) :
    Leaves s (s.dispatch pid) := by
  have hset := setTask_leaves (t := { s.tasks pid with state := .running, sliceTicks := 0 })
    (.inl h) (.inr rfl) fun hs => .of_untimed (hs.awake (.inl h))
  exact ⟨hset.kept, hset.sleeps, hset.settled, hset.awake, hset.ends, rfl⟩

theorem returnIdle_leaves (s : Scheduler) : Leaves s s.returnIdle :=
  .of_tasks (fun p hp => by simp [returnIdle, hp]) (fun h => by simp [returnIdle, state] at h) rfl

theorem setState_leaves {st : TaskState} (h : s.Awake pid)
    (hst : st = .ready ∨ st = .running) : Leaves s (s.setState pid st) :=
  setTask_leaves h hst fun hs => .of_untimed (hs.awake h)

theorem reschedule_leaves (s : Scheduler) : Leaves s s.reschedule := by
  unfold reschedule
  simp only
  have hyield : Leaves s (if s.state s.currentPid = .running then
      s.setState s.currentPid .ready else s) := by
    split_ifs with h
    · exact setState_leaves (.inr h) (.inl rfl)
    · exact .refl s
  generalize (if s.state s.currentPid = .running then
    s.setState s.currentPid .ready else s) = s₁ at hyield ⊢
  refine hyield.trans ?_
  split
  · split_ifs with h
    · exact setState_leaves (.inl h) (.inr rfl)
    · exact returnIdle_leaves s₁
  · rename_i next hnext
    exact dispatch_leaves (nextReady_spec hnext).2.2

theorem onYield_leaves (s : Scheduler) : Leaves s s.onYield := by
  unfold onYield
  split_ifs
  · exact .refl s
  · exact reschedule_leaves s

theorem chargeSlice_leaves (hs : s.Inv) : Leaves s s.chargeSlice := by
  unfold chargeSlice
  split_ifs with hidle
  · exact .refl s
  · simp only [not_or] at hidle
    have hrun := hs.running hidle.2
    simp only
    have hslice : Leaves s (s.setTask s.currentPid { s.tasks s.currentPid with
        sliceTicks := (s.tasks s.currentPid).sliceTicks + 1 }) :=
      setTask_leaves (.inr hrun) (.inr hrun) fun h => .of_untimed (h.awake (.inr hrun))
    split_ifs
    · exact hslice
    · exact hslice.trans (reschedule_leaves _)

theorem startUsers_leaves {s s' : Scheduler} (h : s.startUsers = some s') : Leaves s s' := by
  unfold startUsers at h
  split_ifs at h
  split at h
  · cases h
  · rename_i first hfirst
    obtain ⟨hpos, -, hready⟩ := nextReady_spec hfirst
    simp only [Option.some.injEq] at h
    rw [← h]
    have hidle : Leaves s { s.setState 0 .ready with usersRunning := true } :=
      .of_tasks (fun p hp => by simp [hp]) (fun h => by simp [state] at h) rfl
    refine hidle.trans (dispatch_leaves ?_)
    simpa [state, hpos] using hready

end Scheduler

open Scheduler

/-- How a wait ends: it is withdrawn, the process is ended, maybe with its registrations left
(`killed`), or the process is woken with a result in `rax` and `rdx`. -/
inductive Ending where
  | withdrawn
  | ended
  | killed
  | woken (rax rdx : UInt64)

/-- The ways an event may end the waits of processes. -/
abbrev Fate := ℕ → Ending → Prop

def Fate.withdrawing (fate : Fate) (q : ℕ) : Fate := fun p r => (p = q ∧ r = .withdrawn) ∨ fate p r

namespace Kernel

def Awaits (k : Kernel) (p : ℕ) : Token → Prop
  | .message i multiplex => (k.ipc.channels i).Waits p multiplex
  | .room i => (k.ipc.channels i).Parks p
  | .event => k.input.Waits p

def Free (k : Kernel) (p : ℕ) : Prop := ∀ t, ¬k.Awaits p t

/-- `p` is blocked, not for a child, and registered for the tokens of `own` alone. -/
structure Sleeps (k : Kernel) (p : ℕ) (own : Token → Prop) : Prop where
  valid : UserMemory.validPid p
  blocked : k.sched.state p = .blocked
  childless : (k.sched.tasks p).waitingFor = none
  tokens : ∀ t, k.Awaits p t ↔ own t

inductive Asleep (k : Kernel) (p : ℕ) : Prop
  | free (h : k.Free p)
  | exited (h : k.sched.state p = .exited)
  | receives (i : ℕ) (h : k.Sleeps p (· = .message i false))
    (untimed : (k.sched.tasks p).timedWait = false)
  | selects (i : ℕ) (h : k.Sleeps p fun t => t = .message i true ∨ t = .event)
  | parked (i : ℕ) (h : k.Sleeps p (· = .room i))
    (untimed : (k.sched.tasks p).timedWait = false)

/-- The registrations of `p` are as before, and so is its task where it has any. -/
structure Spared (k k' : Kernel) (p : ℕ) : Prop where
  tokens : ∀ t, k'.Awaits p t ↔ k.Awaits p t
  task : ¬k.Free p → k'.sched.tasks p = k.sched.tasks p

/-- What becomes of a process with registrations. An exited task's registrations mean nothing. -/
inductive Outcome (fate : Fate) (k k' : Kernel) (p : ℕ) : Prop
  | spared (h : Spared k k' p)
  | dropped (free : k'.Free p) (h : fate p .withdrawn)
  | woken (free : k'.Free p) (awake : k'.sched.Awake p)
    (h : fate p (.woken (k'.sched.frames p).rax (k'.sched.frames p).rdx))
  | exited (h : k'.sched.state p = .exited) (less : ∀ t, k'.Awaits p t → k.Awaits p t)
    (left : k'.Free p ∨ k.sched.state p = .exited ∨ fate p .killed)
  | gone (free : k'.Free p) (h : k'.sched.state p = .unused)

/-- What a function does to the processes other than `d`. Nobody is registered and nobody falls
asleep; who is awake stays awake, with its registers, or ends. -/
structure Releases (fate : Fate) (d : ℕ) (k k' : Kernel) : Prop where
  procs : ∀ p, p ≠ 0 → p ≠ d → Outcome fate k k' p
  less : ∀ p t, k'.Awaits p t → k.Awaits p t
  sleeps : ∀ p, k'.sched.state p = .blocked → k'.sched.tasks p = k.sched.tasks p
  settled : ∀ p, p ≠ 0 → (k.sched.tasks p).Settled → (k'.sched.tasks p).Settled
  awake : ∀ p, p ≠ 0 → p ≠ d → k.sched.Awake p →
    (k'.sched.Awake p ∧ k'.sched.frames p = k.sched.frames p) ∨ k'.sched.Ended p
  ended : ∀ p, p ≠ 0 → p ≠ d → k.sched.Ended p → k'.sched.Ended p
  ends : ∀ p, p ≠ 0 → k'.sched.Ended p → k.sched.Ended p ∨ fate p .ended
  bound : ∀ i, (k'.ipc.channels i).active = true → (k.ipc.channels i).active = true

section

variable {k k' k₁ k₂ k₃ : Kernel} {p d : ℕ} {fate : Fate}

theorem Spared.refl (k : Kernel) (p : ℕ) : Spared k k p := ⟨fun _ => Iff.rfl, fun _ => rfl⟩

theorem Spared.free_iff (h : Spared k k' p) : k'.Free p ↔ k.Free p :=
  forall_congr' fun t => not_congr (h.tokens t)

theorem Spared.trans (h : Spared k₁ k₂ p) (h' : Spared k₂ k₃ p) : Spared k₁ k₃ p := by
  refine ⟨fun t => (h'.tokens t).trans (h.tokens t), fun hfree => ?_⟩
  exact (h'.task (mt h.free_iff.1 hfree)).trans (h.task hfree)

theorem Spared.outcome (h : Spared k₁ k₂ p) (h' : Outcome fate k₂ k₃ p) :
    Outcome fate k₁ k₃ p := by
  cases h' with
  | spared h' => exact .spared (h.trans h')
  | dropped free h => exact .dropped free h
  | woken free awake h => exact .woken free awake h
  | exited hexited less left =>
    refine .exited hexited (fun t ht => (h.tokens t).1 (less t ht)) ?_
    by_cases hfree : k₁.Free p
    · exact .inl fun t ht => hfree t ((h.tokens t).1 (less t ht))
    · refine left.imp_right (Or.imp_left fun hp => ?_)
      unfold state at hp ⊢
      rw [← h.task hfree]
      exact hp
  | gone free h => exact .gone free h

theorem Outcome.of_ended (hended : k'.sched.Ended p) (hfree : k'.Free p) :
    Outcome fate k k' p :=
  hended.elim (fun h => .exited h (fun t ht => absurd ht (hfree t)) (.inl hfree)) (.gone hfree)

theorem Releases.refl (fate : Fate) (d : ℕ) (k : Kernel) : Releases fate d k k :=
  ⟨fun p _ _ => .spared (.refl k p), fun _ _ h => h, fun _ _ => rfl, fun _ _ h => h,
    fun _ _ _ h => .inl ⟨h, rfl⟩, fun _ _ _ h => h, fun _ _ h => .inl h, fun _ h => h⟩

theorem Releases.free (h : Releases fate d k k') (hfree : k.Free p) : k'.Free p :=
  fun t ht => hfree t (h.less p t ht)

theorem Releases.outcome_trans (h : Outcome fate k₁ k₂ p) (h' : Releases fate d k₂ k₃)
    (hp : p ≠ 0) (hd : p ≠ d) : Outcome fate k₁ k₃ p := by
  cases h with
  | spared h => exact h.outcome (h'.procs p hp hd)
  | dropped free h => exact .dropped (h'.free free) h
  | woken free awake h =>
    rcases h'.awake p hp hd awake with ⟨hawake, hframe⟩ | hended
    · exact .woken (h'.free free) hawake (by rw [hframe]; exact h)
    · exact .of_ended hended (h'.free free)
  | exited h less left =>
    by_cases hfree : k₃.Free p
    · exact .of_ended (h'.ended p hp hd (.inl h)) hfree
    have less' : ∀ t, k₃.Awaits p t → k₁.Awaits p t := fun t ht => less t (h'.less p t ht)
    have left' : k₃.Free p ∨ k₁.sched.state p = .exited ∨ fate p .killed :=
      left.imp_left h'.free
    cases h'.procs p hp hd with
    | spared hs =>
      have htask := hs.task (mt hs.free_iff.2 hfree)
      exact .exited (by unfold state; rw [htask]; exact h) less' left'
    | dropped free h => exact absurd free hfree
    | woken free awake h => exact absurd free hfree
    | exited h => exact .exited h less' left'
    | gone free h => exact absurd free hfree
  | gone free h => exact .of_ended (h'.ended p hp hd (.inr h)) (h'.free free)

theorem Releases.trans (h : Releases fate d k₁ k₂) (h' : Releases fate d k₂ k₃) :
    Releases fate d k₁ k₃ where
  procs p hp hd := outcome_trans (h.procs p hp hd) h' hp hd
  less p t ht := h.less p t (h'.less p t ht)
  sleeps p hb := by
    have heq := h'.sleeps p hb
    refine heq.trans (h.sleeps p ?_)
    unfold state at hb ⊢
    rw [← heq]
    exact hb
  settled p hp hs := h'.settled p hp (h.settled p hp hs)
  awake p hp hd ha := by
    rcases h.awake p hp hd ha with ⟨ha, hframe⟩ | hended
    · refine (h'.awake p hp hd ha).imp_left fun ⟨ha, hframe'⟩ => ⟨ha, hframe'.trans hframe⟩
    · exact .inr (h'.ended p hp hd hended)
  ended p hp hd he := h'.ended p hp hd (h.ended p hp hd he)
  ends p hp he := (h'.ends p hp he).elim (h.ends p hp) .inr
  bound i hi := h.bound i (h'.bound i hi)

theorem Asleep.spared (h : k.Asleep p) (hs : Spared k k' p) : k'.Asleep p := by
  by_cases hfree : k.Free p
  · exact .free (hs.free_iff.2 hfree)
  have htask := hs.task hfree
  have hmove : ∀ own, k.Sleeps p own → k'.Sleeps p own := by
    refine fun own h => ⟨h.valid, ?_, htask ▸ h.childless, fun t => (hs.tokens t).trans (h.tokens t)⟩
    have := h.blocked
    unfold state at this ⊢
    rw [htask]
    exact this
  cases h with
  | free h => exact absurd h hfree
  | exited h =>
    exact .exited (by unfold state; rw [htask]; exact h)
  | receives i h untimed => exact .receives i (hmove _ h) (htask ▸ untimed)
  | selects i h => exact .selects i (hmove _ h)
  | parked i h untimed => exact .parked i (hmove _ h) (htask ▸ untimed)

theorem Outcome.asleep (h : Outcome fate k k' p) (hk : k.Asleep p) : k'.Asleep p := by
  cases h with
  | spared h => exact hk.spared h
  | dropped free => exact .free free
  | woken free => exact .free free
  | exited h => exact .exited h
  | gone free => exact .free free

theorem Asleep.blocked_of_not_free (h : k.Asleep p) (hfree : ¬k.Free p)
    (he : k.sched.state p ≠ .exited) :
    k.sched.state p = .blocked ∧ (k.sched.tasks p).waitingFor = none := by
  cases h with
  | free h => exact absurd h hfree
  | exited h => exact absurd h he
  | receives i h => exact ⟨h.blocked, h.childless⟩
  | selects i h => exact ⟨h.blocked, h.childless⟩
  | parked i h => exact ⟨h.blocked, h.childless⟩

theorem Asleep.free_of_awake (h : k.Asleep p) (hb : k.sched.state p ≠ .blocked)
    (he : k.sched.state p ≠ .exited) : k.Free p := by
  by_contra hfree
  exact hb (h.blocked_of_not_free hfree he).1

theorem Asleep.free_of_child (h : k.Asleep p) (he : k.sched.state p ≠ .exited)
    (hc : (k.sched.tasks p).waitingFor ≠ none) : k.Free p := by
  by_contra hfree
  exact hc (h.blocked_of_not_free hfree he).2

end

structure Rests (d : ℕ) (k : Kernel) : Prop where
  asleep : ∀ p, p ≠ 0 → p ≠ d → k.Asleep p
  bound : ∀ i, (k.ipc.channels i).active = true → i < ipcChannelLimit
  settled : ∀ p, p ≠ 0 → (k.sched.tasks p).Settled

theorem Rests.leaveOut (h : Rests 0 k) (d : ℕ) : Rests d k :=
  ⟨fun p hp _ => h.asleep p hp hp, h.bound, h.settled⟩

theorem Releases.rests (h : Releases fate d k k')
    (hk : Rests d k) : Rests d k' where
  asleep p hp hd := (h.procs p hp hd).asleep (hk.asleep p hp hd)
  bound i hi := hk.bound i (h.bound i hi)
  settled p hp := h.settled p hp (hk.settled p hp)

theorem Releases.resolve {fate fate' : Fate} (h : Releases fate d k k')
    (hother : ∀ p r, r ≠ .withdrawn → fate p r → fate' p r)
    (hdropped : ∀ p, p ≠ 0 → p ≠ d → k'.Free p → fate p .withdrawn → Outcome fate' k k' p) :
    Releases fate' d k k' := by
  refine ⟨fun p hp hd => ?_, h.less, h.sleeps, h.settled, h.awake, h.ended,
    fun p hp he => (h.ends p hp he).imp_right (hother p _ (by simp)), h.bound⟩
  cases h.procs p hp hd with
  | spared h => exact .spared h
  | dropped free h => exact hdropped p hp hd free h
  | woken free awake h => exact .woken free awake (hother p _ (by simp) h)
  | exited h less left =>
    exact .exited h less (left.imp_right (Or.imp_right (hother p _ (by simp))))
  | gone free h => exact .gone free h

theorem Releases.mono {fate f : Fate} (h : Releases fate d k k')
    (hfate : ∀ p r, fate p r → f p r) : Releases f d k k' :=
  h.resolve (fun p r _ => hfate p r) fun p _ _ free hp => .dropped free (hfate p .withdrawn hp)

theorem Releases.leaveOut (h : Releases fate 0 k k') (d : ℕ) :
    Releases fate d k k' :=
  ⟨fun p hp _ => h.procs p hp hp, h.less, h.sleeps, h.settled,
    fun p hp _ => h.awake p hp hp, fun p hp _ => h.ended p hp hp, h.ends, h.bound⟩

section

variable {k k' : Kernel} {d : ℕ} {fate : Fate}

theorem releases_of_tokens (htasks : k'.sched.tasks = k.sched.tasks)
    (hframes : ∀ p, p ≠ d → k'.sched.frames p = k.sched.frames p)
    (hless : ∀ p t, k'.Awaits p t → k.Awaits p t)
    (h : ∀ p, p ≠ 0 → p ≠ d → (∀ t, k.Awaits p t → k'.Awaits p t)
      ∨ (fate p .withdrawn ∧ k'.Free p) ∨ k.sched.state p = .exited)
    (hbound : ∀ i, (k'.ipc.channels i).active = true → (k.ipc.channels i).active = true) :
    Releases fate d k k' := by
  have hstate : ∀ p, k'.sched.state p = k.sched.state p := fun p => by unfold state; rw [htasks]
  refine ⟨fun p hp hne => ?_, hless, fun _ _ => by rw [htasks], fun _ _ hs => htasks ▸ hs,
    fun p _ hd ha => .inl ⟨?_, hframes p hd⟩, fun p _ _ he => ?_, fun p _ he => .inl ?_, hbound⟩
  · rcases h p hp hne with htokens | ⟨hdrop, hfree⟩ | hexited
    · exact .spared ⟨fun t => ⟨hless p t, htokens t⟩, fun _ => by rw [htasks]⟩
    · exact .dropped hfree hdrop
    · exact .exited (by rw [hstate]; exact hexited) (hless p) (.inr (.inl hexited))
  · unfold Awake
    rw [hstate]
    exact ha
  · unfold Ended
    rw [hstate]
    exact he
  · unfold Ended at he
    rw [hstate] at he
    exact he

theorem releases_of_same (htasks : k'.sched.tasks = k.sched.tasks)
    (hframes : ∀ p, p ≠ d → k'.sched.frames p = k.sched.frames p)
    (hipc : ∀ i, (k'.ipc.channels i).active = (k.ipc.channels i).active
      ∧ (k'.ipc.channels i).waiter = (k.ipc.channels i).waiter
      ∧ (k'.ipc.channels i).sender = (k.ipc.channels i).sender)
    (hinput : k'.input.waiter = k.input.waiter) : Releases fate d k k' := by
  have htokens : ∀ p t, k'.Awaits p t ↔ k.Awaits p t := by
    intro p t
    cases t with
    | message i multiplex => simp only [Awaits, IpcChannel.Waits, hipc i]
    | room i => simp only [Awaits, IpcChannel.Parks, hipc i]
    | event => simp only [Awaits, Input.Waits, hinput]
  refine releases_of_tokens htasks hframes (fun p t => (htokens p t).1)
    (fun p _ _ => .inl fun t => (htokens p t).2) fun i hi => ?_
  rw [← (hipc i).1]
  exact hi

/-- Where one of its registrations goes, and the other half of a select with it, a sleeper has none
left. -/
theorem Asleep.free_of_less (h : k.Asleep p) {t : Token} (h₀ : k.Awaits p t)
    (hsub : ∀ u, k'.Awaits p u → k.Awaits p u ∧ u ≠ t)
    (hselect : ∀ i, t = .message i true ∨ t = .event →
      ¬k'.Awaits p (.message i true) ∧ ¬k'.Awaits p .event) :
    k'.Free p ∨ k.sched.state p = .exited := by
  cases h with
  | free h => exact absurd h₀ (h t)
  | exited h => exact .inr h
  | receives i h =>
    refine .inl fun u hu => (hsub u hu).2 ?_
    rw [(h.tokens u).1 (hsub u hu).1, (h.tokens t).1 h₀]
  | selects i h =>
    have hnone := hselect i ((h.tokens t).1 h₀)
    refine .inl fun u hu => ?_
    rcases (h.tokens u).1 (hsub u hu).1 with rfl | rfl
    · exact hnone.1 hu
    · exact hnone.2 hu
  | parked i h =>
    refine .inl fun u hu => (hsub u hu).2 ?_
    rw [(h.tokens u).1 (hsub u hu).1, (h.tokens t).1 h₀]

end

section

variable {k : Kernel} {d : ℕ} (fate : Fate)

theorem withSched_releases
    (hkept : ∀ p, p ≠ 0 → p ≠ d → ¬k.Free p → s.tasks p = k.sched.tasks p)
    (hsleeps : ∀ p, s.state p = .blocked → s.tasks p = k.sched.tasks p)
    (hsettled : ∀ p, p ≠ 0 → (k.sched.tasks p).Settled → (s.tasks p).Settled)
    (hawake : ∀ p, p ≠ 0 → p ≠ d → k.sched.Awake p →
      (s.Awake p ∧ s.frames p = k.sched.frames p) ∨ s.Ended p)
    (hended : ∀ p, p ≠ 0 → p ≠ d → k.sched.Ended p → s.Ended p)
    (hends : ∀ p, p ≠ 0 → s.Ended p → k.sched.Ended p ∨ fate p .ended) :
    Releases fate d k (k.withSched s) :=
  ⟨fun p hp hd => .spared ⟨fun _ => Iff.rfl, hkept p hp hd⟩, fun _ _ h => h, hsleeps, hsettled,
    hawake, hended, hends, fun _ hi => hi⟩

theorem leaves_releases (h : Leaves k.sched s) (hk : Rests d k) :
    Releases fate d k (k.withSched s) := by
  refine withSched_releases fate (fun p hp hd hfree => h.kept p hp ?_) h.sleeps h.settled
    (fun p hp _ ha => .inl ⟨h.awake p hp ha, by rw [h.frames]⟩) (fun p hp _ he => ?_)
    fun p hp he => .inl (h.ends p hp he)
  · by_cases he : k.sched.state p = .exited
    · exact .inr (.inl he)
    · exact .inl ((hk.asleep p hp hd).blocked_of_not_free hfree he)
  · have heq := h.kept p hp (.inr he)
    unfold Ended state at he ⊢
    rw [heq]
    exact he

theorem setFrame_releases (k : Kernel) (d : ℕ) (f : Frame) :
    Releases fate d k (k.withSched (k.sched.setFrame d f)) :=
  releases_of_same rfl (fun p hp => by simp [hp]) (fun _ => ⟨rfl, rfl, rfl⟩) rfl

theorem setTask_releases {t : Task} (f : Frame)
    (hfree : p ≠ 0 → p ≠ d → k.Free p) (hasleep : p ≠ d → ¬k.sched.Awake p)
    (hb : t.state ≠ .blocked)
    (hended : p ≠ d → k.sched.Ended p → t.state = .exited ∨ t.state = .unused)
    (hends : t.state = .exited ∨ t.state = .unused → k.sched.Ended p)
    (hs : (k.sched.tasks p).Settled → t.Settled) :
    Releases fate d k (k.withSched ((k.sched.setFrame p f).setTask p t)) := by
  have hother : ∀ q, q ≠ p → ((k.sched.setFrame p f).setTask p t).tasks q = k.sched.tasks q :=
    fun q hq => by simp [hq]
  have hself : ((k.sched.setFrame p f).setTask p t).tasks p = t := by simp
  refine withSched_releases fate (fun q hq hd hsleeps => hother q ?_) (fun q hq => hother q ?_)
    (fun q _ hq => ?_) (fun q _ hd ha => .inl ?_) (fun q _ hd he => ?_) fun q _ he => .inl ?_
  · rintro rfl
    exact hsleeps (hfree hq hd)
  · rintro rfl
    unfold state at hq
    rw [hself] at hq
    exact hb hq
  · rcases eq_or_ne q p with rfl | hne
    · rw [hself]
      exact hs hq
    · rw [hother q hne]
      exact hq
  · have hne : q ≠ p := by
      rintro rfl
      exact hasleep hd ha
    refine ⟨?_, by simp [hne]⟩
    unfold Awake state at *
    rw [hother q hne]
    exact ha
  · unfold Ended state at *
    rcases eq_or_ne q p with rfl | hne
    · rw [hself]
      exact hended hd he
    · rw [hother q hne]
      exact he
  · unfold Ended state at *
    rcases eq_or_ne q p with rfl | hne
    · rw [hself] at he
      exact hends he
    · rw [hother q hne] at he
      exact he

theorem wake_releases {result detail : UInt64}
    (hfree : p ≠ 0 → p ≠ d → k.Free p ∨ k.sched.state p = .exited)
    (h : k.sched.wake p result detail = some s) : Releases fate d k (k.withSched s) := by
  have hblocked := (wake_spec h).2.2.1
  unfold wake at h
  split_ifs at h
  simp only [Option.some.injEq] at h
  rw [← h]
  refine setTask_releases fate _ (fun hp hd => (hfree hp hd).resolve_right ?_) (fun _ => ?_)
    (by simp) (fun _ => ?_) (by simp) fun _ => .of_untimed rfl
  · rw [hblocked]
    decide
  · unfold Awake
    rw [hblocked]
    decide
  · unfold Ended
    rw [hblocked]
    simp

theorem wakeIfBlocked_releases (result detail : UInt64)
    (hfree : p ≠ 0 → p ≠ d → k.Free p ∨ k.sched.state p = .exited) :
    Releases fate d k (k.wakeIfBlocked p result detail) := by
  unfold wakeIfBlocked
  cases h : k.sched.wake p result detail with
  | none => exact .refl fate d k
  | some s => exact wake_releases fate hfree h

theorem wakeIfBlocked_wakes_up (hp : UserMemory.validPid p)
    (hblocked : k.sched.state p = .blocked) (result detail : UInt64) :
    (k.wakeIfBlocked p result detail).sched.Awake p
      ∧ ((k.wakeIfBlocked p result detail).sched.frames p).rax = result
      ∧ ((k.wakeIfBlocked p result detail).sched.frames p).rdx = detail := by
  have hpos := hp.1
  have hlt := hp.2
  unfold wakeIfBlocked wake
  rw [if_neg (by simp only [not_or, not_le, not_not]; exact ⟨hpos, hlt, hblocked⟩)]
  simp [Awake, state]

end

theorem Asleep.blocked (h : k.Asleep p) {t : Token} (ht : k.Awaits p t) :
    (UserMemory.validPid p ∧ k.sched.state p = .blocked) ∨ k.sched.state p = .exited := by
  cases h with
  | free h => exact absurd ht (h t)
  | exited h => exact .inr h
  | receives i h => exact .inl ⟨h.valid, h.blocked⟩
  | selects i h => exact .inl ⟨h.valid, h.blocked⟩
  | parked i h => exact .inl ⟨h.valid, h.blocked⟩

theorem Asleep.exited_of_both {p i j : ℕ} {m : Bool} (h : k.Asleep p)
    (hw : k.Awaits p (.message i m)) (hs : k.Awaits p (.room j)) : k.sched.state p = .exited := by
  cases h with
  | free h => exact absurd hw (h _)
  | exited h => exact h
  | receives i h => exact absurd ((h.tokens _).1 hs) (by simp)
  | selects i h => exact absurd ((h.tokens _).1 hs) (by simp)
  | parked i h => exact absurd ((h.tokens _).1 hw) (by simp)

theorem wakeIfBlocked_state (k : Kernel) (hne : q ≠ p) (result detail : UInt64) :
    (k.wakeIfBlocked p result detail).sched.state q = k.sched.state q := by
  unfold wakeIfBlocked wake
  split_ifs <;> simp [state, hne]

theorem wakeIfBlocked_frames (k : Kernel) (hq : k.sched.state q ≠ .blocked)
    (result detail : UInt64) :
    (k.wakeIfBlocked p result detail).sched.frames q = k.sched.frames q
      ∧ (k.wakeIfBlocked p result detail).sched.state q ≠ .blocked := by
  rcases eq_or_ne q p with rfl | hne
  · unfold wakeIfBlocked wake
    rw [if_pos (.inr (.inr hq))]
    exact ⟨rfl, hq⟩
  · rw [wakeIfBlocked_state k hne]
    refine ⟨?_, hq⟩
    unfold wakeIfBlocked wake
    split_ifs <;> simp [hne]

theorem wakeIfBlocked_released
    (h : Releases (fate.withdrawing p) d k k')
    (hblocked : p ≠ 0 → p ≠ d →
      (UserMemory.validPid p ∧ k'.sched.state p = .blocked) ∨ k'.sched.state p = .exited)
    (hfree : p ≠ 0 → p ≠ d → k'.Free p ∨ k'.sched.state p = .exited) {result detail : UInt64}
    (hfate : fate p (.woken result detail)) :
    Releases fate d k (k'.wakeIfBlocked p result detail) := by
  refine (h.trans (wakeIfBlocked_releases _ result detail hfree)).resolve (fun q r hr hq => ?_)
    fun q hq hd hnone hdrop => ?_
  · exact hq.resolve_left fun h => hr h.2
  rcases hdrop with ⟨rfl, -⟩ | hdrop
  · rcases hblocked hq hd with ⟨hvalid, hblocked⟩ | hexited
    · obtain ⟨hawake, hrax, hrdx⟩ := wakeIfBlocked_wakes_up hvalid hblocked result detail
      exact .woken hnone hawake (by rw [hrax, hrdx]; exact hfate)
    · have hw := wakeIfBlocked_wakes k' q result detail
      exact .of_ended (.inl ((Wakes.state_eq hw q).2.2 hexited)) hnone
  · exact .dropped hnone hdrop

/-! ## Messages -/

theorem takeWaiter_ipc (k : Kernel) (i : ℕ) :
    (k.takeWaiter i).ipc = k.ipc.setChannel i (k.ipc.channels i).clearWaiter := by
  unfold takeWaiter
  split_ifs <;> rfl

theorem takeWaiter_input (k : Kernel) (i : ℕ) :
    (k.takeWaiter i).input = if (k.ipc.channels i).waiter.multiplex then
      k.input.inputCancelWait (k.ipc.channels i).waiter.pid else k.input := by
  unfold takeWaiter
  split_ifs <;> rfl

theorem takeWaiter_awaits (k : Kernel) (i p : ℕ) (t : Token) :
    (k.takeWaiter i).Awaits p t ↔ k.Awaits p t ∧ (∀ m, t ≠ .message i m)
      ∧ ((k.ipc.channels i).waiter.multiplex = true → t = .event →
        p ≠ (k.ipc.channels i).waiter.pid) := by
  cases t with
  | message j m =>
    simp only [Awaits, takeWaiter_ipc, Ipc.setChannel_channels]
    rcases eq_or_ne j i with rfl | hne
    · simp [IpcChannel.clearWaiter_not_waits]
    · simp [hne]
  | room j =>
    simp only [Awaits, takeWaiter_ipc, Ipc.setChannel_channels]
    rcases eq_or_ne j i with rfl | hne
    · simp [IpcChannel.Parks, IpcChannel.clearWaiter]
    · simp [hne]
  | event =>
    simp only [Awaits, takeWaiter_input]
    split_ifs with hm
    · simp [Input.cancelWait_waits, hm]
    · simp [hm]

/-- The process taken off the channel has no registration left, and the others keep theirs. -/
theorem takeWaiter_releases (hk : Rests 0 k)
    (hactive : (k.ipc.channels i).active = true)
    (hwaiter : (k.ipc.channels i).waiter.active = true) (fate : Fate) :
    Releases (fate.withdrawing (k.ipc.channels i).waiter.pid) 0 k (k.takeWaiter i)
      ∧ ((k.ipc.channels i).waiter.pid ≠ 0 → ((k.takeWaiter i).Free (k.ipc.channels i).waiter.pid
        ∨ k.sched.state (k.ipc.channels i).waiter.pid = .exited)) := by
  have hawaits := takeWaiter_awaits k i
  have hsched := takeWaiter_sched k i
  generalize hw : (k.ipc.channels i).waiter = w at *
  have htoken : k.Awaits w.pid (.message i w.multiplex) :=
    ⟨hactive, by rw [hw]; exact hwaiter, by rw [hw], by rw [hw]⟩
  have hfree : w.pid ≠ 0 → (k.takeWaiter i).Free w.pid ∨ k.sched.state w.pid = .exited := by
    refine fun hne => (hk.asleep w.pid hne hne).free_of_less htoken (fun t ht => ?_)
      fun j hj => ?_
    · obtain ⟨ht, hmessage, -⟩ := (hawaits w.pid t).1 ht
      exact ⟨ht, hmessage _⟩
    · simp only [Token.message.injEq, reduceCtorEq, or_false] at hj
      obtain ⟨rfl, hm⟩ := hj
      exact ⟨fun h => ((hawaits _ _).1 h).2.1 _ rfl, fun h => ((hawaits _ _).1 h).2.2 hm rfl rfl⟩
  refine ⟨releases_of_tokens (by rw [hsched]) (fun p _ => by rw [hsched])
    (fun p t ht => ((hawaits p t).1 ht).1) (fun p hp _ => ?_) fun j hj => ?_, hfree⟩
  · rcases eq_or_ne p w.pid with rfl | hne
    · exact .inr ((hfree hp).imp_left fun h => ⟨.inl ⟨rfl, rfl⟩, h⟩)
    · refine .inl fun t h => (hawaits p t).2 ⟨h, ?_, fun _ _ => hne⟩
      rintro m rfl
      refine hne ?_
      rw [← h.2.2.1, hw]
  · rw [takeWaiter_ipc] at hj
    rcases eq_or_ne j i with rfl | hne
    · exact hactive
    · simpa [hne] using hj

theorem deliverToWaiter_eq (k : Kernel) (i pid : ℕ) (data : List UInt8) :
    (k.deliverToWaiter i pid data).2
      = if k.accepts (k.ipc.channels i).waiter data.length then
          (k.takeWaiter i).wakeIfBlocked (k.ipc.channels i).waiter.pid
            (wakeResult (k.ipc.channels i).waiter pid data.length).1
            (wakeResult (k.ipc.channels i).waiter pid data.length).2
        else k.takeWaiter i := by
  unfold deliverToWaiter wakeIfBlocked
  simp only [Bool.not_eq_true']
  by_cases h : k.accepts (k.ipc.channels i).waiter data.length = true
  · rw [if_neg (by simp [h]), if_pos h]
    split
    · rename_i hnone
      rw [hnone]
      rfl
    · rename_i s hsome
      rw [hsome]
      rfl
  · rw [Bool.not_eq_true] at h
    rw [if_pos h, if_neg (by simp [h])]

/-- What a message to channel `i` does to the process that waits there: it takes the message, or its
wait is withdrawn. -/
def sendFate (k : Kernel) (i pid : ℕ) (data : List UInt8) : Fate := fun p r =>
  (k.ipc.channels i).waiter.active = true ∧ (k.ipc.channels i).waiter.pid = p
    ∧ r = if k.accepts (k.ipc.channels i).waiter data.length then
        .woken (wakeResult (k.ipc.channels i).waiter pid data.length).1
          (wakeResult (k.ipc.channels i).waiter pid data.length).2 else .withdrawn

theorem deliverToWaiter_releases (hk : Rests 0 k)
    (hactive : (k.ipc.channels i).active = true)
    (hwaiter : (k.ipc.channels i).waiter.active = true) (pid : ℕ) (data : List UInt8) :
    Releases (k.sendFate i pid data) 0 k (k.deliverToWaiter i pid data).2 := by
  obtain ⟨h, hfree⟩ := takeWaiter_releases hk hactive hwaiter (k.sendFate i pid data)
  have hsched := takeWaiter_sched k i
  rw [deliverToWaiter_eq]
  split_ifs with haccepts
  · refine wakeIfBlocked_released h (fun hp _ => ?_) (fun hp _ => ?_) ⟨hwaiter, rfl, ?_⟩
    · rw [hsched]
      exact (hk.asleep _ hp hp).blocked (t := .message i _) ⟨hactive, hwaiter, rfl, rfl⟩
    · rw [hsched]
      exact hfree hp
    · rw [if_pos haccepts]
  · refine h.resolve (fun p r hr hp => hp.resolve_left fun h => hr h.2) fun p _ _ hfree hdrop => ?_
    refine .dropped hfree (hdrop.elim ?_ id)
    rintro ⟨rfl, -⟩
    exact ⟨hwaiter, rfl, by rw [if_neg haccepts]⟩

def drainFate (k : Kernel) (i : ℕ) : Fate := fun p r =>
  (k.ipc.channels i).sender.active = true ∧ (k.ipc.channels i).sender.pid = p
    ∧ r = .woken (UInt64.ofNat (k.ipc.channels i).sender.data.length) 0

theorem drainSlot_releases (hk : Rests 0 k)
    (hactive : (k.ipc.channels i).active = true) :
    Releases (k.drainFate i) 0 k (k.drainSlot i) := by
  have hfate : (k.ipc.channels i).sender.active = true →
      k.drainFate i (k.ipc.channels i).sender.pid
        (.woken (UInt64.ofNat (k.ipc.channels i).sender.data.length) 0) :=
    fun h => ⟨h, rfl, rfl⟩
  unfold drainSlot
  simp only
  split_ifs with hsender
  · generalize k.drainFate i = fate at *
    generalize hparked : (k.ipc.channels i).sender = parked at *
    generalize hc : (k.ipc.channels i).pop.clearSender.push
      { sender := parked.pid, data := parked.data } = c
    have hsame : c.active = (k.ipc.channels i).active ∧ c.waiter = (k.ipc.channels i).waiter
        ∧ c.sender.active = false := by
      rw [← hc]
      exact ⟨rfl, rfl, rfl⟩
    have hawaits : ∀ p t, (k.setChannel i c).Awaits p t ↔ k.Awaits p t ∧ t ≠ .room i := by
      intro p t
      cases t with
      | message j m =>
        rcases eq_or_ne j i with rfl | hne
        · simp [Awaits, IpcChannel.Waits, hsame.1, hsame.2.1]
        · simp [Awaits, hne]
      | room j =>
        rcases eq_or_ne j i with rfl | hne
        · simp [Awaits, IpcChannel.Parks, hsame.2.2]
        · simp [Awaits, hne]
      | event => simp [Awaits]
    have hroom : k.Awaits parked.pid (.room i) :=
      ⟨hactive, by rw [hparked]; exact hsender, by rw [hparked]⟩
    have hfree : parked.pid ≠ 0 →
        (k.setChannel i c).Free parked.pid ∨ k.sched.state parked.pid = .exited := by
      refine fun hp => (hk.asleep _ hp hp).free_of_less hroom (fun t ht => (hawaits _ t).1 ht)
        fun j hj => ?_
      simp at hj
    have hgone : Releases (fate.withdrawing parked.pid) 0 k (k.setChannel i c) := by
      refine releases_of_tokens rfl (fun _ _ => rfl) (fun p t ht => ((hawaits p t).1 ht).1)
        (fun p hp _ => ?_) fun j hj => ?_
      · rcases eq_or_ne p parked.pid with rfl | hne
        · exact .inr ((hfree hp).imp_left fun h => ⟨.inl ⟨rfl, rfl⟩, h⟩)
        · refine .inl fun t h => (hawaits p t).2 ⟨h, ?_⟩
          rintro rfl
          refine hne ?_
          rw [← h.2.2, hparked]
      · rcases eq_or_ne j i with rfl | hne
        · exact hactive
        · simpa [hne] using hj
    exact wakeIfBlocked_released hgone (fun hp _ => (hk.asleep _ hp hp).blocked hroom)
      (fun hp _ => hfree hp) (hfate hsender)
  · refine releases_of_same rfl (fun _ _ => rfl) (fun j => ?_) rfl
    rcases eq_or_ne j i with rfl | hne
    · simp [IpcChannel.pop]
    · simp [hne]

/-! ## The cleanup of a process -/

theorem wakeSleepers_setChannel (k : Kernel) (c c' : IpcChannel) (i : ℕ) :
    (k.wakeSleepers c).setChannel i c' = (k.setChannel i c').wakeSleepers c := by
  unfold wakeSleepers
  split_ifs <;> rfl

theorem closeChannel_awaits {input : Input} {selects : ℕ → Prop}
    (hinput : ∀ p, input.Waits p ↔ k.input.Waits p ∧ ¬selects p) (i : ℕ) (c : IpcChannel) (p : ℕ)
    (t : Token) :
    ((k.setChannel i c.closed).withInput input).Awaits p t
      ↔ k.Awaits p t ∧ (∀ m, t ≠ .message i m) ∧ t ≠ .room i ∧ (t = .event → ¬selects p) := by
  cases t with
  | message j m =>
    rcases eq_or_ne j i with rfl | hne
    · simp [Awaits, IpcChannel.closed_not_waits]
    · simp [Awaits, hne]
  | room j =>
    rcases eq_or_ne j i with rfl | hne
    · simp [Awaits, IpcChannel.closed_not_parks]
    · simp [Awaits, hne]
  | event => simp [Awaits, hinput]

def SleepsOn (c : IpcChannel) (p : ℕ) : Prop := (∃ m, c.Waits p m) ∨ c.Parks p

theorem wakeSleepers_releases {c : IpcChannel}
    (hk : Rests d k) (hwaits : ∀ p, p ≠ d → ∀ m, (k.ipc.channels i).Waits p m ↔ c.Waits p m)
    (hparks : ∀ p, p ≠ d → ((k.ipc.channels i).Parks p ↔ c.Parks p))
    (hactive : (k.ipc.channels i).active = true) (hc : c.active = true)
    (hfate : ∀ p, SleepsOn c p → fate p (.woken u64Max 0)) :
    Releases fate d k ((k.setChannel i c.closed).wakeSleepers c) := by
  have hinput : ∀ p, (if c.waiter.active = true ∧ c.waiter.multiplex = true then
      k.input.inputCancelWait c.waiter.pid else k.input).Waits p
        ↔ k.input.Waits p ∧ ¬c.Waits p true := by
    intro p
    split_ifs with h
    · rw [Input.cancelWait_waits]
      simp [IpcChannel.Waits, hc, h, eq_comm]
    · simp only [IpcChannel.Waits, not_and] at h ⊢
      exact ⟨fun hp => ⟨hp, fun _ hw _ => h hw⟩, fun hp => hp.1⟩
  have hawaits := closeChannel_awaits hinput i c
  have heq : (k.setChannel i c.closed).wakeSleepers c
      = let k₂ := (k.setChannel i c.closed).withInput (if c.waiter.active = true
          ∧ c.waiter.multiplex = true then k.input.inputCancelWait c.waiter.pid else k.input)
        let k₃ := if c.waiter.active then k₂.wakeIfBlocked c.waiter.pid u64Max 0 else k₂
        if c.sender.active then k₃.wakeIfBlocked c.sender.pid u64Max 0 else k₃ := by
    unfold wakeSleepers
    split_ifs <;> rfl
  rw [heq]
  generalize (if c.waiter.active = true ∧ c.waiter.multiplex = true then
    k.input.inputCancelWait c.waiter.pid else k.input) = input at *
  generalize hk₂ : (k.setChannel i c.closed).withInput input = k₂ at *
  have hsched : k₂.sched = k.sched := by rw [← hk₂]; rfl
  have hwaiter : ∀ p, p ≠ 0 → p ≠ d → ∀ m, c.Waits p m →
      k₂.Free p ∨ k.sched.state p = .exited := by
    intro p hp hd m hw
    refine (hk.asleep p hp hd).free_of_less (t := .message i m) ((hwaits p hd m).2 hw)
      (fun t ht => ?_) fun j hj => ?_
    · obtain ⟨ht, hmessage, -⟩ := (hawaits p t).1 ht
      exact ⟨ht, hmessage m⟩
    · simp only [Token.message.injEq, reduceCtorEq, or_false] at hj
      obtain ⟨rfl, rfl⟩ := hj
      exact ⟨fun h => ((hawaits _ _).1 h).2.1 _ rfl, fun h => ((hawaits _ _).1 h).2.2.2 rfl hw⟩
  have hsender : ∀ p, p ≠ 0 → p ≠ d → c.Parks p → k₂.Free p ∨ k.sched.state p = .exited := by
    intro p hp hd hs
    refine (hk.asleep p hp hd).free_of_less (t := .room i) ((hparks p hd).2 hs)
      (fun t ht => ?_) fun j hj => ?_
    · obtain ⟨ht, -, hroom, -⟩ := (hawaits p t).1 ht
      exact ⟨ht, hroom⟩
    · simp at hj
  have hblocked : ∀ p, p ≠ 0 → p ≠ d → SleepsOn c p →
      (UserMemory.validPid p ∧ k₂.sched.state p = .blocked) ∨ k₂.sched.state p = .exited := by
    rw [hsched]
    rintro p hp hd (⟨m, hw⟩ | hs)
    · exact (hk.asleep p hp hd).blocked (t := .message i m) ((hwaits p hd m).2 hw)
    · exact (hk.asleep p hp hd).blocked (t := .room i) ((hparks p hd).2 hs)
  have hgone : Releases (fun p r => (r = .withdrawn ∧ SleepsOn c p) ∨ fate p r) d k k₂ := by
    refine releases_of_tokens (by rw [hsched]) (fun _ _ => by rw [hsched])
      (fun p t ht => ((hawaits p t).1 ht).1) (fun p hp hd => ?_) fun j hj => ?_
    · by_cases hs : SleepsOn c p
      · refine .inr (Or.imp_left (fun h => ⟨.inl ⟨rfl, hs⟩, h⟩) ?_)
        rcases hs with ⟨m, hw⟩ | hs
        · exact hwaiter p hp hd m hw
        · exact hsender p hp hd hs
      refine .inl fun t h => (hawaits p t).2 ⟨h, ?_, ?_, fun _ ht => hs (.inl ⟨true, ht⟩)⟩
      · rintro m rfl
        exact hs (.inl ⟨m, (hwaits p hd m).1 h⟩)
      · rintro rfl
        exact hs (.inr ((hparks p hd).1 h))
    · rw [← hk₂] at hj
      rcases eq_or_ne j i with rfl | hne
      · exact hactive
      · simpa [hne] using hj
  simp only
  have hwoken : Releases (fun p r => (r = .withdrawn ∧ c.Parks p) ∨ fate p r) d k
      (if c.waiter.active then k₂.wakeIfBlocked c.waiter.pid u64Max 0 else k₂) := by
    split_ifs with hw
    · have hwaits' : c.Waits c.waiter.pid c.waiter.multiplex := ⟨hc, hw, rfl, rfl⟩
      refine wakeIfBlocked_released (hgone.mono fun q r hq => ?_)
        (fun hp hd => hblocked _ hp hd (.inl ⟨_, hwaits'⟩)) (fun hp hd => ?_)
        (.inr (hfate _ (.inl ⟨_, hwaits'⟩)))
      · rcases hq with ⟨rfl, ⟨m, h⟩ | h⟩ | h
        · exact .inl ⟨h.2.2.1.symm, rfl⟩
        · exact .inr (.inl ⟨rfl, h⟩)
        · exact .inr (.inr h)
      · rw [hsched]
        exact hwaiter _ hp hd _ hwaits'
    · refine hgone.mono fun q r hq => hq.imp_left fun ⟨hr, hs⟩ => ⟨hr, ?_⟩
      exact hs.resolve_left fun ⟨m, h⟩ => hw h.2.1
  have hkeep : ∀ p t, (if c.waiter.active then k₂.wakeIfBlocked c.waiter.pid u64Max 0
      else k₂).Awaits p t ↔ k₂.Awaits p t := by
    intro p t
    split_ifs <;> cases t <;> rfl
  have hwakes : Wakes k₂.sched (if c.waiter.active then
      k₂.wakeIfBlocked c.waiter.pid u64Max 0 else k₂).sched := by
    split_ifs
    · exact wakeIfBlocked_wakes k₂ _ _ _
    · exact .refl _
  have hother : ∀ q, (c.waiter.active = true → q ≠ c.waiter.pid) →
      (if c.waiter.active then k₂.wakeIfBlocked c.waiter.pid u64Max 0 else k₂).sched.state q
        = k₂.sched.state q := by
    intro q hq
    split_ifs with hw
    · exact wakeIfBlocked_state k₂ (hq hw) _ _
    · rfl
  generalize (if c.waiter.active then k₂.wakeIfBlocked c.waiter.pid u64Max 0 else k₂) = k₃ at *
  split_ifs with hs
  · have hparks' : c.Parks c.sender.pid := ⟨hc, hs, rfl⟩
    refine wakeIfBlocked_released (hwoken.mono fun q r hq => hq.imp_left ?_) (fun hp hd => ?_)
      (fun hp hd => ?_) (hfate _ (.inr hparks'))
    · exact fun ⟨hr, h⟩ => ⟨h.2.2.symm, hr⟩
    · by_cases hsame : c.waiter.active = true ∧ c.sender.pid = c.waiter.pid
      · refine .inr ((Wakes.state_eq hwakes _).2.2 ?_)
        rw [hsched]
        have hboth : c.Waits c.sender.pid c.waiter.multiplex := ⟨hc, hsame.1, hsame.2.symm, rfl⟩
        exact (hk.asleep _ hp hd).exited_of_both ((hwaits _ hd _).2 hboth) ((hparks _ hd).2 hparks')
      · rw [hother _ fun hw heq => hsame ⟨hw, heq⟩]
        exact hblocked _ hp hd (.inr hparks')
    · refine (hsender _ hp hd hparks').imp (fun h t ht => h t ((hkeep _ t).1 ht)) fun h => ?_
      rw [← hsched] at h
      exact (Wakes.state_eq hwakes _).2.2 h
  · exact hwoken.mono fun q r hq => hq.resolve_left fun ⟨_, h⟩ => hs h.2.1

theorem cleanupChannel_releases (hk : Rests pid k) (i : ℕ)
    (hfate : ∀ p, (k.ipc.channels i).active = true → (k.ipc.channels i).owner = pid →
      SleepsOn (k.ipc.channels i) p → fate p (.woken u64Max 0)) :
    Releases fate pid k (k.cleanupChannel pid i) := by
  unfold cleanupChannel
  split_ifs with hinactive howner
  · exact .refl fate pid k
  · have hawaits : ∀ p t, (k.setChannel i ((k.ipc.channels i).forget pid)).Awaits p t →
        k.Awaits p t := by
      intro p t ht
      cases t with
      | message j m =>
        rcases eq_or_ne j i with rfl | hne
        · simp only [Awaits, setChannel_ipc_channels, Function.update_self,
            IpcChannel.forget_waits] at ht
          exact ht.1
        · simpa [Awaits, hne] using ht
      | room j =>
        rcases eq_or_ne j i with rfl | hne
        · simp only [Awaits, setChannel_ipc_channels, Function.update_self,
            IpcChannel.forget_parks] at ht
          exact ht.1
        · simpa [Awaits, hne] using ht
      | event => exact ht
    refine releases_of_tokens rfl (fun _ _ => rfl) hawaits (fun p _ hd => .inl fun t ht => ?_)
      fun j hj => ?_
    · cases t with
      | message j m =>
        rcases eq_or_ne j i with rfl | hne
        · simpa [Awaits, IpcChannel.forget_waits, hd] using ht
        · simpa [Awaits, hne] using ht
      | room j =>
        rcases eq_or_ne j i with rfl | hne
        · simpa [Awaits, IpcChannel.forget_parks, hd] using ht
        · simpa [Awaits, hne] using ht
      | event => exact ht
    · rcases eq_or_ne j i with rfl | hne
      · simpa using hinactive
      · simpa [hne] using hj
  · rw [Bool.not_eq_false] at hinactive
    rw [wakeSleepers_setChannel]
    refine wakeSleepers_releases hk (fun p hd m => ?_) (fun p hd => ?_) hinactive ?_ fun p hp => ?_
    · rw [IpcChannel.forget_waits]
      exact (and_iff_left hd).symm
    · rw [IpcChannel.forget_parks]
      exact (and_iff_left hd).symm
    · unfold IpcChannel.forget
      simp only
      split_ifs <;> exact hinactive
    · refine hfate p hinactive (not_not.1 howner) (hp.imp ?_ fun h => ?_)
      · exact fun ⟨m, h⟩ => ⟨m, ((IpcChannel.forget_waits _ _ _ m).1 h).1⟩
      · exact ((IpcChannel.forget_parks _ _ _).1 h).1

theorem cancelInput_releases (k : Kernel) (pid : ℕ) (fate : Fate) :
    Releases fate pid k (k.withInput (k.input.inputCancelWait pid)) := by
  refine releases_of_tokens rfl (fun _ _ => rfl) (fun p t ht => ?_)
    (fun p _ hd => .inl fun t ht => ?_) fun j hj => hj
  · cases t with
    | message j m => exact ht
    | room j => exact ht
    | event => exact ((Input.cancelWait_waits _ _ _).1 ht).1
  · cases t with
    | message j m => exact ht
    | room j => exact ht
    | event => exact (Input.cancelWait_waits _ _ _).2 ⟨ht, hd⟩

/-- The end of `pid` wakes those that sleep on its channels with failure. -/
def closeFate (k : Kernel) (pid : ℕ) : Fate := fun p r =>
  (p = pid ∧ r = .ended) ∨ (r = .woken u64Max 0 ∧ ∃ i, (k.ipc.channels i).active = true
    ∧ (k.ipc.channels i).owner = pid ∧ SleepsOn (k.ipc.channels i) p)

theorem ipcProcessCleanup_others (hk : Rests pid k) :
    Releases (k.closeFate pid) pid k (k.ipcProcessCleanup pid) := by
  have hcancel := cancelInput_releases k pid (k.closeFate pid)
  have hloop : Releases (k.closeFate pid) pid k (k.ipcProcessCleanup pid)
      ∧ Quiet k (k.ipcProcessCleanup pid) := by
    refine foldl_inv (P := fun k' => Releases (k.closeFate pid) pid k k' ∧ Quiet k k')
      (fun k' i ⟨h, hquiet⟩ => ⟨?_, hquiet.trans (cleanupChannel_lifecycle k' pid i).ipc⟩) _ _
      ⟨hcancel, Quiet.of_ipc rfl⟩
    refine h.trans (cleanupChannel_releases (h.rests hk) i fun p hactive howner hsleeps => ?_)
    have hkept := hquiet i hactive
    refine .inr ⟨rfl, i, hkept.active, hkept.owner.symm.trans howner, hsleeps.imp ?_ ?_⟩
    · exact fun ⟨m, hw⟩ => ⟨m, h.less p (.message i m) hw⟩
    · exact fun hs => h.less p (.room i) hs
  exact hloop.1

theorem ipcProcessCleanup_free
    (hbound : ∀ i, (k.ipc.channels i).active = true → i < ipcChannelLimit) (pid : ℕ) :
    (k.ipcProcessCleanup pid).Free pid := by
  have hchannel : ∀ i, (∀ m, ¬((k.ipcProcessCleanup pid).ipc.channels i).Waits pid m)
      ∧ ¬((k.ipcProcessCleanup pid).ipc.channels i).Parks pid := by
    intro i
    rw [ipcProcessCleanup_channels]
    split_ifs with hi
    · unfold IpcChannel.cleaned
      split_ifs with hactive
      · exact ⟨fun m h => by simp [h.1] at hactive, fun h => by simp [h.1] at hactive⟩
      · exact ⟨fun m h => ((IpcChannel.forget_waits _ _ _ m).1 h).2 rfl,
          fun h => ((IpcChannel.forget_parks _ _ _).1 h).2 rfl⟩
      · exact ⟨IpcChannel.closed_not_waits _ pid, IpcChannel.closed_not_parks _ pid⟩
    · exact ⟨fun m h => hi (hbound i h.1), fun h => hi (hbound i h.1)⟩
  intro t ht
  cases t with
  | message i m => exact (hchannel i).1 m ht
  | room i => exact (hchannel i).2 ht
  | event => exact ipcProcessCleanup_waiter k pid ht

theorem wakeSleepers_frames (k : Kernel) (c : IpcChannel)
    (hq : k.sched.state q ≠ .blocked) :
    (k.wakeSleepers c).sched.frames q = k.sched.frames q
      ∧ (k.wakeSleepers c).sched.state q ≠ .blocked := by
  unfold wakeSleepers
  simp only
  generalize hk₁ : (if c.waiter.active = true ∧ c.waiter.multiplex = true then
    k.withInput (k.input.inputCancelWait c.waiter.pid) else k) = k₁
  have hsched : k₁.sched = k.sched := by
    rw [← hk₁]
    split_ifs <;> rfl
  rw [← hsched] at hq ⊢
  have hfirst : (if c.waiter.active then k₁.wakeIfBlocked c.waiter.pid u64Max 0 else k₁).sched.frames q
      = k₁.sched.frames q ∧ (if c.waiter.active then k₁.wakeIfBlocked c.waiter.pid u64Max 0
        else k₁).sched.state q ≠ .blocked := by
    split_ifs
    · exact wakeIfBlocked_frames k₁ hq _ _
    · exact ⟨rfl, hq⟩
  generalize (if c.waiter.active then k₁.wakeIfBlocked c.waiter.pid u64Max 0 else k₁) = k₂ at hfirst ⊢
  split_ifs
  · obtain ⟨hframe, hstate⟩ := wakeIfBlocked_frames k₂ (p := c.sender.pid) hfirst.2 u64Max 0
    exact ⟨hframe.trans hfirst.1, hstate⟩
  · exact hfirst

theorem ipcProcessCleanup_frames (k : Kernel) (pid : ℕ)
    (hq : k.sched.state q ≠ .blocked) :
    (k.ipcProcessCleanup pid).sched.frames q = k.sched.frames q
      ∧ (k.ipcProcessCleanup pid).sched.state q ≠ .blocked := by
  refine foldl_inv (P := fun k' => k'.sched.frames q = k.sched.frames q
    ∧ k'.sched.state q ≠ .blocked) (fun k' i h => ?_) _ _ ⟨rfl, hq⟩
  unfold cleanupChannel
  split_ifs
  · exact h
  · exact h
  · obtain ⟨hframe, hstate⟩ := wakeSleepers_frames k' ((k'.ipc.channels i).forget pid) h.2
    exact ⟨hframe.trans h.1, hstate⟩

/-- A process that is cleaned up has no registration left; it is for the caller to end it. -/
theorem ipcProcessCleanup_releases (hk : Rests 0 k) (pid : ℕ) :
    Releases ((k.closeFate pid).withdrawing pid) 0 k (k.ipcProcessCleanup pid) := by
  have h := (ipcProcessCleanup_others (hk.leaveOut pid)).mono
    (f := (k.closeFate pid).withdrawing pid) fun p r => .inr
  have hwakes := ipcProcessCleanup_wakes k pid
  refine ⟨fun p hp _ => ?_, h.less, h.sleeps, h.settled, fun p hp _ ha => .inl ?_,
    fun p _ _ he => ?_, fun p _ he => .inl ?_, h.bound⟩
  · rcases eq_or_ne p pid with rfl | hne
    · exact .dropped (ipcProcessCleanup_free hk.bound p) (.inl ⟨rfl, rfl⟩)
    · exact h.procs p hp hne
  · have hne : k.sched.state p ≠ .blocked := by
      rcases ha with ha | ha <;> rw [ha] <;> decide
    refine ⟨?_, (ipcProcessCleanup_frames k pid hne).1⟩
    rcases hwakes.tasks p with heq | ⟨hb, -⟩
    · unfold Awake state at ha ⊢
      rw [heq]
      exact ha
    · exact absurd hb hne
  · exact he.imp (Wakes.state_eq hwakes p).2.2 (Wakes.state_eq hwakes p).1.2
  · exact he.imp (Wakes.state_eq hwakes p).2.1 (Wakes.state_eq hwakes p).1.1

/-! ## Input events and timeouts -/

theorem cancelWaits_less (k : Kernel) (q p : ℕ) (t : Token)
    (ht : (k.cancelWaits q).Awaits p t) : k.Awaits p t := by
  cases t with
  | event => exact ((Input.cancelWait_waits k.input q p).1 ht).1
  | message j m =>
    rcases Ipc.ipcCancelWait_cases k.ipc q with ⟨heq, -⟩ | ⟨i, n, -, heq⟩
    · simpa [Awaits, cancelWaits, heq] using ht
    · simp only [Awaits, cancelWaits, withInput_ipc, withIpc_ipc, heq, Ipc.setChannel_channels] at ht
      rcases eq_or_ne j i with rfl | hj
      · rw [Function.update_self] at ht
        exact absurd ht (IpcChannel.clearWaiter_not_waits _ p m)
      · rwa [Function.update_of_ne hj] at ht
  | room j =>
    rcases Ipc.ipcCancelWait_cases k.ipc q with ⟨heq, -⟩ | ⟨i, n, -, heq⟩
    · simpa [Awaits, cancelWaits, heq] using ht
    · simp only [Awaits, cancelWaits, withInput_ipc, withIpc_ipc, heq, Ipc.setChannel_channels] at ht
      rcases eq_or_ne j i with rfl | hj
      · rw [Function.update_self] at ht
        exact ht
      · rwa [Function.update_of_ne hj] at ht

theorem cancelWaits_other (k : Kernel) (hne : p ≠ q) (t : Token) (ht : k.Awaits p t) :
    (k.cancelWaits q).Awaits p t := by
  cases t with
  | event => exact (Input.cancelWait_waits k.input q p).2 ⟨ht, hne⟩
  | message j m =>
    rcases Ipc.ipcCancelWait_cases k.ipc q with ⟨heq, -⟩ | ⟨i, n, hw, heq⟩
    · simpa [Awaits, cancelWaits, heq] using ht
    · simp only [Awaits, cancelWaits, withInput_ipc, withIpc_ipc, heq, Ipc.setChannel_channels]
      rcases eq_or_ne j i with rfl | hj
      · exact absurd (ht.2.2.1.symm.trans hw.2.2.1) hne
      · rwa [Function.update_of_ne hj]
  | room j =>
    rcases Ipc.ipcCancelWait_cases k.ipc q with ⟨heq, -⟩ | ⟨i, n, -, heq⟩
    · simpa [Awaits, cancelWaits, heq] using ht
    · simp only [Awaits, cancelWaits, withInput_ipc, withIpc_ipc, heq, Ipc.setChannel_channels]
      rcases eq_or_ne j i with rfl | hj
      · rw [Function.update_self]
        exact ht
      · rwa [Function.update_of_ne hj]

theorem cancelWaits_free (hk : k.Asleep q)
    (hbound : ∀ i, (k.ipc.channels i).active = true → i < ipcChannelLimit)
    (hroom : ∀ i, ¬k.Awaits q (.room i)) :
    (k.cancelWaits q).Free q ∨ k.sched.state q = .exited := by
  have hevent : ¬(k.cancelWaits q).Awaits q .event :=
    fun h => ((Input.cancelWait_waits k.input q q).1 h).2 rfl
  rcases Ipc.ipcCancelWait_cases k.ipc q with ⟨heq, hnone⟩ | ⟨i, m, hw, heq⟩
  · refine .inl fun t ht => ?_
    cases t with
    | message j m =>
      have := cancelWaits_less k q q _ ht
      exact hnone j (hbound j this.1) m this
    | room j => exact hroom j (cancelWaits_less k q q _ ht)
    | event => exact hevent ht
  · have hgone : ∀ n, ¬(k.cancelWaits q).Awaits q (.message i n) := by
      intro n hn
      simp only [Awaits, cancelWaits, withInput_ipc, withIpc_ipc, heq, Ipc.setChannel_channels,
        Function.update_self] at hn
      exact IpcChannel.clearWaiter_not_waits _ _ _ hn
    refine hk.free_of_less (t := .message i m) hw
      (fun t ht => ⟨cancelWaits_less k q q t ht, ?_⟩) fun j hj => ?_
    · rintro rfl
      exact hgone m ht
    · simp only [Token.message.injEq, reduceCtorEq, or_false] at hj
      obtain ⟨rfl, rfl⟩ := hj
      exact ⟨hgone true, hevent⟩

theorem cancelWaits_releases (hk : Rests 0 k)
    (hroom : q ≠ 0 → (∀ i, ¬k.Awaits q (.room i)) ∨ k.sched.state q = .exited) (fate : Fate) :
    Releases (fate.withdrawing q) 0 k (k.cancelWaits q)
      ∧ (q ≠ 0 → (k.cancelWaits q).Free q ∨ k.sched.state q = .exited) := by
  have hfree : q ≠ 0 → (k.cancelWaits q).Free q ∨ k.sched.state q = .exited :=
    fun hq => (hroom hq).elim (cancelWaits_free (hk.asleep q hq hq) hk.bound) .inr
  refine ⟨releases_of_tokens rfl (fun _ _ => rfl) (cancelWaits_less k q) (fun p hp _ => ?_)
    fun j hj => ?_, hfree⟩
  · rcases eq_or_ne p q with rfl | hne
    · exact .inr ((hfree hp).imp_left fun h => ⟨.inl ⟨rfl, rfl⟩, h⟩)
    · exact .inl (cancelWaits_other k hne)
  · simp only [cancelWaits, withInput_ipc, withIpc_ipc] at hj
    rcases Ipc.ipcCancelWait_cases k.ipc q with ⟨heq, -⟩ | ⟨i, m, hw, heq⟩
    · rwa [heq] at hj
    · rw [heq] at hj
      rcases eq_or_ne j i with rfl | hne
      · exact hw.1
      · simpa [hne] using hj

/-- What an input event does to the process that waits for it: it takes the event, or its wait is
withdrawn. -/
def inputFate (k : Kernel) : Fate := fun p r =>
  k.input.Waits p ∧ r = if k.userspaceCopyTo p k.input.waiter.address inputEventSize then
    .woken 2 (UInt64.ofNat inputEventSize) else .withdrawn

theorem Asleep.no_room (h : k.Asleep p) (hw : k.Awaits p .event) :
    (∀ i, ¬k.Awaits p (.room i)) ∨ k.sched.state p = .exited := by
  cases h with
  | free h => exact absurd hw (h _)
  | exited h => exact .inr h
  | receives i h => exact absurd ((h.tokens _).1 hw) (by simp)
  | selects i h => exact .inl fun j hj => absurd ((h.tokens _).1 hj) (by simp)
  | parked i h => exact absurd ((h.tokens _).1 hw) (by simp)

theorem enqueue_releases (k : Kernel) (event : InputEvent) (fate : Fate) :
    Releases fate 0 k (k.withInput (k.input.enqueue event)) :=
  releases_of_same rfl (fun _ _ => rfl) (fun _ => ⟨rfl, rfl, rfl⟩) (Input.enqueue_waiter k.input event)

theorem inputPublish_releases (hk : Rests 0 k) (event : InputEvent) :
    Releases k.inputFate 0 k (k.inputPublish event) := by
  unfold inputPublish
  split_ifs with htype hidle
  · exact .refl _ 0 k
  · exact enqueue_releases k event _
  · rw [Bool.not_eq_false] at hidle
    simp only
    have hwaits : k.Awaits k.input.waiter.pid .event := ⟨hidle, rfl⟩
    have heq : (k.withInput k.input.clearWaiter).withIpc (k.ipc.ipcCancelWait k.input.waiter.pid)
        = k.cancelWaits k.input.waiter.pid := by
      unfold cancelWaits Input.inputCancelWait
      rw [if_neg (by simp [hidle])]
      rfl
    rw [heq]
    generalize hq : k.input.waiter.pid = q at *
    obtain ⟨hcancel, hfree⟩ := cancelWaits_releases hk
      (fun hne => (hk.asleep q hne hne).no_room hwaits) k.inputFate
    rw [show (k.cancelWaits q).userspaceCopyTo q k.input.waiter.address inputEventSize
      = k.userspaceCopyTo q k.input.waiter.address inputEventSize from rfl]
    split_ifs with hcopy
    · have hwoken : Releases k.inputFate 0 k
          ((k.cancelWaits q).wakeIfBlocked q 2 (UInt64.ofNat inputEventSize)) :=
        wakeIfBlocked_released hcancel (fun hne _ => (hk.asleep q hne hne).blocked hwaits)
          (fun hne _ => hfree hne) ⟨hwaits, by rw [if_pos hcopy]⟩
      unfold wakeIfBlocked at hwoken
      cases hs : (k.cancelWaits q).sched.wake q 2 (UInt64.ofNat inputEventSize) with
      | some s =>
        rw [hs] at hwoken
        exact hwoken
      | none =>
        rw [hs] at hwoken
        exact hwoken.trans (enqueue_releases _ event _)
    · have hlost : Releases k.inputFate 0 k (k.cancelWaits q) := by
        refine hcancel.mono fun p r hp => hp.elim ?_ id
        rintro ⟨rfl, rfl⟩
        exact ⟨hwaits, by rw [if_neg hcopy]⟩
      exact hlost.trans (enqueue_releases _ event _)

/-- What a timer tick does to a process whose timed wait runs out. -/
def tickFate (k : Kernel) : Fate := fun p r =>
  k.sched.state p = .blocked ∧ (k.sched.tasks p).timedWait = true
    ∧ (k.sched.tasks p).wakeTick ≤ k.sched.ticks + 1
    ∧ r = .woken (k.sched.tasks p).timeoutResult 0

theorem expireWait_releases (hk : Rests 0 k) (hpid : pid ≠ 0)
    (hfate : k.sched.state pid = .blocked → (k.sched.tasks pid).timedWait = true →
      (k.sched.tasks pid).wakeTick ≤ k.sched.ticks →
      fate pid (.woken (k.sched.tasks pid).timeoutResult 0)) :
    Releases fate 0 k (k.expireWait pid) := by
  unfold expireWait
  simp only
  split_ifs with h
  · exact .refl fate 0 k
  · simp only [not_or, not_not, Bool.not_eq_false, UInt64.not_lt] at h
    obtain ⟨hblocked, htimed, hdue⟩ := h
    have hroom : (∀ i, ¬k.Awaits pid (.room i)) ∨ k.sched.state pid = .exited := by
      cases hk.asleep pid hpid hpid with
      | free h => exact .inl fun i => h _
      | exited h => exact .inr h
      | receives i h => exact .inl fun j hj => absurd ((h.tokens _).1 hj) (by simp)
      | selects i h => exact .inl fun j hj => absurd ((h.tokens _).1 hj) (by simp)
      | parked i h untimed => exact absurd (htimed.symm.trans untimed) (by simp)
    obtain ⟨hcancel, hfree⟩ := cancelWaits_releases hk (fun _ => hroom) fate
    have hfree' : (k.cancelWaits pid).Free pid := by
      refine (hfree hpid).resolve_right fun he => ?_
      exact absurd (hblocked.symm.trans he) (by decide)
    have hblocked' : (k.cancelWaits pid).sched.state pid = .blocked := hblocked
    have hresult := hfate hblocked htimed hdue
    refine (hcancel.trans (setTask_releases _ _ (fun _ _ => hfree') (fun _ => ?_)
      (by simp) (fun _ => ?_) (by simp) fun _ => .of_untimed rfl)).resolve
      (fun q r hr hq => hq.resolve_left fun h => hr h.2) fun q _ _ hnone hq => ?_
    · unfold Awake
      rw [hblocked']
      decide
    · unfold Ended
      rw [hblocked']
      simp
    · rcases hq with ⟨rfl, -⟩ | hq
      · exact .woken hnone (by simp [Awake, state]) (by simpa using hresult)
      · exact .dropped hnone hq

theorem schedulerOnTimerTick_releases (hk : Rests 0 k) (hs : k.sched.Inv) :
    Releases k.tickFate 0 k k.schedulerOnTimerTick := by
  have hcount : Releases k.tickFate 0 k k.countTick :=
    releases_of_same rfl (fun _ _ => rfl) (fun _ => ⟨rfl, rfl, rfl⟩) rfl
  have hexpire : Releases k.tickFate 0 k k.countTick.expireWaits
      ∧ k.countTick.expireWaits.sched.ticks = k.sched.ticks + 1 := by
    unfold expireWaits
    refine foldl_inv (P := fun k' => Releases k.tickFate 0 k k'
      ∧ k'.sched.ticks = k.sched.ticks + 1)
      (fun k' i ⟨h, hticks⟩ => ⟨?_, (expireWait_lifecycle k' (i + 1)).ticks.trans hticks⟩) _ _ ⟨hcount, rfl⟩
    have hpid := Nat.succ_ne_zero i
    refine h.trans (expireWait_releases (h.rests hk) hpid fun hblocked htimed hdue => ?_)
    have htask := h.sleeps (i + 1) hblocked
    unfold state at hblocked
    rw [htask] at hblocked htimed hdue ⊢
    rw [hticks] at hdue
    exact ⟨hblocked, htimed, hdue, rfl⟩
  have hinv : k.countTick.expireWaits.sched.Inv :=
    (expireWaits_wakes k.countTick).inv ⟨hs.current_lt, hs.running, hs.idle⟩
  exact hexpire.1.trans (leaves_releases _ (chargeSlice_leaves hinv) (hexpire.1.rests hk))

/-! ## The end of a process -/

theorem closeFate_mono (hless : ∀ p t, k'.Awaits p t → k.Awaits p t)
    (hquiet : Quiet k k') (pid p : ℕ) (r : Ending) (h : k'.closeFate pid p r) :
    k.closeFate pid p r := by
  refine h.imp_right fun ⟨hr, i, hactive, howner, hsleeps⟩ => ?_
  have hkept := hquiet i hactive
  refine ⟨hr, i, hkept.active, hkept.owner.symm.trans howner, hsleeps.imp ?_ ?_⟩
  · exact fun ⟨m, hw⟩ => ⟨m, hless p (.message i m) hw⟩
  · exact fun hs => hless p (.room i) hs

theorem markExited_releases (code : UInt64)
    (hleft : k.Free pid ∨ fate pid .killed) (hended : fate pid .ended) :
    Releases fate 0 k (k.markExited pid code) := by
  unfold markExited
  generalize ht : { k.sched.tasks pid with exitCode := code, state := TaskState.exited } = t
  have hexited : t.state = .exited := by rw [← ht]
  have hresult : (k.sched.tasks pid).Settled → t.Settled := by
    rw [← ht]
    exact fun h => ⟨fun hs => by simp at hs, fun hs => by simp at hs, h.result⟩
  have hother : ∀ p, p ≠ pid → (k.sched.setTask pid t).tasks p = k.sched.tasks p :=
    fun p hp => by simp [hp]
  have hself : (k.sched.setTask pid t).tasks pid = t := by simp
  refine ⟨fun p _ _ => ?_, fun _ _ h => h, fun p hb => ?_, fun p _ hs => ?_,
    fun p _ _ ha => ?_, fun p _ _ he => ?_, fun p _ he => ?_, fun _ hi => hi⟩
  · rcases eq_or_ne p pid with rfl | hne
    · exact .exited (by simp [state, hexited]) (fun _ h => h) (hleft.imp_right .inr)
    · exact .spared ⟨fun _ => Iff.rfl, fun _ => hother p hne⟩
  · rcases eq_or_ne p pid with rfl | hne
    · simp [state, hexited] at hb
    · exact hother p hne
  · rcases eq_or_ne p pid with rfl | hne
    · simp only [withSched_sched, hself]
      exact hresult hs
    · simp only [withSched_sched, hother p hne]
      exact hs
  · rcases eq_or_ne p pid with rfl | hne
    · exact .inr (.inl (by simp [state, hexited]))
    · refine .inl ⟨?_, rfl⟩
      unfold Awake state at ha ⊢
      simp only [withSched_sched, hother p hne]
      exact ha
  · rcases eq_or_ne p pid with rfl | hne
    · exact .inl (by simp [state, hexited])
    · unfold Ended state at he ⊢
      simp only [withSched_sched, hother p hne]
      exact he
  · rcases eq_or_ne p pid with rfl | hne
    · exact .inr hended
    · unfold Ended state at he ⊢
      simp only [withSched_sched, hother p hne] at he
      exact .inl he

theorem userspaceReleaseProcess_releases (hk : Rests 0 k)
    (hpid : UserMemory.validPid pid) :
    Releases ((k.closeFate pid).withdrawing pid) 0 k (k.userspaceReleaseProcess pid)
      ∧ (k.userspaceReleaseProcess pid).Free pid := by
  have hclean := ipcProcessCleanup_releases hk pid
  have hfree := ipcProcessCleanup_free hk.bound pid
  have hunmap := unmapSurface_same ((k.ipcProcessCleanup pid).closeAll pid) pid
  unfold userspaceReleaseProcess
  rw [if_neg (not_not.2 hpid)]
  generalize ((k.ipcProcessCleanup pid).closeAll pid).unmapSurface pid = k₁ at hunmap ⊢
  have hipc : k₁.ipc = (k.ipcProcessCleanup pid).ipc := hunmap.ipc
  have hinput : k₁.input = (k.ipcProcessCleanup pid).input := hunmap.input
  have hsched : k₁.sched = (k.ipcProcessCleanup pid).sched := hunmap.sched
  have hsame : Releases ((k.closeFate pid).withdrawing pid) 0 (k.ipcProcessCleanup pid)
      (k₁.withMem { (k₁.mem.anonymousRelease pid).largeCodeRelease pid with
        processMemoryUsed := Function.update
          ((k₁.mem.anonymousRelease pid).largeCodeRelease pid).processMemoryUsed pid false }) := by
    refine releases_of_same ?_ (fun _ _ => ?_) (fun i => ?_) ?_
    · exact congrArg Scheduler.tasks hsched
    · simp [hsched]
    · simp [hipc]
    · exact congrArg Input.waiter hinput
  exact ⟨hclean.trans hsame, hsame.free hfree⟩

theorem freeSlot_releases (hk : Rests 0 k) {child : ℕ}
    (hchild : UserMemory.validPid child) (hexited : k.sched.state child = .exited) :
    Releases (k.closeFate child) 0 k (k.freeSlot child) := by
  obtain ⟨h, hfree⟩ := userspaceReleaseProcess_releases hk hchild
  have hexited' := (Wakes.state_eq (userspaceReleaseProcess_spec k hchild).2.1 child).2.2 hexited
  have hset : (k.userspaceReleaseProcess child).sched.setFrame child
      ((k.userspaceReleaseProcess child).sched.frames child)
        = (k.userspaceReleaseProcess child).sched := by
    unfold setFrame
    rw [Function.update_eq_self]
  unfold freeSlot
  generalize k.userspaceReleaseProcess child = k₁ at *
  simp only
  rw [← hset]
  refine (h.trans (setTask_releases _ (k₁.sched.frames child) (fun _ _ => hfree) (fun _ => ?_)
    (by simp) (fun _ _ => .inr rfl) (fun _ => .inl hexited') fun _ => .of_untimed rfl)).resolve
    (fun p r hr hp => hp.resolve_left fun h => hr h.2) fun p _ _ hnone hp => ?_
  · unfold Awake
    rw [hexited']
    decide
  · rcases hp with ⟨rfl, -⟩ | hp
    · exact .gone hnone (by simp [state])
    · exact .dropped hnone hp

theorem wakeWaitingParent_releases (hk : Rests 0 k) {child : ℕ}
    (hchild : UserMemory.validPid child) (hexited : k.sched.state child = .exited) :
    Releases (k.closeFate child) 0 k (k.wakeWaitingParent child) := by
  by_cases h : k.ParentWaits child
  swap
  · rw [wakeWaitingParent_of_not h]
    exact .refl _ 0 k
  have hguard := (parentWaits_iff k child).1 h
  obtain ⟨hpos, -, hblocked, hfor⟩ := h
  have hne : (k.sched.tasks child).parentPid ≠ child := by
    intro heq
    rw [heq, hexited] at hblocked
    cases hblocked
  unfold wakeWaitingParent
  rw [if_neg hguard]
  generalize (k.sched.tasks child).parentPid = parent at *
  have hwaits : (k.sched.tasks parent).waitingFor ≠ none := by
    rcases hfor with hfor | hfor <;> rw [hfor] <;> simp
  have hfree : k.Free parent :=
    (hk.asleep parent hpos hpos).free_of_child (by rw [hblocked]; decide) hwaits
  have hready : Releases (k.closeFate child) 0 k (k.withSched ((k.sched.setResult parent
      (UInt64.ofNat child) (k.sched.tasks child).exitCode).setTask parent
      { k.sched.tasks parent with waitingFor := none, state := .ready })) := by
    refine setTask_releases _ _ (fun _ _ => hfree) (fun _ => ?_) (by simp) (fun _ => ?_)
      (by simp) fun hs => .of_untimed (hs.child hblocked hwaits)
    · unfold Awake
      rw [hblocked]
      decide
    · unfold Ended
      rw [hblocked]
      simp
  refine hready.trans ((freeSlot_releases (hready.rests hk) hchild ?_).mono fun p r hp => hp)
  simpa [state, hne.symm] using hexited

theorem exitTask_releases (hk : Rests 0 k)
    (hpid : UserMemory.validPid pid) (code : UInt64)
    (hfate : ∀ p r, k.closeFate pid p r → fate p r) (hleft : k.Free pid ∨ fate pid .killed) :
    Releases fate 0 k (k.exitTask pid code) := by
  have h := markExited_releases code hleft (hfate pid .ended (.inl ⟨rfl, rfl⟩))
  have hparent := wakeWaitingParent_releases (h.rests hk) hpid (by simp [markExited, state])
  exact h.trans (hparent.mono hfate)

theorem schedulerOnExit_releases (hk : Rests 0 k) (hs : k.sched.Inv) (code : UInt64)
    (hfree : k.Free k.current) :
    Releases (k.closeFate k.current) 0 k (k.schedulerOnExit code) := by
  unfold schedulerOnExit current
  split_ifs with hidle
  · exact .refl _ 0 k
  · simp only [not_or] at hidle
    have h := exitTask_releases hk ⟨hidle.2, hs.current_lt⟩ code (fun _ _ h => h) (.inl hfree)
    simp only
    have hk₁ := h.rests hk
    split
    · rename_i next hnext
      exact h.trans (leaves_releases _ (dispatch_leaves (nextReady_spec hnext).2.2) hk₁)
    · exact h.trans (leaves_releases _ (returnIdle_leaves _) hk₁)

theorem schedulerTerminate_releases (hk : Rests 0 k) {code : UInt64}
    (h : k.schedulerTerminate pid code = some k')
    (hfate : ∀ p r, k.closeFate pid p r → fate p r) (hleft : k.Free pid ∨ fate pid .killed) :
    Releases fate 0 k k' := by
  unfold schedulerTerminate at h
  split_ifs at h with hc
  simp only [not_or, not_le] at hc
  simp only [Option.some.injEq] at h
  rw [← h]
  exact exitTask_releases hk ⟨hc.1, hc.2.1⟩ code hfate hleft

theorem schedulerReap_releases (hk : Rests 0 k) {parent child : ℕ} {code : UInt64}
    (h : k.schedulerReap parent child = some (code, k')) :
    Releases (k.closeFate child) 0 k k' := by
  obtain ⟨hchild, -, hexited, rfl⟩ := schedulerReap_eq h
  exact freeSlot_releases hk hchild hexited

end Kernel

end DemonOS
