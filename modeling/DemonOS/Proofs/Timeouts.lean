import DemonOS.Proofs.InputWaiter
import DemonOS.Proofs.Select

/-!
# When timed waits run out

A timed wait of `d` ticks, begun at tick `n` as counted from boot, should end at tick `n + d` or
later. Its deadline is computed in 64 bits: where the sum overflows, the next tick ends the wait. A
tick never ends a wait early just when no select of the run asks for such a delay
(`timeouts_on_time_iff`).
-/

namespace DemonOS

open Scheduler

/-- A wait of `delay` ticks that begins at tick `t` has its deadline ahead, or begins at the very last
tick. -/
def InRange (t delay : UInt64) : Prop := t.toNat + delay.toNat < 2 ^ 64 ∨ t = u64Max

instance (t delay : UInt64) : Decidable (InRange t delay) := inferInstanceAs (Decidable (_ ∨ _))

theorem toNat_u64Max : u64Max.toNat = 2 ^ 64 - 1 := by decide

theorem InRange.elapsed {n m : ℕ} {delay : UInt64} (h : InRange (UInt64.ofNat n) delay) (hle : n ≤ m)
    (hdue : UInt64.ofNat n + delay ≤ UInt64.ofNat m + 1) : n + delay.toNat ≤ m + 1 := by
  have hlt := delay.toNat_lt
  unfold InRange at h
  rw [← UInt64.toNat_inj, toNat_u64Max] at h
  rw [UInt64.le_iff_toNat_le, UInt64.toNat_add, UInt64.toNat_add, UInt64.toNat_one] at hdue
  simp only [UInt64.toNat_ofNat'] at h hdue
  omega

theorem not_inRange {n : ℕ} {delay : UInt64} (h : ¬InRange (UInt64.ofNat n) delay) :
    UInt64.ofNat n + delay ≤ UInt64.ofNat n + 1 ∧ 1 < delay.toNat := by
  have hlt := delay.toNat_lt
  unfold InRange at h
  rw [← UInt64.toNat_inj, toNat_u64Max] at h
  rw [UInt64.le_iff_toNat_le, UInt64.toNat_add, UInt64.toNat_add, UInt64.toNat_one]
  simp only [UInt64.toNat_ofNat'] at h ⊢
  omega

namespace Scheduler

variable {s : Scheduler} {p : ℕ}

theorem reschedule_blocked (hp : p ≠ 0) (hb : s.state p = .blocked) :
    s.reschedule.tasks p = s.tasks p := by
  unfold reschedule
  dsimp only
  have hyield : (if s.state s.currentPid = .running then
      s.setState s.currentPid .ready else s).tasks p = s.tasks p := by
    split_ifs with h
    · have hne : p ≠ s.currentPid := by
        rintro rfl
        rw [hb] at h
        cases h
      simp [hne]
    · rfl
  generalize (if s.state s.currentPid = .running then
    s.setState s.currentPid .ready else s) = s₁ at hyield ⊢
  have hb₁ : s₁.state p = .blocked := by
    unfold state at hb ⊢
    rw [hyield]
    exact hb
  have hne : ∀ q, s₁.state q = .ready → p ≠ q := by
    rintro q hq rfl
    rw [hb₁] at hq
    cases hq
  rw [← hyield]
  split
  · split_ifs with h
    · simp [hne _ h]
    · simp [returnIdle, hp]
  · rename_i next hnext
    simp [dispatch, hne _ (nextReady_spec hnext).2.2]

theorem chargeSlice_blocked (hs : s.Inv) (hp : p ≠ 0) (hb : s.state p = .blocked) :
    s.chargeSlice.tasks p = s.tasks p := by
  unfold chargeSlice
  split_ifs with hidle
  · rfl
  · rw [not_or] at hidle
    have hne : p ≠ s.currentPid := by
      rintro rfl
      rw [hs.running hidle.2] at hb
      cases hb
    dsimp only
    have hcharged : ∀ t, (s.setTask s.currentPid t).tasks p = s.tasks p := fun t => by simp [hne]
    split_ifs
    · exact hcharged _
    · rw [reschedule_blocked hp (by unfold state; rw [hcharged]; exact hb), hcharged]

end Scheduler

namespace Kernel

structure Overdue (k : Kernel) (p : ℕ) : Prop where
  blocked : k.sched.state p = .blocked
  timed : (k.sched.tasks p).timedWait = true
  reached : (k.sched.tasks p).wakeTick ≤ k.sched.ticks

section

variable {k : Kernel} {p : ℕ}

theorem expireWait_task (k : Kernel) (pid p : ℕ) :
    (k.expireWait pid).sched.tasks p = k.sched.tasks p ∨ p = pid ∧ k.Overdue p := by
  unfold expireWait
  dsimp only
  split_ifs with h
  · exact .inl rfl
  · simp only [not_or, not_not, Bool.not_eq_false, UInt64.not_lt] at h
    rcases eq_or_ne p pid with rfl | hne
    · exact .inr ⟨rfl, h.1, h.2.1, h.2.2⟩
    · exact .inl (by simp [cancelWaits, hne])

theorem Overdue.of_task {k' : Kernel} (h : k'.Overdue p) (htask : k'.sched.tasks p = k.sched.tasks p)
    (hticks : k'.sched.ticks = k.sched.ticks) : k.Overdue p := by
  obtain ⟨hb, ht, hr⟩ := h
  unfold state at hb
  rw [htask] at hb ht hr
  rw [hticks] at hr
  exact ⟨hb, ht, hr⟩

theorem expireWaits_task (k : Kernel) (p : ℕ) :
    k.expireWaits.sched.tasks p = k.sched.tasks p ∨ k.Overdue p := by
  unfold expireWaits
  refine (foldl_inv (P := fun k' => k'.sched.ticks = k.sched.ticks
    ∧ (k'.sched.tasks p = k.sched.tasks p ∨ k.Overdue p)) (fun k' i h => ?_) _ _ ⟨rfl, .inl rfl⟩).2
  refine ⟨(expireWait_lifecycle k' (i + 1)).ticks.trans h.1, ?_⟩
  rcases h.2 with htask | hdue
  · rcases expireWait_task k' (i + 1) p with heq | ⟨-, hdue⟩
    · exact .inl (heq.trans htask)
    · exact .inr (hdue.of_task htask h.1)
  · exact .inr hdue

theorem Overdue.expires (h : k.Overdue p) : (k.expireWait p).sched.state p = .ready := by
  unfold expireWait
  rw [if_neg]
  · simp [state]
  · rintro (hb | ht | hr)
    · exact hb h.blocked
    · exact absurd (ht.symm.trans h.timed) (by simp)
    · exact UInt64.not_lt.2 h.reached hr

theorem foldl_expires : ∀ (l : List ℕ) (k : Kernel), k.Overdue p → p - 1 ∈ l → p ≠ 0 →
    (l.foldl (fun k i => k.expireWait (i + 1)) k).sched.state p ≠ .blocked
  | i :: l, k, hdue, hmem, hp => by
    rw [List.foldl_cons]
    rcases eq_or_ne p (i + 1) with rfl | hne
    · have hwakes : Wakes (k.expireWait (i + 1)).sched
          (l.foldl (fun k i => k.expireWait (i + 1)) (k.expireWait (i + 1))).sched :=
        foldl_inv (P := fun k' => Wakes (k.expireWait (i + 1)).sched k'.sched)
          (fun k' j h => h.trans (expireWait_wakes k' (j + 1))) _ _ (.refl _)
      have hready := hdue.expires
      rcases hwakes.tasks (i + 1) with heq | ⟨hb, -⟩
      · unfold state at hready ⊢
        rw [heq, hready]
        decide
      · rw [hready] at hb
        cases hb
    · refine foldl_expires l _ ?_ ?_ hp
      · rcases expireWait_task k (i + 1) p with heq | ⟨hpi, -⟩
        · exact hdue.of_task heq.symm (expireWait_lifecycle k (i + 1)).ticks.symm
        · exact absurd hpi hne
      · rcases List.mem_cons.1 hmem with h | h
        · omega
        · exact h

theorem Overdue.expireWaits (h : k.Overdue p) (hp : p ≠ 0) (hlt : p < processLimit) :
    k.expireWaits.sched.state p ≠ .blocked := by
  exact foldl_expires _ k h (List.mem_range.2 (by omega)) hp

theorem countTick_inv (hs : k.sched.Inv) : k.countTick.expireWaits.sched.Inv :=
  (expireWaits_wakes k.countTick).inv ⟨hs.current_lt, hs.running, hs.idle⟩

theorem due_wakes (hs : k.sched.Inv) (hp : p ≠ 0) (hlt : p < processLimit)
    (hdue : k.countTick.Overdue p) : k.schedulerOnTimerTick.sched.state p ≠ .blocked := by
  unfold schedulerOnTimerTick
  rw [withSched_sched]
  intro hblocked
  have hne := hdue.expireWaits hp hlt
  have heq := (chargeSlice_leaves (countTick_inv hs)).sleeps p hblocked
  unfold state at hblocked
  rw [heq] at hblocked
  exact hne hblocked

theorem due_of_wakes (hs : k.sched.Inv) (hp : p ≠ 0) (hb : k.sched.state p = .blocked)
    (hwakes : k.schedulerOnTimerTick.sched.state p ≠ .blocked) : k.countTick.Overdue p := by
  by_contra hdue
  have htask := (expireWaits_task k.countTick p).resolve_right hdue
  have hblocked : k.countTick.expireWaits.sched.state p = .blocked := by
    unfold state
    rw [htask]
    exact hb
  refine hwakes ?_
  unfold schedulerOnTimerTick
  rw [withSched_sched]
  unfold state at hblocked ⊢
  rw [chargeSlice_blocked (countTick_inv hs) hp hblocked]
  exact hblocked

theorem step_tick (k : Kernel) (registers : Frame) :
    ∃ k' : Kernel, k.step (.timerTick registers) = k'.schedulerOnTimerTick ∧ k'.sched.tasks = k.sched.tasks
      ∧ k'.sched.ticks = k.sched.ticks ∧ (k.sched.Inv → k'.sched.Inv) := by
  unfold step
  dsimp only
  split_ifs with hu
  · exact ⟨_, rfl, rfl, rfl, (enter_same k registers).wakes.inv⟩
  · exact ⟨_, rfl, rfl, rfl, id⟩

end

/-! ## Timed waits -/

def timedBlock (k : Kernel) : Event → Option UInt64
  | .syscall f _ _ =>
    if k.userMode ∧ f.rax.toNat = 26 ∧ k.validSelect f = true
        ∧ ((k.enter f).ipcReceive k.current f.rdi.toNat ipcMessageMax).isNone = true
        ∧ k.input.inputPoll.isNone = true
        ∧ (k.ipc.ipcWaitSelect k.objects.caps k.current f.rdi.toNat f.rdx.toNat
          ipcMessageMax).isSome = true
        ∧ (k.input.inputWait k.current f.r10.toNat).isSome = true ∧ f.r8 ≠ 0 then
      some f.r8
    else none
  | _ => none

def timedTask (k : Kernel) (delay : UInt64) : Task :=
  { k.sched.tasks k.current with
    state := .blocked, wakeTick := k.sched.ticks + delay, timeoutResult := 3
    timedWait := true, waitingFor := none }

section

variable {k : Kernel} {e : Event} {delay : UInt64}

theorem blocks_task {s : Scheduler} {t : Task} (hne : s.currentPid ≠ 0) (ht : t.state = .blocked) :
    (s.setTask s.currentPid t).reschedule.tasks s.currentPid = t := by
  have hself : (s.setTask s.currentPid t).tasks s.currentPid = t := by simp
  rw [reschedule_blocked hne (by unfold state; rw [hself]; exact ht), hself]

theorem timedBlock_eq_some {f : Frame} {user : ℕ → UInt8} {dev : Devices}
    (h : k.timedBlock (.syscall f user dev) = some delay) :
    k.userMode ∧ f.rax.toNat = 26 ∧ delay ≠ 0 ∧ ∃ ipc input,
      (k.enter f).syscallSelect f = (((k.enter f).withIpc ipc).withInput input).withSched
        ((k.enter f).sched.blockCurrentTimeout delay 3) := by
  unfold timedBlock at h
  dsimp only at h
  split_ifs at h with hc
  obtain ⟨hu, h26, hvalid, hreceive, hpoll, hwait, hinput, hdelay⟩ := hc
  obtain rfl := Option.some.inj h
  obtain ⟨ipc, hipc⟩ := Option.isSome_iff_exists.1 hwait
  obtain ⟨input, hi⟩ := Option.isSome_iff_exists.1 hinput
  refine ⟨hu, h26, hdelay, ipc, input, ?_⟩
  unfold syscallSelect
  rw [show (k.enter f).validSelect f = true from hvalid,
    show (k.enter f).ipcReceive (k.enter f).current f.rdi.toNat ipcMessageMax = none from
      Option.isNone_iff_eq_none.1 hreceive,
    show (k.enter f).input.inputPoll = none from Option.isNone_iff_eq_none.1 hpoll,
    show (k.enter f).ipc.ipcWaitSelect (k.enter f).objects.caps (k.enter f).current f.rdi.toNat
      f.rdx.toNat ipcMessageMax = some ipc from hipc,
    show (k.enter f).input.inputWait (k.enter f).current f.r10.toNat = some input from hi]
  rw [if_neg (by simp), if_pos hdelay]

theorem timedBlock_step (h : k.timedBlock e = some delay) :
    k.current ≠ 0 ∧ (k.step e).sched.tasks k.current = k.timedTask delay := by
  cases e with
  | syscall f user dev =>
    obtain ⟨hu, h26, hdelay, ipc, input, hselect⟩ := timedBlock_eq_some h
    refine ⟨hu.2, ?_⟩
    rw [step_select user dev hu h26, hselect]
    unfold blockCurrentTimeout
    have hc : ¬((k.enter f).sched.usersRunning = false ∨ (k.enter f).sched.currentPid = 0
        ∨ delay = 0) := by
      rintro (hr | hp | hd)
      · exact absurd (hr.symm.trans hu.1) (by simp)
      · exact hu.2 hp
      · exact hdelay hd
    rw [if_neg hc, withSched_sched]
    exact blocks_task (s := (k.enter f).sched) hu.2 rfl
  | _ => cases h

theorem timedBlock_of_timed (hk : Calm k) (hp : k.current ≠ 0)
    (hb : (k.step e).sched.state k.current = .blocked)
    (ht : ((k.step e).sched.tasks k.current).timedWait = true) :
    ∃ delay, k.timedBlock e = some delay := by
  have hrun : k.sched.state k.current = .running := hk.procs.sched.running hp
  have hserves := step_serves hk.rests hk.procs.sched e
  have hselects : k.Selects e := by
    by_contra hselects
    have hfree : ¬(k.step e).Free k.current := by
      refine (hserves.waits hp hb).resolve_left fun hchild => ?_
      have huntimed := (hserves.rests.settled _ hp).child hb hchild
      rw [ht] at huntimed
      cases huntimed
    cases hserves.rests.asleep _ hp hp with
    | free h => exact hfree h
    | exited h => exact absurd (hb.symm.trans h) (by decide)
    | receives i h untimed => exact absurd (ht.symm.trans untimed) (by simp)
    | parked i h untimed => exact absurd (ht.symm.trans untimed) (by simp)
    | selects i h =>
      have hwaits : (k.step e).input.Waits k.current := (h.tokens .event).2 (.inr rfl)
      have hsame := (step_acts k e).waiter hselects hwaits.1
      refine hk.rests.current_free hk.procs.sched hp .event ?_
      unfold Awaits Input.Waits at *
      rw [← hsame]
      exact hwaits
  cases e with
  | syscall f user dev =>
    obtain ⟨hu, h26⟩ := hselects
    rw [step_select user dev hu h26] at hb ht
    have hawake : ∀ {s : Scheduler}, s.tasks k.current = k.sched.tasks k.current →
        s.state k.current = .blocked → False := by
      intro s hs hblocked
      unfold state at hblocked hrun
      rw [hs, hrun] at hblocked
      cases hblocked
    unfold syscallSelect at hb ht
    cases hvalid : (k.enter f).validSelect f with
    | false =>
      rw [hvalid] at hb
      exact (hawake rfl hb).elim
    | true =>
      rw [hvalid] at hb ht
      cases hr : (k.enter f).ipcReceive (k.enter f).current f.rdi.toNat ipcMessageMax with
      | some r =>
        rw [hr] at hb
        refine (hawake ?_ hb).elim
        rcases (ipcReceive_wakes hr).tasks k.current with heq | ⟨hblocked, -⟩
        · exact heq
        · exact absurd (hrun.symm.trans hblocked) (by decide)
      | none =>
        rw [hr] at hb ht
        cases hpoll : (k.enter f).input.inputPoll with
        | some r =>
          rw [hpoll] at hb
          exact (hawake rfl hb).elim
        | none =>
          rw [hpoll] at hb ht
          cases hwait : (k.enter f).ipc.ipcWaitSelect (k.enter f).objects.caps (k.enter f).current
              f.rdi.toNat f.rdx.toNat ipcMessageMax with
          | none =>
            rw [hwait] at hb
            exact (hawake rfl hb).elim
          | some ipc =>
            rw [hwait] at hb ht
            cases hinput : (k.enter f).input.inputWait (k.enter f).current f.r10.toNat with
            | none =>
              rw [hinput] at hb
              exact (hawake rfl hb).elim
            | some input =>
              rw [hinput] at ht
              by_cases hdelay : f.r8 ≠ 0
              · refine ⟨f.r8, ?_⟩
                unfold timedBlock
                dsimp only
                rw [if_pos]
                exact ⟨hu, h26, hvalid, Option.isNone_iff_eq_none.2 hr,
                  Option.isNone_iff_eq_none.2 hpoll, Option.isSome_iff_exists.2 ⟨ipc, hwait⟩,
                  Option.isSome_iff_exists.2 ⟨input, hinput⟩, hdelay⟩
              · dsimp only at ht
                rw [if_neg (by simp), if_neg hdelay, withSched_sched] at ht
                have huntimed : (k.sched.tasks k.current).timedWait = false :=
                  (hk.rests.settled _ hp).awake (.inr hrun)
                have hidle : ¬((k.enter f).sched.usersRunning = false
                    ∨ (k.enter f).sched.currentPid = 0) := by
                  rintro (hr | hp')
                  · exact absurd (hr.symm.trans hu.1) (by simp)
                  · exact hp hp'
                unfold blockCurrent at ht
                rw [if_neg hidle] at ht
                have htask := blocks_task (s := (k.enter f).sched)
                  (t := { (k.enter f).sched.tasks (k.enter f).sched.currentPid with
                    state := .blocked, waitingFor := none }) hp rfl
                have htimed := (congrArg Task.timedWait htask).symm.trans ht
                exact absurd (htimed.symm.trans huntimed) (by simp)
  | _ => cases hselects

end

/-! ## Runs -/

/-- A kernel with the ticks counted since boot, and the tick and the delay with which each process
began the timed wait it is in. -/
structure Timed where
  kernel : Kernel
  elapsed : ℕ := 0
  since : ℕ → Option (ℕ × UInt64) := fun _ => none

def SleepsThrough (k : Kernel) (e : Event) (p : ℕ) : Prop :=
  k.sched.state p = .blocked ∧ (k.step e).sched.state p = .blocked

instance (k : Kernel) (e : Event) (p : ℕ) : Decidable (k.SleepsThrough e p) :=
  inferInstanceAs (Decidable (_ ∧ _))

def Timed.noted (s : Timed) (e : Event) (p : ℕ) : Option (ℕ × UInt64) :=
  match s.kernel.timedBlock e with
  | some delay =>
    if p = s.kernel.current then some (s.elapsed, delay)
    else if s.kernel.SleepsThrough e p then s.since p else none
  | none => if s.kernel.SleepsThrough e p then s.since p else none

def Timed.step (s : Timed) (e : Event) : Timed where
  kernel := s.kernel.step e
  elapsed := s.elapsed + e.ticks
  since := s.noted e

/-- A sleeping process that a timer tick would wake now has been in a timed wait for the ticks it
asked for. -/
def Timed.OnTime (s : Timed) : Prop :=
  ∀ registers p, p ≠ 0 → s.kernel.sched.state p = .blocked →
    (s.kernel.step (.timerTick registers)).sched.state p ≠ .blocked →
      ∃ n delay, s.since p = some (n, delay) ∧ n + delay.toNat ≤ s.elapsed + 1

def BlocksInRange (k : Kernel) (e : Event) : Prop :=
  ∀ delay ∈ k.timedBlock e, InRange k.sched.ticks delay

instance (k : Kernel) (e : Event) : Decidable (k.BlocksInRange e) :=
  inferInstanceAs (Decidable (∀ delay ∈ _, _))

structure Kept (s : Timed) : Prop where
  calm : Calm s.kernel
  ticks : s.kernel.sched.ticks = UInt64.ofNat s.elapsed
  timed : ∀ p, p ≠ 0 → s.kernel.sched.state p = .blocked →
    (s.kernel.sched.tasks p).timedWait = true → ∃ n delay, s.since p = some (n, delay)
      ∧ n ≤ s.elapsed ∧ (s.kernel.sched.tasks p).wakeTick = UInt64.ofNat n + delay
      ∧ InRange (UInt64.ofNat n) delay

section

variable {s : Timed} {e : Event}

theorem Kept.onTime (h : Kept s) : s.OnTime := by
  intro registers p hp hb hwakes
  obtain ⟨k', heq, htasks, hticks, hinv⟩ := step_tick s.kernel registers
  rw [heq] at hwakes
  have hb' : k'.sched.state p = .blocked := by
    unfold state
    rw [htasks]
    exact hb
  have hdue := due_of_wakes (hinv h.calm.procs.sched) hp hb' hwakes
  have htimed : (s.kernel.sched.tasks p).timedWait = true := by
    rw [← htasks]
    exact hdue.timed
  obtain ⟨n, delay, hsince, hle, hwake, hrange⟩ := h.timed p hp hb htimed
  refine ⟨n, delay, hsince, hrange.elapsed hle ?_⟩
  have hreached : (k'.sched.tasks p).wakeTick ≤ k'.sched.ticks + 1 := hdue.reached
  rw [htasks, hticks, hwake, h.ticks] at hreached
  exact hreached

/-- A wait that begins in range is noted with its deadline. -/
theorem Kept.step (h : Kept s) (hrange : s.kernel.BlocksInRange e) : Kept (s.step e) := by
  have hcalm := step_calm h.calm e
  have hserves := step_serves h.calm.rests h.calm.procs.sched e
  refine ⟨hcalm, ?_, fun p hp hb ht => ?_⟩
  · change (s.kernel.step e).sched.ticks = UInt64.ofNat (s.elapsed + e.ticks)
    rw [step_ticks, h.ticks, UInt64.ofNat_add]
  · change (s.kernel.step e).sched.state p = .blocked at hb
    change ((s.kernel.step e).sched.tasks p).timedWait = true at ht
    by_cases hcurrent : p = s.kernel.current
    · subst hcurrent
      obtain ⟨delay, hblock⟩ := timedBlock_of_timed h.calm hp hb ht
      obtain ⟨-, htask⟩ := timedBlock_step hblock
      refine ⟨s.elapsed, delay, ?_, Nat.le_add_right _ _, ?_, ?_⟩
      · change s.noted e s.kernel.current = _
        unfold Timed.noted
        rw [hblock]
        dsimp only
        rw [if_pos rfl]
      · change ((s.kernel.step e).sched.tasks s.kernel.current).wakeTick = _
        rw [htask, ← h.ticks]
        rfl
      · rw [← h.ticks]
        exact hrange delay hblock
    · have htask := hserves.sleeps p (.inl hcurrent) hb
      have hslept : s.kernel.sched.state p = .blocked := by
        unfold state at hb ⊢
        rw [← htask]
        exact hb
      rw [htask] at ht
      obtain ⟨n, delay, hsince, hle, hwake, hinrange⟩ := h.timed p hp hslept ht
      refine ⟨n, delay, ?_, hle.trans (Nat.le_add_right _ _), ?_, hinrange⟩
      · change s.noted e p = _
        unfold Timed.noted
        rw [← hsince]
        split
        · rw [if_neg hcurrent, if_pos ⟨hslept, hb⟩]
        · rw [if_pos ⟨hslept, hb⟩]
      · change ((s.kernel.step e).sched.tasks p).wakeTick = _
        rw [htask]
        exact hwake

theorem Kept.early (h : Kept s) (hout : ¬s.kernel.BlocksInRange e) : ¬(s.step e).OnTime := by
  unfold BlocksInRange at hout
  push Not at hout
  obtain ⟨delay, hblock, hrange⟩ := hout
  obtain ⟨hp, htask⟩ := timedBlock_step hblock
  have hcalm := step_calm h.calm e
  have hticks : e.ticks = 0 := by
    cases e with
    | timerTick registers => cases hblock
    | _ => rfl
  rw [h.ticks] at hrange
  obtain ⟨hdue, hdelay⟩ := not_inRange hrange
  have hb : (s.kernel.step e).sched.state s.kernel.current = .blocked := by
    unfold state
    rw [htask]
    rfl
  obtain ⟨k', heq, htasks, hticks', hinv⟩ := step_tick (s.kernel.step e) {}
  have hnow : (s.kernel.step e).sched.ticks = UInt64.ofNat s.elapsed := by
    rw [step_ticks_eq s.kernel hticks, h.ticks]
  have hwakes : ((s.kernel.step e).step (.timerTick {})).sched.state s.kernel.current
      ≠ .blocked := by
    rw [heq]
    refine due_wakes (hinv hcalm.procs.sched) hp h.calm.procs.sched.current_lt ⟨?_, ?_, ?_⟩
    · change (k'.sched.tasks s.kernel.current).state = .blocked
      rw [htasks]
      exact hb
    · change (k'.sched.tasks s.kernel.current).timedWait = true
      rw [htasks, htask]
      rfl
    · change (k'.sched.tasks s.kernel.current).wakeTick ≤ k'.sched.ticks + 1
      rw [htasks, hticks', htask, hnow]
      change s.kernel.sched.ticks + delay ≤ _
      rw [h.ticks]
      exact hdue
  intro hontime
  obtain ⟨n, d, hsince, hle⟩ := hontime {} s.kernel.current hp hb hwakes
  change s.noted e s.kernel.current = _ at hsince
  unfold Timed.noted at hsince
  rw [hblock] at hsince
  dsimp only at hsince
  rw [if_pos rfl, Option.some.injEq, Prod.mk.injEq] at hsince
  change n + d.toNat ≤ s.elapsed + e.ticks + 1 at hle
  rw [hticks, ← hsince.1, ← hsince.2] at hle
  omega

end

theorem fresh_kept (b : BootInfo) : Kept { kernel := fresh b } := by
  refine ⟨fresh_calm b, rfl, fun p hp hb => ?_⟩
  have hstate : (fresh b).sched.state p = .unused := if_neg hp
  rw [hstate] at hb
  cases hb

/-- At no point of a run would a timer tick end a timed wait early, just when no process of it begins
one whose deadline overflows the tick counter, other than at its very last tick. -/
theorem timeouts_on_time_iff (b : BootInfo) (events : List Event) :
    (∀ before, before <+: events → (Machine.run Timed.step { kernel := fresh b } before).OnTime)
      ↔ Machine.Meets Timed.step (fun s e => s.kernel.BlocksInRange e) { kernel := fresh b }
        events := by
  rw [Machine.prefixes_iff Timed.step events _ (fresh_kept b).onTime]
  have hiff : ∀ s e, Kept s → ((s.step e).OnTime ↔ s.kernel.BlocksInRange e) := fun s e h =>
    ⟨fun hontime => by_contra fun hout => h.early hout hontime, fun hrange =>
      (h.step hrange).onTime⟩
  exact Machine.meets_congr Timed.step (I := Kept) hiff
    (fun s e h hontime => h.step ((hiff s e h).1 hontime)) events _ (fresh_kept b)

/-- After a timer tick the third process selects, with the longest delay there is. -/
def longDelay : List Event :=
  selectBoot ++ .timerTick {} ::
    [call { rax := 14, rdi := 0x330000, rsi := 1 },
      call { rax := 17, rdi := 0x10100, rsi := 0x330000, rdx := 8 },
      call { rax := 14, rdi := 0x330000, rsi := 2 },
      call { rax := 17, rdi := 0x10200, rsi := 0x330000, rdx := 8 },
      call { rax := 14, rdi := 0x330000, rsi := 3 },
      call { rax := 5, rdi := 8 },
      call { rax := 26, rdi := 0x10300, rsi := 0x10301, rdx := 0x330000, r10 := 0x330000
             r8 := u64Max }]

/-- The next tick resumes it with the result of a timeout. -/
theorem long_delay_runs_out :
    ¬(Machine.run Timed.step { kernel := fresh smallBoot } longDelay).OnTime
      ∧ (((Machine.run Timed.step { kernel := fresh smallBoot } longDelay).kernel.step
        (.timerTick {})).sched.frames 3).rax = 3 := by
  refine ⟨fun h => ?_, by decide +kernel⟩
  have hsince : (Machine.run Timed.step { kernel := fresh smallBoot } longDelay).since 3
      = some (1, u64Max) := by decide +kernel
  have helapsed : (Machine.run Timed.step { kernel := fresh smallBoot } longDelay).elapsed = 1 := by
    decide +kernel
  obtain ⟨n, delay, hn, hle⟩ := h {} 3 (by decide) (by decide +kernel) (by decide +kernel)
  rw [hsince, Option.some.injEq, Prod.mk.injEq] at hn
  rw [helapsed, ← hn.1, ← hn.2, toNat_u64Max] at hle
  omega

end Kernel

end DemonOS
