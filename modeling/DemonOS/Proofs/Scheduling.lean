import DemonOS.Proofs.Processes

/-!
# The scheduler along a run

The calls of `src/scheduler.c` in any order, those of a running process only while one runs. Exactly
one task runs and only ready tasks are ever selected (`scheduler_state_invariant`). A call leaves
the processor where it is or hands it on in one way, `elect`, and that moves it strictly closer to
every ready task, so none is passed over twice by the same task (`bounded_bypass`).
-/

namespace DemonOS

variable {k : Kernel} {p pid : ℕ} {s s' : Scheduler}

namespace Scheduler

/-- The end of every path that gives the processor away. -/
def elect (s : Scheduler) : Scheduler :=
  match s.nextReady s.currentPid with
  | none => if s.state s.currentPid = .ready then s.setState s.currentPid .running else s.returnIdle
  | some next => s.dispatch next

theorem reschedule_eq_elect (s : Scheduler) :
    s.reschedule = (if s.state s.currentPid = .running then s.setState s.currentPid .ready
      else s).elect := by
  by_cases h : s.state s.currentPid = .running
  · rw [reschedule, if_pos h]
    rfl
  · rw [reschedule, if_neg h]
    rfl

/-- One task runs, the current one, which is the idle task exactly while no user runs; every task
selected so far was ready. -/
structure Coherent (s : Scheduler) : Prop where
  current_lt : s.currentPid < processLimit
  running : ∀ p < processLimit, s.state p = .running ↔ p = s.currentPid
  users : s.usersRunning = true ↔ s.currentPid ≠ 0
  idle : s.currentPid ≠ 0 → s.state 0 = .ready
  selected : ∀ e ∈ s.dispatched, e.2 = .ready

/-- The moment before a selection: no task runs. -/
structure Vacated (s : Scheduler) : Prop where
  current_lt : s.currentPid < processLimit
  running : ∀ p < processLimit, s.state p ≠ .running
  users : s.usersRunning = true
  idle : s.state 0 = .ready
  selected : ∀ e ∈ s.dispatched, e.2 = .ready

theorem Vacated.dispatch (h : s.Vacated) (hpid : pid ≠ 0)
    (hlt : pid < processLimit) (hready : s.state pid = .ready) : (s.dispatch pid).Coherent where
  current_lt := hlt
  running := by
    intro p hp
    rcases eq_or_ne p pid with rfl | hne
    · simp [Scheduler.dispatch, state]
    · have := h.running p hp
      simpa [Scheduler.dispatch, state, hne] using this
  users := by simp [Scheduler.dispatch, h.users, hpid]
  idle := fun _ => by simpa [Scheduler.dispatch, state, hpid.symm] using h.idle
  selected := by
    rintro e (_ | ⟨_, he⟩)
    · exact hready
    · exact h.selected e he

theorem Vacated.returnIdle (h : s.Vacated) : s.returnIdle.Coherent where
  current_lt := by simp [Scheduler.returnIdle, processLimit]
  running := by
    intro p hp
    rcases eq_or_ne p 0 with rfl | hne
    · simp [Scheduler.returnIdle, state]
    · have := h.running p hp
      simpa [Scheduler.returnIdle, state, hne] using this
  users := by simp [Scheduler.returnIdle]
  idle := fun hne => absurd rfl hne
  selected := by
    rintro e (_ | ⟨_, he⟩)
    · exact h.idle
    · exact h.selected e he

theorem nextReady_eq_none {after p : ℕ} (h : s.nextReady after = none)
    (hp : p ≠ 0) (hlt : p < processLimit) : s.state p ≠ .ready := by
  unfold nextReady at h
  rw [List.find?_eq_none] at h
  refine fun hr => h p ?_ (by simpa using hr)
  unfold processLimit at hlt
  rw [List.mem_map]
  refine ⟨(p + 6 + 6 * after) % 7, List.mem_range.2 (by unfold processLimit; omega), ?_⟩
  unfold processLimit
  omega

theorem nextReady_congr {s t : Scheduler} {a : ℕ} (h : ∀ p, p ≠ 0 → t.state p = s.state p) :
    t.nextReady a = s.nextReady a := by
  unfold nextReady
  rw [List.find?_map, List.find?_map]
  congr 2
  funext n
  simp only [Function.comp_apply]
  rw [h _ (by omega)]

theorem Vacated.elect (h : s.Vacated) (hne : s.currentPid ≠ 0) :
    s.elect.Coherent := by
  unfold Scheduler.elect
  split
  · rename_i hnone
    rw [if_neg (nextReady_eq_none hnone hne h.current_lt)]
    exact h.returnIdle
  · rename_i next hnext
    obtain ⟨hpos, hlt, hready⟩ := nextReady_spec hnext
    exact h.dispatch hpos hlt hready

/-- What one call does: the processor stays where it is, or is handed on. -/
inductive Turns (s s' : Scheduler) : Prop
  | keeps (coherent : s'.Coherent) (current : s'.currentPid = s.currentPid)
    (log : s'.dispatched = s.dispatched)
  | picks (s₁ : Scheduler) (vacated : s₁.Vacated) (current : s₁.currentPid = s.currentPid)
    (log : s₁.dispatched = s.dispatched) (coherent : s₁.elect.Coherent) (elected : s' = s₁.elect)

theorem Turns.coherent (h : Turns s s') : s'.Coherent := by
  cases h with
  | keeps h => exact h
  | picks s₁ _ _ _ h heq => exact heq ▸ h

theorem Turns.refl (h : s.Coherent) : Turns s s := .keeps h rfl rfl

theorem Wakes.coherent (h : Wakes s s') (hs : s.Coherent) : s'.Coherent := by
  have hsame : ∀ p, s.state p = .running ∨ s.state p = .ready → s'.state p = s.state p := by
    intro p hp
    rcases h.tasks p with heq | ⟨hb, -⟩
    · unfold state
      rw [heq]
    · rw [hb] at hp
      rcases hp with hp | hp <;> cases hp
  refine ⟨h.1 ▸ hs.1, fun p hp => ?_, by rw [h.1, h.2]; exact hs.users, fun hne => ?_,
    h.dispatched ▸ hs.selected⟩
  · rw [h.1, ← hs.running p hp]
    rcases h.tasks p with heq | ⟨hb, hr, -⟩
    · unfold state
      rw [heq]
    · rw [hb, hr]
      decide
  · rw [h.1] at hne
    rw [hsame 0 (.inr (hs.idle hne))]
    exact hs.idle hne

theorem Wakes.turns (h : Wakes s s') (hs : s.Coherent) : Turns s s' :=
  .keeps (h.coherent hs) h.currentPid h.dispatched

/-- A call that wakes tasks first. -/
theorem Wakes.before {s₁ s₂ s₃ : Scheduler} (h : Wakes s₁ s₂) (h' : Turns s₂ s₃) : Turns s₁ s₃ := by
  cases h' with
  | keeps hc hcur hlog => exact .keeps hc (hcur.trans h.currentPid) (hlog.trans h.dispatched)
  | picks s hv hcur hlog hc heq =>
    exact .picks s hv (hcur.trans h.currentPid) (hlog.trans h.dispatched) hc heq

theorem Exits.others (h : Exits s pid s') (hp : p ≠ pid) :
    (s'.state p = .running ↔ s.state p = .running)
      ∧ (s.state p = .ready → s'.state p = .ready) := by
  rcases h.tasks p hp with heq | ⟨hb, hr, -⟩
  · unfold state
    rw [heq]
    exact ⟨Iff.rfl, id⟩
  · rw [hb, hr]
    decide

theorem Exits.not_running (h : Exits s pid s') :
    s'.state pid ≠ .running := by
  rcases h.ended with h | h <;> rw [h] <;> decide

theorem Exits.coherent (h : Exits s pid s') (hs : s.Coherent)
    (hne : pid ≠ s.currentPid) (hpos : pid ≠ 0) : s'.Coherent := by
  refine ⟨h.1 ▸ hs.1, fun p hp => ?_, by rw [h.1, h.2]; exact hs.users, fun hc => ?_,
    h.dispatched ▸ hs.selected⟩
  · rw [h.1]
    rcases eq_or_ne p pid with rfl | hpp
    · exact ⟨fun hr => absurd hr h.not_running, fun hr => absurd hr hne⟩
    · rw [(h.others hpp).1, hs.running p hp]
  · rw [h.1] at hc
    exact (h.others hpos.symm).2 (hs.idle hc)

theorem Exits.vacated (h : Exits s s.currentPid s') (hs : s.Coherent)
    (hne : s.currentPid ≠ 0) : s'.Vacated where
  current_lt := h.1 ▸ hs.1
  running := by
    intro p hp
    rcases eq_or_ne p s.currentPid with rfl | hpp
    · exact h.not_running
    · rw [ne_eq, (h.others hpp).1, hs.running p hp]
      exact hpp
  users := by rw [h.2, hs.users]; exact hne
  idle := (h.others hne.symm).2 (hs.idle hne)
  selected := h.dispatched ▸ hs.selected

theorem Coherent.vacate (hs : s.Coherent) (hne : s.currentPid ≠ 0) {t : Task}
    (ht : t.state ≠ .running) : (s.setTask s.currentPid t).Vacated where
  current_lt := hs.current_lt
  running := by
    intro p hp
    rcases eq_or_ne p s.currentPid with rfl | hpp
    · simpa [state] using ht
    · have := (hs.running p hp).not.2 hpp
      simpa [state, hpp] using this
  users := hs.users.2 hne
  idle := by simpa [state, hne.symm] using hs.idle hne
  selected := hs.selected

theorem Vacated.turns {s s₁ : Scheduler} (h : s₁.Vacated) (hne : s₁.currentPid ≠ 0)
    (hcur : s₁.currentPid = s.currentPid) (hlog : s₁.dispatched = s.dispatched) :
    Turns s s₁.reschedule := by
  rw [reschedule_eq_elect, if_neg (h.running _ h.current_lt)]
  exact .picks s₁ h hcur hlog (h.elect hne) rfl

theorem reschedule_turns (hs : s.Coherent) (hne : s.currentPid ≠ 0) :
    Turns s s.reschedule := by
  rw [reschedule_eq_elect, if_pos ((hs.running _ hs.current_lt).2 rfl)]
  have hv := hs.vacate hne (t := { s.tasks s.currentPid with state := .ready }) (by simp)
  exact .picks _ hv rfl rfl (hv.elect hne) rfl

/-! ## The calls -/

theorem onYield_turns (hs : s.Coherent) : Turns s s.onYield := by
  unfold onYield
  split_ifs with hidle
  · exact .refl hs
  · exact reschedule_turns hs (not_or.1 hidle).2

theorem chargeSlice_turns (hs : s.Coherent) : Turns s s.chargeSlice := by
  unfold chargeSlice
  split_ifs with hidle
  · exact .refl hs
  · have hne := (not_or.1 hidle).2
    have hcharge : ∀ slice, (s.setTask s.currentPid
        { s.tasks s.currentPid with sliceTicks := slice }).Coherent := by
      intro slice
      have hstate : ∀ p, (s.setTask s.currentPid
          { s.tasks s.currentPid with sliceTicks := slice }).state p = s.state p := by
        intro p
        rcases eq_or_ne p s.currentPid with rfl | hp
        · simp [state]
        · simp [state, hp]
      refine ⟨hs.current_lt, fun p hp => ?_, hs.users, fun h => ?_, hs.selected⟩
      · rw [hstate]
        exact hs.running p hp
      · rw [hstate]
        exact hs.idle h
    simp only
    split_ifs
    · exact .keeps (hcharge _) rfl rfl
    · have h := reschedule_turns (hcharge ((s.tasks s.currentPid).sliceTicks + 1)) hne
      cases h with
      | keeps hc hcur hlog => exact .keeps hc hcur hlog
      | picks s₁ hv hcur hlog hc heq => exact .picks s₁ hv hcur hlog hc heq

theorem blockCurrent_turns (hs : s.Coherent) : Turns s s.blockCurrent := by
  unfold blockCurrent
  split_ifs with hidle
  · exact .refl hs
  · have hne := (not_or.1 hidle).2
    exact (hs.vacate hne (by simp)).turns hne rfl rfl

theorem blockCurrentTimeout_turns (hs : s.Coherent) (delay result : UInt64) :
    Turns s (s.blockCurrentTimeout delay result) := by
  unfold blockCurrentTimeout
  split_ifs with hidle
  · exact blockCurrent_turns hs
  · have hne := (not_or.1 (not_or.1 hidle).2).1
    exact (hs.vacate hne (by simp)).turns hne rfl rfl

theorem startUsers_turns (hs : s.Coherent) (h : s.startUsers = some s') :
    Turns s s' := by
  unfold startUsers at h
  split_ifs at h with hidle
  have hzero : s.currentPid = 0 := by
    by_contra hc
    exact hidle (hs.users.2 hc)
  split at h
  · cases h
  · rename_i first hfirst
    simp only [Option.some.injEq] at h
    subst h
    obtain ⟨hpos, hlt, hready⟩ := nextReady_spec hfirst
    have hv : ({ s.setState 0 .ready with usersRunning := true } : Scheduler).Vacated := by
      refine ⟨hs.current_lt, fun p hp => ?_, rfl, by simp [state], hs.selected⟩
      rcases eq_or_ne p 0 with rfl | hne
      · simp [state]
      · have := (hs.running p hp).not.2 (hzero ▸ hne)
        simpa [state, hne] using this
    have hnext := nextReady_congr (a := s.currentPid)
      (t := { s.setState 0 .ready with usersRunning := true }) (s := s)
      fun p hp => by simp [state, hp]
    rw [hzero, hfirst] at hnext
    have hready' : ({ s.setState 0 .ready with usersRunning := true } : Scheduler).state first
        = .ready := by simpa [state, hpos] using hready
    have helect : ({ s.setState 0 .ready with usersRunning := true } : Scheduler).elect
        = ({ s.setState 0 .ready with usersRunning := true } : Scheduler).dispatch first := by
      unfold elect
      rw [show ({ s.setState 0 .ready with usersRunning := true } : Scheduler).currentPid = 0
        from hzero, hnext]
    exact .picks _ hv rfl rfl (helect ▸ hv.dispatch hpos hlt hready') helect.symm

theorem createUser_dispatched {parent space pid : ℕ} {entry stack : UInt64}
    (h : s.createUser parent entry stack space = some (pid, s')) :
    s'.dispatched = s.dispatched := by
  unfold createUser at h
  split_ifs at h
  split at h
  · cases h
  · simp only [Option.some.injEq, Prod.mk.injEq] at h
    rw [← h.2]
    rfl

theorem createUser_turns {parent space pid : ℕ} {entry stack : UInt64}
    (hs : s.Coherent) (h : s.createUser parent entry stack space = some (pid, s')) :
    Turns s s' := by
  have hlog := createUser_dispatched h
  obtain ⟨hpos, hlt, -, hunused, hcur, husers, htasks⟩ := createUser_spec h
  have hstate : ∀ p, p ≠ pid → s'.state p = s.state p := fun p hp => by
    unfold state
    rw [htasks, Function.update_of_ne hp]
  refine .keeps ⟨hcur ▸ hs.current_lt, fun p hp => ?_, by rw [husers, hcur]; exact hs.users,
    fun hne => ?_, hlog ▸ hs.selected⟩ hcur hlog
  · rw [hcur, ← hs.running p hp]
    rcases eq_or_ne p pid with rfl | hne
    · simp [state, htasks, show (s.tasks p).state = .unused from hunused]
    · rw [hstate p hne]
  · rw [hcur] at hne
    rw [hstate 0 hpos.symm]
    exact hs.idle hne

/-! ## How far a ready task is from its turn -/

def gap (c p : ℕ) : ℕ := (p + 13 - c) % 7

theorem nextReady_gap {c p q : ℕ} (hc : c < processLimit) (hp : p ≠ 0)
    (hlt : p < processLimit) (hready : s.state p = .ready) (h : s.nextReady c = some q)
    (hne : q ≠ p) : gap q p < gap c p := by
  unfold processLimit at hc hlt
  unfold nextReady at h
  rw [List.find?_map, Option.map_eq_some_iff] at h
  obtain ⟨n, hn, rfl⟩ := h
  rw [List.find?_range_eq_some] at hn
  obtain ⟨-, hmem, hbefore⟩ := hn
  unfold processLimit at hmem hbefore hne ⊢
  have hat : 1 + (c + gap c p) % (8 - 1) = p := by
    unfold gap
    omega
  have hle : n ≤ gap c p := by
    by_contra hgt
    have := hbefore (gap c p) (not_le.1 hgt)
    simp [hat, hready] at this
  have hn : n ≠ gap c p := by
    rintro rfl
    exact hne hat
  unfold gap at hle hn ⊢
  omega

theorem Turns.closer (h : Turns s s') (hp : p ≠ 0)
    (hlt : p < processLimit) (hready : s'.state p = .ready) :
    (s'.dispatched = s.dispatched ∧ s'.currentPid = s.currentPid)
      ∨ ∃ st, s'.dispatched = (s'.currentPid, st) :: s.dispatched ∧ s'.currentPid ≠ p
        ∧ gap s'.currentPid p < gap s.currentPid p := by
  cases h with
  | keeps _ hcur hlog => exact .inl ⟨hlog, hcur⟩
  | picks s₁ hv hcur hlog _ heq =>
    subst heq
    unfold elect at hready ⊢
    split at hready
    · rename_i hnone
      have hnot := nextReady_eq_none hnone hp hlt
      exfalso
      split_ifs at hready with hc
      · rcases eq_or_ne p s₁.currentPid with rfl | hne
        · exact hnot hc
        · exact hnot (by simpa [state, hne] using hready)
      · exact hnot (by simpa [returnIdle, state, hp] using hready)
    · rename_i q hq
      have hne : q ≠ p := by
        rintro rfl
        simp [Scheduler.dispatch, state] at hready
      have hready' : s₁.state p = .ready := by
        simpa [Scheduler.dispatch, state, hne.symm] using hready
      refine .inr ⟨s₁.state q, by rw [← hlog]; rfl, hne, ?_⟩
      rw [← hcur]
      exact nextReady_gap hv.current_lt hp hlt hready' hq hne

theorem coherent_init : ({} : Scheduler).Coherent where
  current_lt := by decide
  running := fun p _ => by by_cases h : p = 0 <;> simp [state, h]
  users := by simp
  idle := fun h => absurd rfl h
  selected := fun _ h => absurd h (by simp)

end Scheduler

namespace Kernel

open Scheduler

inductive SchedulerCall where
  | createUser (parent : ℕ) (entry stack : UInt64) (space : ℕ)
  | startUsers
  | timerTick
  | yield
  | block
  | blockTimeout (delay result : UInt64)
  | wake (pid : ℕ) (result detail : UInt64)
  | exit (code : UInt64)
  | wait (child : ℕ)
  | terminate (pid : ℕ) (code : UInt64)
  | reap (parent child : ℕ)
  | reapExited (parent : ℕ)

/-- A call of a process, made while one runs. -/
def fromUser (k : Kernel) (k' : Kernel) : Kernel := if k.userMode then k' else k

def schedulerCall (k : Kernel) : SchedulerCall → Kernel
  | .createUser parent entry stack space =>
    k.withSched (((k.sched.createUser parent entry stack space).map Prod.snd).getD k.sched)
  | .startUsers => k.withSched (k.sched.startUsers.getD k.sched)
  | .timerTick => k.schedulerOnTimerTick
  | .yield => k.fromUser (k.withSched k.sched.onYield)
  | .block => k.fromUser (k.withSched k.sched.blockCurrent)
  | .blockTimeout delay result => k.fromUser (k.withSched (k.sched.blockCurrentTimeout delay result))
  | .wake pid result detail => k.wakeIfBlocked pid result detail
  | .exit code => k.fromUser (k.schedulerOnExit code)
  | .wait child => k.fromUser (k.schedulerOnWait child)
  | .terminate pid code => (k.schedulerTerminate pid code).getD k
  | .reap parent child => ((k.schedulerReap parent child).map Prod.snd).getD k
  | .reapExited parent => ((k.schedulerReapExited parent).map (·.2.2)).getD k

theorem fromUser_turns {k k' : Kernel} (hs : k.sched.Coherent)
    (h : k.userMode → Turns k.sched k'.sched) : Turns k.sched (k.fromUser k').sched := by
  unfold fromUser
  split_ifs with hu
  · exact h hu
  · exact .refl hs

theorem schedulerReap_coherent {k k' : Kernel} {parent child : ℕ} {code : UInt64}
    (hs : k.sched.Coherent) (h : k.schedulerReap parent child = some (code, k')) :
    k'.sched.Coherent ∧ Exits k.sched child k'.sched := by
  obtain ⟨hexited, -, he⟩ := schedulerReap_spec h
  refine ⟨he.coherent hs ?_ (schedulerReap_pos h), he⟩
  rintro rfl
  rw [(hs.running _ hs.current_lt).2 rfl] at hexited
  cases hexited

theorem schedulerReap_turns {k k' : Kernel} {parent child : ℕ} {code : UInt64}
    (hs : k.sched.Coherent) (h : k.schedulerReap parent child = some (code, k')) :
    Turns k.sched k'.sched := by
  obtain ⟨hc, he⟩ := schedulerReap_coherent hs h
  exact .keeps hc he.currentPid he.dispatched

theorem schedulerOnExit_turns (hs : k.sched.Coherent) (code : UInt64) :
    Turns k.sched (k.schedulerOnExit code).sched := by
  unfold schedulerOnExit
  split_ifs with hidle
  · exact .refl hs
  · have hne := (not_or.1 hidle).2
    have hrun := (hs.running _ hs.current_lt).2 rfl
    obtain ⟨-, he⟩ := exitTask_spec k ⟨hne, hs.current_lt⟩ (by rw [hrun]; decide) code
    have hv := he.vacated hs hne
    have hcur := he.currentPid
    simp only
    generalize k.exitTask k.sched.currentPid code = k₁ at *
    have hne₁ : k₁.sched.currentPid ≠ 0 := hcur ▸ hne
    refine .picks k₁.sched hv hcur he.dispatched (hv.elect hne₁) ?_
    unfold elect
    cases hnext : k₁.sched.nextReady k₁.sched.currentPid with
    | none => simp only [if_neg (nextReady_eq_none hnext hne₁ hv.current_lt), withSched_sched]
    | some next => rfl

theorem schedulerOnWait_turns (hs : k.sched.Coherent) (hne : k.current ≠ 0)
    (child : ℕ) : Turns k.sched (k.schedulerOnWait child).sched := by
  unfold schedulerOnWait
  simp only
  split
  · rename_i status k₁ hreap
    obtain ⟨hc, he⟩ := schedulerReap_coherent hs hreap
    have hw := setFrame_wakes k₁.sched k.sched.currentPid
      { k₁.sched.frames k.sched.currentPid with rax := UInt64.ofNat child, rdx := status }
    exact .keeps (hw.coherent hc) he.currentPid he.dispatched
  · split_ifs
    · exact (setFrame_wakes _ _ _).turns hs
    · exact (hs.vacate hne (by simp)).turns hne rfl rfl

theorem schedulerCall_turns (hs : k.sched.Coherent) (c : SchedulerCall) :
    Turns k.sched (k.schedulerCall c).sched := by
  cases c with
  | createUser parent entry stack space =>
    simp only [schedulerCall, withSched_sched]
    cases h : k.sched.createUser parent entry stack space with
    | none => exact .refl hs
    | some r => exact createUser_turns hs h
  | startUsers =>
    simp only [schedulerCall, withSched_sched]
    cases h : k.sched.startUsers with
    | none => exact .refl hs
    | some s => exact startUsers_turns hs h
  | timerTick =>
    have hcount : Wakes k.sched k.countTick.sched := ⟨rfl, rfl, rfl, fun _ => .inl rfl⟩
    have hw := hcount.trans (expireWaits_wakes k.countTick)
    simp only [schedulerCall, schedulerOnTimerTick, withSched_sched]
    exact hw.before (chargeSlice_turns (hw.coherent hs))
  | yield => exact fromUser_turns hs fun _ => onYield_turns hs
  | block => exact fromUser_turns hs fun _ => blockCurrent_turns hs
  | blockTimeout delay result =>
    exact fromUser_turns hs fun _ => blockCurrentTimeout_turns hs delay result
  | wake pid result detail => exact (wakeIfBlocked_wakes k pid result detail).turns hs
  | exit code => exact fromUser_turns hs fun _ => schedulerOnExit_turns hs code
  | wait child => exact fromUser_turns hs fun hu => schedulerOnWait_turns hs hu.2 child
  | terminate pid code =>
    simp only [schedulerCall]
    cases h : k.schedulerTerminate pid code with
    | none => exact .refl hs
    | some k' =>
      obtain ⟨hne, -, he⟩ := schedulerTerminate_spec h
      exact .keeps (he.coherent hs hne (schedulerTerminate_pos h)) he.currentPid he.dispatched
  | reap parent child =>
    simp only [schedulerCall]
    cases h : k.schedulerReap parent child with
    | none => exact .refl hs
    | some r => exact schedulerReap_turns hs h
  | reapExited parent =>
    simp only [schedulerCall]
    cases h : k.schedulerReapExited parent with
    | none => exact .refl hs
    | some r => exact schedulerReap_turns hs (schedulerReapExited_eq h)

/-- After every sequence of calls exactly one task runs, the current one; it is a user's exactly
while users run, and whatever was selected for dispatch was ready. -/
theorem scheduler_state_invariant (k : Kernel) (calls : List SchedulerCall) :
    (Machine.run schedulerCall (k.withSched {}) calls).sched.Coherent :=
  Machine.run_inv schedulerCall (I := fun k => k.sched.Coherent)
    (fun _ c h => (schedulerCall_turns h c).coherent) calls _ coherent_init

/-- The tasks dispatched since, latest first, each closer to `p` than the one before. -/
structure Approach (p : ℕ) (s s' : Scheduler) (log : List (ℕ × TaskState)) : Prop where
  dispatched : s'.dispatched = log ++ s.dispatched
  closer : (log.map fun e => gap e.1 p).Pairwise (· < ·)
  latest : ∀ e ∈ log, gap s'.currentPid p ≤ gap e.1 p
  others : ∀ e ∈ log, e.1 ≠ p

theorem Approach.step {s s₁ s₂ : Scheduler} {log : List (ℕ × TaskState)}
    (h : Approach p s s₁ log) (ht : Turns s₁ s₂) (hp : p ≠ 0) (hlt : p < processLimit)
    (hready : s₂.state p = .ready) : ∃ log', Approach p s s₂ log' := by
  rcases ht.closer hp hlt hready with ⟨hlog, hcur⟩ | ⟨st, hlog, hne, hgap⟩
  · exact ⟨log, hlog.trans h.dispatched, h.closer, hcur ▸ h.latest, h.others⟩
  · refine ⟨(s₂.currentPid, st) :: log, ?_, ?_, ?_, ?_⟩
    · rw [hlog, h.dispatched]
      rfl
    · rw [List.map_cons, List.pairwise_cons]
      refine ⟨fun g hg => ?_, h.closer⟩
      obtain ⟨e, he, rfl⟩ := List.mem_map.1 hg
      exact hgap.trans_le (h.latest e he)
    · rintro e (_ | ⟨_, he⟩)
      · exact le_rfl
      · exact hgap.le.trans (h.latest e he)
    · rintro e (_ | ⟨_, he⟩)
      · exact hne
      · exact h.others e he

theorem approach_run (hp : p ≠ 0) (hlt : p < processLimit) :
    ∀ (calls : List SchedulerCall) (k : Kernel) (log : List (ℕ × TaskState)), k.sched.Coherent →
      Approach p s k.sched log →
      Machine.Meets schedulerCall (fun k c => (k.schedulerCall c).sched.state p = .ready) k calls →
      ∃ log', Approach p s (Machine.run schedulerCall k calls).sched log'
  | [], _, log, _, h, _ => ⟨log, h⟩
  | c :: calls, k, log, hk, h, hm => by
    have ht := schedulerCall_turns hk c
    obtain ⟨log', h'⟩ := h.step ht hp hlt hm.1
    exact approach_run hp hlt calls (k.schedulerCall c) log' ht.coherent h' hm.2

/-- In every run, over every stretch of calls each of which leaves the user task `p` ready, the
tasks dispatched are all different, and none is `p`. -/
theorem bounded_bypass (k : Kernel) (before stretch : List SchedulerCall) (p : ℕ) (hp : p ≠ 0)
    (hlt : p < processLimit)
    (hready : Machine.Meets schedulerCall (fun k c => (k.schedulerCall c).sched.state p = .ready)
      (Machine.run schedulerCall (k.withSched {}) before) stretch) :
    ∃ log, (Machine.run schedulerCall (k.withSched {}) (before ++ stretch)).sched.dispatched
        = log ++ (Machine.run schedulerCall (k.withSched {}) before).sched.dispatched
      ∧ (log.map Prod.fst).Nodup ∧ p ∉ log.map Prod.fst := by
  have hk := Machine.run_inv schedulerCall (I := fun k => k.sched.Coherent)
    (fun _ c h => (schedulerCall_turns h c).coherent) before (k.withSched {}) coherent_init
  rw [Machine.run_append]
  generalize Machine.run schedulerCall (k.withSched {}) before = k₁ at *
  obtain ⟨log, h⟩ := approach_run hp hlt stretch k₁ [] hk
    ⟨rfl, List.Pairwise.nil, by simp, by simp⟩ hready
  refine ⟨log, h.dispatched, ?_, ?_⟩
  · have hnodup : (log.map fun e => gap e.1 p).Nodup := h.closer.imp fun hlt => hlt.ne
    rw [show (log.map fun e => gap e.1 p) = (log.map Prod.fst).map (gap · p) by
      rw [List.map_map]; rfl] at hnodup
    exact hnodup.of_map
  · rw [List.mem_map]
    rintro ⟨e, he, heq⟩
    exact h.others e he heq

/-- Three processes: the first two run before the third, once each. -/
theorem bounded_bypass_third_process :
    ∃ log, (Machine.run schedulerCall ((fresh smallBoot).withSched {})
          (List.replicate 3 (.createUser 0 1 1 1) ++ [.startUsers, .yield])).sched.dispatched
        = log ++ (Machine.run schedulerCall ((fresh smallBoot).withSched {})
          (List.replicate 3 (.createUser 0 1 1 1))).sched.dispatched
      ∧ (log.map Prod.fst).Nodup ∧ 3 ∉ log.map Prod.fst :=
  bounded_bypass (fresh smallBoot) (List.replicate 3 (.createUser 0 1 1 1)) [.startUsers, .yield] 3
    (by decide) (by decide) (by decide +kernel)

/-- The idle task is ready while users run, and two processes take turns twice before it. -/
theorem idle_task_passed_over :
    Machine.Meets schedulerCall (fun k c => (k.schedulerCall c).sched.state 0 = .ready)
      (Machine.run schedulerCall ((fresh smallBoot).withSched {})
        (List.replicate 2 (.createUser 0 1 1 1))) [.startUsers, .yield, .yield]
      ∧ ((Machine.run schedulerCall ((fresh smallBoot).withSched {})
        (List.replicate 2 (.createUser 0 1 1 1) ++ [.startUsers, .yield, .yield])
          ).sched.dispatched.map Prod.fst) = [1, 2, 1] := by
  decide +kernel

end Kernel

end DemonOS
