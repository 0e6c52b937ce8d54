import DemonOS.Proofs.Lineage

/-!
# Who learns of an exit

A process names its parent by slot. Along a run nothing but a spawn writes that name
(`step_parentage`), and a status is handed to the slot it names (`delivery_spec`). `Ancestry` counts
the lives of each slot beside the run, so that the process that gets a status can be compared with
the one that spawned: they are the same as long as no task is created in a slot that a task names
as its parent (`exit_status_to_spawner`). Waiting for any child never works.
-/

namespace DemonOS

namespace Scheduler

structure Parentage (actor : ℕ) (s s' : Scheduler) : Prop where
  tasks : ∀ p, p ≠ 0 → s'.state p ≠ .unused →
    (s.state p ≠ .unused ∧ (s'.tasks p).parentPid = (s.tasks p).parentPid)
      ∨ (p < processLimit ∧ s.state p = .unused ∧ (s'.tasks p).parentPid = actor)
  idle : (s'.tasks 0).parentPid = (s.tasks 0).parentPid

theorem Heirs.parent {s s' : Scheduler} (h : Heirs s s') {p : ℕ} (hp : p ≠ 0)
    (hlive : s'.state p ≠ .unused) : (s'.tasks p).parentPid = (s.tasks p).parentPid :=
  congrArg Prod.fst (h.tasks p hp hlive).2

theorem Heirs.parentage {s s' : Scheduler} (h : Heirs s s') (actor : ℕ) : Parentage actor s s' :=
  ⟨fun p hp hlive => .inl ⟨(h.tasks p hp hlive).1, h.parent hp hlive⟩, congrArg Prod.fst h.idle⟩

theorem Spawns.parentage {parent : ℕ} {s s' : Scheduler} (h : Spawns parent s s') :
    Parentage parent s s' := by
  refine ⟨fun p _ hlive => ?_, ?_⟩
  · rcases h p with heq | ⟨hp, hu, space, ht⟩
    · unfold state at *
      rw [heq] at hlive ⊢
      exact .inl ⟨hlive, rfl⟩
    · exact .inr ⟨hp.2, hu, by rw [ht]⟩
  · rcases h 0 with heq | ⟨hp, -⟩
    · rw [heq]
    · exact absurd rfl hp.1

theorem Parentage.heirs {actor : ℕ} {s₁ s₂ s₃ : Scheduler} (h : Parentage actor s₁ s₂)
    (h' : Heirs s₂ s₃) : Parentage actor s₁ s₃ := by
  refine ⟨fun p hp hlive => ?_, (congrArg Prod.fst h'.idle).trans h.idle⟩
  rw [h'.parent hp hlive]
  exact h.tasks p hp (h'.tasks p hp hlive).1

theorem Parentage.of_tasks {actor : ℕ} {s₁ s₂ s₃ : Scheduler} (htasks : s₂.tasks = s₁.tasks)
    (h : Parentage actor s₂ s₃) : Parentage actor s₁ s₃ := by
  refine ⟨fun p hp hlive => ?_, h.idle.trans (by rw [htasks])⟩
  have := h.tasks p hp hlive
  unfold state at this ⊢
  rw [htasks] at this
  exact this

end Scheduler

open Scheduler

namespace Kernel

variable {child parent : ℕ} {e : Event} {k : Kernel}

/-! ## Parents -/

/-- What one event does to the tasks and their parents. -/
theorem step_parentage (hs : k.sched.Inv) (e : Event) :
    Parentage (k.actor e) k.sched (k.step e).sched := by
  cases step_passes hs e with
  | survives h => exact h.heirs.parentage _
  | spawns mask poised requested after =>
    exact Parentage.of_tasks poised.tasks
      ((userspaceSpawnPath_spawns _ _ _ mask).parentage.heirs after.heirs)
  | init event h =>
    subst event
    exact (userspaceInit_spawns h).parentage

/-! ## Delivery -/

theorem wakeWaitingParent_gone (h : k.ParentWaits child) :
    (k.wakeWaitingParent child).sched.state child = .unused := by
  obtain ⟨s, -, -, heq⟩ := wakeWaitingParent_of_waits h
  rw [heq]
  exact freeSlot_gone _ child

def exitDelivery (k : Kernel) (pid : ℕ) (code : UInt64) : Option (ℕ × ℕ) :=
  if (k.markExited pid code).ParentWaits pid then some (pid, (k.sched.tasks pid).parentPid)
  else none

def reapDelivery (k : Kernel) (parent child : ℕ) : Option (ℕ × ℕ) :=
  (k.schedulerReap parent child).map fun _ => (child, parent)

/-- The process whose status a system call hands over, and the one that gets it. -/
def syscallDelivery (k : Kernel) (f : Frame) (user : ℕ → UInt8) : Option (ℕ × ℕ) :=
  let number := f.rax.toNat
  if number = 2 then
    ((k.ipcProcessCleanup k.current).closeAll k.current).exitDelivery k.current f.rdi
  else if number = 12 then k.reapDelivery k.current (low32 f.rdi)
  else if number = 13 then
    let target := low32 f.rdi
    let k := (k.ipcProcessCleanup target).closeAll target
    if (k.schedulerTerminate target f.rsi).isSome then k.exitDelivery target f.rsi else none
  else if number = 50 then
    if !k.validPath f then none
    else
      match (k.cancelWaits k.current).userspaceSpawnPath k.current
          (readUser user f.rdi.toNat f.rsi.toNat) (BitVec.ofNat 32 f.rdx.toNat) with
      | (none, _) => none
      | (some pid, k) => k.reapDelivery k.current pid
  else if number = 51 then (k.schedulerReapExited k.current).map fun r => (r.1, k.current)
  else none

/-- The process whose status an event hands over, and the one that gets it. -/
def delivery (k : Kernel) : Event → Option (ℕ × ℕ)
  | .syscall registers user _ =>
    if k.userMode then (k.enter registers).syscallDelivery registers user else none
  | .kernel (.reap child) => if k.sched.usersRunning then none else k.reapDelivery 0 child
  | .kernel (.kill pid) =>
    if k.sched.usersRunning = false ∧ (k.schedulerTerminate pid 137).isSome then
      k.exitDelivery pid 137 else none
  | _ => none

/-- The status of `child` goes to its parent `parent`, and the slot is empty then. -/
structure HandsOver (s s' : Scheduler) (child parent : ℕ) : Prop where
  pos : child ≠ 0
  live : s.state child ≠ .unused
  parent_eq : (s.tasks child).parentPid = parent
  gone : s'.state child = .unused

theorem HandsOver.then_heirs {s₁ s₂ s₃ : Scheduler}
    (h : HandsOver s₁ s₂ child parent) (h' : Heirs s₂ s₃) : HandsOver s₁ s₃ child parent :=
  ⟨h.pos, h.live, h.parent_eq, h'.unused h.pos h.gone⟩

theorem HandsOver.of_heirs {s₁ s₂ s₃ : Scheduler} (h : Heirs s₁ s₂)
    (h' : HandsOver s₂ s₃ child parent) : HandsOver s₁ s₃ child parent := by
  have hlive := (h.tasks child h'.pos h'.live).1
  exact ⟨h'.pos, hlive, (h.parent h'.pos h'.live).symm.trans h'.parent_eq, h'.gone⟩

theorem exitDelivery_spec {pid child parent : ℕ} {code : UInt64} (hpid : pid ≠ 0)
    (hlive : k.sched.state pid ≠ .unused) (h : k.exitDelivery pid code = some (child, parent)) :
    HandsOver k.sched (k.exitTask pid code).sched child parent := by
  unfold exitDelivery at h
  split_ifs at h with hw
  obtain ⟨rfl, rfl⟩ := h
  exact ⟨hpid, hlive, rfl, wakeWaitingParent_gone hw⟩

theorem reapDelivery_spec {pid c child parent : ℕ}
    (h : k.reapDelivery pid c = some (child, parent)) :
    ∃ code k', k.schedulerReap pid c = some (code, k') ∧ child = c
      ∧ HandsOver k.sched k'.sched child parent := by
  unfold reapDelivery at h
  rw [Option.map_eq_some_iff] at h
  obtain ⟨⟨code, k'⟩, hr, heq⟩ := h
  obtain ⟨rfl, rfl⟩ := heq
  obtain ⟨hvalid, hpar, hexited, rfl⟩ := schedulerReap_eq hr
  exact ⟨code, _, hr, rfl, hvalid.1, by rw [hexited]; decide, hpar, freeSlot_gone k c⟩

theorem schedulerOnExit_delivery (hs : k.sched.Inv) (hne : k.current ≠ 0)
    {code : UInt64}
    (h : k.exitDelivery k.current code = some (child, parent)) :
    HandsOver k.sched (k.schedulerOnExit code).sched child parent := by
  have ho := exitDelivery_spec hne (hs.live hne) h
  have hu := hs.userMode hne
  unfold schedulerOnExit
  unfold current at hne ho
  rw [if_neg (by simp [hu, hne])]
  simp only
  split
  · rename_i next hnext
    exact ho.then_heirs (dispatch_heirs (nextReady_spec hnext).2.2)
  · exact ho.then_heirs (returnIdle_heirs _)

theorem schedulerTerminate_delivery {k k' : Kernel} {pid child parent : ℕ} {code : UInt64}
    (h : k.schedulerTerminate pid code = some k')
    (hd : k.exitDelivery pid code = some (child, parent)) :
    HandsOver k.sched k'.sched child parent := by
  unfold schedulerTerminate at h
  split_ifs at h with hc
  simp only [not_or, not_le] at hc
  simp only [Option.some.injEq] at h
  rw [← h]
  exact exitDelivery_spec hc.1 hc.2.2.2.1 hd

theorem schedulerOnWait_delivery {c child parent : ℕ}
    (h : k.reapDelivery k.current c = some (child, parent)) :
    HandsOver k.sched (k.schedulerOnWait c).sched child parent := by
  obtain ⟨code, k', hr, -, ho⟩ := reapDelivery_spec h
  unfold schedulerOnWait
  simp only
  unfold current at hr
  rw [hr]
  exact ho.then_heirs (setFrame_wakes _ _ _).heirs

theorem syscallSpawnAndWait_delivery {f : Frame} {user : ℕ → UInt8}
    (hnumber : f.rax.toNat = 50)
    (h : k.syscallDelivery f user = some (child, parent)) :
    HandsOver k.sched (k.syscallSpawnAndWait f user).sched child parent := by
  have hspawns := userspaceSpawnPath_spawns (k.cancelWaits k.current) k.current
    (readUser user f.rdi.toNat f.rsi.toNat) (BitVec.ofNat 32 f.rdx.toNat)
  simp only [syscallDelivery, hnumber, Nat.reduceEqDiff, if_false, if_true] at h
  unfold syscallSpawnAndWait
  cases hpath : k.validPath f with
  | false => simp [hpath] at h
  | true =>
    simp only [hpath, Bool.not_true, Bool.false_eq_true, if_false] at h ⊢
    generalize (k.cancelWaits k.current).userspaceSpawnPath k.current
      (readUser user f.rdi.toNat f.rsi.toNat) (BitVec.ofNat 32 f.rdx.toNat) = r at hspawns h
    obtain ⟨_ | pid, k₁⟩ := r
    · cases h
    · have ho := schedulerOnWait_delivery h
      obtain ⟨_, _, hr, rfl, -⟩ := reapDelivery_spec h
      obtain ⟨-, -, hexited, -⟩ := schedulerReap_eq hr
      rcases hspawns child with heq | ⟨-, -, space, ht⟩
      · refine ⟨ho.pos, ?_, ?_, ho.gone⟩
        · have := ho.live
          unfold state at this
          rw [heq] at this
          exact this
        · exact (congrArg Task.parentPid heq).symm.trans ho.parent_eq
      · unfold state at hexited
        rw [ht] at hexited
        cases hexited

theorem syscallDelivery_spec (hs : k.sched.Inv) (hne : k.current ≠ 0) {f : Frame}
    {user : ℕ → UInt8} (dev : Devices) (hf : k.sched.frames k.current = f)
    (h : k.syscallDelivery f user = some (child, parent)) :
    HandsOver k.sched (k.syscallDispatch user dev).sched child parent := by
  by_cases h2 : f.rax.toNat = 2
  · have hclean := ipcProcessCleanup_wakes k k.current
    simp only [syscallDelivery, h2, if_true] at h
    simp only [syscallDispatch, hf, h2]
    have hcur : ((k.ipcProcessCleanup k.current).closeAll k.current).current = k.current :=
      hclean.currentPid
    refine HandsOver.of_heirs hclean.heirs ?_
    have ho := schedulerOnExit_delivery (k := (k.ipcProcessCleanup k.current).closeAll k.current)
      (hclean.inv hs) (by rw [hcur]; exact hne) (by rw [hcur]; exact h)
    exact ho
  by_cases h12 : f.rax.toNat = 12
  · simp only [syscallDelivery, h12] at h
    simp only [syscallDispatch, hf, h12]
    exact schedulerOnWait_delivery (c := low32 f.rdi) h
  by_cases h13 : f.rax.toNat = 13
  · have hclean := ipcProcessCleanup_wakes k (low32 f.rdi)
    simp only [syscallDelivery, h13] at h
    simp only [syscallDispatch, hf, h13]
    refine HandsOver.of_heirs hclean.heirs ?_
    change HandsOver ((k.ipcProcessCleanup (low32 f.rdi)).closeAll (low32 f.rdi)).sched
      (k.syscallTerminate f).sched child parent
    unfold syscallTerminate
    simp only
    generalize (k.ipcProcessCleanup (low32 f.rdi)).closeAll (low32 f.rdi) = k₁ at h ⊢
    replace h : (if (k₁.schedulerTerminate (low32 f.rdi) f.rsi).isSome = true then
      k₁.exitDelivery (low32 f.rdi) f.rsi else none) = some (child, parent) := h
    split_ifs at h with hsome
    obtain ⟨k', hk'⟩ := Option.isSome_iff_exists.1 hsome
    rw [hk']
    exact (schedulerTerminate_delivery hk' h).then_heirs (setFrame_wakes _ _ _).heirs
  by_cases h50 : f.rax.toNat = 50
  · simp only [syscallDispatch, hf, h50]
    exact syscallSpawnAndWait_delivery h50 h
  by_cases h51 : f.rax.toNat = 51
  · simp only [syscallDelivery, h51] at h
    replace h : (k.schedulerReapExited k.current).map (fun r => (r.1, k.current))
      = some (child, parent) := h
    simp only [syscallDispatch, hf, h51]
    rw [Option.map_eq_some_iff] at h
    obtain ⟨⟨c, status, k'⟩, hr, heq⟩ := h
    obtain ⟨rfl, rfl⟩ := heq
    have hd : k.reapDelivery k.current c = some (c, k.current) := by
      rw [reapDelivery, schedulerReapExited_eq hr]
      rfl
    obtain ⟨_, _, hr', -, ho⟩ := reapDelivery_spec hd
    rw [schedulerReapExited_eq hr] at hr'
    simp only [Option.some.injEq, Prod.mk.injEq] at hr'
    rw [← hr'.2] at ho
    unfold syscallReapExited
    rw [hr]
    exact ho.then_heirs (setFrame_wakes _ _ _).heirs
  · simp [syscallDelivery, h2, h12, h13, h50, h51] at h

/-- A status goes to the task its process names as its parent, and no task is left in the slot. -/
theorem delivery_spec (hs : k.sched.Inv)
    (h : k.delivery e = some (child, parent)) :
    HandsOver k.sched (k.step e).sched child parent := by
  cases e with
  | syscall registers user dev =>
    simp only [delivery] at h
    split_ifs at h with hu
    simp only [step, if_pos hu]
    have hw := (enter_same k registers).wakes
    exact HandsOver.of_heirs hw.heirs (syscallDelivery_spec (k := k.enter registers) (hw.inv hs)
      hu.2 dev (enter_frame k registers) h)
  | timerTick registers => cases h
  | input event => cases h
  | kernel call =>
    cases call with
    | reap c =>
      simp only [delivery] at h
      split_ifs at h with hu
      obtain ⟨code, k', hr, -, ho⟩ := reapDelivery_spec h
      simp only [step, if_neg hu, kernelCall, hr, Option.map_some, Option.getD_some]
      exact ho
    | kill pid =>
      simp only [delivery] at h
      split_ifs at h with hu
      obtain ⟨hu, hsome⟩ := hu
      obtain ⟨k', hk'⟩ := Option.isSome_iff_exists.1 hsome
      simp only [step, hu, Bool.false_eq_true, if_false, kernelCall, hk', Option.getD_some]
      exact schedulerTerminate_delivery hk' h
    | _ => cases h

/-! ## Ancestry -/

/-- The event creates a task in slot `p`. -/
def Fills (k : Kernel) (e : Event) (p : ℕ) : Prop :=
  p ≠ 0 ∧ k.sched.state p = .unused ∧ (k.step e).sched.state p ≠ .unused

instance (k : Kernel) (e : Event) (p : ℕ) : Decidable (k.Fills e p) :=
  inferInstanceAs (Decidable (_ ∧ _))

/-- How many tasks each slot has held so far; a process is its slot and its number there. For each
process the one that spawned it, and the processes whose status has been handed over, each with the
one that got it, latest first. -/
structure Ancestry where
  born : ℕ → ℕ := fun _ => 0
  spawner : ℕ × ℕ → ℕ × ℕ := fun _ => (0, 0)
  delivered : List ((ℕ × ℕ) × (ℕ × ℕ)) := []

def Ancestry.process (a : Ancestry) (p : ℕ) : ℕ × ℕ := (p, a.born p)

def Ancestry.next (a : Ancestry) (k : Kernel) (e : Event) : Ancestry where
  born := fun p => if k.Fills e p then a.born p + 1 else a.born p
  spawner := fun c => if k.Fills e c.1 ∧ c.2 = a.born c.1 + 1 then a.process (k.actor e)
    else a.spawner c
  delivered := match k.delivery e with
    | none => a.delivered
    | some (child, parent) => (a.process child, a.process parent) :: a.delivered

def recorded (t : Kernel × Ancestry) (e : Event) : Kernel × Ancestry :=
  (t.1.step e, t.2.next t.1 e)

def ancestryAfter (b : BootInfo) (events : List Event) : Ancestry :=
  (Machine.run recorded (fresh b, {}) events).2

theorem run_recorded_fst :
    ∀ (events : List Event) (t : Kernel × Ancestry),
      (Machine.run recorded t events).1 = Machine.run step t.1 events
  | [], _ => rfl
  | e :: events, t => run_recorded_fst events (recorded t e)

def HasChild (k : Kernel) (p : ℕ) : Prop :=
  ∃ q < processLimit, q ≠ 0 ∧ k.sched.state q ≠ .unused ∧ (k.sched.tasks q).parentPid = p

instance (k : Kernel) (p : ℕ) : Decidable (k.HasChild p) :=
  inferInstanceAs (Decidable (∃ q < processLimit, _ ∧ _))

/-- No task is created in a slot that a task names as its parent. -/
def SparesParents (k : Kernel) (e : Event) : Prop :=
  ∀ p < processLimit, k.Fills e p → ¬k.HasChild p

instance (k : Kernel) (e : Event) : Decidable (SparesParents k e) :=
  inferInstanceAs (Decidable (∀ p < processLimit, k.Fills e p → ¬k.HasChild p))

theorem meets_recorded {ok : Kernel → Event → Prop} :
    ∀ (events : List Event) (t : Kernel × Ancestry), Machine.Meets step ok t.1 events →
      Machine.Meets recorded (fun t e => ok t.1 e) t events
  | [], _, _ => trivial
  | e :: events, t, h => ⟨h.1, meets_recorded events (recorded t e) h.2⟩

/-- What the ancestry says of the state it was recorded with. A process whose status has been handed
over is gone from its slot. -/
structure Ancestral (k : Kernel) (a : Ancestry) : Prop where
  table : ∀ p, p ≠ 0 → k.sched.state p ≠ .unused → p < processLimit
  parents : ∀ p, p ≠ 0 → k.sched.state p ≠ .unused →
    a.spawner (a.process p) = a.process (k.sched.tasks p).parentPid
  told : ∀ d ∈ a.delivered, d.1.1 ≠ 0 ∧ d.1.2 ≤ a.born d.1.1
    ∧ (d.1.2 = a.born d.1.1 → k.sched.state d.1.1 = .unused) ∧ d.2 = a.spawner d.1
  once : (a.delivered.map Prod.fst).Nodup

theorem fresh_ancestral (b : BootInfo) : Ancestral (fresh b) {} where
  table p hp hlive := absurd (by simp [fresh, state, hp]) hlive
  parents p hp hlive := absurd (by simp [fresh, state, hp]) hlive
  told d hd := by cases hd
  once := List.nodup_nil

section

variable {k : Kernel} {a : Ancestry} {e : Event}

theorem next_spawner_old {c : ℕ × ℕ} (h : c.2 ≤ a.born c.1) :
    (a.next k e).spawner c = a.spawner c := by
  simp only [Ancestry.next]
  rw [if_neg]
  omega

theorem next_process_of_not_fills {p : ℕ} (h : ¬k.Fills e p) :
    (a.next k e).process p = a.process p := by
  simp [Ancestry.process, Ancestry.next, h]

theorem not_fills_actor (hs : k.sched.Inv) : ¬k.Fills e (k.actor e) := by
  rintro ⟨hne, hu, -⟩
  cases e with
  | syscall registers user dev => exact hs.live hne hu
  | _ => exact hne rfl

end

theorem Ancestral.parents_next {a : Ancestry} (h : Ancestral k a) (hs : k.sched.Inv)
    (hok : SparesParents k e) {p : ℕ} (hp : p ≠ 0)
    (hlive : (k.step e).sched.state p ≠ .unused) :
    (a.next k e).spawner ((a.next k e).process p)
      = (a.next k e).process ((k.step e).sched.tasks p).parentPid := by
  rcases (step_parentage hs e).tasks p hp hlive with ⟨hl, hpar⟩ | ⟨hlt, hu, hpar⟩
  · have hparent : ¬k.Fills e (k.sched.tasks p).parentPid := by
      intro hf
      obtain ⟨hne, hu, hl'⟩ := hf
      rcases (step_parentage hs e).tasks _ hne hl' with ⟨hl'', -⟩ | ⟨hlt, -, -⟩
      · exact hl'' hu
      · exact hok _ hlt ⟨hne, hu, hl'⟩ ⟨p, h.table p hp hl, hp, hl, rfl⟩
    rw [hpar, next_process_of_not_fills hparent, next_process_of_not_fills fun hf => hl hf.2.1,
      next_spawner_old (le_refl _)]
    exact h.parents p hp hl
  · have hf : k.Fills e p := ⟨hp, hu, hlive⟩
    rw [hpar, next_process_of_not_fills (not_fills_actor hs)]
    simp [Ancestry.process, Ancestry.next, hf]

theorem Ancestral.told_next {a : Ancestry} (h : Ancestral k a)
    {d : (ℕ × ℕ) × (ℕ × ℕ)} (hd : d ∈ a.delivered) :
    d.1.1 ≠ 0 ∧ d.1.2 ≤ (a.next k e).born d.1.1
      ∧ (d.1.2 = (a.next k e).born d.1.1 → (k.step e).sched.state d.1.1 = .unused)
      ∧ d.2 = (a.next k e).spawner d.1 := by
  obtain ⟨hpos, hle, hgone, hsp⟩ := h.told d hd
  rw [next_spawner_old hle]
  by_cases hf : k.Fills e d.1.1
  · have hborn : (a.next k e).born d.1.1 = a.born d.1.1 + 1 := by simp [Ancestry.next, hf]
    exact ⟨hpos, by omega, fun heq => by omega, hsp⟩
  · have hborn : (a.next k e).born d.1.1 = a.born d.1.1 := by simp [Ancestry.next, hf]
    rw [hborn]
    refine ⟨hpos, hle, fun heq => ?_, hsp⟩
    by_contra hlive
    exact hf ⟨hpos, hgone heq, hlive⟩

theorem Ancestral.next {a : Ancestry} (h : Ancestral k a) (hs : k.sched.Inv)
    (hok : SparesParents k e) : Ancestral (k.step e) (a.next k e) where
  table p hp hlive := by
    rcases (step_parentage hs e).tasks p hp hlive with ⟨hl, -⟩ | ⟨hlt, -⟩
    · exact h.table p hp hl
    · exact hlt
  parents p hp hlive := h.parents_next hs hok hp hlive
  told d hd := by
    simp only [Ancestry.next] at hd
    split at hd
    · exact h.told_next hd
    · rename_i child parent hdel
      have ho := delivery_spec hs hdel
      rcases List.mem_cons.1 hd with rfl | hd
      · have hf : ¬k.Fills e child := fun hf => ho.live hf.2.1
        have hborn : (a.next k e).born child = a.born child := by simp [Ancestry.next, hf]
        refine ⟨ho.pos, hborn.ge, fun _ => ho.gone, ?_⟩
        rw [next_spawner_old (le_refl _), h.parents child ho.pos ho.live, ho.parent_eq]
      · exact h.told_next hd
  once := by
    simp only [Ancestry.next]
    split
    · exact h.once
    · rename_i child parent hdel
      have ho := delivery_spec hs hdel
      rw [List.map_cons, List.nodup_cons]
      refine ⟨fun hmem => ?_, h.once⟩
      obtain ⟨d, hd, heq⟩ := List.mem_map.1 hmem
      obtain ⟨-, -, hgone, -⟩ := h.told d hd
      rw [heq] at hgone
      exact ho.live (hgone rfl)

/-! ## Waiting for any child -/

/-- A wait hands a status over at once, or sends the process to sleep until there is one. -/
def WaitAnswered (k : Kernel) (e : Event) : Prop :=
  (∃ child, k.delivery e = some (child, k.current)) ∨ (k.step e).sched.state k.current = .blocked

/-- Slot 0, the value for any child, is the idle task's, and that one is nobody's child. -/
theorem wait_any_refused (hs : k.sched.Inv) (hidle : (k.sched.tasks 0).parentPid = 0)
    {registers : Frame} (user : ℕ → UInt8) (dev : Devices) (hu : k.userMode)
    (hnumber : registers.rax.toNat = 12) (hany : low32 registers.rdi = 0) :
    ¬k.WaitAnswered (.syscall registers user dev)
      ∧ ((k.step (.syscall registers user dev)).sched.frames k.current).rax = u64Max := by
  have hstep : k.step (.syscall registers user dev)
      = (k.enter registers).ret u64Max := by
    simp only [step, if_pos hu, syscallDispatch, enter_frame, hnumber]
    change (k.enter registers).schedulerOnWait (low32 registers.rdi) = _
    have hparent : ((k.enter registers).sched.tasks 0).parentPid ≠ (k.enter registers).current := by
      change (k.sched.tasks 0).parentPid ≠ k.current
      rw [hidle]
      exact hu.2.symm
    rw [hany, schedulerOnWait]
    rw [if_pos (.inr (.inl hparent))]
    rfl
  refine ⟨?_, by rw [hstep]; simp [current]⟩
  rintro (⟨child, hd⟩ | hb)
  · simp only [delivery, if_pos hu, syscallDelivery, hnumber, hany, reapDelivery] at hd
    cases hd
  · rw [hstep] at hb
    have hrun : k.sched.state k.current = .running := hs.running hu.2
    exact absurd (hb.symm.trans hrun) (by decide)

theorem runFrom_idle (b : BootInfo) (events : List Event) :
    ((runFrom b events).sched.tasks 0).parentPid = 0 :=
  (Machine.run_inv step (I := fun k => ProcInv k ∧ (k.sched.tasks 0).parentPid = 0)
    (fun _ e h => ⟨step_procInv h.1 e, (step_parentage h.1.sched e).idle.trans h.2⟩) events (fresh b)
    ⟨fresh_procInv b, rfl⟩).2

/-- In a run in which no task is created in a slot that a task names as its parent, each process's
status is handed over at most once, and to the process that spawned it. A wait for any child is
answered only where the claim on it is empty, by a process without children. -/
theorem exit_status_to_spawner (b : BootInfo) (events : List Event)
    (hok : Machine.Meets step SparesParents (fresh b) events) :
    ((ancestryAfter b events).delivered.map Prod.fst).Nodup
    ∧ (∀ d ∈ (ancestryAfter b events).delivered, d.2 = (ancestryAfter b events).spawner d.1)
    ∧ ∀ registers user dev, (runFrom b events).userMode → registers.rax.toNat = 12 →
      low32 registers.rdi = 0 →
        (((runFrom b events).HasChild (runFrom b events).current →
            (runFrom b events).WaitAnswered (.syscall registers user dev))
          ↔ ¬(runFrom b events).HasChild (runFrom b events).current) := by
  have hrun : (Machine.run recorded (fresh b, {}) events).1 = runFrom b events :=
    run_recorded_fst events _
  have hmeets : Machine.Meets recorded (fun t e => SparesParents t.1 e) (fresh b, {}) events :=
    meets_recorded events _ hok
  obtain ⟨hproc, h⟩ := Machine.run_inv_of_meets recorded
    (I := fun t => ProcInv t.1 ∧ Ancestral t.1 t.2)
    (fun t e h hok => ⟨step_procInv h.1 e, h.2.next h.1.sched hok⟩) events (fresh b, {})
    ⟨fresh_procInv b, fresh_ancestral b⟩ hmeets
  rw [hrun] at hproc h
  refine ⟨h.once, fun d hd => (h.told d hd).2.2.2, fun registers user dev hu hnumber hany => ?_⟩
  have hrefused := (wait_any_refused hproc.sched (runFrom_idle b events) user dev hu hnumber hany).1
  exact ⟨fun hanswer hchild => hrefused (hanswer hchild), fun hno hchild => absurd hchild hno⟩

def bootstrapReaped : List Event :=
  [.kernel (.init smallImage), .kernel .startUsers, call { rax := 2, rdi := 7 }, call { rax := 2 },
    .kernel (.reap 1)]

theorem exit_status_to_spawner_bootstrap :
    (ancestryAfter smallBoot bootstrapReaped).delivered = [((1, 1), (0, 0))]
      ∧ (ancestryAfter smallBoot bootstrapReaped).spawner (1, 1) = (0, 0) := by
  have hd : (ancestryAfter smallBoot bootstrapReaped).delivered = [((1, 1), (0, 0))] := by
    decide +kernel
  have h := (exit_status_to_spawner smallBoot bootstrapReaped (by decide +kernel)).2.1
  exact ⟨hd, (h ((1, 1), (0, 0)) (hd ▸ List.mem_singleton.2 rfl)).symm⟩

/-- A process that has just spawned a child waits for any child, and is refused. -/
theorem wait_any_with_child_refused :
    ¬ ∀ (b : BootInfo) (events : List Event) (registers : Frame) (user : ℕ → UInt8)
        (dev : Devices), (runFrom b events).userMode → registers.rax.toNat = 12 →
      low32 registers.rdi = 0 → (runFrom b events).HasChild (runFrom b events).current →
        (runFrom b events).WaitAnswered (.syscall registers user dev) := by
  intro h
  let events := bootEvents ++ [call { rax := 11, rdi := 0x330000, rsi := 1 }]
  have hchild : (runFrom smallBoot events).userMode
      ∧ (runFrom smallBoot events).HasChild (runFrom smallBoot events).current := by
    decide +kernel
  exact (wait_any_refused (runFrom_procInv smallBoot events).sched (runFrom_idle smallBoot events)
    (fun _ => 0x61) {} hchild.1 (by decide) (by decide)).1
    (h smallBoot events { rax := 12 } _ {} hchild.1 (by decide) (by decide) hchild.2)

end Kernel

end DemonOS
