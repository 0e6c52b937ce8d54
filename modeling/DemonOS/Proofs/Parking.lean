import DemonOS.Proofs.Rings

/-!
# Parked senders

A process that sends to a full channel is parked on it with its message. In a run in which `kill`
hits no process that owns a channel or is parked on one, and no owner of a channel with a parked
sender asks for its own termination, every parked sender is resumed once: with its message at the
tail of the ring, with failure where the owner of the channel ends, or it ends itself and its
message goes with it (`parked_resumed_once`).
-/

namespace DemonOS

open Scheduler

namespace Kernel

variable {i p : ℕ} {k : Kernel}

instance (c : IpcChannel) (p : ℕ) : Decidable (c.Parks p) := inferInstanceAs (Decidable (_ ∧ _))

/-- The running process asks for its own termination, which tears its channels down and then
refuses. -/
def TerminatesSelf (k : Kernel) : Event → Prop
  | .syscall f _ _ => k.userMode ∧ f.rax.toNat = 13 ∧ low32 f.rdi = k.current
  | _ => False

instance decidableTerminatesSelf (k : Kernel) : ∀ e, Decidable (k.TerminatesSelf e)
  | .syscall _ _ _ => inferInstanceAs (Decidable (_ ∧ _))
  | .timerTick _ => isFalse id
  | .input _ => isFalse id
  | .kernel _ => isFalse id

/-- The shell's `kill` hits no process that owns a channel or is parked on one, and no owner of a
channel with a parked sender terminates itself. -/
def SparesParked (k : Kernel) (e : Event) : Prop :=
  (∀ pid ∈ killTarget e, k.sched.usersRunning = true ∨ ∀ i < ipcChannelLimit,
    (k.ipc.channels i).active = true →
      (k.ipc.channels i).owner ≠ pid ∧ ¬(k.ipc.channels i).Parks pid)
  ∧ (k.TerminatesSelf e → ∀ i < ipcChannelLimit, (k.ipc.channels i).active = true →
    (k.ipc.channels i).owner = k.current → (k.ipc.channels i).sender.active = false)

instance (k : Kernel) (e : Event) : Decidable (SparesParked k e) :=
  inferInstanceAs (Decidable ((∀ pid ∈ killTarget e, _ ∨ ∀ i < ipcChannelLimit, _)
    ∧ (_ → ∀ i < ipcChannelLimit, _)))

/-- Every live channel has a live owner, and who is parked is a process that has not exited. -/
structure Attended (k : Kernel) : Prop where
  calm : Calm k
  rings : Rings k
  owner : ∀ i, (k.ipc.channels i).active = true →
    UserMemory.validPid (k.ipc.channels i).owner ∧ ¬k.sched.Ended (k.ipc.channels i).owner
  sender : ∀ i p, (k.ipc.channels i).Parks p → p ≠ 0
  exited : ∀ p, p ≠ 0 → k.sched.state p = .exited → ∀ i, ¬(k.ipc.channels i).Parks p

/-! ## The owner's end -/

theorem ipcProcessCleanup_owner {pid i : ℕ} (hi : i < ipcChannelLimit)
    (h : ((k.ipcProcessCleanup pid).ipc.channels i).active = true) :
    ((k.ipcProcessCleanup pid).ipc.channels i).owner ≠ pid := by
  have hquiet := (ipcProcessCleanup_lifecycle k pid).ipc i h
  rw [hquiet.owner]
  intro howner
  rw [ipcProcessCleanup_channels, if_pos hi] at h
  unfold IpcChannel.cleaned at h
  rw [if_neg (by rw [hquiet.active]; simp), if_neg (not_not.2 howner)] at h
  cases h

theorem schedulerOnExit_ended (hs : k.sched.Inv) (hne : k.current ≠ 0)
    (code : UInt64) : (k.schedulerOnExit code).sched.Ended k.current := by
  have hexits := (exitTask_spec k ⟨hne, hs.current_lt⟩ (hs.live hne) code).2
  have hu := hs.userMode hne
  unfold schedulerOnExit
  unfold current at hne hexits ⊢
  rw [if_neg (by simp [hu, hne])]
  simp only
  generalize k.exitTask k.sched.currentPid code = k₁ at hexits ⊢
  have hkept : ∀ {s}, Leaves k₁.sched s → s.Ended k.sched.currentPid := by
    intro s h
    have heq := h.kept _ hne (.inr hexits.ended)
    unfold Ended state
    rw [heq]
    exact hexits.ended
  split
  · rename_i next hnext
    exact hkept (dispatch_leaves (nextReady_spec hnext).2.2)
  · exact hkept (returnIdle_leaves _)

theorem ending_closes {f : Frame} (user : ℕ → UInt8) (dev : Devices)
    (hu : k.userMode)
    (hends : f.rax.toNat = 2 ∧ p = k.current ∨ f.rax.toNat = 13 ∧ p = low32 f.rdi)
    (hi : i < ipcChannelLimit)
    (h : ((k.step (.syscall f user dev)).ipc.channels i).active = true) :
    ((k.step (.syscall f user dev)).ipc.channels i).owner ≠ p := by
  have hclosed : ∀ k', Quiet (((k.enter f).ipcProcessCleanup p).closeAll p) k' →
      (k'.ipc.channels i).active = true → (k'.ipc.channels i).owner ≠ p := by
    intro k' hquiet hactive
    have hkept := hquiet i hactive
    rw [hkept.owner]
    exact ipcProcessCleanup_owner hi hkept.active
  rcases hends with ⟨number, rfl⟩ | ⟨number, rfl⟩
  · rw [step_exit user dev hu number] at h ⊢
    exact hclosed _ (schedulerOnExit_lifecycle _ _).ipc h
  · rw [step_terminate user dev hu number] at h ⊢
    refine hclosed _ ?_ h
    unfold syscallTerminate
    simp only
    split
    · exact .of_ipc rfl
    · rename_i k₂ hk₂
      exact (schedulerTerminate_lifecycle hk₂).ipc.trans (.of_ipc rfl)

section

variable {k : Kernel} {e : Event} {i : ℕ} {c : IpcChannel} {ins outs : List IpcMessage}

theorem Turn.owner (h : k.Turn e i c ins outs) (hactive : c.active = true) :
    ((k.ipc.channels i).active = true ∧ c.owner = (k.ipc.channels i).owner)
      ∨ ((k.ipc.channels i).active = false ∧ k.current ≠ 0 ∧ c.owner = k.current) := by
  cases h with
  | keeps h => exact .inl ⟨(h hactive).active, (h hactive).owner⟩
  | opens user dead => exact .inr ⟨dead, user, rfl⟩
  | waits live => exact .inl ⟨live, rfl⟩
  | passes live => exact .inl ⟨live, rfl⟩
  | accepts live => exact .inl ⟨live, rfl⟩
  | parks user live => exact .inl ⟨live, rfl⟩
  | takes live => exact .inl ⟨live, rfl⟩
  | refills live => exact .inl ⟨live, rfl⟩

theorem Turn.parks_cases (h : k.Turn e i c ins outs) (hparks : c.Parks p) :
    ((k.ipc.channels i).Parks p ∧ c.sender = (k.ipc.channels i).sender)
      ∨ (p = k.current ∧ k.current ≠ 0) := by
  obtain ⟨hactive, hsender, hpid⟩ := hparks
  cases h with
  | keeps h =>
    have heq := (h hactive).sender hsender
    exact .inl ⟨⟨(h hactive).active, heq ▸ hsender, heq ▸ hpid⟩, heq⟩
  | opens => cases hsender
  | waits live => exact .inl ⟨⟨live, hsender, hpid⟩, rfl⟩
  | passes live => exact .inl ⟨⟨live, hsender, hpid⟩, rfl⟩
  | accepts live => exact .inl ⟨⟨live, hsender, hpid⟩, rfl⟩
  | parks user => exact .inr ⟨hpid.symm, user⟩
  | takes live => exact .inl ⟨⟨live, hsender, hpid⟩, rfl⟩
  | refills => cases hsender

end

theorem step_attended {e : Event} (hk : Attended k) (hok : k.SparesParked e) :
    Attended (k.step e) := by
  have hcalm := step_calm hk.calm e
  refine ⟨hcalm, step_rings hk.calm hk.rings e, fun i hi => ?_, fun i p hparks => ?_,
    fun p hp hexited i => ?_⟩
  · have howner : UserMemory.validPid ((k.step e).ipc.channels i).owner
        ∧ ¬k.sched.Ended ((k.step e).ipc.channels i).owner
        ∧ ∀ p, e = .kernel (.kill p) → k.sched.usersRunning = false →
          ((k.step e).ipc.channels i).owner ≠ p := by
      rcases (step_turn hk.calm e i).owner hi with ⟨hlive, heq⟩ | ⟨-, hne, heq⟩
      · rw [heq]
        refine ⟨(hk.owner i hlive).1, (hk.owner i hlive).2, fun p he hidle => ?_⟩
        subst he
        rcases hok.1 p rfl with husers | h
        · rw [hidle] at husers
          cases husers
        · exact (h i (hk.calm.rests.bound i hlive) hlive).1
      · rw [heq]
        refine ⟨⟨hne, hk.calm.procs.sched.current_lt⟩, fun hended => ?_,
          fun p _ hidle => absurd (hk.calm.procs.sched.idle hidle) hne⟩
        have hrun : k.sched.state k.current = .running := hk.calm.procs.sched.running hne
        unfold Ended at hended
        rw [hrun] at hended
        simp at hended
    obtain ⟨hvalid, hlive, hkill⟩ := howner
    refine ⟨hvalid, fun hended => ?_⟩
    rcases step_ends hk.calm hvalid.1 hlive hended with ⟨f, user, dev, rfl, hu, hends⟩ | ⟨he, hidle⟩
    · exact ending_closes user dev hu hends (hcalm.rests.bound i hi) hi rfl
    · exact hkill _ he hidle rfl
  · rcases (step_turn hk.calm e i).parks_cases hparks with h | ⟨rfl, hne⟩
    · exact hk.sender i p h.1
    · exact hne
  · refine step_exited_awaits (t := .room i) hk.calm hp hexited (fun h => hk.exited p hp h i) ?_
    rintro rfl hidle hparks
    rcases hok.1 p rfl with husers | h
    · rw [hidle] at husers
      cases husers
    · exact (h i (hk.calm.rests.bound i hparks.1) hparks.1).2 hparks

theorem fresh_attended (b : BootInfo) : Attended (fresh b) := by
  refine ⟨fresh_calm b, fresh_rings b, fun i hi => ?_, fun i p hi => ?_, fun p hp he => ?_⟩
  · simp [fresh] at hi
  · exact absurd hi.1 (by simp [fresh])
  · simp [fresh, state, hp] at he

/-! ## One event -/

structure StillParked (k : Kernel) (i p : ℕ) (k' : Kernel) : Prop where
  parks : (k'.ipc.channels i).Parks p
  sender : (k'.ipc.channels i).sender = (k.ipc.channels i).sender
  task : k'.sched.tasks p = k.sched.tasks p

inductive Resumption (k : Kernel) (i p : ℕ) (e : Event) : Prop
  | appended {f : Frame} {user : ℕ → UInt8} {dev : Devices} (call : e = .syscall f user dev)
    (takes : k.Takes f i)
    (queue : ((k.step e).ipc.channels i).queue
      = (k.ipc.channels i).queue.tail ++ [(k.ipc.channels i).staged])
    (awake : (k.step e).sched.Awake p)
    (rax : ((k.step e).sched.frames p).rax = UInt64.ofNat (k.ipc.channels i).sender.data.length)
  | failed (owner : (k.step e).sched.Ended (k.ipc.channels i).owner)
    (closed : ((k.step e).ipc.channels i).active = false) (awake : (k.step e).sched.Awake p)
    (rax : ((k.step e).sched.frames p).rax = u64Max)
  | discarded (ended : (k.step e).sched.Ended p)
    (queue : ((k.step e).ipc.channels i).active = true →
      ((k.step e).ipc.channels i).queue = (k.ipc.channels i).queue)

structure Resumes (k : Kernel) (i p : ℕ) (e : Event) : Prop where
  free : (k.step e).Free p
  how : Resumption k i p e

section

variable {k : Kernel} {e : Event} {i p : ℕ} (hk : Attended k)

include hk

theorem parked_sleeps (hparks : (k.ipc.channels i).Parks p) :
    k.Sleeps p (· = .room i) ∧ (k.sched.tasks p).timedWait = false := by
  have hp := hk.sender i p hparks
  cases hk.calm.rests.asleep p hp hp with
  | free h => exact absurd hparks (h (.room i))
  | exited h => exact absurd hparks (hk.exited p hp h i)
  | receives j h => exact absurd ((h.tokens (.room i)).1 hparks) (by simp)
  | selects j h => exact absurd ((h.tokens (.room i)).1 hparks) (by simp)
  | parked j h untimed =>
    obtain rfl : i = j := by simpa using (h.tokens (.room i)).1 hparks
    exact ⟨h, untimed⟩

theorem drained_appended {f : Frame} {user : ℕ → UInt8} {dev : Devices}
    (hparks : (k.ipc.channels i).Parks p) (hnumber : f.rax.toNat = 17 ∨ f.rax.toNat = 26)
    (hfree : (k.step (.syscall f user dev)).Free p) :
    k.Takes f i ∧ ((k.step (.syscall f user dev)).ipc.channels i).queue
      = (k.ipc.channels i).queue.tail ++ [(k.ipc.channels i).staged] := by
  have hsound := hk.rings i hparks.1
  have hgone := hfree (.room i)
  have hturn := step_turn hk.calm (.syscall f user dev) i
  have hcall : k.messageCall (.syscall f user dev) := by
    by_cases hu : k.userMode
    · exact ⟨hu, .inr (.inr hnumber)⟩
    · simp only [step, if_neg hu] at hgone
      exact absurd hparks hgone
  have hsend : k.sendTarget f ≠ some i := by
    intro h
    obtain ⟨-, h16, -⟩ := sendTarget_eq_some h
    omega
  have haccepted : k.accepted i (.syscall f user dev) ≠ [] → k.Takes f i := by
    intro h
    by_contra htakes
    exact h (by simp [accepted, hsend, htakes])
  simp only [Awaits] at hgone
  generalize (k.step (.syscall f user dev)).ipc.channels i = c at hturn hgone ⊢
  generalize k.accepted i (.syscall f user dev) = ins at hturn haccepted
  generalize k.handed i (.syscall f user dev) = outs at hturn
  cases hturn with
  | keeps h stays =>
    obtain ⟨hactive, heq⟩ := stays hcall hparks.1
    exact absurd ⟨hactive, heq ▸ hparks.2.1, heq ▸ hparks.2.2⟩ hgone
  | opens user dead => exact absurd (dead.symm.trans hparks.1) (by simp)
  | waits => exact absurd hparks hgone
  | passes => exact absurd hparks hgone
  | accepts live idle room => exact absurd (hsound.full hparks.2.1) room
  | parks user live idle full unparked => exact absurd (unparked.symm.trans hparks.2.1) (by simp)
  | takes live some unparked => exact absurd (unparked.symm.trans hparks.2.1) (by simp)
  | refills live some parked =>
    refine ⟨haccepted (by simp), ?_⟩
    rw [IpcChannel.refill_queue hsound.indexed some, IpcChannel.pop_queue hsound.indexed some]
    rfl

theorem closers_end (hok : k.SparesParked e) (hparks : (k.ipc.channels i).Parks p)
    (hfree : (k.step e).Free p) (hcloses : k.closers e (k.ipc.channels i).owner) :
    (k.step e).sched.Ended (k.ipc.channels i).owner
      ∧ ((k.step e).ipc.channels i).active = false := by
  obtain ⟨hvalid, hlive⟩ := hk.owner i hparks.1
  have hbound := hk.calm.rests.bound i hparks.1
  have hexited : k.sched.state (k.ipc.channels i).owner ≠ .exited := fun h => hlive (.inl h)
  cases e with
  | syscall f user dev =>
    by_cases hu : k.userMode
    swap
    · have hgone := hfree (.room i)
      simp only [step, if_neg hu] at hgone
      exact absurd hparks hgone
    have hends : f.rax.toNat = 2 ∧ (k.ipc.channels i).owner = k.current
        ∨ f.rax.toNat = 13 ∧ (k.ipc.channels i).owner = low32 f.rdi := by
      rcases hcloses with h | h | h
      · exact .inl h
      · exact .inr h
      · exact absurd h hexited
    refine ⟨?_, ?_⟩
    · rcases hends with ⟨number, howner⟩ | ⟨number, howner⟩
      · rw [step_exit user dev hu number, howner]
        have hwakes := ipcProcessCleanup_wakes (k.enter f) k.current
        have hcur : (((k.enter f).ipcProcessCleanup k.current).closeAll k.current).current
          = k.current := hwakes.currentPid
        have h := schedulerOnExit_ended
          (k := ((k.enter f).ipcProcessCleanup k.current).closeAll k.current)
          (hwakes.inv ((enter_same k f).wakes.inv hk.calm.procs.sched))
          (by rw [hcur]; exact hu.2) f.rdi
        rw [hcur] at h
        exact h
      · have hself : low32 f.rdi ≠ k.current := by
          intro hself
          have := hok.2 ⟨hu, number, hself⟩ i hbound hparks.1 (howner.trans hself)
          exact absurd (this.symm.trans hparks.2.1) (by simp)
        have hterm : (k.enter f).Terminable (low32 f.rdi) := by
          rw [howner] at hvalid hlive
          unfold Ended at hlive
          rw [not_or] at hlive
          exact ⟨hvalid.1, hvalid.2, hself, hlive.2, hlive.1⟩
        rw [step_terminate user dev hu number, howner]
        unfold syscallTerminate
        simp only
        have hsome := mt (schedulerTerminate_torn (k.enter f) (low32 f.rdi) f.rsi).1
          (not_not.2 hterm)
        split
        · rename_i hnone
          exact absurd hnone hsome
        · rename_i k₂ hk₂
          exact (schedulerTerminate_spec hk₂).2.2.ended
    · by_contra hactive
      rw [Bool.not_eq_false] at hactive
      rcases (step_turn hk.calm (.syscall f user dev) i).owner hactive with ⟨-, heq⟩ | ⟨dead, -⟩
      · exact ending_closes user dev hu hends hbound hactive heq
      · exact absurd (dead.symm.trans hparks.1) (by simp)
  | timerTick registers => exact hcloses.elim
  | input event => exact hcloses.elim
  | kernel call =>
    cases call with
    | kill pid =>
      rcases hok.1 pid rfl with husers | h
      · have hgone := hfree (.room i)
        simp only [step, husers, if_true] at hgone
        exact absurd hparks hgone
      · exact absurd hcloses (h i hbound hparks.1).1
    | _ => exact absurd hcloses hexited

end

theorem parked_stays_or_resumes {e : Event} (hk : Attended k)
    (hok : k.SparesParked e) (hparks : (k.ipc.channels i).Parks p) :
    StillParked k i p (k.step e) ∨ Resumes k i p e := by
  have hp := hk.sender i p hparks
  have hserves := step_serves hk.calm.rests hk.calm.procs.sched e
  obtain ⟨hsleeps, huntimed⟩ := parked_sleeps hk hparks
  have hno : ∀ j m, ¬k.Awaits p (.message j m) :=
    fun j m h => absurd ((hsleeps.tokens _).1 h) (by simp)
  have hevent : ¬k.Awaits p .event := fun h => absurd ((hsleeps.tokens _).1 h) (by simp)
  have hroom : ∀ {j}, k.Awaits p (.room j) → j = i := fun h => by
    simpa using (hsleeps.tokens _).1 h
  have hcur : p ≠ k.current := by
    rintro rfl
    exact hk.calm.rests.current_free hk.calm.procs.sched hp (.room i) hparks
  have hlive : ¬k.sched.Ended p := by
    unfold Ended
    rw [hsleeps.blocked]
    simp
  have hdiscarded : (k.step e).Free p → (k.step e).sched.Ended p → Resumes k i p e := by
    refine fun hfree hended => ⟨hfree, .discarded hended fun hactive => ?_⟩
    have hquiet : ¬k.messageCall e := by
      rcases step_ends hk.calm hp hlive hended with ⟨f, user, dev, rfl, -, hends⟩ | ⟨rfl, -⟩
      · rintro ⟨-, hmoves⟩
        unfold movesMessages at hmoves
        omega
      · exact id
    exact IpcChannel.queue_of_kept (step_quiet hquiet i hactive)
  cases hserves.outcome p hp hcur with
  | spared h =>
    have hparks' := (h.tokens (.room i)).2 hparks
    refine .inl ⟨hparks', ?_, h.task fun hfree => hfree (.room i) hparks⟩
    rcases (step_turn hk.calm e i).parks_cases hparks' with ⟨-, heq⟩ | ⟨heq, -⟩
    · exact heq
    · exact absurd heq hcur
  | dropped free h =>
    rcases fate_withdrawn h with ⟨f, -, -, j, -, -, hj, hactive, hpid, -⟩ | ⟨-, -, hw, -⟩
    · exact absurd ⟨resolve_active hj, hactive, hpid, rfl⟩ (hno j _)
    · exact absurd hw hevent
  | woken free awake h =>
    refine .inr ⟨free, ?_⟩
    rcases h with ⟨q, hcloses, ⟨-, hr⟩ | ⟨hr, j, hactive, rfl, ⟨m, hw⟩ | hs⟩⟩ | h
    · cases hr
    · exact absurd hw (hno j m)
    · obtain rfl := hroom hs
      obtain ⟨howner, hclosed⟩ := closers_end hk hok hparks free hcloses
      rw [Ending.woken.injEq] at hr
      exact .failed howner hclosed awake hr.1
    cases e with
    | syscall f user dev =>
      rcases h with ⟨-, j, hj, hactive, hpid, -⟩ | ⟨hnumber, j, hj, hactive, hpid, hr⟩
      · exact absurd ⟨resolve_active hj, hactive, hpid, rfl⟩ (hno j _)
      · obtain rfl := hroom ⟨resolve_active hj, hactive, hpid⟩
        obtain ⟨htakes, hqueue⟩ := drained_appended hk hparks hnumber free
        rw [Ending.woken.injEq] at hr
        exact .appended rfl htakes hqueue awake hr.1
    | timerTick registers => exact absurd (huntimed.symm.trans h.2.1) (by simp)
    | input event => exact absurd h.1 hevent
    | kernel call =>
      cases call with
      | kill pid => cases h.2
      | _ => exact h.elim
  | exited h less =>
    refine .inr (hdiscarded (fun t ht => ?_) (.inl h))
    obtain rfl := (hsleeps.tokens t).1 (less t ht)
    exact (step_attended hk hok).exited p hp h i ht
  | gone free h => exact .inr (hdiscarded free (.inr h))

/-- What a parked sender waits for: a message taken off the ring, the end of the channel's owner, or
its own. -/
def Due (k : Kernel) (i p : ℕ) (e : Event) : Prop :=
  (∃ f user dev, e = .syscall f user dev ∧ k.Takes f i)
    ∨ (k.step e).sched.Ended (k.ipc.channels i).owner ∨ (k.step e).sched.Ended p

theorem takes_unparks {f : Frame} {user : ℕ → UInt8} {dev : Devices}
    (hk : Attended k) (hparks : (k.ipc.channels i).Parks p) (htakes : k.Takes f i) :
    ¬((k.step (.syscall f user dev)).ipc.channels i).Parks p := by
  have hsend : k.sendTarget f ≠ some i := by
    intro h
    obtain ⟨-, h16, -⟩ := sendTarget_eq_some h
    obtain ⟨-, ⟨h17, -⟩ | ⟨h26, -⟩, -⟩ := receiveTarget_eq_some htakes.1
    · omega
    · omega
  have haccepted : k.accepted i (.syscall f user dev) ≠ [] := by
    simp [accepted, hsend, htakes, hparks.2.1]
  have hturn := step_turn hk.calm (.syscall f user dev) i
  generalize (k.step (.syscall f user dev)).ipc.channels i = c at hturn ⊢
  generalize k.accepted i (.syscall f user dev) = ins at hturn haccepted
  generalize k.handed i (.syscall f user dev) = outs at hturn
  cases hturn with
  | passes live sends => exact absurd sends hsend
  | accepts live idle room => exact absurd ((hk.rings i live).full hparks.2.1) room
  | refills => exact fun h => by cases h.2.1
  | _ => exact absurd rfl haccepted

theorem due_resumes {e : Event} (hk : Attended k) (hok : k.SparesParked e)
    (hparks : (k.ipc.channels i).Parks p) (hdue : k.Due i p e) : Resumes k i p e := by
  refine (parked_stays_or_resumes hk hok hparks).resolve_left fun hstays => ?_
  have hk' := step_attended hk hok
  rcases hdue with ⟨f, user, dev, rfl, htakes⟩ | howner | hended
  · exact takes_unparks hk hparks htakes hstays.parks
  · have hactive := hstays.parks.1
    rcases (step_turn hk.calm e i).owner hactive with ⟨-, heq⟩ | ⟨dead, -⟩
    · exact (hk'.owner i hactive).2 (heq ▸ howner)
    · exact absurd (dead.symm.trans hparks.1) (by simp)
  · have hblocked := (parked_sleeps hk' hstays.parks).1.blocked
    unfold Ended at hended
    rw [hblocked] at hended
    simp at hended

/-! ## Runs -/

def channelPipe (k : Kernel) (i : ℕ) : Option (Pipe IpcMessage) :=
  if (k.ipc.channels i).active then some (k.ipc.channels i).pipe else none

theorem channelPipe_lives (hk : Calm k) (h : Rings k) (e : Event) (i : ℕ) :
    Pipe.Lives ipcQueueDepth (k.channelPipe i) ((k.step e).channelPipe i) := by
  have hturn := step_turn hk e i
  unfold channelPipe
  cases hlive : (k.ipc.channels i).active with
  | true =>
    cases hactive : ((k.step e).ipc.channels i).active with
    | true =>
      rcases hturn.steps (h i hlive) hlive hactive with hstep | ⟨-, heq, -⟩
      · exact .steps hstep
      · rw [heq]
        exact .steps (.idle _)
    | false => exact .closes _
  | false =>
    generalize (k.step e).ipc.channels i = c at hturn ⊢
    generalize k.accepted i e = ins at hturn
    generalize k.handed i e = outs at hturn
    cases hturn with
    | keeps h =>
      cases hactive : c.active with
      | true => exact absurd (hlive.symm.trans (h hactive).active) (by simp)
      | false => exact .absent
    | opens => exact .opens
    | waits live => exact absurd (hlive.symm.trans live) (by simp)
    | passes live => exact absurd (hlive.symm.trans live) (by simp)
    | accepts live => exact absurd (hlive.symm.trans live) (by simp)
    | parks user live => exact absurd (hlive.symm.trans live) (by simp)
    | takes live => exact absurd (hlive.symm.trans live) (by simp)
    | refills live => exact absurd (hlive.symm.trans live) (by simp)

/-- In every state of a run in which `kill` and `terminate` spare the channels, the indices of every
live channel agree and a sender is parked only where the ring is full, every event is a step of a
bounded queue, and each parked sender is blocked, is resumed by the first event that it waits for,
and stays as it is until one event resumes it. -/
theorem parked_resumed_once (b : BootInfo) (events : List Event)
    (h : Machine.Meets step SparesParked (fresh b) events) (i : ℕ) :
    (((runFrom b events).ipc.channels i).active = true →
        ((runFrom b events).ipc.channels i).count ≤ ipcQueueDepth
          ∧ ((runFrom b events).ipc.channels i).write
            = (((runFrom b events).ipc.channels i).read
              + ((runFrom b events).ipc.channels i).count) % ipcQueueDepth
          ∧ (((runFrom b events).ipc.channels i).sender.active = true →
            ((runFrom b events).ipc.channels i).count = ipcQueueDepth))
      ∧ (∀ e, Pipe.Lives ipcQueueDepth ((runFrom b events).channelPipe i)
        (((runFrom b events).step e).channelPipe i))
      ∧ ∀ p, ((runFrom b events).ipc.channels i).Parks p →
        (runFrom b events).sched.state p = .blocked
          ∧ (∀ e, SparesParked (runFrom b events) e → (runFrom b events).Due i p e →
            Resumes (runFrom b events) i p e)
          ∧ ∀ rest, Machine.Meets step SparesParked (runFrom b events) rest →
            (∀ before, before <+: rest → StillParked (runFrom b events) i p
                (Machine.run step (runFrom b events) before))
              ∨ ∃ before e after, rest = before ++ e :: after
                ∧ (∀ first, first <+: before → StillParked (runFrom b events) i p
                  (Machine.run step (runFrom b events) first))
                ∧ Resumes (Machine.run step (runFrom b events) before) i p e := by
  have hk : Attended (runFrom b events) :=
    Machine.run_inv_of_meets step (fun _ _ => step_attended) events (fresh b) (fresh_attended b) h
  generalize runFrom b events = k at hk ⊢
  refine ⟨fun hactive => ?_, fun e => channelPipe_lives hk.calm hk.rings e i, fun p hparks => ?_⟩
  · obtain ⟨hindexed, hfull, -⟩ := hk.rings i hactive
    exact ⟨hindexed.count, hindexed.write, hfull⟩
  · refine ⟨(parked_sleeps hk hparks).1.blocked,
      fun e hok hdue => due_resumes hk hok hparks hdue, fun rest hrest => ?_⟩
    refine Machine.run_until step (StillParked k i p) (fun s e => Resumes s i p e) (I := Attended)
      (fun _ _ => step_attended) (fun s e hs hok hstays => ?_) rest k hk hrest ⟨hparks, rfl, rfl⟩
    refine (parked_stays_or_resumes hs hok hstays.parks).imp_left fun h => ?_
    exact ⟨h.parks, h.sender.trans hstays.sender, h.task.trans hstays.task⟩

/-! ## A full ring -/

def filled (k : Kernel) (i : ℕ) (m : IpcMessage) (g : Frame) (n : ℕ) : Kernel :=
  (k.setChannel i ((fun c => c.push m)^[n] (k.ipc.channels i))).withSched
    (k.sched.setFrame k.current g)

theorem resolve_congr {ipc ipc' : Ipc}
    (h : ∀ j, (ipc'.channels j).active = (ipc.channels j).active) (caps : Capabilities)
    (pid handle : ℕ) (right : BitVec 32) :
    ipc'.resolve caps pid handle right = ipc.resolve caps pid handle right := by
  unfold Ipc.resolve Ipc.byId
  simp only [h]

theorem iterate_push (c : IpcChannel) (m : IpcMessage) (n : ℕ) :
    ((fun c => c.push m)^[n] c).active = c.active
      ∧ ((fun c => c.push m)^[n] c).waiter = c.waiter
      ∧ ((fun c => c.push m)^[n] c).count = c.count + n := by
  induction n with
  | zero => exact ⟨rfl, rfl, rfl⟩
  | succ n ih =>
    rw [Function.iterate_succ_apply']
    exact ⟨ih.1, ih.2.1, congrArg (· + 1) ih.2.2⟩

section

variable {k : Kernel} {i : ℕ} {f : Frame} {user : ℕ → UInt8} (dev : Devices)

theorem step_filled (htarget : k.sendTarget f = some i)
    (hidle : (k.ipc.channels i).waiter.active = false) {n : ℕ}
    (hroom : (k.ipc.channels i).count + n < ipcQueueDepth) (g : Frame) :
    (k.filled i (k.sentMessage f user) g n).step (.syscall f user dev)
      = k.filled i (k.sentMessage f user) { f with rax := f.rdx } (n + 1) := by
  obtain ⟨hu, h16, hi⟩ := sendTarget_eq_some htarget
  have hcheck : (!k.canRead f.rsi f.rdx || f.rdx == 0 || ipcMessageMax < f.rdx.toNat) = false := by
    unfold sendTarget at htarget
    split_ifs at htarget with hc
    exact hc.2.2
  have hdata : ¬((readUser user f.rsi.toNat f.rdx.toNat).length = 0
      ∨ ipcMessageMax < (readUser user f.rsi.toNat f.rdx.toNat).length) := by
    simp only [Bool.or_eq_false_iff, decide_eq_false_iff_not] at hcheck
    have hlength : (readUser user f.rsi.toNat f.rdx.toNat).length = f.rdx.toNat := by
      simp [readUser]
    rw [hlength]
    rintro (h | h)
    · exact absurd (UInt64.toNat_inj.1 h) (by simpa using hcheck.1.2)
    · exact hcheck.2 h
  obtain ⟨hactive, hwaiter, hcount⟩ := iterate_push (k.ipc.channels i) (k.sentMessage f user) n
  rw [step_send user dev (show (k.filled i _ g n).userMode from hu) h16]
  have hresolve : ((k.filled i (k.sentMessage f user) g n).enter f).ipc.resolve
      k.objects.caps k.current f.rdi.toNat rightSend = some i := by
    rw [← hi]
    refine resolve_congr (fun j => ?_) _ _ _ _
    rcases eq_or_ne j i with rfl | hne
    · simpa [filled] using hactive
    · simp [filled, hne]
  have hchannel : ((k.filled i (k.sentMessage f user) g n).enter f).ipc.channels i
      = (fun c => c.push (k.sentMessage f user))^[n] (k.ipc.channels i) := by
    simp [filled]
  have hsent : ((k.filled i (k.sentMessage f user) g n).enter f).ipcSendBlock k.current f.rdi.toNat
      (readUser user f.rsi.toNat f.rdx.toNat) = (.delivered,
        ((k.filled i (k.sentMessage f user) g n).enter f).setChannel i
          ((fun c => c.push (k.sentMessage f user))^[n + 1] (k.ipc.channels i))) := by
    unfold ipcSendBlock ipcSendImpl
    rw [show ((k.filled i (k.sentMessage f user) g n).enter f).objects = k.objects from rfl,
      hresolve]
    simp only [hchannel]
    rw [if_neg hdata, hwaiter, hidle, hcount, if_neg (by simp), if_neg (by omega),
      Function.iterate_succ_apply']
    rfl
  unfold syscallSend
  rw [show (!((k.filled i (k.sentMessage f user) g n).enter f).canRead f.rsi f.rdx || f.rdx == 0
    || ipcMessageMax < f.rdx.toNat) = false from hcheck]
  rw [show ((k.filled i (k.sentMessage f user) g n).enter f).current = k.current from rfl, hsent]
  simp [filled, ret, setChannel, withSched, withIpc, Ipc.setChannel, setFrame, enter, current]

theorem filled_zero (k : Kernel) (i : ℕ) (m : IpcMessage) :
    k.filled i m (k.sched.frames k.current) 0 = k := by
  simp [filled, setChannel, withSched, withIpc, Ipc.setChannel, setFrame]

theorem run_filled (htarget : k.sendTarget f = some i)
    (hidle : (k.ipc.channels i).waiter.active = false) (n : ℕ) :
    ∀ (j : ℕ) (g : Frame), (k.ipc.channels i).count + j + n < ipcQueueDepth →
      Machine.run step (k.filled i (k.sentMessage f user) g j)
          (List.replicate (n + 1) (.syscall f user dev))
        = k.filled i (k.sentMessage f user) { f with rax := f.rdx } (j + n + 1) := by
  induction n with
  | zero =>
    intro j g hroom
    exact step_filled dev htarget hidle hroom g
  | succ n ih =>
    intro j g hroom
    rw [List.replicate_succ, Machine.run_cons, step_filled dev htarget hidle (by omega),
      ih (j + 1) _ (by omega)]
    congr 1
    omega

end

/-- The first process creates a channel. -/
def parkedStart : List Event := bootEvents ++ [call { rax := 14, rdi := 0x330000, rsi := 1 }]

def parkedSend : Frame := { rax := 16, rdi := 0x10100, rsi := 0x330000, rdx := 1 }

/-- It waits on another channel; the second process sends to the first one. -/
def parkedEnd : List Event :=
  [call { rax := 14, rdi := 0x330000, rsi := 2 },
    call { rax := 17, rdi := 0x10101, rsi := 0x330000, rdx := 8 },
    call { rax := 15, rdi := 0x330000, rsi := 1 },
    call { rax := 16, rdi := 0x10200, rsi := 0x330000, rdx := 1 }]

/-- The first process fills its channel before. -/
def parkedEvents : List Event :=
  parkedStart ++ List.replicate 32 (call parkedSend) ++ parkedEnd

def parkedFull : Kernel :=
  (runFrom smallBoot parkedStart).filled 0
    ((runFrom smallBoot parkedStart).sentMessage parkedSend fun _ => 0x61)
    { parkedSend with rax := 1 } 32

theorem run_parkedStart :
    runFrom smallBoot (parkedStart ++ List.replicate 32 (call parkedSend)) = parkedFull := by
  have h := @run_filled (runFrom smallBoot parkedStart) 0 parkedSend (fun _ => 0x61) {}
    (by decide +kernel) (by decide +kernel) 31 0
    ((runFrom smallBoot parkedStart).sched.frames (runFrom smallBoot parkedStart).current)
    (by decide +kernel)
  rw [filled_zero] at h
  unfold runFrom
  rw [Machine.run_append]
  exact h

theorem parkedEvents_meets : Machine.Meets step SparesParked (fresh smallBoot) parkedEvents := by
  unfold parkedEvents
  rw [Machine.meets_append, Machine.meets_append]
  refine ⟨⟨by decide +kernel, Machine.meets_of_forall step _ _ fun k e he => ?_⟩, ?_⟩
  · rw [List.eq_of_mem_replicate he]
    exact ⟨(fun pid hpid => by cases hpid), fun h => absurd h.2.1 (by decide)⟩
  · have h := run_parkedStart
    unfold runFrom at h
    rw [h]
    decide +kernel

theorem run_parkedEvents (events : List Event) :
    runFrom smallBoot (parkedEvents ++ events)
      = Machine.run step parkedFull (parkedEnd ++ events) := by
  have h := run_parkedStart
  unfold runFrom at h ⊢
  unfold parkedEvents
  rw [List.append_assoc, Machine.run_append, h]

theorem parked_resumed_once_full :
    ((runFrom smallBoot parkedEvents).ipc.channels 0).Parks 2
      ∧ (runFrom smallBoot parkedEvents).sched.state 2 = .blocked := by
  have hparks : ((runFrom smallBoot parkedEvents).ipc.channels 0).Parks 2 := by
    have h := run_parkedEvents []
    rw [List.append_nil, List.append_nil] at h
    rw [h]
    decide +kernel
  have h := parked_resumed_once smallBoot parkedEvents parkedEvents_meets 0
  exact ⟨hparks, (h.2.2 2 hparks).1⟩

/-- The shell kills the parked process: it has exited, and its message waits on. -/
theorem killed_process_still_parked :
    (runFrom smallBoot (parkedEvents ++ [.kernel (.kill 2)])).sched.state 2 = .exited
      ∧ ((runFrom smallBoot (parkedEvents ++ [.kernel (.kill 2)])).ipc.channels 0).Parks 2 := by
  rw [run_parkedEvents]
  decide +kernel

end Kernel

end DemonOS
