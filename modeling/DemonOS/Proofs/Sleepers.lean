import DemonOS.Proofs.Waits

/-!
# What an event does to the sleepers

`Serves` says of an event what `Releases` says of a function of the kernel: what becomes of each
process with registrations, and that the processes rest afterwards, the running one among them,
which may have registered itself and gone to sleep. Every event serves (`step_serves`), and what may
become of whom is `fate`; so the processes rest in every state of every run (`runFrom_calm`).
-/

namespace DemonOS

open Scheduler

structure Scheduler.LiveChild (s : Scheduler) (p c : ℕ) : Prop where
  bound : c < processLimit
  live : c ≠ 0 → ¬s.Ended c
  parent : (s.tasks c).parentPid = p

namespace Kernel

variable {e : Event} {k : Kernel} {p : ℕ}

/-- What an event does to the processes: what becomes of those with registrations, and of the
running one, which may have gone to sleep for a message or for a child. -/
structure Serves (fate : Fate) (k k' : Kernel) : Prop where
  outcome : ∀ p, p ≠ 0 → p ≠ k.current → Outcome fate k k' p
  rests : Rests 0 k'
  sleeps : ∀ p, p ≠ k.current ∨ k.current = 0 → k'.sched.state p = .blocked →
    k'.sched.tasks p = k.sched.tasks p
  ends : ∀ p, p ≠ 0 → k'.sched.Ended p → k.sched.Ended p ∨ fate p .ended
  own : k.current ≠ 0 → k'.Free k.current ∨ k'.sched.state k.current = .blocked
  waits : k.current ≠ 0 → k'.sched.state k.current = .blocked →
    (k'.sched.tasks k.current).waitingFor ≠ none ∨ ¬k'.Free k.current
  child : k.current ≠ 0 → k'.sched.state k.current = .blocked → ∀ c,
    (k'.sched.tasks k.current).waitingFor = some c → k'.sched.LiveChild k.current c

section

variable {k k₁ k' : Kernel} {fate : Fate}

theorem Rests.current_free (hk : Rests 0 k) (hs : k.sched.Inv) (hne : k.current ≠ 0) :
    k.Free k.current := by
  have hrun : k.sched.state k.current = .running := hs.running hne
  exact (hk.asleep _ hne hne).free_of_awake (by rw [hrun]; decide) (by rw [hrun]; decide)

theorem Releases.serves (h : Releases fate k.current k k') (hk : Rests 0 k) (hs : k.sched.Inv) :
    Serves fate k k' := by
  have hk' := h.rests (hk.leaveOut k.current)
  have hawake : k.current ≠ 0 → k'.sched.state k.current ≠ .blocked := by
    intro hne hb
    have heq := h.sleeps _ hb
    have hrun : k.sched.state k.current = .running := hs.running hne
    unfold state at hb hrun
    rw [heq, hrun] at hb
    cases hb
  refine ⟨h.procs, ⟨fun p hp _ => ?_, hk'.bound, hk'.settled⟩, fun p _ => h.sleeps p, h.ends,
    fun hne => .inl (h.free (hk.current_free hs hne)), fun hne hb => absurd hb (hawake hne),
    fun hne hb => absurd hb (hawake hne)⟩
  rcases eq_or_ne p k.current with rfl | hd
  · exact .free (h.free (hk.current_free hs hp))
  · exact hk'.asleep p hp hd

/-- Before, something that spares all sleepers. -/
theorem Serves.after (h : Serves fate k₁ k')
    (hspared : ∀ p, p ≠ 0 → p ≠ k.current → Spared k k₁ p)
    (hsleeps : ∀ p, k₁.sched.state p = .blocked → k₁.sched.tasks p = k.sched.tasks p)
    (hends : ∀ p, p ≠ 0 → k₁.sched.Ended p → k.sched.Ended p)
    (hcur : k₁.current = k.current) : Serves fate k k' := by
  obtain ⟨houtcome, hrests, hsleeps', hends', hown, hwaits, hchild⟩ := h
  rw [hcur] at houtcome hsleeps' hown hwaits hchild
  refine ⟨fun p hp hd => (hspared p hp hd).outcome (houtcome p hp hd), hrests,
    fun p hd hb => ?_, fun p hp he => (hends' p hp he).imp_left (hends p hp), hown, hwaits,
    hchild⟩
  have heq := hsleeps' p hd hb
  refine heq.trans (hsleeps p ?_)
  unfold state at hb ⊢
  rw [← heq]
  exact hb

theorem Serves.mono {fate' : Fate} (h : Serves fate k k') (hfate : ∀ p r, fate p r → fate' p r) :
    Serves fate' k k' := by
  refine ⟨fun p hp hd => ?_, h.rests, h.sleeps,
    fun p hp he => (h.ends p hp he).imp_right (hfate p _), h.own, h.waits, h.child⟩
  cases h.outcome p hp hd with
  | spared h => exact .spared h
  | dropped free h => exact .dropped free (hfate p _ h)
  | woken free awake h => exact .woken free awake (hfate p _ h)
  | exited h less left => exact .exited h less (left.imp_right (Or.imp_right (hfate p _)))
  | gone free h => exact .gone free h

theorem refl_serves (fate : Fate) (hk : Rests 0 k) (hs : k.sched.Inv) : Serves fate k k :=
  (Releases.refl fate _ k).serves hk hs

theorem block_serves (fate : Fate) {t : Task} (hk : Rests 0 k) (hne : k.current ≠ 0)
    (htokens : ∀ p, p ≠ 0 → p ≠ k.current → ∀ t, k₁.Awaits p t ↔ k.Awaits p t)
    (hbound : ∀ i, (k₁.ipc.channels i).active = true → i < ipcChannelLimit)
    (hasleep : (k₁.withSched (k.sched.setTask k.current t)).Asleep k.current)
    (ht : t.state ≠ .exited) (hused : t.state ≠ .unused) (hsettled : t.Settled) (hown : t.waitingFor ≠ none ∨ ¬k₁.Free k.current)
    (hchild : ∀ c, t.waitingFor = some c → (k.sched.setTask k.current t).LiveChild k.current c) :
    Serves fate k (k₁.withSched (k.sched.setTask k.current t).reschedule) := by
  have hother : ∀ p, p ≠ k.current → (k.sched.setTask k.current t).tasks p = k.sched.tasks p :=
    fun p hp => by simp [hp]
  have hself : (k.sched.setTask k.current t).tasks k.current = t := by simp
  have hk₂ : Rests 0 (k₁.withSched (k.sched.setTask k.current t)) := by
    refine ⟨fun p hp _ => ?_, hbound, fun p hp => ?_⟩
    · rcases eq_or_ne p k.current with rfl | hd
      · exact hasleep
      · exact (hk.asleep p hp hp).spared ⟨htokens p hp hd, fun _ => hother p hd⟩
    · simp only [withSched_sched]
      rcases eq_or_ne p k.current with rfl | hd
      · rw [hself]
        exact hsettled
      · rw [hother p hd]
        exact hk.settled p hp
  have h := leaves_releases fate (reschedule_leaves (k.sched.setTask k.current t))
    (k := k₁.withSched (k.sched.setTask k.current t)) hk₂
  refine ⟨fun p hp hd => ?_, h.rests hk₂, fun p hd hb => ?_, fun p hp he => ?_,
    fun _ => ?_, fun _ hb => ?_, fun _ hb c hc => ?_⟩
  · have hspared : Spared k (k₁.withSched (k.sched.setTask k.current t)) p :=
      ⟨htokens p hp hd, fun _ => hother p hd⟩
    exact hspared.outcome (h.procs p hp hp)
  · exact (h.sleeps p hb).trans (hother p (hd.resolve_right hne))
  · have he' := (reschedule_leaves (k.sched.setTask k.current t)).ends p hp he
    unfold Ended state at he' ⊢
    rcases eq_or_ne p k.current with rfl | hd
    · rw [hself] at he'
      exact absurd he' (by simp [ht, hused])
    · rw [hother p hd] at he'
      exact .inl he'
  · by_cases hfree : (k₁.withSched (k.sched.setTask k.current t)).Free k.current
    · exact .inl (h.free hfree)
    · have hkept := (reschedule_leaves (k.sched.setTask k.current t)).kept k.current hne
      have hblocked := hasleep.blocked_of_not_free hfree (by simp [state, ht])
      refine .inr ?_
      simp only [withSched_sched] at hblocked ⊢
      unfold state
      rw [hkept (.inl hblocked)]
      exact hblocked.1
  · have heq := (h.sleeps _ hb).trans hself
    refine hown.imp (fun hw => ?_) fun hw hfree => hw fun t ht => hfree t ht
    rw [show (k₁.withSched (k.sched.setTask k.current t).reschedule).sched.tasks k.current
      = t from heq]
    exact hw
  · have heq := (h.sleeps _ hb).trans hself
    rw [show (k₁.withSched (k.sched.setTask k.current t).reschedule).sched.tasks k.current
      = t from heq] at hc
    obtain ⟨hbound, hlive, hparent⟩ := hchild c hc
    refine ⟨hbound, fun hne' hended => ?_, ?_⟩
    · exact hlive hne' ((reschedule_leaves _).ends c hne' hended)
    · exact (congrArg Prod.fst (reschedule_origin _ c)).trans hparent

end

/-! ## Registering -/

theorem ipcCreate_cases (ipc : Ipc) (caps : Capabilities) (pid : ℕ) (name : List UInt8) :
    (ipc.ipcCreate caps pid name).2.1 = ipc
      ∨ ∃ i live, i < ipcChannelLimit ∧ (ipc.channels i).active = false
        ∧ (ipc.ipcCreate caps pid name).2.1
          = ipc.setChannel i { owner := pid, name := name, active := live } := by
  unfold Ipc.ipcCreate
  split_ifs
  · exact .inl rfl
  split
  · exact .inl rfl
  split
  · exact .inl rfl
  rename_i i hi
  obtain ⟨hlt, htest, -⟩ := Table.firstIndex_eq_some.1 hi
  simp only [Bool.not_eq_true'] at htest
  split
  · exact .inr ⟨i, false, hlt, htest, rfl⟩
  · exact .inr ⟨i, true, hlt, htest, rfl⟩

theorem byId_active {ipc : Ipc} {id i : ℕ} (h : ipc.byId id = some i) :
    (ipc.channels i).active = true := by
  unfold Ipc.byId at h
  split_ifs at h with hrange hactive
  simp only [Option.some.injEq] at h
  subst h
  simpa using hactive

theorem resolve_active {ipc : Ipc} {caps : Capabilities} {pid handle i : ℕ} {right : BitVec 32}
    (h : ipc.resolve caps pid handle right = some i) : (ipc.channels i).active = true := by
  unfold Ipc.resolve at h
  split at h
  · cases h
  · split_ifs at h
    exact byId_active h

theorem registerWait_spec {ipc ipc' : Ipc} {caps : Capabilities} {multiplex : Bool}
    {pid handle address capacity : ℕ}
    (h : ipc.registerWait caps multiplex pid handle address capacity = some ipc') :
    ∃ i, ipc.resolve caps pid handle rightReceive = some i
      ∧ (ipc.channels i).waiter.active = false
      ∧ ipc' = ipc.setChannel i { ipc.channels i with waiter :=
        { pid := pid, address := address, capacity := capacity, active := true
          multiplex := multiplex } } := by
  unfold Ipc.registerWait at h
  split at h
  · cases h
  · rename_i i hi
    split_ifs at h with hc
    simp only [not_or, Bool.not_eq_true] at hc
    simp only [Option.some.injEq] at h
    exact ⟨i, hi, hc.1, h.symm⟩

theorem setWaiter_awaits {i : ℕ} {w : IpcWaiter}
    (hactive : (k.ipc.channels i).active = true)
    (hwaiter : (k.ipc.channels i).waiter.active = false) (hw : w.active = true) (p : ℕ) (t : Token) :
    (k.setChannel i { k.ipc.channels i with waiter := w }).Awaits p t
      ↔ k.Awaits p t ∨ (p = w.pid ∧ t = .message i w.multiplex) := by
  cases t with
  | message j m =>
    rcases eq_or_ne j i with rfl | hne
    · simp only [Awaits, setChannel_ipc_channels, Function.update_self, IpcChannel.Waits, hactive, hw,
        hwaiter, Bool.false_eq_true, false_and, and_false, false_or, true_and, Token.message.injEq]
      tauto
    · simp [Awaits, hne]
  | room j =>
    rcases eq_or_ne j i with rfl | hne
    · simp [Awaits, IpcChannel.Parks]
    · simp [Awaits, hne]
  | event => simp [Awaits]

theorem setSender_awaits {i : ℕ} {w : IpcSendWaiter}
    (hactive : (k.ipc.channels i).active = true)
    (hsender : (k.ipc.channels i).sender.active = false) (hw : w.active = true) (p : ℕ) (t : Token) :
    (k.setChannel i { k.ipc.channels i with sender := w }).Awaits p t
      ↔ k.Awaits p t ∨ (p = w.pid ∧ t = .room i) := by
  cases t with
  | message j m =>
    rcases eq_or_ne j i with rfl | hne
    · simp [Awaits, IpcChannel.Waits]
    · simp [Awaits, hne]
  | room j =>
    rcases eq_or_ne j i with rfl | hne
    · simp [Awaits, IpcChannel.Parks, hactive, hsender, hw, eq_comm]
    · simp [Awaits, hne]
  | event => simp [Awaits]

theorem inputWait_spec {input input' : Input} {pid address : ℕ}
    (h : input.inputWait pid address = some input') :
    input.waiter.active = false
      ∧ input' = { input with waiter := { pid := pid, address := address, active := true } } := by
  unfold Input.inputWait at h
  split_ifs at h with hc
  simp only [not_or, Bool.not_eq_true] at hc
  simp only [Option.some.injEq] at h
  exact ⟨hc.2.2, h.symm⟩

theorem inputWait_awaits {input : Input} {pid address : ℕ}
    (h : k.input.inputWait pid address = some input) (p : ℕ) (t : Token) :
    (k.withInput input).Awaits p t ↔ k.Awaits p t ∨ (p = pid ∧ t = .event) := by
  obtain ⟨hidle, rfl⟩ := inputWait_spec h
  cases t with
  | message j m => simp [Awaits]
  | room j => simp [Awaits]
  | event => simp [Awaits, Input.Waits, hidle, eq_comm]

theorem current_sleeps {k k₁ : Kernel} {t : Task} {own : Token → Prop} (hs : k.sched.Inv)
    (hne : k.current ≠ 0) (hb : t.state = .blocked) (hw : t.waitingFor = none)
    (htokens : ∀ t, k₁.Awaits k.current t ↔ own t) :
    (k₁.withSched (k.sched.setTask k.current t)).Sleeps k.current own := by
  refine ⟨⟨hne, hs.current_lt⟩, ?_, ?_, htokens⟩
  · simp [state, hb]
  · simp [hw]

theorem blockCurrent_eq (hu : k.userMode) :
    k.sched.blockCurrent = (k.sched.setTask k.current
      { k.sched.tasks k.current with state := .blocked, waitingFor := none }).reschedule := by
  unfold blockCurrent
  rw [if_neg]
  · rfl
  · simp only [not_or, Bool.not_eq_false]
    exact hu

section

variable {k : Kernel} (hk : Rests 0 k) (hs : k.sched.Inv) (hu : k.userMode)

include hk hs hu

theorem current_untimed : (k.sched.tasks k.current).timedWait = false :=
  (hk.settled _ hu.2).awake (.inr (hs.running hu.2))

theorem receive_blocks {i : ℕ} {w : IpcWaiter} (fate : Fate)
    (hactive : (k.ipc.channels i).active = true)
    (hwaiter : (k.ipc.channels i).waiter.active = false) (hw : w.active = true)
    (hpid : w.pid = k.current) (hm : w.multiplex = false) :
    Serves fate k ((k.setChannel i { k.ipc.channels i with waiter := w }).withSched
      k.sched.blockCurrent) := by
  have hawaits := setWaiter_awaits hactive hwaiter hw
  have huntimed := current_untimed hk hs hu
  have hfree := hk.current_free hs hu.2
  have hown : ∀ t, (k.setChannel i { k.ipc.channels i with waiter := w }).Awaits k.current t
      ↔ t = .message i false := by
    intro t
    rw [hawaits, hpid, hm]
    simp [hfree t]
  rw [blockCurrent_eq hu]
  refine block_serves fate hk hu.2 (fun p _ hd t => ?_) (fun j hj => ?_) ?_ (by simp) (by simp)
    (.of_untimed huntimed) ?_ (by simp)
  · rw [hawaits, hpid]
    simp [hd]
  · rcases eq_or_ne j i with rfl | hne
    · exact hk.bound j hactive
    · exact hk.bound j (by simpa [hne] using hj)
  · exact .receives i (current_sleeps hs hu.2 rfl rfl hown) (by simpa using huntimed)
  · exact .inr fun h => h _ ((hown _).2 rfl)

theorem send_blocks {i : ℕ} {w : IpcSendWaiter} (fate : Fate)
    (hactive : (k.ipc.channels i).active = true)
    (hsender : (k.ipc.channels i).sender.active = false) (hw : w.active = true)
    (hpid : w.pid = k.current) :
    Serves fate k ((k.setChannel i { k.ipc.channels i with sender := w }).withSched
      k.sched.blockCurrent) := by
  have hawaits := setSender_awaits hactive hsender hw
  have huntimed := current_untimed hk hs hu
  have hfree := hk.current_free hs hu.2
  have hown : ∀ t, (k.setChannel i { k.ipc.channels i with sender := w }).Awaits k.current t
      ↔ t = .room i := by
    intro t
    rw [hawaits, hpid]
    simp [hfree t]
  rw [blockCurrent_eq hu]
  refine block_serves fate hk hu.2 (fun p _ hd t => ?_) (fun j hj => ?_) ?_ (by simp) (by simp)
    (.of_untimed huntimed) ?_ (by simp)
  · rw [hawaits, hpid]
    simp [hd]
  · rcases eq_or_ne j i with rfl | hne
    · exact hk.bound j hactive
    · exact hk.bound j (by simpa [hne] using hj)
  · exact .parked i (current_sleeps hs hu.2 rfl rfl hown) (by simpa using huntimed)
  · exact .inr fun h => h _ ((hown _).2 rfl)

theorem select_blocks {i address : ℕ} {w : IpcWaiter} {input : Input} {t : Task} (fate : Fate)
    (hactive : (k.ipc.channels i).active = true)
    (hwaiter : (k.ipc.channels i).waiter.active = false) (hw : w.active = true)
    (hpid : w.pid = k.current) (hm : w.multiplex = true)
    (hinput : k.input.inputWait k.current address = some input) (hb : t.state = .blocked)
    (hc : t.waitingFor = none) (hsettled : t.Settled) :
    Serves fate k (((k.setChannel i { k.ipc.channels i with waiter := w }).withInput input).withSched
      (k.sched.setTask k.current t).reschedule) := by
  have hawaits : ∀ p t, ((k.setChannel i { k.ipc.channels i with waiter := w }).withInput
      input).Awaits p t ↔ k.Awaits p t ∨ (p = k.current ∧ (t = .message i true ∨ t = .event)) := by
    intro p t
    rw [inputWait_awaits (k := k.setChannel i { k.ipc.channels i with waiter := w }) hinput,
      setWaiter_awaits hactive hwaiter hw, hpid, hm]
    tauto
  have hfree := hk.current_free hs hu.2
  have hown : ∀ t, ((k.setChannel i { k.ipc.channels i with waiter := w }).withInput
      input).Awaits k.current t ↔ t = .message i true ∨ t = .event := by
    intro t
    rw [hawaits]
    simp [hfree t]
  refine block_serves fate hk hu.2 (fun p _ hd t => ?_) (fun j hj => ?_) ?_ (by simp [hb]) (by simp [hb]) hsettled ?_
    (by simp [hc])
  · rw [hawaits]
    simp [hd]
  · rcases eq_or_ne j i with rfl | hne
    · exact hk.bound j hactive
    · exact hk.bound j (by simpa [hne] using hj)
  · exact .selects i (current_sleeps hs hu.2 hb hc hown)
  · exact .inr fun h => h _ ((hown _).2 (.inr rfl))

end

/-! ## System calls -/

section

variable {k : Kernel}

theorem serves_of_same {k' : Kernel} (fate : Fate) (hk : Rests 0 k) (hs : k.sched.Inv)
    (htasks : k'.sched.tasks = k.sched.tasks) (hipc : k'.ipc = k.ipc)
    (hinput : k'.input.waiter = k.input.waiter) : Serves fate k k' := by
  have hspared : ∀ p, Spared k k' p := by
    refine fun p => ⟨fun t => ?_, fun _ => by rw [htasks]⟩
    cases t with
    | message i m => simp only [Awaits, hipc]
    | room i => simp only [Awaits, hipc]
    | event => simp only [Awaits, Input.Waits, hinput]
  have hawake : k.current ≠ 0 → k'.sched.state k.current ≠ .blocked := by
    intro hne hb
    have hrun : k.sched.state k.current = .running := hs.running hne
    unfold state at hb hrun
    rw [htasks, hrun] at hb
    cases hb
  refine ⟨fun p _ _ => .spared (hspared p), ⟨fun p hp _ => (hk.asleep p hp hp).spared (hspared p),
    fun i hi => hk.bound i (hipc ▸ hi), fun p hp => ?_⟩, fun p _ _ => by rw [htasks],
    fun p _ he => .inl ?_, fun hne => .inl ((hspared _).free_iff.2 (hk.current_free hs hne)),
    fun hne hb => absurd hb (hawake hne), fun hne hb => absurd hb (hawake hne)⟩
  · rw [htasks]
    exact hk.settled p hp
  · unfold Ended state at he ⊢
    rw [← htasks]
    exact he

theorem Local.serves {k' : Kernel} (h : Local k k') (fate : Fate) (hk : Rests 0 k)
    (hs : k.sched.Inv) : Serves fate k k' := by
  obtain ⟨frames, heq⟩ := h.sched
  exact serves_of_same fate hk hs (by rw [heq]) h.ipc h.waiter

theorem Local.serves_of_files {k' : Kernel} {files : Ramfs} (h : Local (k.withFiles files) k')
    (fate : Fate) (hk : Rests 0 k) (hs : k.sched.Inv) : Serves fate k k' := by
  obtain ⟨frames, heq⟩ := h.sched
  exact serves_of_same fate hk hs (by rw [heq]; rfl) h.ipc h.waiter

theorem ret_releases (k : Kernel) (fate : Fate) (rax : UInt64) :
    Releases fate k.current k (k.ret rax) :=
  setFrame_releases fate k k.current _

theorem ret2_releases (k : Kernel) (fate : Fate) (rax rdx : UInt64) :
    Releases fate k.current k (k.ret2 rax rdx) :=
  setFrame_releases fate k k.current _

theorem Releases.ret {k₁ : Kernel} {fate : Fate} (h : Releases fate 0 k k₁)
    (hcur : k₁.current = k.current) (rax : UInt64) : Releases fate k.current k (k₁.ret rax) :=
  (h.leaveOut k.current).trans (hcur ▸ ret_releases k₁ fate rax)

theorem Releases.ret2 {k₁ : Kernel} {fate : Fate} (h : Releases fate 0 k k₁)
    (hcur : k₁.current = k.current) (rax rdx : UInt64) :
    Releases fate k.current k (k₁.ret2 rax rdx) :=
  (h.leaveOut k.current).trans (hcur ▸ ret2_releases k₁ fate rax rdx)

variable (hk : Rests 0 k) (hs : k.sched.Inv)

include hk hs

theorem yield_serves (fate : Fate) :
    Serves fate k ((k.ret 0).withSched (k.ret 0).sched.onYield) := by
  have h := ret_releases k fate 0
  refine (h.trans (leaves_releases fate (onYield_leaves _) ?_)).serves hk hs
  exact h.rests (hk.leaveOut k.current)

theorem syscallExit_serves (f : Frame) :
    Serves (k.closeFate k.current) k (k.syscallExit f) := by
  have hrests := (ipcProcessCleanup_releases hk k.current).rests hk
  have hclean := ipcProcessCleanup_others (hk.leaveOut k.current)
  have hfree := ipcProcessCleanup_free hk.bound k.current
  have hquiet := (ipcProcessCleanup_lifecycle k k.current).ipc
  have hwakes := ipcProcessCleanup_wakes k k.current
  unfold syscallExit
  generalize k.ipcProcessCleanup k.current = k₁ at *
  have hclose : Releases (k.closeFate k.current) 0 k₁ (k₁.closeAll k.current) :=
    releases_of_same rfl (fun _ _ => rfl) (fun _ => ⟨rfl, rfl, rfl⟩) rfl
  have hcur : (k₁.closeAll k.current).current = k.current := hwakes.currentPid
  have hexit := schedulerOnExit_releases (k := k₁.closeAll k.current) (hclose.rests hrests)
    (hwakes.inv hs) f.rdi (by rw [hcur]; exact hfree)
  rw [hcur] at hexit
  have hexit' := hexit.mono (f := k.closeFate k.current) fun p r hp =>
    closeFate_mono hclean.less hquiet k.current p r hp
  exact (hclean.trans ((hclose.trans hexit').leaveOut k.current)).serves hk hs

theorem syscallTerminate_serves (f : Frame) :
    Serves (k.closeFate (low32 f.rdi)) k (k.syscallTerminate f) := by
  have hclean := ipcProcessCleanup_releases hk (low32 f.rdi)
  have hclear := ipcProcessCleanup_free hk.bound (low32 f.rdi)
  have hquiet := (ipcProcessCleanup_lifecycle k (low32 f.rdi)).ipc
  have hwakes := ipcProcessCleanup_wakes k (low32 f.rdi)
  unfold syscallTerminate
  simp only
  generalize low32 f.rdi = target at *
  have hclose : Releases ((k.closeFate target).withdrawing target) 0 (k.ipcProcessCleanup target)
      ((k.ipcProcessCleanup target).closeAll target) :=
    releases_of_same rfl (fun _ _ => rfl) (fun _ => ⟨rfl, rfl, rfl⟩) rfl
  have htorn := hclean.trans hclose
  have hcur : ((k.ipcProcessCleanup target).closeAll target).current = k.current :=
    hwakes.currentPid
  have hwakes' : Wakes k.sched ((k.ipcProcessCleanup target).closeAll target).sched := hwakes
  have hquiet' : Quiet k ((k.ipcProcessCleanup target).closeAll target) := hquiet
  have hclear' : ((k.ipcProcessCleanup target).closeAll target).Free target := hclose.free hclear
  have hdrop : ∀ p r, r ≠ .withdrawn → (k.closeFate target).withdrawing target p r →
      k.closeFate target p r := fun p r hr hp => hp.resolve_left fun h => hr h.2
  split
  · rename_i hnone
    refine ((htorn.ret hcur u64Max).resolve hdrop fun p hp hd hfree hp' => ?_).serves hk hs
    rcases hp' with ⟨rfl, -⟩ | hp'
    swap
    · exact .dropped hfree hp'
    have hblocked : ¬(UserMemory.validPid p ∧ k.sched.state p = .blocked) := by
      rintro ⟨hvalid, hb⟩
      have hlt := hvalid.2
      unfold schedulerTerminate at hnone
      split_ifs at hnone with hc
      have hst := Wakes.state_eq hwakes' p
      rw [hb] at hst
      simp only [reduceCtorEq, iff_false] at hst
      rcases hc with hc | hc | hc | hc | hc
      · exact hp hc
      · omega
      · exact hd (hc.trans hcur)
      · exact hst.1 hc
      · exact hst.2 hc
    cases hk.asleep p hp hp with
    | free h => exact .spared ⟨fun t => iff_of_false (hfree t) (h t), fun hn => absurd h hn⟩
    | exited h =>
      have := (Wakes.state_eq hwakes' p).2.2 h
      exact .of_ended (.inl this) hfree
    | receives i h => exact absurd ⟨h.valid, h.blocked⟩ hblocked
    | selects i h => exact absurd ⟨h.valid, h.blocked⟩ hblocked
    | parked i h => exact absurd ⟨h.valid, h.blocked⟩ hblocked
  · rename_i k₂ hk₂
    have hend := schedulerTerminate_releases (htorn.rests hk) hk₂ (fun _ _ h => h) (.inl hclear')
    have hspec := (schedulerTerminate_spec hk₂).2.2
    have hcur₂ : k₂.current = k.current := hspec.currentPid.trans hcur
    have hend' := hend.mono (f := (k.closeFate target).withdrawing target)
      fun p r hp => .inr (closeFate_mono htorn.less hquiet' target p r hp)
    refine (((htorn.trans hend').ret hcur₂ 0).resolve hdrop fun p _ _ hfree hp' => ?_).serves hk hs
    rcases hp' with ⟨rfl, -⟩ | hp'
    · exact .of_ended hspec.ended hfree
    · exact .dropped hfree hp'

theorem syscallReapExited_serves :
    Serves (fun p r => ∃ q, k.sched.state q = .exited ∧ k.closeFate q p r) k
      k.syscallReapExited := by
  unfold syscallReapExited
  split
  · exact (ret2_releases k _ u64Max 0).serves hk hs
  · rename_i child status k₁ hreap
    have hreap' := schedulerReapExited_eq hreap
    obtain ⟨hexited, -, hexits⟩ := schedulerReap_spec hreap'
    have h := (schedulerReap_releases hk hreap').mono
      (f := fun p r => ∃ q, k.sched.state q = .exited ∧ k.closeFate q p r)
      fun p r hp => ⟨child, hexited, hp⟩
    exact (h.ret2 hexits.currentPid _ _).serves hk hs

omit hk hs in
theorem unreaped_child {child : ℕ} {t : Task}
    (hreap : k.schedulerReap k.sched.currentPid child = none)
    (hrefused : ¬(processLimit ≤ child ∨ (k.sched.tasks child).parentPid ≠ k.sched.currentPid
      ∨ k.sched.state child = .unused))
    (ht : t.state ≠ .exited ∧ t.state ≠ .unused)
    (hparent : t.parentPid = (k.sched.tasks k.current).parentPid) :
    (k.sched.setTask k.current t).LiveChild k.current child := by
  simp only [not_or, not_le, not_not] at hrefused
  obtain ⟨hbound, hpar, hused⟩ := hrefused
  rcases eq_or_ne child k.current with rfl | hne
  · refine ⟨hbound, fun _ hended => ?_, ?_⟩
    · simp only [Ended, state, setTask_tasks, Function.update_self] at hended
      exact hended.elim ht.1 ht.2
    · simp only [setTask_tasks, Function.update_self]
      exact hparent.trans hpar
  · refine ⟨hbound, fun hpos hended => ?_, ?_⟩
    · simp only [Ended, state, setTask_tasks, Function.update_of_ne hne] at hended
      refine hended.elim (fun hexited => ?_) hused
      unfold schedulerReap at hreap
      rw [if_neg] at hreap
      · cases hreap
      · simp only [not_or, not_le, not_not]
        exact ⟨hpos, hbound, hpar, hexited⟩
    · simp only [setTask_tasks, Function.update_of_ne hne]
      exact hpar

theorem schedulerOnWait_serves (hu : k.userMode) (child : ℕ) :
    Serves (fun p r => ∃ q, k.sched.state q = .exited ∧ k.closeFate q p r) k
      (k.schedulerOnWait child) := by
  unfold schedulerOnWait
  simp only
  split
  · rename_i status k₁ hreap
    obtain ⟨hexited, -, hexits⟩ := schedulerReap_spec hreap
    have h := (schedulerReap_releases hk hreap).mono
      (f := fun p r => ∃ q, k.sched.state q = .exited ∧ k.closeFate q p r)
      fun p r hp => ⟨child, hexited, hp⟩
    have hret := setFrame_releases (fun p r => ∃ q, k.sched.state q = .exited ∧ k.closeFate q p r)
      k₁ k.current { k₁.sched.frames k.current with rax := UInt64.ofNat child, rdx := status }
    exact ((h.leaveOut k.current).trans hret).serves hk hs
  · rename_i hreap
    split_ifs with hrefused
    · exact (setFrame_releases _ k k.current _).serves hk hs
    · have huntimed := current_untimed hk hs hu
      let t : Task := { k.sched.tasks k.current with state := .blocked, waitingFor := some child }
      have hchild := unreaped_child (t := t) hreap hrefused (by simp [t]) rfl
      refine block_serves _ (t := t) hk hu.2 (fun _ _ _ _ => Iff.rfl) hk.bound ?_ (by simp [t])
        (by simp [t]) (.of_untimed huntimed) (.inl (by simp [t])) fun c hc => ?_
      · exact .free (hk.current_free hs hu.2)
      · obtain rfl : child = c := Option.some.inj hc
        exact hchild

end

/-! ## Spawning -/

theorem spawned_rests {k k₁ : Kernel} {parent : ℕ} (hk : Rests 0 k)
    (hspawns : Spawns parent k.sched k₁.sched) (hsame : SameWaits k k₁) :
    (∀ p, p ≠ 0 → Spared k k₁ p)
      ∧ (∀ p, k₁.sched.state p = .blocked → k₁.sched.tasks p = k.sched.tasks p)
      ∧ (∀ p, k₁.sched.Ended p → k.sched.Ended p)
      ∧ Rests 0 k₁ := by
  have htokens : ∀ p t, k₁.Awaits p t ↔ k.Awaits p t := by
    intro p t
    cases t with
    | message i m => simp only [Awaits, hsame.ipc]
    | room i => simp only [Awaits, hsame.ipc]
    | event => simp only [Awaits, hsame.input]
  have hspared : ∀ p, p ≠ 0 → Spared k k₁ p := by
    refine fun p hp => ⟨htokens p, fun hfree => ?_⟩
    rcases hspawns p with heq | ⟨-, hunused, -⟩
    · exact heq
    · refine absurd ((hk.asleep p hp hp).free_of_awake ?_ ?_) hfree
      · rw [hunused]
        decide
      · rw [hunused]
        decide
  refine ⟨hspared, fun p hb => ?_, fun p he => ?_,
    fun p hp _ => (hk.asleep p hp hp).spared (hspared p hp),
    fun i hi => hk.bound i (hsame.ipc ▸ hi), fun p hp => ?_⟩
  · rcases hspawns p with heq | ⟨-, -, space, ht⟩
    · exact heq
    · unfold state at hb
      rw [ht] at hb
      cases hb
  · rcases hspawns p with heq | ⟨-, hunused, -⟩
    · unfold Ended state at he ⊢
      rw [← heq]
      exact he
    · exact .inr hunused
  · rcases hspawns p with heq | ⟨-, -, space, ht⟩
    · rw [heq]
      exact hk.settled p hp
    · rw [ht]
      exact .of_untimed rfl

section

variable {k : Kernel} (hk : Rests 0 k) (hs : k.sched.Inv)

include hk hs

theorem spawned_serves {k' : Kernel} {fate : Fate} (parent : ℕ) (path : List UInt8)
    (mask : BitVec 32)
    (h : ∀ k₁, k₁ = (k.userspaceSpawnPath parent path mask).2 → Rests 0 k₁ → k₁.sched.Inv →
      k₁.current = k.current → Serves fate k₁ k') : Serves fate k k' := by
  obtain ⟨hspared, hsleeps, hends, hrests⟩ := spawned_rests hk
    (userspaceSpawnPath_spawns k parent path mask) (userspaceSpawnPath_same k parent path mask)
  have hcur := userspaceSpawnPath_currentPid k parent path mask
  exact (h _ rfl hrests (userspaceSpawnPath_inv hs parent path mask) hcur).after
    (fun p hp _ => hspared p hp) hsleeps (fun p _ => hends p) hcur

theorem syscallSpawn_serves (fate : Fate) (f : Frame) (user : ℕ → UInt8) :
    Serves fate k (k.syscallSpawn f user) := by
  unfold syscallSpawn
  split
  · exact (ret_releases k fate u64Max).serves hk hs
  · refine spawned_serves hk hs k.current (readUser user f.rdi.toNat f.rsi.toNat)
      (BitVec.ofNat 32 f.rdx.toNat) fun k₁ heq hrests hinv _ => ?_
    simp only
    rw [← heq]
    exact (ret_releases k₁ fate _).serves hrests hinv

theorem cancelWaits_spares (hne : k.current ≠ 0) :
    (∀ p, p ≠ k.current → Spared k (k.cancelWaits k.current) p)
      ∧ Rests 0 (k.cancelWaits k.current) := by
  have hfree := hk.current_free hs hne
  have h := (cancelWaits_releases hk (q := k.current) (fun _ => .inl fun i => hfree _)
    fun _ _ => False).1
  exact ⟨fun p hp => ⟨fun t => ⟨cancelWaits_less k _ p t, cancelWaits_other k hp t⟩, fun _ => rfl⟩,
    h.rests hk⟩

theorem syscallSpawnAndWait_serves (hu : k.userMode) (f : Frame) (user : ℕ → UInt8) :
    Serves (fun p r => ∃ q, k.sched.state q = .exited ∧ k.closeFate q p r) k
      (k.syscallSpawnAndWait f user) := by
  unfold syscallSpawnAndWait
  split
  · exact (ret_releases k _ u64Max).serves hk hs
  · obtain ⟨hspared, hrests⟩ := cancelWaits_spares hk hs hu.2
    have hless := cancelWaits_less k k.current
    have hquiet := (cancelWaits_lifecycle k k.current).ipc
    have hsched : (k.cancelWaits k.current).sched = k.sched := rfl
    have hcur : (k.cancelWaits k.current).current = k.current := rfl
    generalize k.cancelWaits k.current = k₁ at *
    refine Serves.after (spawned_serves hrests (by rw [hsched]; exact hs) k.current
      (readUser user f.rdi.toNat f.rsi.toNat) (BitVec.ofNat 32 f.rdx.toNat)
      fun k₂ heq hrests₂ hinv hcur₂ => ?_) (fun p _ hd => hspared p hd)
      (fun p _ => by rw [hsched]) (fun p _ he => hsched ▸ he) hcur
    have hsame := userspaceSpawnPath_same k₁ k.current (readUser user f.rdi.toNat f.rsi.toNat)
      (BitVec.ofNat 32 f.rdx.toNat)
    have hspawns := userspaceSpawnPath_spawns k₁ k.current (readUser user f.rdi.toNat f.rsi.toNat)
      (BitVec.ofNat 32 f.rdx.toNat)
    rw [← heq] at hsame hspawns
    generalize k₁.userspaceSpawnPath k.current (readUser user f.rdi.toNat f.rsi.toNat)
      (BitVec.ofNat 32 f.rdx.toNat) = r at heq ⊢
    obtain ⟨child, k₃⟩ := r
    subst heq
    cases child with
    | none => exact (ret_releases k₂ _ u64Max).serves hrests₂ hinv
    | some child =>
      have hu₂ : k₂.userMode := by
        have hne : k₂.sched.currentPid ≠ 0 := by
          rw [show k₂.sched.currentPid = k₁.current from hcur₂, hcur]
          exact hu.2
        exact ⟨hinv.userMode hne, hne⟩
      refine (schedulerOnWait_serves hrests₂ hinv hu₂ child).mono ?_
      rintro p r ⟨q, hexited, hclose⟩
      have hstate : k.sched.state q = .exited := by
        rcases hspawns q with heq | ⟨-, -, space, ht⟩
        · unfold state at hexited ⊢
          rw [← hsched, ← heq]
          exact hexited
        · unfold state at hexited
          rw [ht] at hexited
          cases hexited
      refine ⟨q, hstate, closeFate_mono hless hquiet q p r ?_⟩
      unfold closeFate at hclose ⊢
      rw [hsame.ipc] at hclose
      exact hclose

theorem syscallIpcCreate_serves (fate : Fate) (f : Frame) (user : ℕ → UInt8) :
    Serves fate k (k.syscallIpcCreate f user) := by
  unfold syscallIpcCreate
  split
  · exact (ret_releases k fate u64Max).serves hk hs
  · simp only
    generalize readUser user f.rdi.toNat f.rsi.toNat = name
    have hcreate := ipcCreate_cases k.ipc k.objects.caps k.current name
    generalize k.ipc.ipcCreate k.objects.caps k.current name = r at hcreate
    have hspared : (∀ p, Spared k ((k.withIpc r.2.1).withObjects
        { k.objects with caps := r.2.2 }) p) := by
      refine fun p => ⟨fun t => ?_, fun _ => rfl⟩
      rcases hcreate with heq | ⟨i, live, -, hinactive, heq⟩
      · cases t <;> simp [Awaits, heq]
      · cases t with
        | message j m =>
          rcases eq_or_ne j i with rfl | hne
          · simp [Awaits, heq, IpcChannel.Waits, hinactive]
          · simp [Awaits, heq, hne]
        | room j =>
          rcases eq_or_ne j i with rfl | hne
          · simp [Awaits, heq, IpcChannel.Parks, hinactive]
          · simp [Awaits, heq, hne]
        | event => simp [Awaits]
    have hrests : Rests 0 ((k.withIpc r.2.1).withObjects { k.objects with caps := r.2.2 }) := by
      refine ⟨fun p hp _ => (hk.asleep p hp hp).spared (hspared p), fun j hj => ?_, hk.settled⟩
      rcases hcreate with heq | ⟨i, live, hlt, -, heq⟩
      · exact hk.bound j (heq ▸ hj)
      · rcases eq_or_ne j i with rfl | hne
        · exact hlt
        · exact hk.bound j (by simpa [heq, hne] using hj)
    refine Serves.after ((ret_releases _ fate _).serves hrests hs) (fun p _ _ => hspared p)
      (fun _ _ => rfl) (fun _ _ he => he) rfl

end

/-! ## Messages -/

section

variable {k : Kernel}

/-- What a call of `ipc_send` may do to sleepers. -/
def sendsFate (k : Kernel) (handle : ℕ) (data : List UInt8) : Fate := fun p r =>
  ∃ i, k.ipc.resolve k.objects.caps k.current handle rightSend = some i
    ∧ k.sendFate i k.current data p r

def receivesFate (k : Kernel) (handle : ℕ) : Fate := fun p r =>
  ∃ i, k.ipc.resolve k.objects.caps k.current handle rightReceive = some i ∧ k.drainFate i p r

theorem ipcReceive_eq {k' : Kernel} {pid handle capacity : ℕ} {m : IpcMessage}
    (h : k.ipcReceive pid handle capacity = some (m, k')) :
    ∃ i, k.ipc.resolve k.objects.caps pid handle rightReceive = some i
      ∧ (k.ipc.channels i).count ≠ 0
      ∧ m = (k.ipc.channels i).messages (k.ipc.channels i).read ∧ m.data.length ≤ capacity
      ∧ k' = k.drainSlot i := by
  unfold ipcReceive at h
  split at h
  · cases h
  · rename_i i hi
    simp only at h
    split_ifs at h with hc
    simp only [not_or, not_lt] at hc
    obtain ⟨rfl, rfl⟩ := h
    exact ⟨i, hi, hc.1, rfl, hc.2, rfl⟩

variable (hk : Rests 0 k) (hs : k.sched.Inv)

include hk

theorem ipcReceive_releases {k' : Kernel} {handle capacity : ℕ} {m : IpcMessage}
    (h : k.ipcReceive k.current handle capacity = some (m, k')) :
    Releases (k.receivesFate handle) 0 k k' ∧ k'.current = k.current := by
  have hwakes := ipcReceive_wakes h
  obtain ⟨i, hi, -, -, -, rfl⟩ := ipcReceive_eq h
  refine ⟨(drainSlot_releases hk (resolve_active hi)).mono fun p r hp => ⟨i, hi, hp⟩, ?_⟩
  exact hwakes.currentPid

include hs

theorem syscallSend_serves (hu : k.userMode) (f : Frame) (user : ℕ → UInt8) :
    Serves (k.sendsFate f.rdi.toNat (readUser user f.rsi.toNat f.rdx.toNat)) k
      (k.syscallSend f user) := by
  unfold syscallSend
  split
  · exact (ret_releases k _ u64Max).serves hk hs
  unfold ipcSendBlock ipcSendImpl
  cases hi : k.ipc.resolve k.objects.caps k.current f.rdi.toNat rightSend with
  | none => exact (ret_releases k _ u64Max).serves hk hs
  | some i =>
    have hactive := resolve_active hi
    simp only
    generalize readUser user f.rsi.toNat f.rdx.toNat = data
    split_ifs with hlength hwaiter hfull hpark
    · exact (ret_releases k _ u64Max).serves hk hs
    · have h := (deliverToWaiter_releases hk hactive hwaiter k.current data).mono
        (f := k.sendsFate f.rdi.toNat data) fun p r hp => ⟨i, hi, hp⟩
      have hcur := (deliverToWaiter_wakes k i k.current data).currentPid
      have hparked : (k.deliverToWaiter i k.current data).1 ≠ .parked := by
        unfold deliverToWaiter
        simp only
        split_ifs
        · simp
        · split <;> simp
      generalize k.deliverToWaiter i k.current data = r at *
      obtain ⟨result, k₁⟩ := r
      cases result with
      | failed => exact (h.ret hcur u64Max).serves hk hs
      | delivered => exact (h.ret hcur f.rdx).serves hk hs
      | parked => exact absurd rfl hparked
    · exact (ret_releases k _ u64Max).serves hk hs
    · simp only [Bool.not_true, Bool.false_or, Bool.not_eq_true] at hpark
      exact send_blocks hk hs hu _ hactive hpark rfl rfl
    · have hpush : Releases (k.sendsFate f.rdi.toNat data) 0 k
          (k.setChannel i ((k.ipc.channels i).push { sender := k.current, data := data })) := by
        refine releases_of_same rfl (fun _ _ => rfl) (fun j => ?_) rfl
        rcases eq_or_ne j i with rfl | hne
        · simp [IpcChannel.push]
        · simp [hne]
      exact (hpush.ret rfl f.rdx).serves hk hs

theorem syscallReceive_serves (hu : k.userMode) (f : Frame) :
    Serves (k.receivesFate f.rdi.toNat) k (k.syscallReceive f) := by
  unfold syscallReceive
  split
  · exact (ret_releases k _ u64Max).serves hk hs
  · split
    · rename_i m k₁ hr
      obtain ⟨h, hcur⟩ := ipcReceive_releases hk hr
      split
      · exact (h.ret hcur u64Max).serves hk hs
      · exact (h.ret2 hcur _ _).serves hk hs
    · split
      · exact (ret_releases k _ u64Max).serves hk hs
      · split
        · exact (ret_releases k _ u64Max).serves hk hs
        · rename_i ipc hwait
          obtain ⟨i, hi, hwaiter, rfl⟩ := registerWait_spec hwait
          exact receive_blocks hk hs hu _ (resolve_active hi) hwaiter rfl rfl rfl

end

section

variable {k : Kernel} (hk : Rests 0 k) (hs : k.sched.Inv)

include hk hs

theorem registered_cancel (hne : k.current ≠ 0) {i : ℕ} {w : IpcWaiter}
    (hactive : (k.ipc.channels i).active = true)
    (hwaiter : (k.ipc.channels i).waiter.active = false) (hw : w.active = true)
    (hpid : w.pid = k.current) :
    (k.ipc.setChannel i { k.ipc.channels i with waiter := w }).ipcCancelWait k.current
      = k.ipc.setChannel i { k.ipc.channels i with waiter := { w with active := false } } := by
  have hawaits := setWaiter_awaits hactive hwaiter hw
  have hfree := hk.current_free hs hne
  have hself : (k.setChannel i { k.ipc.channels i with waiter := w }).Awaits k.current
      (.message i w.multiplex) := (hawaits _ _).2 (.inr ⟨hpid.symm, rfl⟩)
  rcases Ipc.ipcCancelWait_cases (k.ipc.setChannel i { k.ipc.channels i with waiter := w })
    k.current with ⟨-, hnone⟩ | ⟨j, m, hj, heq⟩
  · exact absurd hself (hnone i (hk.bound i hactive) w.multiplex)
  · have hji : j = i := by
      have := ((hawaits k.current (.message j m)).1 hj).resolve_left (hfree _)
      simp only [Token.message.injEq] at this
      exact this.2.1
    subst hji
    rw [heq]
    simp [Ipc.setChannel, IpcChannel.clearWaiter]

theorem withdrawn_serves (fate : Fate) (hne : k.current ≠ 0) {i : ℕ} {w : IpcWaiter}
    (hactive : (k.ipc.channels i).active = true)
    (hwaiter : (k.ipc.channels i).waiter.active = false) (hw : w.active = true)
    (hpid : w.pid = k.current) (rax : UInt64) :
    Serves fate k ((k.withIpc ((k.ipc.setChannel i
      { k.ipc.channels i with waiter := w }).ipcCancelWait k.current)).ret rax) := by
  rw [registered_cancel hk hs hne hactive hwaiter hw hpid]
  have htokens : ∀ p t, (k.withIpc (k.ipc.setChannel i
      { k.ipc.channels i with waiter := { w with active := false } })).Awaits p t
        ↔ k.Awaits p t := by
    intro p t
    cases t with
    | message j m =>
      rcases eq_or_ne j i with rfl | hj
      · simp [Awaits, IpcChannel.Waits, hwaiter]
      · simp [Awaits, hj]
    | room j =>
      rcases eq_or_ne j i with rfl | hj
      · simp [Awaits, IpcChannel.Parks]
      · simp [Awaits, hj]
    | event => simp [Awaits]
  have h : Releases fate 0 k (k.withIpc (k.ipc.setChannel i
      { k.ipc.channels i with waiter := { w with active := false } })) := by
    refine releases_of_tokens rfl (fun _ _ => rfl) (fun p t => (htokens p t).1)
      (fun p _ _ => .inl fun t => (htokens p t).2) fun j hj => ?_
    rcases eq_or_ne j i with rfl | hne
    · exact hactive
    · simpa [hne] using hj
  exact (h.ret rfl rax).serves hk hs

theorem unregistered_serves (fate : Fate) (hne : k.current ≠ 0) (rax : UInt64) :
    Serves fate k ((k.withIpc (k.ipc.ipcCancelWait k.current)).ret rax) := by
  have hfree := hk.current_free hs hne
  rcases Ipc.ipcCancelWait_cases k.ipc k.current with ⟨heq, -⟩ | ⟨i, m, hi, -⟩
  · rw [heq]
    exact (ret_releases k fate rax).serves hk hs
  · exact absurd hi (hfree (.message i m))

theorem syscallSelect_serves (hu : k.userMode) (f : Frame) :
    Serves (k.receivesFate f.rdi.toNat) k (k.syscallSelect f) := by
  unfold syscallSelect
  split
  · exact (ret_releases k _ u64Max).serves hk hs
  split
  · rename_i m k₁ hr
    obtain ⟨h, hcur⟩ := ipcReceive_releases hk hr
    exact (h.ret2 hcur _ _).serves hk hs
  split
  · rename_i event input hpoll
    have hpolled : Releases (k.receivesFate f.rdi.toNat) 0 k (k.withInput input) := by
      refine releases_of_same rfl (fun _ _ => rfl) (fun _ => ⟨rfl, rfl, rfl⟩) ?_
      unfold Input.inputPoll at hpoll
      split_ifs at hpoll
      simp only [Option.some.injEq, Prod.mk.injEq] at hpoll
      rw [withInput_input, ← hpoll.2]
    exact (hpolled.ret2 rfl _ _).serves hk hs
  split
  · exact unregistered_serves hk hs _ hu.2 u64Max
  · rename_i ipc hwait
    obtain ⟨i, hi, hwaiter, rfl⟩ := registerWait_spec hwait
    have hactive := resolve_active hi
    split
    · exact withdrawn_serves hk hs _ hu.2 hactive hwaiter rfl rfl u64Max
    · rename_i input hinput
      have huntimed := current_untimed hk hs hu
      split_ifs with htimed
      · have heq : k.sched.blockCurrentTimeout f.r8 3 = (k.sched.setTask k.current
            { k.sched.tasks k.current with
              state := .blocked, wakeTick := k.sched.ticks + f.r8, timeoutResult := 3
              timedWait := true, waitingFor := none }).reschedule := by
          unfold blockCurrentTimeout
          rw [if_neg]
          · rfl
          · simp only [not_or, Bool.not_eq_false]
            exact ⟨hu.1, hu.2, htimed⟩
        rw [heq]
        refine select_blocks hk hs hu _ hactive hwaiter rfl rfl rfl hinput rfl rfl ?_
        exact ⟨fun h => by simp at h, fun _ h => by simp at h, fun _ => rfl⟩
      · rw [blockCurrent_eq hu]
        exact select_blocks hk hs hu _ hactive hwaiter rfl rfl rfl hinput rfl rfl
          (.of_untimed huntimed)

end

/-! ## One step -/

def closers (k : Kernel) : Event → ℕ → Prop
  | .syscall registers _ _, q => (registers.rax.toNat = 2 ∧ q = k.current)
      ∨ (registers.rax.toNat = 13 ∧ q = low32 registers.rdi) ∨ k.sched.state q = .exited
  | .kernel (.kill pid), q => q = pid
  | .kernel _, q => k.sched.state q = .exited
  | _, _ => False

/-- What an event may do to the sleepers. -/
def fate (k : Kernel) (e : Event) : Fate := fun p r =>
  (∃ q, k.closers e q ∧ k.closeFate q p r) ∨ match e with
    | .syscall registers user _ =>
      (registers.rax.toNat = 16 ∧ k.sendsFate registers.rdi.toNat
        (readUser user registers.rsi.toNat registers.rdx.toNat) p r)
      ∨ ((registers.rax.toNat = 17 ∨ registers.rax.toNat = 26)
        ∧ k.receivesFate registers.rdi.toNat p r)
    | .timerTick _ => k.tickFate p r
    | .input _ => k.inputFate p r
    | .kernel (.kill pid) => p = pid ∧ r = .killed
    | .kernel _ => False

theorem enter_spared (k : Kernel) (registers : Frame) (p : ℕ) : Spared k (k.enter registers) p :=
  ⟨fun t => by cases t <;> exact Iff.rfl, fun _ => rfl⟩

theorem Rests.enter (hk : Rests 0 k) (registers : Frame) :
    Rests 0 (k.enter registers) :=
  ⟨fun p hp _ => (hk.asleep p hp hp).spared (enter_spared k registers p), hk.bound, hk.settled⟩

theorem syscallDispatch_serves (hk : Rests 0 k) (hs : k.sched.Inv) (hu : k.userMode)
    (registers : Frame) (user : ℕ → UInt8) (dev : Devices) :
    Serves (k.fate (.syscall registers user dev)) (k.enter registers)
      ((k.enter registers).syscallDispatch user dev) := by
  have hk₁ := hk.enter registers
  have hs₁ : (k.enter registers).sched.Inv := (enter_same k registers).wakes.inv hs
  have hu₁ : (k.enter registers).userMode := hu
  have hcontrol := (k.enter registers).syscallDispatch_control user dev
  rw [enter_frame] at hcontrol
  generalize (k.enter registers).syscallDispatch user dev = k' at hcontrol
  rcases hcontrol with hlocal | control
  · exact hlocal.serves _ hk₁ hs₁
  have hreaps : ∀ p r, (∃ q, (k.enter registers).sched.state q = .exited
      ∧ (k.enter registers).closeFate q p r) → k.fate (.syscall registers user dev) p r :=
    fun p r ⟨q, hq, hclose⟩ => .inl ⟨q, .inr (.inr hq), hclose⟩
  cases control with
  | yield => exact yield_serves hk₁ hs₁ _
  | exit number =>
    exact (syscallExit_serves hk₁ hs₁ _).mono fun p r h => .inl ⟨_, .inl ⟨number, rfl⟩, h⟩
  | write => exact (syscallWrite_local _ _ user).serves_of_files _ hk₁ hs₁
  | openFile => exact (syscallOpenFile_local _ _ user).serves_of_files _ hk₁ hs₁
  | delete => exact (syscallDelete_local _ _ user).serves_of_files _ hk₁ hs₁
  | rename => exact (syscallRename_local _ _ user).serves_of_files _ hk₁ hs₁
  | spawn number => exact syscallSpawn_serves hk₁ hs₁ _ _ user
  | wait => exact (schedulerOnWait_serves hk₁ hs₁ hu₁ _).mono hreaps
  | terminate number =>
    exact (syscallTerminate_serves hk₁ hs₁ _).mono fun p r h => .inl ⟨_, .inr (.inl ⟨number, rfl⟩), h⟩
  | ipcCreate => exact syscallIpcCreate_serves hk₁ hs₁ _ _ user
  | send number =>
    exact (syscallSend_serves hk₁ hs₁ hu₁ _ user).mono fun p r h => .inr (.inl ⟨number, h⟩)
  | receive number =>
    exact (syscallReceive_serves hk₁ hs₁ hu₁ _).mono fun p r h => .inr (.inr ⟨.inl number, h⟩)
  | select number =>
    exact (syscallSelect_serves hk₁ hs₁ hu₁ _).mono fun p r h => .inr (.inr ⟨.inr number, h⟩)
  | spawnAndWait => exact (syscallSpawnAndWait_serves hk₁ hs₁ hu₁ _ user).mono hreaps
  | reapExited => exact (syscallReapExited_serves hk₁ hs₁).mono hreaps

theorem Releases.serves_idle {fate : Fate} {k k' : Kernel} (h : Releases fate 0 k k')
    (hk : Rests 0 k) (hs : k.sched.Inv) : Serves fate k k' :=
  (h.leaveOut k.current).serves hk hs

theorem kernelCall_serves (hk : Rests 0 k) (hs : k.sched.Inv)
    (hcur : k.current = 0) (call : KernelCall) :
    Serves (k.fate (.kernel call)) k (k.kernelCall call) := by
  cases call with
  | init image =>
    simp only [kernelCall]
    split_ifs
    · exact refl_serves _ hk hs
    · cases h : k.userspaceInit image with
      | none => exact refl_serves _ hk hs
      | some k₁ =>
        obtain ⟨hspared, hsleeps, hends, hrests⟩ := spawned_rests hk (userspaceInit_spawns h)
          (userspaceInit_same h)
        refine ⟨fun p hp _ => .spared (hspared p hp), hrests, fun p _ => hsleeps p,
          fun p _ he => .inl (hends p he),
          fun hne => absurd hcur hne, fun hne => absurd hcur hne, fun hne => absurd hcur hne⟩
  | startUsers =>
    simp only [kernelCall]
    split_ifs
    · cases h : k.sched.startUsers with
      | none => exact refl_serves _ hk hs
      | some s => exact (leaves_releases _ (startUsers_leaves h) hk).serves_idle hk hs
    · exact refl_serves _ hk hs
  | spawn path mask =>
    exact spawned_serves hk hs 0 path mask fun k₁ heq hrests hinv _ => by
      rw [kernelCall, ← heq]
      exact refl_serves _ hrests hinv
  | reap child =>
    simp only [kernelCall]
    cases h : k.schedulerReap 0 child with
    | none => exact refl_serves _ hk hs
    | some r =>
      have hexited := (schedulerReap_spec h).1
      exact ((schedulerReap_releases hk h).mono
        fun p r hp => .inl ⟨child, hexited, hp⟩).serves_idle hk hs
  | kill pid =>
    simp only [kernelCall]
    cases h : k.schedulerTerminate pid 137 with
    | none => exact refl_serves _ hk hs
    | some k₁ =>
      exact (schedulerTerminate_releases hk h (fun p r hp => .inl ⟨pid, rfl, hp⟩)
        (.inr (.inr ⟨rfl, rfl⟩))).serves_idle hk hs
  | discardInput => exact serves_of_same _ hk hs rfl rfl rfl
  | file call => exact serves_of_same _ hk hs rfl rfl rfl

theorem step_serves (hk : Rests 0 k) (hs : k.sched.Inv) (e : Event) :
    Serves (k.fate e) k (k.step e) := by
  cases e with
  | syscall registers user dev =>
    simp only [step]
    split_ifs with hu
    · exact (syscallDispatch_serves hk hs hu registers user dev).after
        (fun p _ _ => enter_spared k registers p) (fun _ _ => rfl) (fun _ _ he => he) rfl
    · exact refl_serves _ hk hs
  | timerTick registers =>
    simp only [step]
    split_ifs with hu
    · have hs₁ : (k.enter registers).sched.Inv := (enter_same k registers).wakes.inv hs
      have hk₁ := hk.enter registers
      have h := (schedulerOnTimerTick_releases hk₁ hs₁).mono (f := k.fate (.timerTick registers))
        fun p r hp => .inr hp
      exact (h.serves_idle hk₁ hs₁).after (fun p _ _ => enter_spared k registers p)
        (fun _ _ => rfl) (fun _ _ he => he) rfl
    · exact ((schedulerOnTimerTick_releases hk hs).mono fun p r hp => .inr hp).serves_idle hk hs
  | input event =>
    exact ((inputPublish_releases hk event).mono fun p r hp => .inr hp).serves_idle hk hs
  | kernel call =>
    simp only [step]
    split_ifs with hu
    · exact refl_serves _ hk hs
    · rw [Bool.not_eq_true] at hu
      exact kernelCall_serves hk hs (hs.idle hu) call

theorem fresh_rests (b : BootInfo) : Rests 0 (fresh b) where
  asleep p _ _ := by
    refine .free fun t ht => ?_
    cases t with
    | message i m => exact absurd ht.1 (by simp [fresh])
    | room i => exact absurd ht.1 (by simp [fresh])
    | event => exact absurd ht.1 (by simp [fresh])
  bound i hi := by simp [fresh] at hi
  settled _ _ := .of_untimed rfl

/-- What holds in every state of every run. -/
structure Calm (k : Kernel) : Prop where
  rests : Rests 0 k
  procs : ProcInv k

theorem step_calm (hk : Calm k) (e : Event) : Calm (k.step e) :=
  ⟨(step_serves hk.rests hk.procs.sched e).rests, step_procInv hk.procs e⟩

theorem fresh_calm (b : BootInfo) : Calm (fresh b) := ⟨fresh_rests b, fresh_procInv b⟩

theorem runFrom_calm (b : BootInfo) (events : List Event) : Calm (runFrom b events) :=
  Machine.run_inv step (I := Calm) (fun _ e hk => step_calm hk e) events _ (fresh_calm b)

/-! ## Processes that have ended -/

def killTarget : Event → Option ℕ
  | .kernel (.kill pid) => some pid
  | _ => none

theorem fate_killed (h : k.fate e p .killed) :
    e = .kernel (.kill p) := by
  rcases h with ⟨q, -, ⟨-, hr⟩ | ⟨hr, -⟩⟩ | h
  · cases hr
  · cases hr
  · cases e with
    | syscall registers user dev =>
      rcases h with ⟨-, i, -, -, -, hr⟩ | ⟨-, i, -, -, -, hr⟩
      · split_ifs at hr
      · cases hr
    | timerTick registers => cases h.2.2.2
    | input event =>
      have hr := h.2
      split_ifs at hr
    | kernel call =>
      cases call with
      | kill pid => rw [h.1]
      | _ => exact h.elim

theorem fate_withdrawn (h : k.fate e p .withdrawn) :
    (∃ f user dev i, e = .syscall f user dev ∧ f.rax.toNat = 16
        ∧ k.ipc.resolve k.objects.caps k.current f.rdi.toNat rightSend = some i
        ∧ (k.ipc.channels i).waiter.active = true ∧ (k.ipc.channels i).waiter.pid = p
        ∧ k.accepts (k.ipc.channels i).waiter f.rdx.toNat = false)
      ∨ ∃ event, e = .input event ∧ k.input.Waits p
        ∧ k.userspaceCopyTo p k.input.waiter.address inputEventSize = false := by
  rcases h with ⟨q, -, ⟨-, hr⟩ | ⟨hr, -⟩⟩ | h
  · cases hr
  · cases hr
  · cases e with
    | syscall f user dev =>
      rcases h with ⟨number, i, hi, hactive, hpid, hr⟩ | ⟨-, i, -, -, -, hr⟩
      · have hlength : (readUser user f.rsi.toNat f.rdx.toNat).length = f.rdx.toNat := by
          simp [readUser]
        rw [hlength] at hr
        split_ifs at hr with haccepts
        exact .inl ⟨f, user, dev, i, rfl, number, hi, hactive, hpid, Bool.not_eq_true _ ▸ haccepts⟩
      · cases hr
    | timerTick registers => cases h.2.2.2
    | input event =>
      obtain ⟨hwaits, hr⟩ := h
      split_ifs at hr with hcopies
      exact .inr ⟨event, rfl, hwaits, Bool.not_eq_true _ ▸ hcopies⟩
    | kernel call =>
      cases call with
      | kill pid => cases h.2
      | _ => exact h.elim

theorem fate_ended (h : k.fate e p .ended) : k.closers e p := by
  rcases h with ⟨q, hq, ⟨rfl, -⟩ | ⟨hr, -⟩⟩ | h
  · exact hq
  · cases hr
  · cases e with
    | syscall registers user dev =>
      rcases h with ⟨-, i, -, -, -, hr⟩ | ⟨-, i, -, -, -, hr⟩
      · split_ifs at hr
      · cases hr
    | timerTick registers => cases h.2.2.2
    | input event =>
      have hr := h.2
      split_ifs at hr
    | kernel call =>
      cases call with
      | kill pid => cases h.2
      | _ => exact h.elim

theorem step_ends (hk : Calm k) (hp : p ≠ 0)
    (hlive : ¬k.sched.Ended p) (hended : (k.step e).sched.Ended p) :
    (∃ f user dev, e = .syscall f user dev ∧ k.userMode
        ∧ (f.rax.toNat = 2 ∧ p = k.current ∨ f.rax.toNat = 13 ∧ p = low32 f.rdi))
      ∨ (e = .kernel (.kill p) ∧ k.sched.usersRunning = false) := by
  have hcloses := fate_ended
    (((step_serves hk.rests hk.procs.sched e).ends p hp hended).resolve_left hlive)
  have hexited : k.sched.state p ≠ .exited := fun h => hlive (.inl h)
  cases e with
  | syscall f user dev =>
    by_cases hu : k.userMode
    · refine .inl ⟨f, user, dev, rfl, hu, ?_⟩
      rcases hcloses with h | h | h
      · exact .inl h
      · exact .inr h
      · exact absurd h hexited
    · simp only [step, if_neg hu] at hended
      exact absurd hended hlive
  | timerTick registers => exact hcloses.elim
  | input event => exact hcloses.elim
  | kernel call =>
    cases call with
    | kill pid =>
      obtain rfl : p = pid := hcloses
      refine .inr ⟨rfl, ?_⟩
      by_contra hidle
      simp only [step, Bool.not_eq_false _ ▸ hidle, if_true] at hended
      exact hlive hended
    | _ => exact absurd hcloses hexited

theorem step_exited_awaits {t : Token} (hk : Calm k) (hp : p ≠ 0)
    (hexited : (k.step e).sched.state p = .exited) (hkept : k.sched.state p = .exited → ¬k.Awaits p t)
    (hkill : e = .kernel (.kill p) → k.sched.usersRunning = false → ¬k.Awaits p t) :
    ¬(k.step e).Awaits p t := by
  have hserves := step_serves hk.rests hk.procs.sched e
  rcases eq_or_ne p k.current with rfl | hcur
  · refine (hserves.own hp).resolve_right (fun hb => ?_) t
    rw [hexited] at hb
    cases hb
  cases hserves.outcome p hp hcur with
  | spared h =>
    by_cases hf : k.Free p
    · exact h.free_iff.2 hf t
    · refine fun ht => hkept ?_ ((h.tokens t).1 ht)
      unfold state at hexited ⊢
      rw [← h.task hf]
      exact hexited
  | dropped free => exact free t
  | woken free => exact free t
  | exited _ less left =>
    rcases left with hf | he | hkilled
    · exact hf t
    · exact fun ht => hkept he (less t ht)
    · obtain rfl := fate_killed hkilled
      by_cases hidle : k.sched.usersRunning = true
      · simp only [step, hidle, if_true] at hexited ⊢
        exact hkept hexited
      · exact fun ht => hkill rfl (Bool.not_eq_true _ ▸ hidle) (less t ht)
  | gone free => exact free t

end Kernel

end DemonOS
