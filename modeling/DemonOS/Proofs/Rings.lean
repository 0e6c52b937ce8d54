import DemonOS.Proofs.Messages

/-!
# The ring of a channel as a queue

A channel whose indices agree (`Sound`) is a pipe: its ring is a queue of at most 32 messages, and a
sender is parked only where it is full. Every turn of a channel keeps the indices and is a step of
the pipe (`Turn.steps`), apart from a message handed straight to a process that waits.
-/

namespace DemonOS

namespace IpcChannel

/-- The indices of the ring agree with one another. -/
structure Indexed (c : IpcChannel) : Prop where
  read : c.read < ipcQueueDepth
  count : c.count ≤ ipcQueueDepth
  write : c.write = (c.read + c.count) % ipcQueueDepth

/-- What holds of every live channel. -/
structure Sound (c : IpcChannel) : Prop where
  indexed : c.Indexed
  full : c.sender.active = true → c.count = ipcQueueDepth
  fits : ∀ m ∈ c.queue, m.data.length ≤ ipcMessageMax
  staged : c.sender.active = true → c.sender.data.length ≤ ipcMessageMax

def pipe (c : IpcChannel) : Pipe IpcMessage :=
  { queue := c.queue, parked := if c.sender.active then some c.staged else none }

section

variable {c : IpcChannel}

theorem push_queue (h : c.Indexed) (hroom : c.count < ipcQueueDepth) (m : IpcMessage) :
    (c.push m).queue = c.queue ++ [m] := by
  unfold queue push
  simp only [h.write]
  exact Ring.contents_push hroom m

theorem pop_queue (h : c.Indexed) (hsome : c.count ≠ 0) : c.queue = c.head :: c.pop.queue := by
  unfold queue head pop
  rw [Ring.contents_pop hsome, Nat.mod_eq_of_lt h.read]

theorem push_indexed (h : c.Indexed) (hroom : c.count < ipcQueueDepth) (m : IpcMessage) :
    (c.push m).Indexed := by
  refine ⟨h.read, hroom, ?_⟩
  unfold push
  simp only [h.write, Nat.mod_add_mod, Nat.add_assoc]

theorem pop_indexed (h : c.Indexed) (hsome : c.count ≠ 0) : c.pop.Indexed := by
  have hcount := h.count
  refine ⟨Nat.mod_lt _ (by decide), ?_, ?_⟩
  · unfold pop
    simp only
    omega
  · unfold pop
    simp only [h.write, Nat.mod_add_mod]
    congr 1
    omega

theorem length_queue (c : IpcChannel) : c.queue.length = c.count := Ring.length_contents

theorem queue_of_kept {c' : IpcChannel} (h : c.Kept c') : c'.queue = c.queue := by
  unfold queue
  rw [h.messages, h.read, h.count]

theorem Kept.indexed {c' : IpcChannel} (h : c.Kept c') (hc : c.Indexed) : c'.Indexed :=
  ⟨by rw [h.read]; exact hc.read, by rw [h.count]; exact hc.count,
    by rw [h.write, h.read, h.count]; exact hc.write⟩

theorem Kept.sound {c' : IpcChannel} (h : c.Kept c') (hc : c.Sound) : c'.Sound := by
  refine ⟨h.indexed hc.indexed, fun hs => ?_, ?_, fun hs => ?_⟩
  · have heq := h.sender hs
    rw [h.count]
    exact hc.full (heq ▸ hs)
  · rw [queue_of_kept h]
    exact hc.fits
  · have heq := h.sender hs
    rw [heq]
    exact hc.staged (heq ▸ hs)

theorem clearSender_indexed (h : c.Indexed) : c.clearSender.Indexed := ⟨h.read, h.count, h.write⟩

theorem refill_queue (h : c.Indexed) (hsome : c.count ≠ 0) (m : IpcMessage) :
    (c.pop.clearSender.push m).queue = c.pop.queue ++ [m] := by
  have hcount := h.count
  refine push_queue (clearSender_indexed (pop_indexed h hsome)) ?_ m
  simp only [clearSender, pop]
  omega

end

end IpcChannel

namespace Kernel

open IpcChannel

section

variable {k : Kernel} {e : Event} {i : ℕ} {c : IpcChannel} {ins outs : List IpcMessage}

/-- A turn keeps the indices in order. -/
theorem Turn.sound (h : k.Turn e i c ins outs)
    (hc : (k.ipc.channels i).active = true → (k.ipc.channels i).Sound) (hactive : c.active = true) :
    c.Sound := by
  cases h with
  | keeps h => exact (h hactive).sound (hc (h hactive).active)
  | opens =>
    refine ⟨⟨Nat.zero_lt_succ _, Nat.zero_le _, rfl⟩, (fun h => by cases h), ?_,
      fun h => by cases h⟩
    simp [queue]
  | waits live =>
    obtain ⟨hindexed, hfull, hfits, hstaged⟩ := hc live
    exact ⟨⟨hindexed.read, hindexed.count, hindexed.write⟩, hfull, hfits, hstaged⟩
  | passes live => exact ((clearWaiter_calms _) hactive).sound (hc live)
  | accepts live idle room m fits =>
    obtain ⟨hindexed, hfull, hfits, hstaged⟩ := hc live
    have hroom := lt_of_le_of_ne hindexed.count room
    refine ⟨push_indexed hindexed hroom m, fun hs => absurd (hfull hs) room, ?_, hstaged⟩
    rw [push_queue hindexed hroom]
    intro m' hm'
    rcases List.mem_append.1 hm' with hm' | hm'
    · exact hfits m' hm'
    · rw [List.mem_singleton.1 hm']
      exact fits
  | parks user live idle full unparked data fits =>
    obtain ⟨hindexed, -, hfits, -⟩ := hc live
    exact ⟨⟨hindexed.read, hindexed.count, hindexed.write⟩, fun _ => full, hfits, fun _ => fits⟩
  | takes live some unparked =>
    obtain ⟨hindexed, -, hfits, -⟩ := hc live
    have hno : ∀ {P : Prop}, (k.ipc.channels i).pop.sender.active = true → P :=
      fun hs => absurd (unparked.symm.trans hs) (by simp)
    refine ⟨pop_indexed hindexed some, hno, fun m hm => hfits m ?_, hno⟩
    rw [pop_queue hindexed some]
    exact List.mem_cons_of_mem _ hm
  | refills live some parked =>
    obtain ⟨hindexed, hfull, hfits, hstaged⟩ := hc live
    have hcount := hindexed.count
    have hpop := clearSender_indexed (pop_indexed hindexed some)
    refine ⟨push_indexed hpop ?_ _, (fun hs => by cases hs), ?_, fun hs => by cases hs⟩
    · simp only [clearSender, pop]
      omega
    · rw [refill_queue hindexed some]
      intro m hm
      rcases List.mem_append.1 hm with hm | hm
      · refine hfits m ?_
        rw [pop_queue hindexed some]
        exact List.mem_cons_of_mem _ hm
      · rw [List.mem_singleton.1 hm]
        exact hstaged parked

/-- A turn of a channel that stays live is a step of its pipe, or hands a message past it. -/
theorem Turn.steps (h : k.Turn e i c ins outs) (hsound : (k.ipc.channels i).Sound)
    (hlive : (k.ipc.channels i).active = true) (hactive : c.active = true) :
    Pipe.Step ipcQueueDepth (k.ipc.channels i).pipe ins outs c.pipe
      ∨ ((k.ipc.channels i).waiter.active = true ∧ c = (k.ipc.channels i).clearWaiter
        ∧ ∃ m, ins = [m] ∧ outs = [m]) := by
  have hindexed := hsound.indexed
  cases h with
  | keeps h =>
    have hkept := h hactive
    refine .inl ?_
    unfold pipe
    rw [queue_of_kept hkept]
    cases hs : c.sender.active with
    | true =>
      have heq := hkept.sender hs
      have hstaged : c.staged = (k.ipc.channels i).staged := by
        unfold staged
        rw [heq]
      rw [heq] at hs
      simp only [hs, if_true, hstaged]
      exact .idle _
    | false =>
      cases hs' : (k.ipc.channels i).sender.active with
      | true => exact .withdraw _ _
      | false => exact .idle _
  | opens user dead => exact absurd (dead.symm.trans hlive) (by simp)
  | waits => exact .inl (.idle _)
  | passes live sends waits m => exact .inr ⟨waits, rfl, m, rfl, rfl⟩
  | accepts live idle room m =>
    have hroom := lt_of_le_of_ne hindexed.count room
    have hs : (k.ipc.channels i).sender.active = false := by
      by_contra hs
      exact room (hsound.full (by simpa using hs))
    refine .inl ?_
    unfold pipe
    rw [push_queue hindexed hroom]
    simp only [push, hs, Bool.false_eq_true, if_false]
    exact .enqueue _ _ (by rw [length_queue]; exact hroom)
  | parks user live idle full unparked data =>
    refine .inl ?_
    unfold pipe
    simp only [unparked, Bool.false_eq_true, if_false, if_true]
    exact .park _ _ (by rw [length_queue]; exact full)
  | takes live some unparked =>
    refine .inl ?_
    unfold pipe
    rw [pop_queue hindexed some]
    simp only [pop, unparked, Bool.false_eq_true, if_false]
    exact .dequeue _ _
  | refills live some parked =>
    refine .inl ?_
    unfold pipe
    rw [refill_queue hindexed some, pop_queue hindexed some]
    simp only [parked, if_true]
    exact .refill _ _ _

end

/-- The indices of every live channel agree. -/
def Rings (k : Kernel) : Prop :=
  ∀ i, (k.ipc.channels i).active = true → (k.ipc.channels i).Sound

theorem step_rings {k : Kernel} (hk : Calm k) (h : Rings k) (e : Event) : Rings (k.step e) :=
  fun i => (step_turn hk e i).sound (h i)

theorem fresh_rings (b : BootInfo) : Rings (fresh b) := fun i hi => by simp [fresh] at hi

end Kernel

/-!
## The order of messages

A log keeps, for each channel from its creation on, the messages whose send was accepted and those
handed to a receiver. In a run in which no process waits for a message with a buffer too short for
the oldest one in the ring, the messages handed on are the first of those accepted, in order, and
the others are in the ring (`messages_in_order`).
-/

namespace Kernel

/-- The messages of a channel since its creation. -/
structure MessageLog where
  accepted : List IpcMessage := []
  handed : List IpcMessage := []

def logged (t : Kernel × (ℕ → MessageLog)) (e : Event) : Kernel × (ℕ → MessageLog) :=
  (t.1.step e, fun i =>
    if ((t.1.step e).ipc.channels i).active then
      { accepted := (t.2 i).accepted ++ t.1.accepted i e
        handed := (t.2 i).handed ++ t.1.handed i e }
    else {})

def messageLog (b : BootInfo) (events : List Event) : ℕ → MessageLog :=
  (Machine.run logged (fresh b, fun _ => {}) events).2

theorem run_logged_fst (events : List Event) (t : Kernel × (ℕ → MessageLog)) :
    (Machine.run logged t events).1 = Machine.run step t.1 events := by
  induction events generalizing t with
  | nil => rfl
  | cons e es ih => exact ih (logged t e)

theorem meets_logged {ok : Kernel → Event → Prop} (events : List Event)
    (t : Kernel × (ℕ → MessageLog)) (h : Machine.Meets step ok t.1 events) :
    Machine.Meets logged (fun t e => ok t.1 e) t events := by
  induction events generalizing t with
  | nil => trivial
  | cons e es ih => exact ⟨h.1, ih (logged t e) h.2⟩

/-- No process waits for a message with a buffer too short for the oldest one of its channel. -/
def ReceivesFit (k : Kernel) (e : Event) : Prop := ∀ i < ipcChannelLimit, ¬k.ShortReceive i e

instance (k : Kernel) (e : Event) : Decidable (ReceivesFit k e) :=
  inferInstanceAs (Decidable (∀ i < ipcChannelLimit, ¬k.ShortReceive i e))

/-- A process waits only on an empty ring, and a message that was accepted has been handed on or is
in the ring. -/
structure Ordered (t : Kernel × (ℕ → MessageLog)) : Prop where
  calm : Calm t.1
  rings : Rings t.1
  waiter : ∀ i, (t.1.ipc.channels i).active = true →
    (t.1.ipc.channels i).waiter.active = true → (t.1.ipc.channels i).count = 0
  dead : ∀ i, (t.1.ipc.channels i).active = false → t.2 i = {}
  conserved : ∀ i, (t.1.ipc.channels i).active = true →
    (t.2 i).accepted = (t.2 i).handed ++ (t.1.ipc.channels i).queue

theorem Turn.waiter {k : Kernel} {e : Event} {i : ℕ} {c : IpcChannel} {ins outs : List IpcMessage}
    (h : k.Turn e i c ins outs) (hactive : c.active = true)
    (hsound : (k.ipc.channels i).active = true → (k.ipc.channels i).Sound)
    (hfits : (k.ipc.channels i).active = true → ¬k.ShortReceive i e)
    (hempty : (k.ipc.channels i).active = true → (k.ipc.channels i).waiter.active = true →
      (k.ipc.channels i).count = 0) :
    c.waiter.active = true → c.count = 0 := by
  intro hwaiter
  cases h with
  | keeps h =>
    have hkept := h hactive
    rw [hkept.count]
    exact hempty hkept.active (hkept.waiter hwaiter ▸ hwaiter)
  | opens => rfl
  | waits live w short =>
    by_contra hcount
    rcases short hcount with h | h
    · exact hfits live h
    · have hhead : (k.ipc.channels i).head ∈ (k.ipc.channels i).queue := by
        rw [IpcChannel.pop_queue (hsound live).indexed hcount]
        exact List.mem_cons_self
      exact absurd ((hsound live).fits _ hhead) (not_le.2 h)
  | passes => cases hwaiter
  | accepts live idle => exact absurd (idle.symm.trans hwaiter) (by simp)
  | parks user live idle => exact absurd (idle.symm.trans hwaiter) (by simp)
  | takes live some => exact absurd (hempty live hwaiter) some
  | refills live some => exact absurd (hempty live hwaiter) some

theorem logged_ordered {t : Kernel × (ℕ → MessageLog)} {e : Event} (ht : Ordered t)
    (hok : ReceivesFit t.1 e) : Ordered (logged t e) := by
  obtain ⟨k, log⟩ := t
  obtain ⟨hcalm, hrings, hwaiter, hdead, hconserved⟩ := ht
  simp only at hcalm hrings hwaiter hdead hconserved hok
  refine ⟨step_calm hcalm e, step_rings hcalm hrings e, fun i hactive => ?_, fun i hinactive => ?_,
    fun i hactive => ?_⟩
  · exact (step_turn hcalm e i).waiter hactive (hrings i)
      (fun live => hok i (hcalm.rests.bound i live)) (hwaiter i)
  · simp only [logged] at hinactive ⊢
    rw [hinactive]
    rfl
  · have hturn := step_turn hcalm e i
    simp only [logged] at hactive ⊢
    rw [if_pos hactive]
    simp only
    cases hlive : (k.ipc.channels i).active with
    | true =>
      rw [hconserved i hlive]
      rcases hturn.steps (hrings i hlive) hlive hactive with hstep | ⟨hw, heq, m, hins, houts⟩
      · have hlaw : (k.ipc.channels i).queue ++ k.accepted i e
            = k.handed i e ++ ((k.step e).ipc.channels i).queue := hstep.conserves
        rw [List.append_assoc, hlaw, List.append_assoc]
      · have hqueue : (k.ipc.channels i).queue = [] := by
          rw [← List.length_eq_zero_iff, IpcChannel.length_queue]
          exact hwaiter i hlive hw
        have hqueue' : ((k.step e).ipc.channels i).queue = [] := by
          rw [heq]
          exact hqueue
        rw [hins, houts, hqueue, hqueue', List.append_nil, List.append_nil]
    | false =>
      rw [hdead i hlive]
      generalize (k.step e).ipc.channels i = c at hturn hactive ⊢
      generalize k.accepted i e = ins at hturn ⊢
      generalize k.handed i e = outs at hturn ⊢
      cases hturn with
      | keeps h => exact absurd (hlive.symm.trans (h hactive).active) (by simp)
      | opens => rfl
      | waits live => exact absurd (hlive.symm.trans live) (by simp)
      | passes live => exact absurd (hlive.symm.trans live) (by simp)
      | accepts live => exact absurd (hlive.symm.trans live) (by simp)
      | parks user live => exact absurd (hlive.symm.trans live) (by simp)
      | takes live => exact absurd (hlive.symm.trans live) (by simp)
      | refills live => exact absurd (hlive.symm.trans live) (by simp)

theorem fresh_ordered (b : BootInfo) : Ordered (fresh b, fun _ => {}) :=
  ⟨fresh_calm b, fresh_rings b, fun i hi => by simp [fresh] at hi, fun _ _ => rfl,
    fun i hi => by simp [fresh] at hi⟩

/-- In a run in which no process waits for a message with a buffer too short for the oldest one of
its channel, the messages handed to receivers are the first of those accepted, in that order, and
the rest are in the ring. -/
theorem messages_in_order (b : BootInfo) (events : List Event)
    (h : Machine.Meets step ReceivesFit (fresh b) events) (i : ℕ)
    (hlive : ((runFrom b events).ipc.channels i).active = true) :
    (messageLog b events i).handed <+: (messageLog b events i).accepted
      ∧ (messageLog b events i).accepted = (messageLog b events i).handed
        ++ ((runFrom b events).ipc.channels i).queue := by
  have hmeets : Machine.Meets logged (fun t e => ReceivesFit t.1 e) (fresh b, fun _ => {}) events :=
    meets_logged events _ h
  have hordered : Ordered (Machine.run logged (fresh b, fun _ => {}) events) :=
    Machine.run_inv_of_meets logged (fun _ _ => logged_ordered) events _ (fresh_ordered b) hmeets
  have hrun : (Machine.run logged (fresh b, fun _ => {}) events).1 = runFrom b events :=
    run_logged_fst events _
  have hconserved := hordered.conserved i (by rw [hrun]; exact hlive)
  rw [hrun] at hconserved
  exact ⟨hconserved ▸ List.prefix_append _ _, hconserved⟩

/-- The first process sends itself two messages and receives one. -/
def exchange : List Event :=
  bootEvents ++ [call { rax := 14, rdi := 0x330000, rsi := 1 },
    call { rax := 16, rdi := 0x10100, rsi := 0x330000, rdx := 2 },
    call { rax := 16, rdi := 0x10100, rsi := 0x330000, rdx := 1 },
    call { rax := 17, rdi := 0x10100, rsi := 0x330000, rdx := 8 }]

theorem messages_in_order_exchange :
    (messageLog smallBoot exchange 0).handed = [{ sender := 1, data := [0x61, 0x61] }]
      ∧ (messageLog smallBoot exchange 0).handed <+: (messageLog smallBoot exchange 0).accepted := by
  refine ⟨by decide +kernel, ?_⟩
  exact (messages_in_order smallBoot exchange (by decide +kernel) 0 (by decide +kernel)).1

/-- The first process waits with a buffer too short for the message in its channel, and the second
sends a shorter one past it. -/
def overtaking : List Event :=
  bootEvents ++ [call { rax := 14, rdi := 0x330000, rsi := 1 },
    call { rax := 16, rdi := 0x10100, rsi := 0x330000, rdx := 2 },
    call { rax := 17, rdi := 0x10100, rsi := 0x330000, rdx := 1 },
    call { rax := 15, rdi := 0x330000, rsi := 1 },
    call { rax := 16, rdi := 0x10200, rsi := 0x330000, rdx := 1 }]

theorem short_receive_is_overtaken :
    ((runFrom smallBoot overtaking).ipc.channels 0).active = true
      ∧ ¬(messageLog smallBoot overtaking 0).handed
        <+: (messageLog smallBoot overtaking 0).accepted := by
  decide +kernel

end Kernel

end DemonOS
