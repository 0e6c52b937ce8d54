import DemonOS.Proofs.Calls
import DemonOS.Proofs.InputQueue
import DemonOS.Proofs.Lifecycle

/-!
# A process waits for input only while the queue is empty

What an event does to the input queue (`Acts`): it leaves the queue alone and at most withdraws the
wait, or publishes, polls, discards or selects (`step_acts`). Events are queued only while no process
waits, and a process waits only after its poll came back empty, so at every point of a run the queue
of a waiting process is empty (`runFrom_spared`): an event handed to it overtakes none.
-/

namespace DemonOS

namespace Input

/-- The queue is empty where a process waits. -/
structure Spared (input : Input) : Prop where
  indexed : input.Indexed
  empty : input.waiter.active = true → input.readIndex = input.writeIndex

/-- What an event does to the queue. A process begins to wait in a select whose poll found nothing. -/
inductive Acts (input : Input) (selects : Prop) : Input → Prop
  | quiets {input' : Input} (h : input.Quiets input') : Acts input selects input'
  | enqueues {input' : Input} (h : input.Quiets input') (idle : input'.waiter.active = false)
    (event : InputEvent) : Acts input selects (input'.enqueue event)
  | polls {event : InputEvent} {input' : Input} (h : input.inputPoll = some (event, input')) :
    Acts input selects input'
  | waits {pid address : ℕ} {input' : Input} (number : selects) (polled : input.inputPoll = none)
    (h : input.inputWait pid address = some input') : Acts input selects input'
  | discards : Acts input selects input.inputDiscardPending

section

variable {input input' : Input} {selects : Prop}

theorem Spared.quiets (h : input.Spared) (hq : input.Quiets input') : input'.Spared := by
  refine ⟨⟨?_, ?_⟩, fun hw => ?_⟩
  · rw [hq.read]
    exact h.indexed.read
  · rw [hq.write]
    exact h.indexed.write
  · rw [hq.read, hq.write]
    exact h.empty (hq.waiter hw ▸ hw)

theorem Spared.enqueue (h : input.Spared) (hidle : input.waiter.active = false)
    (event : InputEvent) : (input.enqueue event).Spared := by
  have hnext : (input.writeIndex + 1) % inputQueueCapacity < inputQueueCapacity :=
    Nat.mod_lt _ (by decide)
  refine ⟨?_, fun hw => ?_⟩
  · unfold Input.enqueue
    dsimp only
    split_ifs
    · exact ⟨h.indexed.read, h.indexed.write⟩
    · exact h.indexed
    · exact ⟨h.indexed.read, hnext⟩
  · rw [enqueue_waiter, hidle] at hw
    cases hw

theorem Acts.mono {selects' : Prop} (h : input.Acts selects input')
    (himp : selects → selects') : input.Acts selects' input' := by
  cases h with
  | quiets h => exact .quiets h
  | enqueues h idle event => exact .enqueues h idle event
  | polls h => exact .polls h
  | waits number polled h => exact .waits (himp number) polled h
  | discards => exact .discards

theorem Acts.spared (h : input.Acts selects input') (hs : input.Spared) : input'.Spared := by
  cases h with
  | quiets h => exact hs.quiets h
  | enqueues h idle event => exact (hs.quiets h).enqueue idle event
  | polls h =>
    refine ⟨(inputPoll_pendingEvents hs.indexed h).1, fun hw => ?_⟩
    unfold inputPoll at h
    split_ifs at h with hne
    simp only [Option.some.injEq, Prod.mk.injEq] at h
    rw [← h.2] at hw
    exact absurd (hs.empty hw) hne
  | waits number polled h =>
    have hempty : input.readIndex = input.writeIndex := by
      unfold inputPoll at polled
      split_ifs at polled with heq
      exact heq
    unfold inputWait at h
    split_ifs at h
    obtain rfl := Option.some.inj h
    exact ⟨⟨hs.indexed.read, hs.indexed.write⟩, fun _ => hempty⟩
  | discards => exact ⟨⟨hs.indexed.write, hs.indexed.write⟩, fun _ => rfl⟩

theorem Acts.waiter (h : input.Acts selects input') (hselects : ¬selects)
    (hw : input'.waiter.active = true) : input'.waiter = input.waiter := by
  cases h with
  | quiets h => exact h.waiter hw
  | enqueues h idle event =>
    rw [enqueue_waiter, idle] at hw
    cases hw
  | polls h =>
    unfold inputPoll at h
    split_ifs at h
    simp only [Option.some.injEq, Prod.mk.injEq] at h
    rw [← h.2]
  | waits number => exact absurd number hselects
  | discards => rfl

theorem Spared.pending (h : input.Spared) (hw : input.waiter.active = true) :
    input.inputPending = 0 ∧ input.pendingEvents = [] := by
  have hzero := (inputPending_eq_zero h.indexed).2 (h.empty hw)
  exact ⟨hzero, List.length_eq_zero_iff.1 (length_pendingEvents.trans hzero)⟩

end

end Input

namespace Kernel

open Input

variable {k k' : Kernel} {selects : Prop}

/-! ## Messages -/

theorem takeWaiter_quiets (k : Kernel) (i : ℕ) : k.input.Quiets (k.takeWaiter i).input := by
  unfold takeWaiter
  split_ifs
  · exact inputCancelWait_quiets _ _
  · exact .refl _

theorem deliverToWaiter_quiets (k : Kernel) (i pid : ℕ) (data : List UInt8) :
    k.input.Quiets (k.deliverToWaiter i pid data).2.input := by
  have h := takeWaiter_quiets k i
  unfold deliverToWaiter
  dsimp only
  split_ifs
  · exact h
  · split <;> exact h

theorem ipcSendImpl_quiets (k : Kernel) (pid handle : ℕ) (data : List UInt8) (block : Bool) :
    k.input.Quiets (k.ipcSendImpl pid handle data block).2.input := by
  unfold ipcSendImpl
  split
  · exact .refl _
  · dsimp only
    split_ifs
    any_goals exact .refl _
    exact deliverToWaiter_quiets k _ pid data

theorem syscallSend_quiets (k : Kernel) (f : Frame) (user : ℕ → UInt8) :
    k.input.Quiets (k.syscallSend f user).input := by
  have h := ipcSendImpl_quiets k k.current f.rdi.toNat (readUser user f.rsi.toNat f.rdx.toNat) true
  unfold syscallSend ipcSendBlock
  split_ifs
  · exact .refl _
  · generalize k.ipcSendImpl k.current f.rdi.toNat (readUser user f.rsi.toNat f.rdx.toNat) true = r
      at h ⊢
    obtain ⟨_ | _ | _, k'⟩ := r <;> exact h

theorem ipcReceive_input {pid handle capacity : ℕ} {m : IpcMessage}
    (h : k.ipcReceive pid handle capacity = some (m, k')) : k'.input = k.input := by
  unfold ipcReceive at h
  split at h
  · cases h
  · dsimp only at h
    split_ifs at h
    simp only [Option.some.injEq, Prod.mk.injEq] at h
    rw [← h.2]
    unfold drainSlot
    dsimp only
    split_ifs <;> rfl

theorem syscallReceive_input (k : Kernel) (f : Frame) : (k.syscallReceive f).input = k.input := by
  unfold syscallReceive
  split_ifs
  · rfl
  all_goals
    split
    · rename_i m k' hr
      rw [← ipcReceive_input hr]
      split_ifs <;> rfl
    · first | rfl | (split <;> rfl)

theorem syscallSelect_acts (k : Kernel) (f : Frame) (number : selects) :
    k.input.Acts selects (k.syscallSelect f).input := by
  unfold syscallSelect
  split_ifs
  · exact .quiets (.refl _)
  all_goals
    split
    · rename_i m k' hr
      rw [show ∀ a b, (k'.ret2 a b).input = k'.input from fun _ _ => rfl, ipcReceive_input hr]
      exact .quiets (.refl _)
    · split
      · rename_i event input hpoll
        exact .polls hpoll
      · rename_i hpoll
        split
        · exact .quiets (.refl _)
        · split
          · exact .quiets (.refl _)
          · rename_i input hwait
            exact .waits number hpoll hwait

/-! ## The other calls -/

theorem schedulerOnTimerTick_quiets (k : Kernel) :
    k.input.Quiets k.schedulerOnTimerTick.input := k.schedulerOnTimerTick_lifecycle.input

theorem retHandle_input (k : Kernel) (r : Option (ℕ × Capabilities)) :
    (k.retHandle r).input = k.input := by
  cases r <;> rfl

theorem mapSurfaceReadonly_input (k : Kernel) (pid objectId : ℕ) :
    (k.mapSurfaceReadonly pid objectId).2.input = k.input := by
  unfold mapSurfaceReadonly
  dsimp only
  split_ifs
  · rfl
  · split
    · rfl
    · split
      · rfl
      · split
        · rfl
        · split_ifs
          · rfl
          · split
            · rfl
            · split <;> rfl

theorem syscallInputPoll_acts (k : Kernel) (f : Frame) :
    k.input.Acts selects (k.syscallInputPoll f).input := by
  unfold syscallInputPoll
  split
  · exact .quiets (.refl _)
  · split
    · exact .quiets (.refl _)
    · rename_i event input hpoll
      exact .polls hpoll

theorem call_input {f : Frame} {user : ℕ → UInt8} {dev : Devices}
    (call : Call k f user dev k') :
    k'.input = k.input ∨ Control k f user k' ∨ k' = k.syscallInputPoll f := by
  cases call with
  | yield => exact .inr (.inl .yield)
  | exit number => exact .inr (.inl (.exit number))
  | openService => exact .inl (retHandle_input k _)
  | write number => exact .inr (.inl (.write number))
  | close =>
    refine .inl ?_
    unfold syscallClose
    split <;> rfl
  | openFile number => exact .inr (.inl (.openFile number))
  | delete number => exact .inr (.inl (.delete number))
  | rename number => exact .inr (.inl (.rename number))
  | spawn number => exact .inr (.inl (.spawn number))
  | wait number => exact .inr (.inl (.wait number))
  | terminate number => exact .inr (.inl (.terminate number))
  | ipcCreate number => exact .inr (.inl (.ipcCreate number))
  | ipcConnect =>
    refine .inl ?_
    unfold syscallIpcConnect
    split_ifs
    · rfl
    · exact retHandle_input k _
  | send number => exact .inr (.inl (.send number))
  | receive number => exact .inr (.inl (.receive number))
  | inputPoll => exact .inr (.inr rfl)
  | surfaceCreate =>
    refine .inl ?_
    unfold syscallSurfaceCreate
    split_ifs
    · rfl
    · split
      · rfl
      · split <;> rfl
  | surfaceWrite =>
    refine .inl ?_
    unfold syscallSurfaceWrite
    split
    · rfl
    · split
      · rfl
      · split
        · rfl
        · extract_lets pixel
          split <;> rfl
  | grant =>
    refine .inl ?_
    unfold syscallGrant
    split <;> rfl
  | select number => exact .inr (.inl (.select number))
  | surfaceMap =>
    refine .inl ?_
    unfold syscallSurfaceMap
    split
    · rfl
    · exact mapSurfaceReadonly_input k _ _
  | surfaceDamage =>
    refine .inl ?_
    unfold syscallSurfaceDamage
    split
    · rfl
    · split <;> rfl
  | takeDamage =>
    refine .inl ?_
    unfold syscallTakeDamage
    split
    · rfl
    · split <;> rfl
  | surfaceUnmap =>
    refine .inl ?_
    unfold syscallSurfaceUnmap
    split
    · rfl
    · split
      · rfl
      · rename_i k' hk'
        unfold unmapSurfaceId at hk'
        split_ifs at hk'
        rw [Option.map_eq_some_iff] at hk'
        obtain ⟨slot, -, rfl⟩ := hk'
        rfl
  | anonymousMap => exact .inl rfl
  | anonymousUnmap =>
    refine .inl ?_
    unfold syscallAnonymousUnmap
    split <;> rfl
  | anonymousReserve => exact .inl rfl
  | anonymousCommit => exact .inl rfl
  | spawnAndWait number => exact .inr (.inl (.spawnAndWait number))
  | reapExited number => exact .inr (.inl (.reapExited number))
  | value => exact .inl rfl

/-! ## Runs -/

theorem control_acts {f : Frame} {user : ℕ → UInt8}
    (control : Control k f user k') : k.input.Acts (f.rax.toNat = 26) k'.input := by
  have hquiets : ∀ {input : Input}, input = k.input → k.input.Acts (f.rax.toNat = 26) input :=
    fun h => .quiets (h ▸ .refl _)
  cases control with
  | yield => exact .quiets (.refl _)
  | exit => exact .quiets (syscallExit_lifecycle k f).input
  | write =>
    refine hquiets ?_
    unfold syscallWrite
    split
    · rfl
    · split_ifs
      · rfl
      · rfl
      · split <;> rfl
      · rfl
  | openFile =>
    refine hquiets ?_
    unfold syscallOpenFile
    split_ifs
    · rfl
    · split
      · rfl
      · exact retHandle_input _ _
  | delete =>
    refine hquiets ?_
    unfold syscallDelete
    split_ifs
    · rfl
    · split <;> rfl
  | rename =>
    refine hquiets ?_
    unfold syscallRename
    split_ifs
    · rfl
    · split <;> rfl
  | spawn => exact .quiets (syscallSpawn_lifecycle k f user).input
  | wait => exact .quiets (schedulerOnWait_lifecycle k _).input
  | terminate => exact .quiets (syscallTerminate_lifecycle k f).input
  | ipcCreate =>
    refine hquiets ?_
    unfold syscallIpcCreate
    split_ifs <;> rfl
  | send => exact .quiets (syscallSend_quiets k f user)
  | receive => exact hquiets (syscallReceive_input k f)
  | select number => exact syscallSelect_acts k f number
  | spawnAndWait => exact .quiets (syscallSpawnAndWait_lifecycle k f user).input
  | reapExited => exact .quiets (syscallReapExited_lifecycle k).input

theorem inputPublish_acts (k : Kernel) (event : InputEvent) :
    k.input.Acts selects (k.inputPublish event).input := by
  have hclear : k.input.Quiets k.input.clearWaiter := ⟨rfl, rfl, rfl, fun hw => by cases hw⟩
  unfold inputPublish
  split_ifs with hinvalid hidle
  · exact .quiets (.refl _)
  · exact .enqueues (.refl _) hidle event
  · dsimp only
    split
    · exact .quiets hclear
    · exact .enqueues hclear rfl event

theorem kernelCall_acts (k : Kernel) (call : KernelCall) :
    k.input.Acts selects (k.kernelCall call).input := by
  cases call with
  | discardInput => exact .discards
  | file => exact .quiets (.refl _)
  | _ => exact .quiets (kernelCall_lifecycle (by simp) (by simp)).input

def Selects (k : Kernel) : Event → Prop
  | .syscall f _ _ => k.userMode ∧ f.rax.toNat = 26
  | _ => False

theorem step_acts (k : Kernel) (e : Event) : k.input.Acts (k.Selects e) (k.step e).input := by
  unfold step
  cases e with
  | syscall registers user dev =>
    dsimp only
    split_ifs with hu
    · have himp : registers.rax.toNat = 26 → k.Selects (.syscall registers user dev) :=
        fun h => ⟨hu, h⟩
      have hframe : (k.enter registers).sched.frames (k.enter registers).current = registers :=
        Function.update_self ..
      have hcall := (k.enter registers).syscallDispatch_call user dev
      rw [hframe] at hcall
      rcases call_input hcall with heq | hc | hpoll
      · exact .quiets (heq ▸ .refl _)
      · have hacts := (control_acts hc).mono himp
        exact hacts
      · rw [hpoll]
        exact syscallInputPoll_acts (k.enter registers) registers
    · exact .quiets (.refl _)
  | timerTick registers =>
    dsimp only
    split_ifs
    · exact .quiets (schedulerOnTimerTick_quiets (k.enter registers))
    · exact .quiets (schedulerOnTimerTick_quiets k)
  | input event => exact inputPublish_acts k event
  | kernel call =>
    dsimp only
    split_ifs
    · exact .quiets (.refl _)
    · exact kernelCall_acts k call

theorem runFrom_spared (b : BootInfo) (events : List Event) : (runFrom b events).input.Spared :=
  have hfresh : (fresh b).input.Spared := ⟨init_agrees.indexed, fun _ => rfl⟩
  Machine.run_inv step (I := fun k => k.input.Spared) (fun k e h => (step_acts k e).spared h) events
    (fresh b) hfresh

theorem inputPublish_idle (hidle : k.input.waiter.active = false) (dropped : UInt64)
    (event : InputEvent) :
    k.inputPublish event = k.withInput (k.input.publish dropped event).2.1 := by
  unfold inputPublish
  by_cases hinvalid : event.type < inputKeyDown ∨ inputMouseScroll < event.type
  · rw [if_pos hinvalid]
    unfold Input.publish
    rw [if_pos hinvalid]
    rfl
  · rw [if_neg hinvalid, if_pos hidle, publish_enqueue k.input dropped hinvalid]

end Kernel

open Input Batches

/-- The events polled are the last ones of the batches taken, and the batches hold the accepted events
in order: only moves are merged, and all that are pending one after the other. At most 127 events
are pending, `input_pending` counts them, and a rejected one changes the drop counter only. Nothing
is pending while a process waits. -/
theorem input_queue_order :
    (∀ calls : List InputCall,
      let s := Machine.run Trace.call {} calls
      let q := Machine.run Spool.call {} calls
      (s.polled = q.taken.map Batch.last ∧ s.accepted = elements (q.taken ++ q.waiting) ∧ q.Merged)
        ∧ s.input.pendingEvents = q.waiting.map Batch.last
        ∧ s.input.inputPending = s.input.pendingEvents.length
        ∧ s.input.pendingEvents.length ≤ 127
        ∧ ∀ event, (s.input.publish s.dropped event).1 = false →
          s.publish event = { s with dropped := (s.publish event).dropped })
      ∧ (∀ (k : Kernel) (dropped : UInt64) (event : InputEvent), k.input.waiter.active = false →
        k.inputPublish event = k.withInput (k.input.publish dropped event).2.1)
      ∧ ∀ (b : Kernel.BootInfo) (events : List Kernel.Event),
        (Kernel.runFrom b events).input.waiter.active = true →
          (Kernel.runFrom b events).input.inputPending = 0
            ∧ (Kernel.runFrom b events).input.pendingEvents = [] := by
  refine ⟨fun calls => ?_, fun k dropped event h => Kernel.inputPublish_idle h dropped event,
    fun b events h => (Kernel.runFrom_spared b events).pending h⟩
  have h := run_agrees init_agrees calls
  refine ⟨⟨h.polled, h.accepted, h.merged⟩, h.pending, length_pendingEvents.symm, ?_,
    fun event hrejected => ?_⟩
  · rw [h.pending, List.length_map]
    exact h.length
  · have hinput := publish_rejected _ _ event hrejected
    unfold Trace.publish
    rw [hinput, hrejected]
    rfl

end DemonOS
