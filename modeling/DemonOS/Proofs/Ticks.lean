import DemonOS.Proofs.Calls
import DemonOS.Proofs.Lifecycle
import DemonOS.Proofs.Tasks

/-!
# The tick counter

A timer tick adds one to the tick counter, and no other event changes it (`step_ticks`).
-/

namespace DemonOS

open Scheduler

namespace Kernel

def Event.ticks : Event → ℕ
  | .timerTick _ => 1
  | _ => 0

/-! ## Messages and events -/

theorem deliverToWaiter_ticks (k : Kernel) (i pid : ℕ) (data : List UInt8) :
    (k.deliverToWaiter i pid data).2.sched.ticks = k.sched.ticks := by
  rw [← takeWaiter_sched k i]
  unfold deliverToWaiter
  dsimp only
  split_ifs
  · rfl
  · split
    · rfl
    · rename_i s hs
      exact wake_ticks hs

theorem ipcSendImpl_ticks (k : Kernel) (pid handle : ℕ) (data : List UInt8) (block : Bool) :
    (k.ipcSendImpl pid handle data block).2.sched.ticks = k.sched.ticks := by
  unfold ipcSendImpl
  split
  · rfl
  · dsimp only
    split_ifs
    any_goals rfl
    exact deliverToWaiter_ticks k _ pid data

theorem drainSlot_ticks (k : Kernel) (i : ℕ) : (k.drainSlot i).sched.ticks = k.sched.ticks := by
  unfold drainSlot
  dsimp only
  split_ifs
  · exact wakeIfBlocked_ticks _ _ _ _
  · rfl

theorem ipcReceive_ticks {k k' : Kernel} {pid handle capacity : ℕ} {m : IpcMessage}
    (h : k.ipcReceive pid handle capacity = some (m, k')) : k'.sched.ticks = k.sched.ticks := by
  unfold ipcReceive at h
  split at h
  · cases h
  · dsimp only at h
    split_ifs at h
    simp only [Option.some.injEq, Prod.mk.injEq] at h
    rw [← h.2]
    exact drainSlot_ticks k _

theorem inputPublish_ticks (k : Kernel) (event : InputEvent) :
    (k.inputPublish event).sched.ticks = k.sched.ticks := by
  unfold inputPublish
  split_ifs
  · rfl
  · rfl
  · dsimp only
    split
    · rename_i s hs
      split_ifs at hs
      exact wake_ticks hs
    · rfl

/-! ## Events -/

theorem syscallSend_ticks (k : Kernel) (f : Frame) (user : ℕ → UInt8) :
    (k.syscallSend f user).sched.ticks = k.sched.ticks := by
  have h := ipcSendImpl_ticks k k.current f.rdi.toNat (readUser user f.rsi.toNat f.rdx.toNat) true
  unfold syscallSend ipcSendBlock
  split_ifs
  · rfl
  · generalize k.ipcSendImpl k.current f.rdi.toNat (readUser user f.rsi.toNat f.rdx.toNat) true = r
      at h ⊢
    obtain ⟨_ | _ | _, k'⟩ := r
    · exact h
    · exact h
    · exact (blockCurrent_ticks k'.sched).trans h

theorem syscallReceive_ticks (k : Kernel) (f : Frame) :
    (k.syscallReceive f).sched.ticks = k.sched.ticks := by
  unfold syscallReceive
  split_ifs
  · rfl
  all_goals
    split
    · rename_i m k' hr
      rw [← ipcReceive_ticks hr]
      split_ifs <;> rfl
    · first
        | rfl
        | (split
           · rfl
           · exact blockCurrent_ticks k.sched)

theorem syscallSelect_ticks (k : Kernel) (f : Frame) :
    (k.syscallSelect f).sched.ticks = k.sched.ticks := by
  unfold syscallSelect
  split_ifs
  · rfl
  all_goals
    split
    · rename_i m k' hr
      rw [← ipcReceive_ticks hr]
      rfl
    · split
      · rfl
      · split
        · rfl
        · split
          · rfl
          · first
              | exact blockCurrentTimeout_ticks k.sched _ _
              | exact blockCurrent_ticks k.sched

theorem Local.ticks {k k' : Kernel} (h : Local k k') : k'.sched.ticks = k.sched.ticks := by
  obtain ⟨frames, hs⟩ := h.sched
  rw [hs]

theorem control_ticks {k k' : Kernel} {f : Frame} {user : ℕ → UInt8}
    (control : Control k f user k') : k'.sched.ticks = k.sched.ticks := by
  cases control with
  | yield => exact onYield_ticks (k.ret 0).sched
  | exit => exact (syscallExit_lifecycle k f).ticks
  | write => exact (syscallWrite_local k f user).ticks
  | openFile => exact (syscallOpenFile_local k f user).ticks
  | delete => exact (syscallDelete_local k f user).ticks
  | rename => exact (syscallRename_local k f user).ticks
  | spawn => exact (syscallSpawn_lifecycle k f user).ticks
  | wait => exact (schedulerOnWait_lifecycle k _).ticks
  | terminate => exact (syscallTerminate_lifecycle k f).ticks
  | ipcCreate =>
    unfold syscallIpcCreate
    split_ifs <;> rfl
  | send => exact syscallSend_ticks k f user
  | receive => exact syscallReceive_ticks k f
  | select => exact syscallSelect_ticks k f
  | spawnAndWait => exact (syscallSpawnAndWait_lifecycle k f user).ticks
  | reapExited => exact (syscallReapExited_lifecycle k).ticks

theorem syscallDispatch_ticks (k : Kernel) (user : ℕ → UInt8) (dev : Devices) :
    (k.syscallDispatch user dev).sched.ticks = k.sched.ticks := by
  rcases k.syscallDispatch_control user dev with hlocal | hcontrol
  · exact hlocal.ticks
  · exact control_ticks hcontrol

theorem kernelCall_ticks (k : Kernel) (call : KernelCall) :
    (k.kernelCall call).sched.ticks = k.sched.ticks := by
  cases call with
  | discardInput => rfl
  | file => rfl
  | _ => exact (kernelCall_lifecycle (by simp) (by simp)).ticks

theorem schedulerOnTimerTick_ticks (k : Kernel) :
    k.schedulerOnTimerTick.sched.ticks = k.sched.ticks + 1 := k.schedulerOnTimerTick_lifecycle.ticks

theorem step_ticks_eq (k : Kernel) {e : Event} (h : e.ticks = 0) :
    (k.step e).sched.ticks = k.sched.ticks := by
  unfold step
  cases e with
  | syscall registers user dev =>
    dsimp only
    split_ifs
    · exact syscallDispatch_ticks (k.enter registers) user dev
    · rfl
  | timerTick registers => cases h
  | input event => exact inputPublish_ticks k event
  | kernel call =>
    dsimp only
    split_ifs
    · rfl
    · exact kernelCall_ticks k call

/-- Only the timer counts ticks. -/
theorem step_ticks (k : Kernel) (e : Event) :
    (k.step e).sched.ticks = k.sched.ticks + UInt64.ofNat e.ticks := by
  cases e with
  | timerTick registers =>
    unfold step
    dsimp only
    split_ifs
    · exact schedulerOnTimerTick_ticks (k.enter registers)
    · exact schedulerOnTimerTick_ticks k
  | _ => exact (step_ticks_eq k rfl).trans (UInt64.add_zero _).symm

end Kernel

end DemonOS
