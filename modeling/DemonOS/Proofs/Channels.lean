import DemonOS.Proofs.Calls
import DemonOS.Proofs.Lifecycle

/-!
# What a step does to the channels

Apart from sends, receives, waits and creations, an event only takes waits and parked messages off
channels, or closes them (`Calms`): no message moves and no channel comes to life (`step_quiet`).
-/

namespace DemonOS

namespace Kernel

theorem inputPublish_quiet (k : Kernel) (event : InputEvent) :
    Quiet k (k.inputPublish event) := by
  unfold inputPublish
  split_ifs
  · exact .refl k
  · exact .of_ipc rfl
  · simp only
    split <;> exact ipcCancelWait_quiet k _

theorem schedulerOnTimerTick_quiet (k : Kernel) : Quiet k k.schedulerOnTimerTick :=
  Quiet.trans (.of_ipc rfl) k.schedulerOnTimerTick_lifecycle.ipc

/-! ## System calls -/

def movesMessages (number : ℕ) : Prop := number = 14 ∨ number = 16 ∨ number = 17 ∨ number = 26

theorem syscallDispatch_quiet (k : Kernel) (user : ℕ → UInt8) (dev : Devices)
    (h : ¬movesMessages (k.sched.frames k.current).rax.toNat) :
    Quiet k (k.syscallDispatch user dev) := by
  have hcontrol := k.syscallDispatch_control user dev
  generalize k.syscallDispatch user dev = k' at hcontrol
  rcases hcontrol with hlocal | control
  · exact .of_ipc hlocal.ipc
  cases control with
  | yield => exact .of_ipc rfl
  | exit => exact (syscallExit_lifecycle k _).ipc
  | write => exact .of_ipc (syscallWrite_local k _ user).ipc
  | openFile => exact .of_ipc (syscallOpenFile_local k _ user).ipc
  | delete => exact .of_ipc (syscallDelete_local k _ user).ipc
  | rename => exact .of_ipc (syscallRename_local k _ user).ipc
  | spawn => exact (syscallSpawn_lifecycle k _ user).ipc
  | wait => exact (schedulerOnWait_lifecycle k _).ipc
  | terminate => exact (syscallTerminate_lifecycle k _).ipc
  | ipcCreate number => exact absurd (.inl number) h
  | send number => exact absurd (.inr (.inl number)) h
  | receive number => exact absurd (.inr (.inr (.inl number))) h
  | select number => exact absurd (.inr (.inr (.inr number))) h
  | spawnAndWait => exact (syscallSpawnAndWait_lifecycle k _ user).ipc
  | reapExited => exact k.syscallReapExited_lifecycle.ipc

theorem kernelCall_quiet (k : Kernel) (call : KernelCall) : Quiet k (k.kernelCall call) := by
  cases call with
  | discardInput => exact .of_ipc rfl
  | file => exact .of_ipc rfl
  | _ => exact (kernelCall_lifecycle (by simp) (by simp)).ipc

def messageCall (k : Kernel) : Event → Prop
  | .syscall registers _ _ => k.userMode ∧ movesMessages registers.rax.toNat
  | _ => False

theorem enter_frame (k : Kernel) (registers : Frame) :
    (k.enter registers).sched.frames (k.enter registers).current = registers := by
  simp [current]

theorem step_quiet {k : Kernel} {e : Event} (h : ¬k.messageCall e) : Quiet k (k.step e) := by
  cases e with
  | syscall registers user dev =>
    simp only [step]
    split_ifs with hu
    · refine syscallDispatch_quiet (k.enter registers) user dev fun hm => h ⟨hu, ?_⟩
      rwa [enter_frame] at hm
    · exact .refl k
  | timerTick registers =>
    simp only [step]
    split_ifs
    · exact schedulerOnTimerTick_quiet (k.enter registers)
    · exact schedulerOnTimerTick_quiet k
  | input event => exact inputPublish_quiet k event
  | kernel call =>
    simp only [step]
    split_ifs
    · exact .refl k
    · exact kernelCall_quiet k call

/-! ## The calls that move messages and end processes -/

section

variable {k : Kernel} {registers : Frame} (user : ℕ → UInt8) (dev : Devices) (hu : k.userMode)

include hu

theorem step_exit (h : registers.rax.toNat = 2) :
    k.step (.syscall registers user dev) = (k.enter registers).syscallExit registers := by
  simp only [step, if_pos hu, syscallDispatch, enter_frame, h]
  rfl

theorem step_terminate (h : registers.rax.toNat = 13) :
    k.step (.syscall registers user dev) = (k.enter registers).syscallTerminate registers := by
  simp only [step, if_pos hu, syscallDispatch, enter_frame, h]
  rfl

theorem step_ipcCreate (h : registers.rax.toNat = 14) :
    k.step (.syscall registers user dev) = (k.enter registers).syscallIpcCreate registers user := by
  simp only [step, if_pos hu, syscallDispatch, enter_frame, h]
  rfl

theorem step_send (h : registers.rax.toNat = 16) :
    k.step (.syscall registers user dev) = (k.enter registers).syscallSend registers user := by
  simp only [step, if_pos hu, syscallDispatch, enter_frame, h]
  rfl

theorem step_receive (h : registers.rax.toNat = 17) :
    k.step (.syscall registers user dev) = (k.enter registers).syscallReceive registers := by
  simp only [step, if_pos hu, syscallDispatch, enter_frame, h]
  rfl

theorem step_select (h : registers.rax.toNat = 26) :
    k.step (.syscall registers user dev) = (k.enter registers).syscallSelect registers := by
  simp only [step, if_pos hu, syscallDispatch, enter_frame, h]
  rfl

end

end Kernel

end DemonOS
