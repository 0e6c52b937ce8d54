import DemonOS.Lib.Table

/-!
# The scheduler

The task table of `src/scheduler.c` and the operations on it alone. A user task's interrupt frame
lies at the top of its own kernel stack, so there is one frame per slot and `saved_frame` always
points to it. The calls that reach into other modules (the timer, exit, wait, reap and terminate)
are in `Kernel.lean`. Names, FPU state, the switch of address spaces and the counters only
snapshots show are left out.
-/

namespace DemonOS

def processLimit : ℕ := 8

def initQuantumTicks : ℕ := 4

inductive TaskState where
  | unused | ready | running | blocked | exited
  deriving DecidableEq, Repr

/-- The registers of `struct interrupt_frame` the kernel reads or writes. -/
structure Frame where
  rax : UInt64 := 0
  rdi : UInt64 := 0
  rsi : UInt64 := 0
  rdx : UInt64 := 0
  r10 : UInt64 := 0
  r8 : UInt64 := 0
  rip : UInt64 := 0
  rsp : UInt64 := 0
  deriving DecidableEq, Inhabited

/-- `struct task`. `waitingFor` is `none` for `SCHEDULER_WAIT_NONE`; a slot that has been reaped
holds 0 there. -/
structure Task where
  parentPid : ℕ := 0
  state : TaskState := .unused
  exitCode : UInt64 := 0
  sliceTicks : ℕ := 0
  addressSpace : ℕ := 0
  waitingFor : Option ℕ := some 0
  wakeTick : UInt64 := 0
  timeoutResult : UInt64 := 0
  timedWait : Bool := false
  deriving Inhabited

/-- The state after `scheduler_init`, by default. `dispatched` holds what `dispatch_count` counts
since then: the tasks given the processor, each with the state it was found in, latest first. -/
structure Scheduler where
  tasks : ℕ → Task := fun pid =>
    { state := if pid = 0 then .running else .unused, waitingFor := none }
  frames : ℕ → Frame := fun _ => {}
  currentPid : ℕ := 0
  usersRunning : Bool := false
  ticks : UInt64 := 0
  dispatched : List (ℕ × TaskState) := []

namespace Scheduler

/-- The state of `pid`'s task. -/
def state (s : Scheduler) (pid : ℕ) : TaskState := (s.tasks pid).state

@[simps -fullyApplied] def setTask (s : Scheduler) (pid : ℕ) (t : Task) : Scheduler :=
  { s with tasks := Function.update s.tasks pid t }

@[simps! -fullyApplied] def setState (s : Scheduler) (pid : ℕ) (st : TaskState) : Scheduler :=
  s.setTask pid { s.tasks pid with state := st }

@[simps -fullyApplied] def setFrame (s : Scheduler) (pid : ℕ) (f : Frame) : Scheduler :=
  { s with frames := Function.update s.frames pid f }

/-- Stores a result in `rax` and `rdx` of `pid`'s frame. -/
@[simps! -fullyApplied] def setResult (s : Scheduler) (pid : ℕ) (rax rdx : UInt64) : Scheduler :=
  s.setFrame pid { s.frames pid with rax := rax, rdx := rdx }

def nextReady (s : Scheduler) (after : ℕ) : Option ℕ :=
  ((List.range (processLimit - 1)).map fun n => 1 + (after + n) % (processLimit - 1)).find?
    fun pid => s.state pid = .ready

def dispatch (s : Scheduler) (pid : ℕ) : Scheduler :=
  { s.setTask pid { s.tasks pid with state := .running, sliceTicks := 0 } with
    currentPid := pid, dispatched := (pid, s.state pid) :: s.dispatched }

def returnIdle (s : Scheduler) : Scheduler :=
  { s.setState 0 .running with
    usersRunning := false, currentPid := 0, dispatched := (0, s.state 0) :: s.dispatched }

def createUser (s : Scheduler) (parent : ℕ) (entry stack : UInt64) (space : ℕ) :
    Option (ℕ × Scheduler) :=
  if entry = 0 ∨ stack = 0 ∨ space = 0 ∨ processLimit ≤ parent then none
  else match Table.firstIndex (processLimit - 1) (fun i => s.state (i + 1) = .unused) with
    | none => none
    | some i =>
      let pid := i + 1
      some (pid, (s.setTask pid
        { parentPid := parent, state := .ready, addressSpace := space, waitingFor := none }).setFrame
        pid { rdi := UInt64.ofNat pid, rip := entry, rsp := stack })

def startUsers (s : Scheduler) : Option Scheduler :=
  if s.usersRunning then none
  else match s.nextReady 0 with
    | none => none
    | some first => some ({ s.setState 0 .ready with usersRunning := true }.dispatch first)

/-- Lets the next ready task run. -/
def reschedule (s : Scheduler) : Scheduler :=
  let current := s.currentPid
  let s := if s.state current = .running then s.setState current .ready else s
  match s.nextReady current with
  | none => if s.state current = .ready then s.setState current .running else s.returnIdle
  | some next => s.dispatch next

/-- The end of `scheduler_on_timer_tick`: the running task is charged a tick, and makes way after
its quantum. -/
def chargeSlice (s : Scheduler) : Scheduler :=
  if s.usersRunning = false ∨ s.currentPid = 0 then s
  else
    let slice := (s.tasks s.currentPid).sliceTicks + 1
    let s := s.setTask s.currentPid { s.tasks s.currentPid with sliceTicks := slice }
    if slice < initQuantumTicks then s else s.reschedule

def onYield (s : Scheduler) : Scheduler :=
  if s.usersRunning = false ∨ s.currentPid = 0 then s else s.reschedule

def blockCurrent (s : Scheduler) : Scheduler :=
  if s.usersRunning = false ∨ s.currentPid = 0 then s
  else (s.setTask s.currentPid
    { s.tasks s.currentPid with state := .blocked, waitingFor := none }).reschedule

def blockCurrentTimeout (s : Scheduler) (delay result : UInt64) : Scheduler :=
  if s.usersRunning = false ∨ s.currentPid = 0 ∨ delay = 0 then s.blockCurrent
  else (s.setTask s.currentPid
    { s.tasks s.currentPid with
      state := .blocked, wakeTick := s.ticks + delay, timeoutResult := result
      timedWait := true, waitingFor := none }).reschedule

def wake (s : Scheduler) (pid : ℕ) (result detail : UInt64) : Option Scheduler :=
  if pid = 0 ∨ processLimit ≤ pid ∨ s.state pid ≠ .blocked then none
  else some ((s.setResult pid result detail).setTask pid
    { s.tasks pid with timedWait := false, waitingFor := none, state := .ready })

end Scheduler

end DemonOS
