import DemonOS.Lib.Table

/-!
# The input queue

`src/input.c`: a ring of 128 events of which one slot stays free, and the one process waiting for
the next event. Publishing an event, which may wake that process, is in `Kernel.lean`; of the
counters there is only that of dropped events.
-/

namespace DemonOS

def inputQueueCapacity : ℕ := 128

/-- `sizeof(struct input_event)`. -/
def inputEventSize : ℕ := 40

def inputKeyDown : UInt16 := 1
def inputMouseMove : UInt16 := 3
def inputMouseScroll : UInt16 := 6

structure InputEvent where
  timestamp : UInt64 := 0
  type : UInt16 := 0
  code : UInt16 := 0
  x : Int32 := 0
  y : Int32 := 0
  deltaX : Int32 := 0
  deltaY : Int32 := 0
  value : Int32 := 0
  modifiers : UInt32 := 0
  deriving DecidableEq

structure InputWaiter where
  pid : ℕ := 0
  address : ℕ := 0
  active : Bool := false

structure Input where
  queue : ℕ → InputEvent := fun _ => {}
  readIndex : ℕ := 0
  writeIndex : ℕ := 0
  waiter : InputWaiter := {}

namespace Input

def inputPoll (input : Input) : Option (InputEvent × Input) :=
  if input.readIndex = input.writeIndex then none
  else some (input.queue input.readIndex,
    { input with readIndex := (input.readIndex + 1) % inputQueueCapacity })

def inputWait (input : Input) (pid address : ℕ) : Option Input :=
  if pid = 0 ∨ address = 0 ∨ input.waiter.active = true then none
  else some { input with waiter := { pid := pid, address := address, active := true } }

def clearWaiter (input : Input) : Input :=
  { input with waiter := { input.waiter with active := false } }

def inputCancelWait (input : Input) (pid : ℕ) : Input :=
  if input.waiter.active = false ∨ input.waiter.pid ≠ pid then input else input.clearWaiter

/-- The queueing half of `input_publish`: a move right after a move takes its place, and an event
that finds the ring full is dropped. -/
def enqueue (input : Input) (event : InputEvent) : Input :=
  let previous := (input.writeIndex + inputQueueCapacity - 1) % inputQueueCapacity
  let next := (input.writeIndex + 1) % inputQueueCapacity
  if event.type = inputMouseMove ∧ input.readIndex ≠ input.writeIndex
      ∧ (input.queue previous).type = inputMouseMove then
    { input with queue := Function.update input.queue previous event }
  else if next = input.readIndex then input
  else { input with
    queue := Function.update input.queue input.writeIndex event
    writeIndex := next }

/-- `input_publish` while no process waits: whether the event was taken, the queue, and the number
of events dropped. -/
def publish (input : Input) (dropped : UInt64) (event : InputEvent) : Bool × Input × UInt64 :=
  let previous := (input.writeIndex + inputQueueCapacity - 1) % inputQueueCapacity
  let next := (input.writeIndex + 1) % inputQueueCapacity
  if event.type < inputKeyDown ∨ inputMouseScroll < event.type then (false, input, dropped)
  else if event.type = inputMouseMove ∧ input.readIndex ≠ input.writeIndex
      ∧ (input.queue previous).type = inputMouseMove then
    (true, { input with queue := Function.update input.queue previous event }, dropped)
  else if next = input.readIndex then (false, input, dropped + 1)
  else
    (true, { input with
      queue := Function.update input.queue input.writeIndex event
      writeIndex := next }, dropped)

/-- `input_pending`. -/
def inputPending (input : Input) : ℕ :=
  let pending : ℤ := (input.writeIndex : ℤ) - input.readIndex
  (if pending < 0 then pending + inputQueueCapacity else pending).toNat

def inputDiscardPending (input : Input) : Input := { input with readIndex := input.writeIndex }

end Input

end DemonOS
