import DemonOS.Input
import Mathlib.Algebra.Order.Group.Abs
import Mathlib.Algebra.Order.Ring.Int

/-!
# The PS/2 mouse

The mouse part of `src/arch/x86_64/interrupts.c`. The controller hands out the bytes of the mouse one
by one; the interrupt and the timer each take some of those that wait. A byte that can start a packet
is kept until the packet is whole. What is published is kept in order, without its time.
-/

namespace DemonOS

def inputMouseButtonDown : UInt16 := 4
def inputMouseButtonUp : UInt16 := 5

def inputMouseLeft : UInt16 := 1
def inputMouseRight : UInt16 := 2
def inputMouseMiddle : UInt16 := 3

structure Mouse where
  wheel : Bool
  pointerMaxX : ℤ
  pointerMaxY : ℤ
  pointerX : ℤ
  pointerY : ℤ
  buttonState : UInt8 := 0
  /-- The bytes of `mouse_packet` below `mouse_packet_index`. -/
  packet : List UInt8 := []
  packets : ℕ := 0
  published : List InputEvent := []

namespace Mouse

/-- The byte as an `int8_t`. -/
def signed (byte : UInt8) : ℤ := if byte.toNat < 128 then byte.toNat else byte.toNat - 256

def scale (dx dy : ℤ) : ℤ :=
  let magnitude := max |dx| |dy|
  if 7 ≤ magnitude then 3 else if 2 ≤ magnitude then 2 else 1

/-- The place on the screen next to `x`. -/
def clamp (limit x : ℤ) : ℤ := if x < 0 then 0 else if limit < x then limit else x

/-- `publish_mouse_button`. -/
def publishMouseButton (s : Mouse) (mask : UInt8) (code : UInt16) (buttons : UInt8) : Mouse :=
  let wasDown : Bool := s.buttonState &&& mask ≠ 0
  let isDown : Bool := buttons &&& mask ≠ 0
  if wasDown = isDown then s
  else { s with published := s.published ++ [
    { type := if isDown then inputMouseButtonDown else inputMouseButtonUp, code := code
      x := .ofInt s.pointerX, y := .ofInt s.pointerY, value := if isDown then 1 else 0 }] }

def publishMove (s : Mouse) (dx dy : ℤ) : Mouse :=
  if dx ≠ 0 ∨ dy ≠ 0 then
    let x := clamp s.pointerMaxX (s.pointerX + dx)
    let y := clamp s.pointerMaxY (s.pointerY + dy)
    { s with
      pointerX := x
      pointerY := y
      published := s.published ++ [
        { type := inputMouseMove, x := .ofInt x, y := .ofInt y, deltaX := .ofInt dx
          deltaY := .ofInt dy }] }
  else s

def publishScroll (s : Mouse) (byte : UInt8) : Mouse :=
  let scroll := signed (byte <<< 4) / 16
  if s.wheel = true ∧ scroll ≠ 0 then
    { s with published := s.published ++ [
      { type := inputMouseScroll, x := .ofInt s.pointerX, y := .ofInt s.pointerY
        value := .ofInt scroll }] }
  else s

/-- `decode_mouse_packet` on the bytes of a packet. -/
def decodeMousePacket (s : Mouse) (flags x y wheel : UInt8) : Mouse :=
  if flags &&& 0xC0 ≠ 0 then s
  else if (decide (flags &&& 0x10 ≠ 0) ≠ decide (x &&& 0x80 ≠ 0))
      ∨ (decide (flags &&& 0x20 ≠ 0) ≠ decide (y &&& 0x80 ≠ 0)) then s
  else
    let dx := signed x
    let dy := -signed y
    let buttons := flags &&& 0x07
    let s := s.publishMove (dx * scale dx dy) (dy * scale dx dy)
    let s := ((s.publishMouseButton 1 inputMouseLeft buttons).publishMouseButton 2 inputMouseRight
      buttons).publishMouseButton 4 inputMouseMiddle buttons
    let s := { s with buttonState := buttons }.publishScroll wheel
    { s with packets := s.packets + 1 }

/-- The body of the loop of `drain_mouse_bytes` for a byte. -/
def collect (s : Mouse) (byte : UInt8) : Mouse :=
  if s.packet ≠ [] ∨ byte &&& 0x08 ≠ 0 then
    let packet := s.packet ++ [byte]
    if packet.length = if s.wheel then 4 else 3 then
      { s with packet := [] }.decodeMousePacket (packet.getD 0 0) (packet.getD 1 0)
        (packet.getD 2 0) (packet.getD 3 0)
    else { s with packet := packet }
  else s

/-- `drain_mouse_bytes`, and the bytes that are left in the controller. -/
def drainMouseBytes : ℕ → Mouse → List UInt8 → Mouse × List UInt8
  | 0, s, waiting => (s, waiting)
  | _ + 1, s, [] => (s, [])
  | limit + 1, s, byte :: waiting => drainMouseBytes limit (s.collect byte) waiting

inductive Event
  /-- The mouse sends bytes to the controller. -/
  | sends (bytes : List UInt8)
  /-- `interrupt_mouse_handler`. -/
  | interrupt
  /-- `interrupt_timer_handler`. -/
  | timer

def step : Mouse × List UInt8 → Event → Mouse × List UInt8
  | (s, waiting), .sends bytes => (s, waiting ++ bytes)
  | (s, waiting), .interrupt => s.drainMouseBytes 32 waiting
  | (s, waiting), .timer => s.drainMouseBytes 8 waiting

/-- What `ps2_mouse_start` leaves on a screen of that size. -/
def ps2MouseStart (wheel : Bool) (pointerMaxX pointerMaxY : ℕ) : Mouse where
  wheel := wheel
  pointerMaxX := pointerMaxX
  pointerMaxY := pointerMaxY
  pointerX := pointerMaxX / 2
  pointerY := pointerMaxY / 2

end Mouse

end DemonOS
