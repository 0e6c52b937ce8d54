import DemonOS.Input

/-!
# The PS/2 keyboard

The keyboard part of `src/arch/x86_64/interrupts.c`: every interrupt takes one byte of the
controller, a press or a release of a key, which may have come after the prefix `0xE0`. The handler
keeps one flag for each kind of modifier, queues the characters and publishes an event for each key.
The counters are left out.
-/

namespace DemonOS

structure Keyboard where
  buffer : ℕ → UInt8 := fun _ => 0
  read : ℕ := 0
  write : ℕ := 0
  shift : Bool := false
  capsLock : Bool := false
  alt : Bool := false
  super : Bool := false
  ctrl : Bool := false
  extended : Bool := false

/-- `sizeof(keyboard_buffer)`. -/
def keyboardBufferSize : ℕ := 64

def inputModShift : UInt32 := 1
def inputModCapsLock : UInt32 := 2
def inputModAlt : UInt32 := 4
def inputModSuper : UInt32 := 8
def inputModCtrl : UInt32 := 16

def inputKeyUp : UInt16 := 2

def layout (rows : List (ℕ × String)) (code : UInt8) : UInt8 :=
  match rows.find? fun row => row.1 ≤ code.toNat ∧ code.toNat < row.1 + row.2.length with
  | none => 0
  | some row => UInt8.ofNat (row.2.toList.getD (code.toNat - row.1) '\x00').toNat

def unshifted : UInt8 → UInt8 := layout
  [(0x02, "1234567890-=\x08\tqwertyuiop[]\n"), (0x1E, "asdfghjkl;'`"), (0x2B, "\\zxcvbnm,./"),
    (0x39, " ")]

def shifted : UInt8 → UInt8 := layout
  [(0x02, "!@#$%^&*()_+\x08\tQWERTYUIOP\x7b\x7d\n"), (0x1E, "ASDFGHJKL:\"~"), (0x2B, "|ZXCVBNM<>?"),
    (0x39, " ")]

def extendedCharacter (code : UInt8) : Option UInt8 :=
  if code = 0x48 then some 0x11
  else if code = 0x50 then some 0x12
  else if code = 0x4B then some 0x1E
  else if code = 0x4D then some 0x1F
  else if code = 0x47 then some 0x1B
  else if code = 0x4F then some 0x1C
  else if code = 0x53 then some 0x7F
  else none

namespace Keyboard

def modifiers (k : Keyboard) : UInt32 :=
  (if k.shift then inputModShift else 0) ||| (if k.capsLock then inputModCapsLock else 0)
    ||| (if k.alt then inputModAlt else 0) ||| (if k.super then inputModSuper else 0)
    ||| (if k.ctrl then inputModCtrl else 0)

/-- The event `publish_key` publishes. -/
def publishKey (k : Keyboard) (ticks : UInt64) (code : UInt16) (released : Bool)
    (character : UInt8) : InputEvent :=
  { timestamp := ticks, type := if released then inputKeyUp else inputKeyDown, code := code
    value := character.toUInt32.toInt32, modifiers := k.modifiers }

def queueChar (k : Keyboard) (character : UInt8) : Keyboard :=
  let next := (k.write + 1) % keyboardBufferSize
  if next = k.read then k
  else { k with buffer := Function.update k.buffer k.write character, write := next }

def queueExtended (k : Keyboard) (released : Bool) (code : UInt8) : Keyboard :=
  match released, extendedCharacter code with
  | false, some character => k.queueChar character
  | _, _ => k

/-- What `keyboard_extended` leaves to do for the byte after a prefix. -/
def extendedKey (k : Keyboard) (ticks : UInt64) (scan : UInt8) : Keyboard × InputEvent :=
  let released : Bool := scan &&& 0x80 ≠ 0
  let code := scan &&& 0x7F
  let k := { k with
    extended := false
    super := if code = 0x5B ∨ code = 0x5C then !released else k.super
    alt := if code = 0x38 then !released else k.alt
    ctrl := if code = 0x1D then !released else k.ctrl }
  let k := k.queueExtended released code
  (k, k.publishKey ticks (0x100 ||| code.toUInt16) released 0)

/-- The character of a key that is pressed, where it has one. -/
def character (k : Keyboard) (code : UInt8) : UInt8 :=
  let letter : Bool := 0x61 ≤ unshifted code ∧ unshifted code ≤ 0x7A
  let useShift := if letter then k.shift != k.capsLock else k.shift
  if k.ctrl && letter then unshifted code - 0x61 + 1
  else if useShift then shifted code else unshifted code

def plainKey (k : Keyboard) (ticks : UInt64) (scan : UInt8) : Keyboard × InputEvent :=
  let released : Bool := scan &&& 0x80 ≠ 0
  let code := scan &&& 0x7F
  if code = 0x2A ∨ code = 0x36 then
    let k := { k with shift := !released }
    (k, k.publishKey ticks code.toUInt16 released 0)
  else if code = 0x38 then
    let k := { k with alt := !released }
    (k, k.publishKey ticks code.toUInt16 released 0)
  else if code = 0x1D then
    let k := { k with ctrl := !released }
    (k, k.publishKey ticks code.toUInt16 released 0)
  else
    let k := if code = 0x3A ∧ !released then { k with capsLock := !k.capsLock } else k
    if !released ∧ unshifted code ≠ 0 then
      (k.queueChar (k.character code),
        k.publishKey ticks code.toUInt16 released (k.character code))
    else (k, k.publishKey ticks code.toUInt16 released 0)

/-- `interrupt_keyboard_handler`: the status and the data byte of the controller are read from their
ports. -/
def interruptKeyboardHandler (k : Keyboard) (ticks : UInt64) (status scan : UInt8) :
    Keyboard × Option InputEvent :=
  if status &&& 0x01 = 0 then (k, none)
  else if scan = 0xE0 then ({ k with extended := true }, none)
  else if k.extended then
    let r := k.extendedKey ticks scan
    (r.1, some r.2)
  else
    let r := k.plainKey ticks scan
    (r.1, some r.2)

end Keyboard

end DemonOS
