import DemonOS.Framebuffer
import DemonOS.Syscall

/-!
# The display service

`display_submit` of `src/display.c`, and the way of a picture there from the memory of a process:
system call 19 and `display_submit_from_user` of `src/arch/x86_64/userspace.c`, which carries it
over a few rows at a time through the bounce buffer. The counters of the compositor, the owner of
the display and the switches of `cr3` are left out.
-/

namespace DemonOS

def displayTransferMaxPixels : ℕ := 4096
def displayBouncePixels : ℕ := 640
def displaySubmitPresent : UInt64 := 1

/-- `struct display_user_submit`: where the pixels are, in the memory of a process, or what they
are, in the kernel's own. -/
structure DisplayUserSubmit (Pixels : Type) where
  x : ℕ
  y : ℕ
  width : ℕ
  height : ℕ
  pixels : Pixels
  flags : UInt64

structure Display where
  framebuffer : Framebuffer
  frames : UInt64 := 0
  pixels : UInt64 := 0
  lastPresentTick : UInt64 := 0
  minimumPresentInterval : UInt64 := u64Max
  displayBounce : ℕ → UInt32 := fun _ => 0

/-- The request that a process has left at this address. -/
def readSubmit (user : ℕ → UInt8) (address : ℕ) : DisplayUserSubmit ℕ :=
  let field (n : ℕ) : ℕ := Bytes.load64 user (address + 8 * n)
  { x := field 0
    y := field 1
    width := field 2
    height := field 3
    pixels := field 4
    flags := UInt64.ofNat (field 5) }

namespace Display

/-- What `display_submit` does for `DISPLAY_SUBMIT_PRESENT`. -/
def present (d : Display) (assets : Assets) (now : UInt64) : Display :=
  let interval := now - d.lastPresentTick
  { d with
    framebuffer := d.framebuffer.framebufferPresent assets
    minimumPresentInterval :=
      if d.frames ≠ 0 ∧ interval < d.minimumPresentInterval then interval
      else d.minimumPresentInterval
    lastPresentTick := now
    frames := d.frames + 1 }

/-- `display_submit`, with the tick that `interrupts_timer_ticks` gives. -/
def displaySubmit (d : Display) (assets : Assets) (now : UInt64)
    (request : DisplayUserSubmit (ℕ → UInt32)) : Bool × Display :=
  if d.framebuffer.enabled = false ∨ request.width = 0 ∨ request.height = 0
      ∨ 2 ^ 32 - 1 < request.width ∨ 2 ^ 32 - 1 < request.height ∨ 2 ^ 31 - 1 < request.x
      ∨ 2 ^ 31 - 1 < request.y ∨ request.flags &&& ~~~displaySubmitPresent ≠ 0
      ∨ displayTransferMaxPixels / request.height < request.width then (false, d)
  else
    let count := request.width * request.height
    let d := { d with
      framebuffer := d.framebuffer.framebufferBlit request.x request.y (some request.pixels)
        request.width request.height request.width }
    let d := if request.flags &&& displaySubmitPresent ≠ 0 then d.present assets now else d
    (true, { d with pixels := d.pixels + UInt64.ofNat count })

/-- The checks that `display_submit_from_user` begins with. -/
def Takes (d : Display) (request : DisplayUserSubmit ℕ) : Prop :=
  ¬(d.framebuffer.enabled = false ∨ request.width = 0 ∨ request.height = 0
    ∨ d.framebuffer.info.width < request.width ∨ displayBouncePixels < request.width
    ∨ 2 ^ 31 - 1 < request.x ∨ 2 ^ 31 - 1 < request.y ∨ 2 ^ 32 - 1 < request.height
    ∨ 2 ^ 31 - 1 + 1 - request.y < request.height
    ∨ request.flags &&& ~~~displaySubmitPresent ≠ 0)

instance (d : Display) (request : DisplayUserSubmit ℕ) : Decidable (d.Takes request) :=
  inferInstanceAs (Decidable (¬_))

theorem Takes.rows_pos {d : Display} {request : DisplayUserSubmit ℕ} (h : d.Takes request) :
    0 < displayBouncePixels / request.width := by
  unfold Takes at h
  simp only [not_or, not_lt] at h
  exact Nat.div_pos h.2.2.2.2.1 (by omega)

def copyToBounce (d : Display) (user : ℕ → UInt8) (request : DisplayUserSubmit ℕ)
    (sourceRow pixelCount : ℕ) : Display :=
  let source := request.pixels + sourceRow * request.width * 4
  { d with displayBounce := fun pixel =>
      if pixel < pixelCount then
        UInt32.ofNat (LittleEndian.load user ((source + 4 * pixel) % 2 ^ 64) 4)
      else d.displayBounce pixel }

/-- The loop of `display_submit_from_user` from this row on. -/
def submitRows (assets : Assets) (now : UInt64) (user : ℕ → UInt8)
    (request : DisplayUserSubmit ℕ) (rowsPerChunk : ℕ) (hpos : 0 < rowsPerChunk)
    (sourceRow : ℕ) (d : Display) : Bool × Display :=
  if sourceRow < request.height then
    let rows := min (request.height - sourceRow) rowsPerChunk
    let d := d.copyToBounce user request sourceRow (request.width * rows)
    let chunk : DisplayUserSubmit (ℕ → UInt32) :=
      { x := request.x
        y := request.y + sourceRow
        width := request.width
        height := rows
        pixels := d.displayBounce
        flags := if sourceRow + rows = request.height then request.flags else 0 }
    match d.displaySubmit assets now chunk with
    | (false, d) => (false, d)
    | (true, d) =>
      submitRows assets now user request rowsPerChunk hpos (sourceRow + rows) d
  else (true, d)
termination_by request.height - sourceRow

def displaySubmitFromUser (d : Display) (assets : Assets) (now : UInt64) (user : ℕ → UInt8)
    (request : DisplayUserSubmit ℕ) : Bool × Display :=
  if h : d.Takes request then
    submitRows assets now user request (displayBouncePixels / request.width) h.rows_pos 0 d
  else (false, d)

end Display

namespace Kernel

/-- The checks of system call 19: the handle, and where the request and its pixels are. -/
def AllowsSubmit (k : Kernel) (f : Frame) (user : ℕ → UInt8) : Prop :=
  (k.holds f.rdi rightWrite .display = true ∧ k.canRead f.rsi 48 = true)
    ∧ let request := readSubmit user f.rsi.toNat
      let count := request.width * request.height % 2 ^ 64
      let bytes := count * 4 % 2 ^ 64
      ¬(request.height ≠ 0 ∧ count / request.height ≠ request.width) ∧ bytes / 4 = count
        ∧ k.mem.userRange k.current request.pixels bytes = true

instance (k : Kernel) (f : Frame) (user : ℕ → UInt8) : Decidable (k.AllowsSubmit f user) :=
  inferInstanceAs (Decidable (_ ∧ _ ∧ _ ∧ _))

/-- System call 19, with the display itself. -/
def syscallSubmit (k : Kernel) (f : Frame) (user : ℕ → UInt8) (assets : Assets) (now : UInt64)
    (d : Display) : UInt64 × Display :=
  if k.AllowsSubmit f user then
    match d.displaySubmitFromUser assets now user (readSubmit user f.rsi.toNat) with
    | (true, d) => (0, d)
    | (false, d) => (u64Max, d)
  else (u64Max, d)

end Kernel

end DemonOS
