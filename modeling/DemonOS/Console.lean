import Mathlib.Logic.Function.Iterate

/-!
# The console of the kernel

`src/terminal.c` without the picture of the cells on the framebuffer. A string is the list of its
bytes before the NUL; the numbers of `terminal_write_u64` and `terminal_write_hex` are written as
strings. The cells are a function of their index.
-/

namespace DemonOS

def vgaWidth : ℕ := 80
def vgaHeight : ℕ := 25

/-- The variables of the console, as they are before `terminal_init`. -/
structure Console where
  cells : ℕ → UInt16 := fun _ => 0
  row : ℕ := 0
  column : ℕ := 0
  color : UInt8 := 0
  outputEnabled : Bool := true
  automaticWrap : Bool := false

namespace Console

def storeCell (t : Console) (y x : ℕ) (value : UInt16) : Console :=
  { t with cells := Function.update t.cells (y * vgaWidth + x) value }

def entry (t : Console) (character : UInt8) : UInt16 :=
  character.toUInt16 ||| t.color.toUInt16 <<< 8

/-- The loop that stores spaces in `rows` rows from row `y` on. -/
def blankRows (t : Console) (y rows : ℕ) : Console :=
  (List.range (rows * vgaWidth)).foldl (fun t i => t.storeCell y i (t.entry 0x20)) t

def terminalInit (t : Console) : Console :=
  { t with row := 0, column := 0, color := 0x0F, automaticWrap := false }.blankRows 0 vgaHeight

def terminalSetColor (t : Console) (foreground background : UInt8) : Console :=
  { t with color := foreground ||| background <<< 4 }

def terminalSetOutput (t : Console) (enabled : Bool) : Console :=
  { t with outputEnabled := enabled }

def newline (t : Console) : Console :=
  let t := { t with column := 0, row := t.row + 1 }
  if t.row < vgaHeight then t
  else
    let t := (List.range ((vgaHeight - 1) * vgaWidth)).foldl
      (fun t i => t.storeCell 0 i (t.cells (vgaWidth + i))) t
    { t with row := vgaHeight - 1 }.blankRows (vgaHeight - 1) 1

/-- The end of the loop of `terminal_write`, for a byte that takes a cell. -/
def writeVisible (t : Console) (byte : UInt8) : Console :=
  let visible := if 32 ≤ byte ∧ byte ≤ 126 then byte else 0x3F
  let t := { t with automaticWrap := false }.storeCell t.row t.column (t.entry visible)
  let t := { t with column := t.column + 1 }
  if t.column = vgaWidth then { t.newline with automaticWrap := true } else t

/-- The loop of `terminal_write` for a byte. -/
def writeByte (t : Console) (byte : UInt8) : Console :=
  if byte = 0x0C then { t with row := 0, column := 0 }.blankRows 0 vgaHeight
  else if byte = 0x0A then { t.newline with automaticWrap := false }
  else if byte = 0x0D then { t with column := 0, automaticWrap := false }
  else if byte = 0x09 then (fun t => writeVisible t 0x20)^[4 - t.column % 4] t
  else t.writeVisible byte

def terminalWrite (t : Console) (text : List UInt8) : Console :=
  if t.outputEnabled then text.foldl writeByte t else t

def terminalWriteLine (t : Console) (text : List UInt8) : Console :=
  if t.outputEnabled then
    let t := t.terminalWrite text
    let t := if t.automaticWrap then t else t.newline
    { t with automaticWrap := false }
  else t

def terminalPutChar (t : Console) (row column : ℕ) (character : UInt8) : Console :=
  if t.outputEnabled = false ∨ vgaHeight ≤ row ∨ vgaWidth ≤ column then t
  else
    let visible := if 32 ≤ character ∧ character ≤ 126 then character else 0x20
    t.storeCell row column (t.entry visible)

def terminalBackspace (t : Console) : Console :=
  if t.outputEnabled = false ∨ t.column = 0 then t
  else { t with column := t.column - 1 }.storeCell t.row (t.column - 1) (t.entry 0x20)

/-- A call of another part of the kernel. -/
inductive Call
  | init
  | setColor (foreground background : UInt8)
  | setOutput (enabled : Bool)
  | write (text : List UInt8)
  | writeLine (text : List UInt8)
  | putChar (row column : ℕ) (character : UInt8)
  | backspace

def perform (t : Console) : Call → Console
  | .init => t.terminalInit
  | .setColor foreground background => t.terminalSetColor foreground background
  | .setOutput enabled => t.terminalSetOutput enabled
  | .write text => t.terminalWrite text
  | .writeLine text => t.terminalWriteLine text
  | .putChar row column character => t.terminalPutChar row column character
  | .backspace => t.terminalBackspace

end Console

end DemonOS
