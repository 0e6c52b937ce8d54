import DemonOS.Xterm.Storage

/-!
# xterm's editor

The `edit` command of `src/apps/xterm/xterm.c`: a document is at most 48 rows of 80 bytes, each a
string that ends at its first NUL, with a cursor and the first row shown. `editorOpen` fills the
rows with a file, `editorSave` writes them back, `editorKey` takes the keys. Of the terminal only
the zoom is modelled, since it says how many rows fit the window.
-/

namespace DemonOS.Xterm

def lineCapacity : ℕ := 80
def editorMaxLines : ℕ := 48
/-- `sizeof(editor_scratch)`. -/
def scratchSize : ℕ := editorMaxLines * lineCapacity

def newline : UInt8 := 0x0A

/-! ## Strings -/

/-- `string_length` of a row. -/
def stringLength (line : ℕ → UInt8) : ℕ :=
  ((List.range lineCapacity).takeWhile fun i => line i ≠ 0).length

def string (line : ℕ → UInt8) : List UInt8 := (List.range (stringLength line)).map line

/-- `copy_string` to the bytes of `line` from `start` on. -/
def copyString (line : ℕ → UInt8) (start : ℕ) (source : List UInt8) : ℕ → UInt8 := fun i =>
  if start ≤ i ∧ i < start + source.length then source.getD (i - start) 0
  else if i = start + source.length then 0
  else line i

/-- The loop that moves the characters from `index` down to the cursor one to the right. -/
def openGap (col : ℕ) : ℕ → (ℕ → UInt8) → ℕ → UInt8
  | 0, line => line
  | index + 1, line =>
    if col < index + 1 then openGap col index (Function.update line (index + 1) (line index))
    else line

/-- The loop that moves the `turns` characters behind `index` one to the left. -/
def closeGap : ℕ → ℕ → (ℕ → UInt8) → ℕ → UInt8
  | 0, _, line => line
  | turns + 1, index, line =>
    closeGap turns (index + 1) (Function.update line index (line (index + 1)))

/-! ## Rows -/

def copyRow (lines : ℕ → ℕ → UInt8) (destination source : ℕ) : ℕ → ℕ → UInt8 :=
  Function.update lines destination (copyString (lines destination) 0 (string (lines source)))

/-- The loop that moves the rows from `i - 1` down to behind `row` one down. -/
def openRow (row : ℕ) : ℕ → (ℕ → ℕ → UInt8) → ℕ → ℕ → UInt8
  | 0, lines => lines
  | i + 1, lines => if row + 1 < i + 1 then openRow row i (copyRow lines (i + 1) i) else lines

/-- The loop that moves the `turns` rows behind `i` one up. -/
def closeRow : ℕ → ℕ → (ℕ → ℕ → UInt8) → ℕ → ℕ → UInt8
  | 0, _, lines => lines
  | turns + 1, i, lines => closeRow turns (i + 1) (copyRow lines i (i + 1))

structure Editor where
  lines : ℕ → ℕ → UInt8 := fun _ _ => 0
  lineCount : ℕ := 0
  cursorRow : ℕ := 0
  cursorCol : ℕ := 0
  topRow : ℕ := 0
  filename : List UInt8 := []
  active : Bool := false
  dirty : Bool := false
  status : String := ""
  statusIsError : Bool := false

structure KeyPress where
  value : UInt32 := 0
  keycode : UInt32 := 0
  modifiers : UInt32 := 0
  deriving DecidableEq

def inputModCtrl : UInt32 := 16

def keycodeUp : UInt32 := 0x48
def keycodeDown : UInt32 := 0x50
def keycodeLeft : UInt32 := 0x4B
def keycodeRight : UInt32 := 0x4D
def keycodeHome : UInt32 := 0x47
def keycodeEnd : UInt32 := 0x4F
def keycodeDelete : UInt32 := 0x53
def keycodeS : UInt32 := 0x1F
def keycodeQ : UInt32 := 0x10
def keycodeMinus : UInt32 := 0x0C
def keycodePlus : UInt32 := 0x0D

namespace Editor

def line (e : Editor) (row : ℕ) : List UInt8 := string (e.lines row)

def setLine (e : Editor) (row : ℕ) (bytes : ℕ → UInt8) : Editor :=
  { e with lines := Function.update e.lines row bytes }

def setStatus (e : Editor) (text : String) (isError : Bool) : Editor :=
  { e with status := text, statusIsError := isError }

/-! ## Opening and saving -/

/-- The splitting loop of `editor_open`: the rows, and the row and the column it stands at. -/
def loadLines (lines : ℕ → ℕ → UInt8) (line col : ℕ) : List UInt8 → (ℕ → ℕ → UInt8) × ℕ × ℕ
  | [] => (lines, line, col)
  | character :: rest =>
    if line < editorMaxLines then
      if character = newline then
        loadLines (Function.update lines line (Function.update (lines line) col 0)) (line + 1) 0
          rest
      else if col < lineCapacity - 1 then
        loadLines (Function.update lines line (Function.update (lines line) col character)) line
          (col + 1) rest
      else loadLines lines line col rest
    else (lines, line, col)

/-- What `editor_open` makes of the bytes it has read. -/
def load (e : Editor) (bytes : List UInt8) : Editor :=
  let (lines, line, col) := loadLines e.lines 0 0 bytes
  if line < editorMaxLines then
    { e with
      lines := Function.update lines line (Function.update (lines line) col 0)
      lineCount := line + 1 }
  else { e with lines := lines, lineCount := line }

/-- The state `editor_open` starts from. -/
def reset (e : Editor) (name : List UInt8) : Editor :=
  { e with
    filename := name.take (lineCapacity - 1)
    cursorRow := 0
    cursorCol := 0
    topRow := 0
    dirty := false
    active := true }

def editorOpen (e : Editor) (s : Storage) (name : List UInt8) : Editor × Storage :=
  let e := e.reset name
  match s.openFile e.filename true with
  | (none, s) => ((e.load []).setStatus "new file (storage unavailable)" true, s)
  | (some handle, s) =>
    let bytes := (s.demonHandleRead handle scratchSize).getD []
    ((e.load bytes).setStatus (if bytes.length = 0 then "new file" else "loaded") false,
      s.demonHandleClose handle)

/-- One turn of the joining loop of `editor_save`. -/
def saveLine (scratch line : List UInt8) : List UInt8 :=
  let scratch := scratch ++ line.take (scratchSize - scratch.length)
  if scratch.length < scratchSize then scratch ++ [newline] else scratch

/-- The bytes `editor_save` writes. -/
def joined (e : Editor) : List UInt8 :=
  ((List.range e.lineCount).map e.line).foldl saveLine []

def editorSave (e : Editor) (s : Storage) : Editor × Storage :=
  match s.demonServiceOpen Storage.storageService with
  | (none, s) => (e.setStatus "save failed: no storage" true, s)
  | (some storage, s) =>
    match s.demonFileOpen storage e.filename true with
    | (none, s) => (e.setStatus "save failed: open" true, s)
    | (some handle, s) =>
      match s.demonHandleWrite handle e.joined with
      | (written, s) =>
        let s := s.demonHandleClose handle
        if written = some e.joined.length then
          (({ e with dirty := false } : Editor).setStatus "saved" false, s)
        else (e.setStatus "save failed: write" true, s)

/-! ## Keys -/

/-- Joins the row behind `row` to it, where the two fit. -/
def joinRows (e : Editor) (row : ℕ) : Editor :=
  let joined := copyString (e.lines row) (e.line row).length (e.line (row + 1))
  { e with
    lines := closeRow (e.lineCount - (row + 2)) (row + 1) (Function.update e.lines row joined)
    lineCount := e.lineCount - 1
    dirty := true }

def enterKey (e : Editor) : Editor :=
  if e.lineCount < editorMaxLines then
    let lines := openRow e.cursorRow e.lineCount e.lines
    let rest := (e.line e.cursorRow).drop e.cursorCol
    let lines := Function.update lines (e.cursorRow + 1)
      (copyString (lines (e.cursorRow + 1)) 0 rest)
    { e with
      lines := Function.update lines e.cursorRow
        (Function.update (lines e.cursorRow) e.cursorCol 0)
      lineCount := e.lineCount + 1
      cursorRow := e.cursorRow + 1
      cursorCol := 0
      dirty := true }
  else e

def backspaceKey (e : Editor) : Editor :=
  let length := (e.line e.cursorRow).length
  if 0 < e.cursorCol then
    let index := e.cursorCol - 1
    { e.setLine e.cursorRow (closeGap (length - index) index (e.lines e.cursorRow)) with
      cursorCol := index, dirty := true }
  else if 0 < e.cursorRow then
    let previousLength := (e.line (e.cursorRow - 1)).length
    if previousLength + length < lineCapacity - 1 then
      { e.joinRows (e.cursorRow - 1) with
        cursorRow := e.cursorRow - 1, cursorCol := previousLength }
    else e
  else e

def characterKey (e : Editor) (character : UInt8) : Editor :=
  let length := (e.line e.cursorRow).length
  if length < lineCapacity - 1 then
    { e.setLine e.cursorRow
        (Function.update (openGap e.cursorCol length (e.lines e.cursorRow)) e.cursorCol
          character) with
      cursorCol := e.cursorCol + 1, dirty := true }
  else e

/-- `if (editor_cursor_row < editor_top_row) editor_top_row = editor_cursor_row`. -/
def scrollUp (e : Editor) : Editor :=
  if e.cursorRow < e.topRow then { e with topRow := e.cursorRow } else e

def scrollDown (e : Editor) (rows : ℕ) : Editor :=
  if e.topRow + rows ≤ e.cursorRow then { e with topRow := e.cursorRow - rows + 1 } else e

/-- `if (editor_cursor_col > new_length) editor_cursor_col = new_length`. -/
def clampCol (e : Editor) : Editor :=
  if (e.line e.cursorRow).length < e.cursorCol then
    { e with cursorCol := (e.line e.cursorRow).length }
  else e

def deleteKey (e : Editor) : Editor :=
  let length := (e.line e.cursorRow).length
  if e.cursorCol < length then
    { e.setLine e.cursorRow
        (closeGap (length - e.cursorCol) e.cursorCol (e.lines e.cursorRow)) with
      dirty := true }
  else if e.cursorRow + 1 < e.lineCount then
    if length + (e.line (e.cursorRow + 1)).length < lineCapacity - 1 then e.joinRows e.cursorRow
    else e
  else e

def leftKey (e : Editor) : Editor :=
  if 0 < e.cursorCol then { e with cursorCol := e.cursorCol - 1 }
  else if 0 < e.cursorRow then
    ({ e with
      cursorRow := e.cursorRow - 1
      cursorCol := (e.line (e.cursorRow - 1)).length } : Editor).scrollUp
  else e

def rightKey (e : Editor) (rows : ℕ) : Editor :=
  if e.cursorCol < (e.line e.cursorRow).length then { e with cursorCol := e.cursorCol + 1 }
  else if e.cursorRow + 1 < e.lineCount then
    ({ e with cursorRow := e.cursorRow + 1, cursorCol := 0 } : Editor).scrollDown rows
  else e

/-- The keys that type no character. -/
def functionKey (e : Editor) (rows : ℕ) (keycode : UInt32) : Editor :=
  if keycode = keycodeUp ∧ 0 < e.cursorRow then
    ({ e with cursorRow := e.cursorRow - 1 } : Editor).clampCol.scrollUp
  else if keycode = keycodeDown ∧ e.cursorRow + 1 < e.lineCount then
    (({ e with cursorRow := e.cursorRow + 1 } : Editor).clampCol).scrollDown rows
  else if keycode = keycodeLeft then e.leftKey
  else if keycode = keycodeRight then e.rightKey rows
  else if keycode = keycodeHome then { e with cursorCol := 0 }
  else if keycode = keycodeEnd then { e with cursorCol := (e.line e.cursorRow).length }
  else if keycode = keycodeDelete then e.deleteKey
  else e

/-- The part of `editor_key` for a key without Ctrl. -/
def plainKey (e : Editor) (rows : ℕ) (key : KeyPress) : Editor :=
  if key.value = 0x0A then e.enterKey
  else if key.value = 0x08 then e.backspaceKey
  else if 0x20 ≤ key.value ∧ key.value < 0x7F then e.characterKey key.value.toUInt8
  else if key.value = 0 then e.functionKey rows key.keycode
  else e

end Editor

/-- What is kept of xterm: the scale of the font, the lines put out and the editor. -/
structure Terminal where
  fontScale : ℕ := 1
  scrollback : List String := []
  editor : Editor := {}

namespace Terminal

def fontScaleMin : ℕ := 1
def fontScaleMax : ℕ := 3
def cellHeight (scale : ℕ) : ℕ := 7 * scale
/-- `GRID_HEIGHT`: 22 rows of the smallest cells. -/
def gridHeight : ℕ := 22 * 7

def visibleRowsAtScale (t : Terminal) : ℕ := gridHeight / cellHeight t.fontScale

def withEditor (t : Terminal) (e : Editor) : Terminal := { t with editor := e }

def editorKey (t : Terminal) (s : Storage) (key : KeyPress) : Terminal × Storage :=
  if key.modifiers &&& inputModCtrl ≠ 0 then
    if key.keycode = keycodeS then
      (t.withEditor (t.editor.editorSave s).1, (t.editor.editorSave s).2)
    else if key.keycode = keycodeQ then
      ({ t with
        editor := { t.editor with active := false }
        scrollback := t.scrollback ++
          [if t.editor.dirty then "editor closed unsaved changes discarded"
            else "editor closed"] }, s)
    else (t, s)
  else (t.withEditor (t.editor.plainKey t.visibleRowsAtScale key), s)

/-- The zoom of `terminal_key`. -/
def terminalKey (t : Terminal) (key : KeyPress) : Terminal :=
  if key.modifiers &&& inputModCtrl = 0 then t
  else if key.keycode = keycodeMinus then
    if fontScaleMin < t.fontScale then { t with fontScale := t.fontScale - 1 } else t
  else if key.keycode = keycodePlus then
    if t.fontScale < fontScaleMax then { t with fontScale := t.fontScale + 1 } else t
  else t

/-- What happens to xterm, and the files as they are then: a key, or the command `edit` typed at
the prompt. -/
inductive Happening where
  | key (key : KeyPress) (files : Storage)
  | edit (name : List UInt8) (files : Storage)

def step (t : Terminal) : Happening → Terminal
  | .key key files => if t.editor.active then (t.editorKey files key).1 else t.terminalKey key
  | .edit name files =>
    if t.editor.active then t else t.withEditor (t.editor.editorOpen files name).1

def run (events : List Happening) : Terminal := events.foldl step {}

end Terminal

end DemonOS.Xterm
