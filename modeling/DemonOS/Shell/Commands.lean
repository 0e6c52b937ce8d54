import DemonOS.Xterm.Storage
import Mathlib.Algebra.Order.Ring.Int

/-!
# The commands of the shell

The part of `src/shared/shell_commands.c` behind `cp`, `mv` and `calc`.
-/

/-!
## The lines of the shell's commands

The part of `src/shared/shell_commands.c` that puts a number into a line. A value is a signed 64-bit
integer; `none` is the negation that overflows.
-/

namespace DemonOS.Shell

def shellLineCapacity : ℕ := 96

/-- `shell_format_u64`. -/
def shellFormatU64 (value : ℕ) : List Char := Nat.toDigits 10 value

/-- What a loop adds of a text to a buffer that keeps a byte for the terminator. -/
def fill (buffer text : List Char) : List Char :=
  buffer ++ text.take (shellLineCapacity - 1 - buffer.length)

/-- `shell_value_line`. -/
def shellValueLine (label : List Char) (value : ℤ) (suffix : List Char) : Option (List Char) :=
  let buffer := fill [] label
  let buffer := if value < 0 then fill buffer ['-'] else buffer
  if value = -2 ^ 63 then none
  else
    let buffer := if buffer.length + 20 < shellLineCapacity
      then buffer ++ shellFormatU64 value.natAbs else buffer
    some (fill buffer suffix)

/-!
## The shell's `cp` and `mv`

The two commands of `src/shared/shell_commands.c` over any backend, and xterm's backend. A command
gives the lines it puts out; names and arguments are strings without NUL.
-/

def shellFileCapacity : ℕ := 1024
def shellNameCapacity : ℕ := 64

def space : UInt8 := 0x20

/-- `struct shell_backend`, without `list_dir`: `readFile` gives the bytes copied and the length
reported. -/
structure ShellBackend (σ : Type) where
  readFile : σ → List UInt8 → ℕ → Option (List UInt8 × ℕ) × σ
  writeFile : σ → List UInt8 → List UInt8 → Bool × σ
  deleteFile : σ → List UInt8 → Bool × σ
  renameFile : σ → List UInt8 → List UInt8 → Bool × σ

/-- The first word, which has to fit `capacity` with its terminator, and the rest. -/
def shellSplitTwoArgs (argument : List UInt8) (capacity : ℕ) : Option (List UInt8 × List UInt8) :=
  let first := (argument.takeWhile (· ≠ space)).take (capacity - 1)
  let rest := argument.drop first.length
  if first = [] ∨ rest.head? ≠ some space then none
  else
    let second := rest.dropWhile (· = space)
    if second = [] then none else some (first, second)

section Commands

variable {σ : Type} (backend : ShellBackend σ)

def shellReadWhole (s : σ) (path : List UInt8) : Option (List UInt8) × σ :=
  match backend.readFile s path shellFileCapacity with
  | (none, s) => (none, s)
  | (some (bytes, realLength), s) => (some (bytes.take (min realLength shellFileCapacity)), s)

def shellCmdCp (s : σ) (argument : List UInt8) : List (List Char) × σ :=
  match shellSplitTwoArgs argument shellNameCapacity with
  | none => (["usage: cp <src> <dst>".toList], s)
  | some (src, dst) =>
    let failed := ["cp: could not read source or write destination".toList]
    match shellReadWhole backend s src with
    | (none, s) => (failed, s)
    | (some data, s) =>
      match backend.writeFile s dst data with
      | (false, s) => (failed, s)
      | (true, s) =>
        ((shellValueLine "copied ".toList data.length " bytes".toList).toList, s)

def shellCmdMv (s : σ) (argument : List UInt8) : List (List Char) × σ :=
  match shellSplitTwoArgs argument shellNameCapacity with
  | none => (["usage: mv <src> <dst>".toList], s)
  | some (src, dst) =>
    let failed := ["mv: could not move file".toList]
    match backend.renameFile s src dst with
    | (true, s) => ([], s)
    | (false, s) =>
      match shellReadWhole backend s src with
      | (none, s) => (failed, s)
      | (some data, s) =>
        match backend.writeFile s dst data with
        | (false, s) => (failed, s)
        | (true, s) =>
          match backend.deleteFile s src with
          | (false, s) => (failed, s)
          | (true, s) => ([], s)

end Commands

open Xterm in
def xtermShellBackend : ShellBackend Storage where
  readFile := Storage.xtermShellReadFile
  writeFile := Storage.xtermShellWriteFile
  deleteFile := Storage.xtermShellDeleteFile
  renameFile := Storage.xtermShellRenameFile

end DemonOS.Shell

/-!
## The shell's calculator

`calc` of `src/shared/shell_commands.c`: a recursive descent over the argument that computes as it
reads. The numbers here are unbounded, and the parser keeps the result of every signed operation in
`numbers`: where one of them does not fit 64 bits, the program has no defined behaviour
(`shellCmdCalc` gives `none`). After an error a factor reads nothing and is 0, and the loops go on.
-/

namespace DemonOS.Shell

structure ShellCalcParser where
  cursor : List UInt8
  error : Bool := false
  numbers : List ℤ := []

/-- The value is a signed 64-bit integer. -/
def Fits (n : ℤ) : Prop := -2 ^ 63 ≤ n ∧ n < 2 ^ 63

instance (n : ℤ) : Decidable (Fits n) := inferInstanceAs (Decidable (_ ∧ _))

def spaceChar : UInt8 := 0x20
def minusChar : UInt8 := 0x2D
def plusChar : UInt8 := 0x2B
def openChar : UInt8 := 0x28
def closeChar : UInt8 := 0x29
def timesChar : UInt8 := 0x2A
def divideChar : UInt8 := 0x2F
def moduloChar : UInt8 := 0x25

def isDigit (c : UInt8) : Bool := 0x30 ≤ c && c ≤ 0x39

namespace ShellCalcParser

def shellCalcSkipSpaces (p : ShellCalcParser) : ShellCalcParser :=
  { p with cursor := p.cursor.dropWhile (· = spaceChar) }

/-- The cursor stands at the character. -/
def At (p : ShellCalcParser) (c : UInt8) : Prop := p.cursor.head? = some c

instance (p : ShellCalcParser) (c : UInt8) : Decidable (p.At c) :=
  inferInstanceAs (Decidable (_ = _))

/-- `++parser->cursor`. -/
def advance (p : ShellCalcParser) : ShellCalcParser := { p with cursor := p.cursor.tail }

def fail (p : ShellCalcParser) : ShellCalcParser := { p with error := true }

/-- The result of a signed operation. -/
def note (p : ShellCalcParser) (n : ℤ) : ShellCalcParser :=
  { p with numbers := p.numbers ++ [n] }

/-- The loop over the digits of a literal. The sum stands for the product in it too. -/
def digits (value : ℤ) (numbers : List ℤ) (error : Bool) : List UInt8 → ℤ × ShellCalcParser
  | [] => (value, { cursor := [], error := error, numbers := numbers })
  | c :: rest =>
    if isDigit c then
      let value := value * 10 + (c.toNat - 0x30 : ℕ)
      digits value (numbers ++ [value]) error rest
    else (value, { cursor := c :: rest, error := error, numbers := numbers })

end ShellCalcParser

open ShellCalcParser

mutual

/-- `shell_calc_factor`; `none` is a recursion deeper than `fuel`. -/
def shellCalcFactor : ℕ → ShellCalcParser → Option (ℤ × ShellCalcParser)
  | 0, _ => none
  | fuel + 1, p =>
    let p := p.shellCalcSkipSpaces
    if p.error then some (0, p)
    else if p.At minusChar then
      (shellCalcFactor fuel p.advance).map fun (value, p) => (-value, p.note (-value))
    else if p.At plusChar then shellCalcFactor fuel p.advance
    else if p.At openChar then
      (shellCalcExpression fuel p.advance).map fun (value, p) =>
        let p := p.shellCalcSkipSpaces
        if p.At closeChar then (value, p.advance) else (0, p.fail)
    else if p.cursor.head?.any isDigit then some (digits 0 p.numbers p.error p.cursor)
    else some (0, p.fail)

def shellCalcTerm : ℕ → ShellCalcParser → Option (ℤ × ShellCalcParser)
  | 0, _ => none
  | fuel + 1, p =>
    (shellCalcFactor fuel p).bind fun (value, p) => shellCalcTermLoop fuel value p

/-- The loop of `shell_calc_term`. C's division truncates, and its remainder goes with a quotient
that has to be representable. -/
def shellCalcTermLoop : ℕ → ℤ → ShellCalcParser → Option (ℤ × ShellCalcParser)
  | 0, _, _ => none
  | fuel + 1, value, p =>
    let p := p.shellCalcSkipSpaces
    if p.At timesChar then
      (shellCalcFactor fuel p.advance).bind fun (right, p) =>
        shellCalcTermLoop fuel (value * right) (p.note (value * right))
    else if p.At divideChar then
      (shellCalcFactor fuel p.advance).bind fun (right, p) =>
        if right = 0 then some (0, p.fail)
        else shellCalcTermLoop fuel (value.tdiv right) (p.note (value.tdiv right))
    else if p.At moduloChar then
      (shellCalcFactor fuel p.advance).bind fun (right, p) =>
        if right = 0 then some (0, p.fail)
        else shellCalcTermLoop fuel (value.tmod right)
          ((p.note (value.tdiv right)).note (value.tmod right))
    else some (value, p)

def shellCalcExpression : ℕ → ShellCalcParser → Option (ℤ × ShellCalcParser)
  | 0, _ => none
  | fuel + 1, p =>
    (shellCalcTerm fuel p).bind fun (value, p) => shellCalcExpressionLoop fuel value p

/-- The loop of `shell_calc_expression`. -/
def shellCalcExpressionLoop : ℕ → ℤ → ShellCalcParser → Option (ℤ × ShellCalcParser)
  | 0, _, _ => none
  | fuel + 1, value, p =>
    let p := p.shellCalcSkipSpaces
    if p.At plusChar then
      (shellCalcTerm fuel p.advance).bind fun (right, p) =>
        shellCalcExpressionLoop fuel (value + right) (p.note (value + right))
    else if p.At minusChar then
      (shellCalcTerm fuel p.advance).bind fun (right, p) =>
        shellCalcExpressionLoop fuel (value - right) (p.note (value - right))
    else some (value, p)

end

/-- The whole evaluation, with a depth that is enough for every argument. -/
def shellCalcRun (argument : List UInt8) : Option (ℤ × ShellCalcParser) :=
  (shellCalcExpression (4 * argument.length + 4) { cursor := argument }).map
    fun (value, p) => (value, p.shellCalcSkipSpaces)

/-- `shell_cmd_calc`: the lines put out, or `none` where a signed operation overflows. -/
def shellCmdCalc (argument : List UInt8) : Option (List (List Char)) :=
  if argument = [] then some ["usage: calc <expression>".toList]
  else
    (shellCalcRun argument).bind fun (value, p) =>
      if ¬ ∀ n ∈ p.numbers, Fits n then none
      else if p.error = true ∨ p.cursor ≠ [] then some ["calc: invalid expression".toList]
      else (shellValueLine "= ".toList value []).map fun line => [line]

end DemonOS.Shell
