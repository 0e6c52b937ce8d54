import Mathlib.Algebra.Group.Int.Defs
import Mathlib.Algebra.GroupWithZero.Nat

/-!
# The scan of GameMaker bytecode

`scan_code` of `ports/butterscotch/platform/bytecode_scan.c`. A read past the bytes has no result,
and neither has a loop that does not end within its rounds. `BinaryUtils_readUint32` belongs to
Butterscotch and is not among the sources: it is any function of the four bytes it reads.
-/

namespace DemonOS

structure DemonBytecodeStats where
  codeEntries : UInt32 := 0
  instructions : UInt32 := 0
  operandBytes : UInt32 := 0
  pushes : UInt32 := 0
  conversions : UInt32 := 0
  arithmetic : UInt32 := 0
  stores : UInt32 := 0
  calls : UInt32 := 0
  branches : UInt32 := 0
  stackDrops : UInt32 := 0
  exits : UInt32 := 0
  unknownOpcodes : UInt32 := 0

namespace BytecodeScan

/-- The kinds that the scan tells apart. -/
inductive Kind
  | push
  | conversion
  | arithmetic
  | store
  | call
  | branch
  | stackDrop
  | exit
  | other
  deriving DecidableEq

def opB : UInt32 := 0xB6
def opPopEnv : UInt32 := 0xBB

def kindOf (opcode : UInt32) : Option Kind :=
  if opcode ∈ [0xC0, 0xC1, 0xC2, 0xC3, 0x84] then some .push
  else if opcode = 0x07 then some .conversion
  else if 0x08 ≤ opcode ∧ opcode ≤ 0x15 then some .arithmetic
  else if opcode = 0x45 then some .store
  else if opcode ∈ [0xD9, 0x99] then some .call
  else if opcode ∈ [opB, 0xB7, 0xB8, 0xBA, opPopEnv] then some .branch
  else if opcode = 0x9E then some .stackDrop
  else if opcode ∈ [0x9C, 0x9D] then some .exit
  else if opcode ∈ [0x86, 0xFF] then some .other
  else none

def count (s : DemonBytecodeStats) : Kind → DemonBytecodeStats
  | .push => { s with pushes := s.pushes + 1 }
  | .conversion => { s with conversions := s.conversions + 1 }
  | .arithmetic => { s with arithmetic := s.arithmetic + 1 }
  | .store => { s with stores := s.stores + 1 }
  | .call => { s with calls := s.calls + 1 }
  | .branch => { s with branches := s.branches + 1 }
  | .stackDrop => { s with stackDrops := s.stackDrops + 1 }
  | .exit => { s with exits := s.exits + 1 }
  | .other => s

/-- The size of the operand, where the type has one. -/
def extraSize (instruction : UInt32) : Option ℕ :=
  if instruction &&& 0x40000000 = 0 then some 0
  else
    let type := (instruction >>> 16) &&& 0x0F
    if type = 0 ∨ type = 3 then some 8
    else if type = 1 ∨ type = 2 ∨ type = 4 ∨ type = 5 ∨ type = 6 then some 4
    else if type = 15 then some 0
    else none

def jumpOffset (instruction : UInt32) : ℤ :=
  ((instruction <<< 9).toNat : ℤ).bmod (2 ^ 32) / 2 ^ 7

/-- The branch of `PopEnv` that leaves the environments without a jump. -/
def isExitPopEnv (instruction : UInt32) : Prop :=
  instruction >>> 24 = opPopEnv ∧ instruction &&& 0x00FFFFFF = 0x00F00000

instance (instruction : UInt32) : Decidable (isExitPopEnv instruction) :=
  inferInstanceAs (Decidable (_ ∧ _))

variable (readUint32 : UInt8 → UInt8 → UInt8 → UInt8 → UInt32) (bytes : List UInt8)

/-- `BinaryUtils_readUint32(bytes + ip)`. -/
def readAt (ip : ℕ) : Option UInt32 := do
  pure (readUint32 (← bytes[ip]?) (← bytes[ip + 1]?) (← bytes[ip + 2]?) (← bytes[ip + 3]?))

/-- The loop of `is_boundary`. -/
def boundaryLoop (target : ℕ) : ℕ → ℕ → Option Bool
  | 0, _ => none
  | rounds + 1, ip =>
    if ip < bytes.length then
      if ip = target then some true
      else if bytes.length - ip < 4 then some false
      else (readAt readUint32 bytes ip).bind fun instruction =>
        (extraSize instruction).elim (some false) fun extra =>
          if bytes.length - ip < 4 + extra then some false
          else boundaryLoop target rounds ((ip + (4 + extra)) % 2 ^ 32)
    else some false

def isBoundary (target : ℕ) : Option Bool :=
  if target = bytes.length then some true
  else boundaryLoop readUint32 bytes target (bytes.length + 1) 0

def branchFits (ip : ℕ) (instruction : UInt32) : Option Bool :=
  if isExitPopEnv instruction then some true
  else
    let target := ip + jumpOffset instruction
    if target < 0 ∨ (bytes.length : ℤ) < target then some false
    else isBoundary readUint32 bytes target.toNat

def scanLoop : ℕ → ℕ → DemonBytecodeStats → Option (Bool × DemonBytecodeStats)
  | 0, _, _ => none
  | rounds + 1, ip, stats =>
    if ip < bytes.length then
      if bytes.length - ip < 4 then some (false, stats)
      else (readAt readUint32 bytes ip).bind fun instruction =>
        (extraSize instruction).elim (some (false, stats)) fun extra =>
          if bytes.length - ip < 4 + extra then some (false, stats)
          else
            let stats := { stats with
              instructions := stats.instructions + 1
              operandBytes := stats.operandBytes + UInt32.ofNat extra }
            (kindOf (instruction >>> 24)).elim
              (some (false, { stats with unknownOpcodes := stats.unknownOpcodes + 1 })) fun kind =>
              let stats := count stats kind
              (if kind = .branch then branchFits readUint32 bytes ip instruction
                else some true).bind fun fits =>
                if fits then scanLoop rounds ((ip + (4 + extra)) % 2 ^ 32) stats
                else some (false, stats)
    else some (ip = bytes.length, stats)

def scanCode (stats : DemonBytecodeStats) : Option (Bool × DemonBytecodeStats) :=
  scanLoop readUint32 bytes (bytes.length + 1) 0 stats

end BytecodeScan

end DemonOS
