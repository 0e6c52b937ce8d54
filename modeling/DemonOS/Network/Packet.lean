import DemonOS.Lib.OnesComplement
import Mathlib.Data.List.FinRange

/-!
# Packets

`src/network.c`, the bytes of a packet: reading and writing big-endian fields and the two checksums.
A packet gives the bytes up to its end and nothing past it, so that a function that reads outside
what it was given has no result. The sizes are those of the machine: a difference below zero or a
sum of 64 bits has none either.
-/

namespace DemonOS

namespace Network

/-- The bytes from a pointer on, as far as they go. -/
abbrev Packet := ℕ → Option UInt8

/-- The first `length` bytes of memory. -/
def packetOf (frame : ℕ → UInt8) (length : ℕ) : Packet := fun i =>
  if i < length then some (frame i) else none

/-- The packet from the byte at `offset` on. -/
def Packet.drop (packet : Packet) (offset : ℕ) : Packet := fun i => packet (offset + i)

def sizeAdd (a b : ℕ) : Option ℕ := if a + b < 2 ^ 64 then some (a + b) else none

def sizeSub (a b : ℕ) : Option ℕ := if b ≤ a then some (a - b) else none

def readBe16 (bytes : Packet) (i : ℕ) : Option UInt16 := do
  let high ← bytes i
  let low ← bytes (i + 1)
  return UInt16.ofNat (high.toNat * 2 ^ 8 + low.toNat)

def readBe32 (bytes : Packet) (i : ℕ) : Option UInt32 := do
  let high ← readBe16 bytes i
  let low ← readBe16 bytes (i + 2)
  return UInt32.ofNat (high.toNat * 2 ^ 16 + low.toNat)

def writeByte (bytes : ℕ → UInt8) (i : ℕ) (value : UInt8) : ℕ → UInt8 := fun a =>
  if a = i then value else bytes a

def writeBe16 (bytes : ℕ → UInt8) (i : ℕ) (value : UInt16) : ℕ → UInt8 :=
  writeByte (writeByte bytes i (UInt8.ofNat (value.toNat / 2 ^ 8))) (i + 1) (UInt8.ofNat value.toNat)

def writeBe32 (bytes : ℕ → UInt8) (i : ℕ) (value : UInt32) : ℕ → UInt8 :=
  writeBe16 (writeBe16 bytes i (UInt16.ofNat (value.toNat / 2 ^ 16))) (i + 2)
    (UInt16.ofNat value.toNat)

/-- An Ethernet address. -/
abbrev Mac := Vector UInt8 6

def readMac (bytes : Packet) (i : ℕ) : Option Mac := do
  return #v[← bytes i, ← bytes (i + 1), ← bytes (i + 2), ← bytes (i + 3), ← bytes (i + 4),
    ← bytes (i + 5)]

/-- `copy_mac` to the bytes from `i` on. -/
def writeMac (bytes : ℕ → UInt8) (i : ℕ) (mac : Mac) : ℕ → UInt8 :=
  (List.finRange 6).foldl (fun m (k : Fin 6) => writeByte m (i + k) mac[k]) bytes

def complement (sum : ℕ) : UInt16 := UInt16.ofNat (2 ^ 32 - 1 - sum)

def ipv4ChecksumLoop (header : Packet) : ℕ → ℕ → ℕ → Option ℕ
  | 0, _, sum => some sum
  | words + 1, offset, sum => do
    let word ← readBe16 header offset
    ipv4ChecksumLoop header words (offset + 2) (OnesComplement.fold (sum + word.toNat))

def networkIpv4Checksum (header : Packet) (length : ℕ) : Option UInt16 :=
  if length < 20 ∨ 60 < length ∨ length % 2 ≠ 0 then some 0xFFFF
  else do
    let sum ← ipv4ChecksumLoop header (length / 2) 0 0
    return complement sum

/-- The words are added first, in 32 bits, and the sum is folded at the end. -/
def checksumAdd (bytes : Packet) : ℕ → ℕ → ℕ → Option ℕ
  | 0, _, sum => some (OnesComplement.fold sum)
  | 1, offset, sum => do
    let last ← bytes offset
    return OnesComplement.fold ((sum + last.toNat * 2 ^ 8) % 2 ^ 32)
  | length + 2, offset, sum => do
    let word ← readBe16 bytes offset
    checksumAdd bytes length (offset + 2) ((sum + word.toNat) % 2 ^ 32)

def pseudoHeader (source destination : UInt32) (protocol : UInt8) (length : ℕ) : ℕ → UInt8 :=
  let pseudo := writeBe32 (fun _ => 0) 0 source
  let pseudo := writeBe32 pseudo 4 destination
  let pseudo := writeByte pseudo 8 0
  let pseudo := writeByte pseudo 9 protocol
  writeBe16 pseudo 10 (UInt16.ofNat length)

def transportChecksum (source destination : UInt32) (protocol : UInt8) (packet : Packet)
    (length : ℕ) : Option UInt16 := do
  let pseudo := packetOf (pseudoHeader source destination protocol length) 12
  let sum ← checksumAdd pseudo 12 0 0
  let sum ← checksumAdd packet length 0 sum
  return complement sum

end Network

end DemonOS
