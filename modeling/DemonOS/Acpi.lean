import DemonOS.Lib.Traced

/-!
# The search for a battery in the ACPI tables

`src/acpi.c` over any contents of physical memory, with each address it reads. The sums of the
program do not wrap where they can matter: an address is compared with the limit before anything is
added to it, but for the signature of a root table, which is beyond the limit before it wraps, and a
table is scanned where it lies below the limit, so that its length is far below `2 ^ 32`. What is
written to the serial port is left out.
-/

namespace DemonOS

namespace Acpi

open Traced

def acpiSafeLimit : ℕ := 0x40000000

def ascii (text : String) : List UInt8 := text.toList.map fun c => UInt8.ofNat c.toNat

variable (m : ℕ → UInt8)

def physU8 (address : ℕ) : Traced UInt8 := read m address
def physU32 (address : ℕ) : Traced ℕ := number m address 4
def physU64 (address : ℕ) : Traced ℕ := number m address 8

def sigMatches (address : ℕ) (signature : String) : Traced Bool := spells m address (ascii signature)

def checksumOk (address length : ℕ) : Traced Bool := do
  let sum ← (List.range length).foldlM
    (fun sum i => do pure (sum + (← physU8 m (address + i)))) (0 : UInt8)
  pure (sum == 0)

def batteryEisaId : ℕ :=
  let letter (c : Char) : ℕ := c.toNat - '@'.toNat
  letter 'P' <<< 26 ||| letter 'N' <<< 21 ||| letter 'P' <<< 16 ||| 0x0 <<< 12 ||| 0xC <<< 8
    ||| 0x0 <<< 4 ||| 0xA

/-- The bytes that `table_declares_battery` looks for: a DWord of AML. -/
def eisaPattern : List UInt8 :=
  0x0C :: (List.range 4).map fun i => UInt8.ofNat (batteryEisaId >>> (8 * i))

def asciiPattern : List UInt8 := ascii "PNP0C0A"

def tableDeclaresBattery (base length : ℕ) : Traced Bool :=
  if length < 8 then pure false
  else (List.range (length - 7)).anyM fun offset => do
    if ← spells m (base + offset) eisaPattern then pure true
    else spells m (base + offset) asciiPattern

def scanTableForBattery (table : ℕ) : Traced Bool :=
  if table = 0 ∨ acpiSafeLimit ≤ table then pure false
  else do
    let length ← physU32 m (table + 4)
    if length < 36 ∨ acpiSafeLimit < table + length then pure false
    else tableDeclaresBattery m table length

def fadtDsdtAddress (fadt length : ℕ) : Traced ℕ := do
  let extended ← (if 148 ≤ length then physU64 m (fadt + 140) else pure 0)
  if extended ≠ 0 then pure extended
  else if 44 ≤ length then physU32 m (fadt + 40) else pure 0

/-- The body of the loop of `walk_root_table` for the table of an entry. -/
def walkEntry (table : ℕ) : Traced Bool :=
  if table = 0 ∨ acpiSafeLimit ≤ table then pure false
  else do
    let length ← physU32 m (table + 4)
    if length < 36 ∨ acpiSafeLimit < table + length then pure false
    else if ← sigMatches m table "FACP" then
      scanTableForBattery m (← fadtDsdtAddress m table length)
    else if ← sigMatches m table "SSDT" then tableDeclaresBattery m table length
    else pure false

def entryAt (root : ℕ) (wide : Bool) (i : ℕ) : Traced ℕ :=
  if wide then physU64 m (root + 36 + i * 8) else physU32 m (root + 36 + i * 4)

def walkRootTable (root : ℕ) (wide : Bool) : Traced Bool :=
  if root = 0 ∨ acpiSafeLimit ≤ root then pure false
  else do
    let length ← physU32 m (root + 4)
    if length < 36 ∨ acpiSafeLimit < root + length then pure false
    else if ← checksumOk m root length then
      (List.range (min 64 ((length - 36) / if wide then 8 else 4))).foldlM (fun found i => do
        let table ← entryAt m root wide i
        let here ← walkEntry m table
        pure (found || here)) false
    else pure false

def rsdpChecksumOk (address : ℕ) (extended : Bool) : Traced Bool := do
  if ← checksumOk m address 20 then
    if extended then
      let length ← physU32 m (address + 20)
      if length < 33 ∨ 4096 < length then pure false else checksumOk m address length
    else pure true
  else pure false

/-- The first address of a descriptor that ends by `stop`, every 16 bytes; 0 where there is none. -/
def findRsdpInRange (start stop : ℕ) : Traced ℕ := do
  let found ← ((List.range ((stop - start - 4) / 16)).map fun i => start + 16 * i).findM?
    fun address => sigMatches m address "RSD PTR "
  pure (found.getD 0)

def findRsdp : Traced ℕ := do
  let segment ← number m 0x40E 2
  let found ← (if segment ≠ 0 ∧ segment * 16 + 1024 < acpiSafeLimit then
    findRsdpInRange m (segment * 16) (segment * 16 + 1024) else pure 0)
  if found ≠ 0 then pure found else findRsdpInRange m 0xE0000 0x100000

def walkSigned (root : ℕ) (signature : String) (wide : Bool) : Traced Bool :=
  if root = 0 then pure false
  else do if ← sigMatches m root signature then walkRootTable m root wide else pure false

/-- `acpi_init`, with what it leaves in `g_acpi_present` and `g_battery_present`. -/
def acpiInit : Traced (Bool × Bool) := do
  let rsdp ← findRsdp m
  if rsdp = 0 then pure (false, false)
  else
    let revision ← physU8 m (rsdp + 15)
    if ← rsdpChecksumOk m rsdp (2 ≤ revision) then
      let found ← (if 2 ≤ revision then do walkSigned m (← physU64 m (rsdp + 24)) "XSDT" true
        else pure false)
      let found ← (if found then pure true
        else do walkSigned m (← physU32 m (rsdp + 16)) "RSDT" false)
      pure (true, found)
    else pure (false, false)

end Acpi

end DemonOS
