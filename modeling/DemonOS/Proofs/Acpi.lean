import DemonOS.Acpi

/-!
# What the search in the ACPI tables reads and finds

A table is scanned within its bytes, so all that can be read beyond the limit is the head of a table
whose address is below it, and the signature of a root table, whose address is not looked at before
(`acpiInit_mapped_iff`). The DWord that is looked for has the bytes of the constant in the other
order, so a battery is found by its name in letters only (`declares_battery_iff`).
-/

namespace DemonOS

namespace Acpi

open Traced

variable {m : ℕ → UInt8} {base length table root : ℕ}

/-! ## What is found -/

def batteryDword : List UInt8 := [0x0C, 0x41, 0xD0, 0x0C, 0x0A]

def Contains (m : ℕ → UInt8) (base length : ℕ) (text : List UInt8) : Prop :=
  ∃ offset, offset + text.length ≤ length ∧ Spells m (base + offset) text

def Early (m : ℕ → UInt8) (base length : ℕ) (text : List UInt8) : Prop :=
  ∃ offset, offset + 8 ≤ length ∧ Spells m (base + offset) text

theorem eisaPattern_eq : eisaPattern = [0x0C, 0x0A, 0x0C, 0xD0, 0x41] := by decide +kernel

theorem value_ite_spells {x : Traced Bool} {y z : Traced Bool} :
    (do if ← x then y else z).value = if x.value then y.value else z.value := by
  rw [value_bind]
  split_ifs <;> rfl

theorem tableDeclaresBattery_iff : (tableDeclaresBattery m base length).value = true
    ↔ Early m base length eisaPattern ∨ Early m base length asciiPattern := by
  unfold tableDeclaresBattery Early
  split_ifs with hshort
  · simp only [false_iff, not_or, not_exists]
    exact ⟨fun _ h => by omega, fun _ h => by omega⟩
  · rw [value_anyM, List.any_eq_true, ← exists_or]
    refine exists_congr fun offset => ?_
    rw [List.mem_range, value_ite_spells, show offset < length - 7 ↔ offset + 8 ≤ length by omega,
      ← and_or_left, ← value_spells, ← value_spells]
    refine and_congr_right fun _ => ?_
    split_ifs with h
    · simp [h]
    · simp [h]

/-- The search says what it is meant to just where the letters come early enough, or both orders of
the constant are there, or nothing at all. -/
theorem declares_battery_iff (m : ℕ → UInt8) (base length : ℕ) :
    ((tableDeclaresBattery m base length).value = true
        ↔ Contains m base length batteryDword ∨ Contains m base length asciiPattern)
      ↔ Early m base length asciiPattern
        ∨ (Early m base length [0x0C, 0x0A, 0x0C, 0xD0, 0x41]
          ∧ (Contains m base length batteryDword ∨ Contains m base length asciiPattern))
        ∨ (¬Early m base length [0x0C, 0x0A, 0x0C, 0xD0, 0x41]
          ∧ ¬Contains m base length batteryDword ∧ ¬Contains m base length asciiPattern) := by
  have hearly : Early m base length asciiPattern → Contains m base length asciiPattern :=
    fun ⟨offset, hle, h⟩ => ⟨offset, by
      rw [show asciiPattern.length = 7 by decide +kernel]; omega, h⟩
  rw [tableDeclaresBattery_iff, eisaPattern_eq]
  tauto

def batteryTable (a : ℕ) : UInt8 := batteryDword.getD (a - 36) 0

theorem battery_missed : (tableDeclaresBattery batteryTable 0 41).value = false
    ∧ Contains batteryTable 0 41 batteryDword :=
  ⟨by decide +kernel, 36, by decide, by
    intro i hi
    revert i
    decide +kernel⟩

/-! ## What is read -/

/-- All addresses that are read are below the limit. -/
def Mapped {α : Type} (x : Traced α) : Prop := x.Within (· < acpiSafeLimit)

def PointerMapped (table : ℕ) : Prop :=
  table = 0 ∨ acpiSafeLimit ≤ table ∨ table + 8 ≤ acpiSafeLimit

def Fits (m : ℕ → UInt8) (table : ℕ) : Prop :=
  36 ≤ (physU32 m (table + 4)).value ∧ table + (physU32 m (table + 4)).value ≤ acpiSafeLimit

/-- The pointer of a root table's entry, and where that is to a FADT, its pointer to the DSDT. -/
structure EntryMapped (m : ℕ → UInt8) (table : ℕ) : Prop where
  pointer : PointerMapped table
  dsdt : table ≠ 0 → table + 8 ≤ acpiSafeLimit → Fits m table → Spells m table (ascii "FACP") →
    PointerMapped (fadtDsdtAddress m table (physU32 m (table + 4)).value).value

/-- The pointer to a root table, and those of its entries. The signature, which is compared first,
may only go on beyond the limit where it is wrong before. -/
structure RootMapped (m : ℕ → UInt8) (root : ℕ) (signature : String) (wide : Bool) : Prop where
  head : root = 0 ∨ root + 8 ≤ acpiSafeLimit ∨ (root < acpiSafeLimit
    ∧ ∃ i, root + i < acpiSafeLimit ∧ ¬Spells m root ((ascii signature).take (i + 1)))
  entries : root ≠ 0 → root + 8 ≤ acpiSafeLimit → Spells m root (ascii signature) → Fits m root →
    (checksumOk m root (physU32 m (root + 4)).value).value = true →
    ∀ i < min 64 (((physU32 m (root + 4)).value - 36) / if wide then 8 else 4),
      EntryMapped m (entryAt m root wide i).value

@[simp] theorem mapped_pure {α : Type} (v : α) : Mapped (pure v : Traced α) := within_pure v

theorem mapped_bind {α β : Type} (x : Traced α) (f : α → Traced β) :
    Mapped (x >>= f) ↔ Mapped x ∧ Mapped (f x.value) := within_bind x f

theorem mapped_ite_bind {α : Type} {x : Traced Bool} {y z : Traced α} :
    Mapped (do if ← x then y else z)
      ↔ Mapped x ∧ (x.value = true → Mapped y) ∧ (x.value = false → Mapped z) := by
  rw [mapped_bind]
  cases x.value <;> simp

theorem number_mapped {a n : ℕ} (h : a + n ≤ acpiSafeLimit) : Mapped (number m a n) :=
  within_number.2 fun i hi => by omega

theorem spells_mapped {a : ℕ} {text : List UInt8} (h : a + text.length ≤ acpiSafeLimit) :
    Mapped (spells m a text) :=
  within_spells.2 fun i hi _ => by omega

theorem checksum_mapped (h : base + length ≤ acpiSafeLimit) : Mapped (checksumOk m base length) := by
  unfold checksumOk physU8
  rw [mapped_bind]
  refine ⟨(within_foldlM (Q := fun i => base + i < acpiSafeLimit) _ fun sum i hi => ?_).2
    fun i hi => ?_, mapped_pure _⟩
  · rw [within_bind, within_read]
    exact and_iff_left (within_pure _)
  · have := List.mem_range.1 hi
    omega

theorem declares_mapped (h : base + length ≤ acpiSafeLimit) :
    Mapped (tableDeclaresBattery m base length) := by
  unfold tableDeclaresBattery
  split_ifs
  · exact mapped_pure _
  · refine within_anyM fun offset hoffset => mapped_ite_bind.2 ⟨spells_mapped ?_,
      fun _ => mapped_pure _, fun _ => spells_mapped ?_⟩ <;>
    have := List.mem_range.1 hoffset
    · rw [eisaPattern_eq]
      simp
      omega
    · rw [show asciiPattern.length = 7 by decide +kernel]
      omega

theorem fadt_mapped (h : table + length ≤ acpiSafeLimit) :
    Mapped (fadtDsdtAddress m table length) := by
  unfold fadtDsdtAddress
  rw [mapped_bind]
  constructor
  · split_ifs
    · exact number_mapped (by omega)
    · exact mapped_pure _
  · generalize Traced.value _ = extended
    split_ifs
    · exact mapped_pure _
    · exact number_mapped (by omega)
    · exact mapped_pure _

theorem table_mapped_iff {α : Type} {f : ℕ → Traced α} {v : α} :
    Mapped (do
      let length ← physU32 m (table + 4)
      if length < 36 ∨ acpiSafeLimit < table + length then pure v else f length)
      ↔ table + 8 ≤ acpiSafeLimit
        ∧ (Fits m table → Mapped (f (physU32 m (table + 4)).value)) := by
  unfold Fits
  rw [mapped_bind]
  refine and_congr ?_ ?_
  · refine within_number.trans ⟨fun h => ?_, fun h i hi => by omega⟩
    have := h 3 (by omega)
    omega
  · split_ifs with hbad
    · exact iff_of_true (mapped_pure _) fun hfits => by omega
    · rw [forall_prop_of_true ⟨by omega, by omega⟩]

theorem scan_mapped_iff : Mapped (scanTableForBattery m table) ↔ PointerMapped table := by
  unfold scanTableForBattery PointerMapped
  split_ifs with hno
  · exact iff_of_true (mapped_pure _) (by omega)
  · rw [table_mapped_iff, and_iff_left fun hfits => declares_mapped hfits.2]
    omega

theorem entry_mapped_iff : Mapped (walkEntry m table) ↔ EntryMapped m table := by
  unfold walkEntry
  split_ifs with hno
  · refine iff_of_true (mapped_pure _) ⟨?_, fun _ _ => ?_⟩
    · unfold PointerMapped
      omega
    · have : 0 < acpiSafeLimit := by decide
      omega
  · rw [table_mapped_iff]
    have hfour : ∀ s ∈ ["FACP", "SSDT"], (ascii s).length = 4 := by decide +kernel
    constructor
    · rintro ⟨h8, hrest⟩
      refine ⟨.inr (.inr h8), fun _ _ hfits hspells => ?_⟩
      obtain ⟨-, hfadt, -⟩ := mapped_ite_bind.1 (hrest hfits)
      have hscan := hfadt (value_spells.2 hspells)
      exact scan_mapped_iff.1 ((mapped_bind _ _).1 hscan).2
    · rintro ⟨hpointer, hdsdt⟩
      have h8 : table + 8 ≤ acpiSafeLimit := by
        unfold PointerMapped at hpointer
        omega
      refine ⟨h8, fun hfits => ?_⟩
      have hsig : ∀ s ∈ ["FACP", "SSDT"], Mapped (sigMatches m table s) := fun s hs =>
        spells_mapped (by rw [hfour s hs]; omega)
      refine mapped_ite_bind.2 ⟨hsig _ (by simp), fun hspells => ?_, fun _ =>
        mapped_ite_bind.2 ⟨hsig _ (by simp), fun _ => declares_mapped hfits.2,
          fun _ => mapped_pure _⟩⟩
      exact (mapped_bind _ _).2 ⟨fadt_mapped hfits.2,
        scan_mapped_iff.2 (hdsdt (by omega) h8 hfits (value_spells.1 hspells))⟩

theorem entryAt_mapped {wide : Bool} {i : ℕ}
    (h : root + length ≤ acpiSafeLimit) (hi : i < min 64 ((length - 36) / if wide then 8 else 4)) :
    Mapped (entryAt m root wide i) := by
  unfold entryAt
  cases wide <;> simp at hi ⊢ <;> exact number_mapped (by omega)

theorem walk_mapped_iff {wide : Bool} (h0 : root ≠ 0) (hroot : root < acpiSafeLimit) :
    Mapped (walkRootTable m root wide) ↔ root + 8 ≤ acpiSafeLimit ∧ (Fits m root →
      (checksumOk m root (physU32 m (root + 4)).value).value = true →
      ∀ i < min 64 (((physU32 m (root + 4)).value - 36) / if wide then 8 else 4),
        EntryMapped m (entryAt m root wide i).value) := by
  unfold walkRootTable
  rw [if_neg (by omega), table_mapped_iff]
  refine and_congr_right fun _ => forall_congr' fun hfits => ?_
  rw [mapped_ite_bind, and_iff_right (checksum_mapped hfits.2)]
  refine (and_iff_left fun _ => mapped_pure _).trans (forall_congr' fun _ => ?_)
  refine (within_foldlM (Q := fun i => EntryMapped m (entryAt m root wide i).value) _
    fun found i hi => ?_).trans (by simp only [List.mem_range])
  have hentry := entryAt_mapped (m := m) hfits.2 (List.mem_range.1 hi)
  refine (mapped_bind _ _).trans ((and_iff_right hentry).trans ((mapped_bind _ _).trans ?_))
  exact (and_iff_left (mapped_pure _)).trans entry_mapped_iff

theorem root_mapped_iff {signature : String} {wide : Bool} (hlen : (ascii signature).length = 4) :
    Mapped (walkSigned m root signature wide) ↔ RootMapped m root signature wide := by
  unfold walkSigned
  split_ifs with h0
  · exact iff_of_true (mapped_pure _) ⟨.inl h0, fun hne => absurd h0 hne⟩
  have hsignature : Mapped (sigMatches m root signature)
      ↔ ∀ i < 4, Spells m root ((ascii signature).take i) → root + i < acpiSafeLimit := by
    rw [← hlen]
    exact within_spells
  have hvalue : (sigMatches m root signature).value = true ↔ Spells m root (ascii signature) :=
    value_spells
  rw [mapped_ite_bind, hsignature, hvalue]
  constructor
  · rintro ⟨hread, hwalk, -⟩
    have hroot : root < acpiSafeLimit :=
      hread 0 (by decide) fun _ hk => absurd hk (Nat.not_lt_zero _)
    rw [walk_mapped_iff h0 hroot] at hwalk
    refine ⟨.inr ?_, fun _ _ hspells => (hwalk hspells).2⟩
    by_cases hspells : Spells m root (ascii signature)
    · exact .inl (hwalk hspells).1
    · obtain ⟨i, hi, hsame, hdiffers⟩ := exists_differs hspells
      exact .inr ⟨hroot, i, hread i (hlen ▸ hi) hsame, hdiffers⟩
  · rintro ⟨hhead, hentries⟩
    rcases hhead with hzero | h8 | ⟨hroot, j, hj, hdiffers⟩
    · exact absurd hzero h0
    · refine ⟨fun i hi _ => by omega, fun hspells => (walk_mapped_iff h0 (by omega)).2 ⟨h8, ?_⟩,
        fun _ => mapped_pure _⟩
      exact hentries h0 h8 hspells
    · refine ⟨fun i hi hspells => ?_, fun hspells => ?_, fun _ => mapped_pure _⟩
      · have hij : i ≤ j := by
          by_contra hlt
          exact hdiffers (hspells.of_take (by omega))
        omega
      · exact absurd (hspells.take (j + 1)) hdiffers

theorem rsdpInRange_mapped {start stop : ℕ} (hstop : stop ≤ 0x100400) :
    Mapped (findRsdpInRange m start stop) ∧ (findRsdpInRange m start stop).value ≤ 0x100400 := by
  unfold findRsdpInRange
  refine ⟨(mapped_bind _ _).2 ⟨within_findM fun address haddress => ?_, mapped_pure _⟩, ?_⟩
  · obtain ⟨i, hi, rfl⟩ := List.mem_map.1 haddress
    have := List.mem_range.1 hi
    refine spells_mapped ?_
    rw [show (ascii "RSD PTR ").length = 8 by decide +kernel]
    unfold acpiSafeLimit
    omega
  · rw [value_bind, value_pure]
    rcases hfound : Traced.value _ with _ | v
    · exact Nat.zero_le _
    · obtain ⟨i, hi, rfl⟩ := List.mem_map.1 (mem_of_findM hfound)
      have := List.mem_range.1 hi
      dsimp only [Option.getD_some]
      omega

theorem findRsdp_mapped : Mapped (findRsdp m) ∧ (findRsdp m).value ≤ 0x100400 := by
  have hsegment : (number m 0x40E 2).value < 0x10000 := by
    have hlow := (m 0x40E).toNat_lt
    have hhigh := (m 0x40F).toNat_lt
    show (m 0x40E).toNat + 256 * ((m 0x40F).toNat + 256 * 0) < _
    omega
  have hread : Mapped (number m 0x40E 2) := within_number.2 fun i hi => by
    unfold acpiSafeLimit
    omega
  have hbios := @rsdpInRange_mapped m 0xE0000 0x100000 (by decide)
  have hebda := @rsdpInRange_mapped m ((number m 0x40E 2).value * 16)
    ((number m 0x40E 2).value * 16 + 1024) (by omega)
  unfold findRsdp
  simp only [mapped_bind, value_bind]
  generalize (number m 0x40E 2).value = segment at *
  have hfirst : ∀ first : Traced ℕ, Mapped first ∧ first.value ≤ 0x100400 →
      Mapped (if first.value ≠ 0 then pure first.value else findRsdpInRange m 0xE0000 0x100000)
        ∧ (if first.value ≠ 0 then pure first.value
          else findRsdpInRange m 0xE0000 0x100000 : Traced ℕ).value ≤ 0x100400 := by
    intro first hfirst
    split_ifs
    · exact ⟨mapped_pure _, hfirst.2⟩
    · exact hbios
  by_cases hsome : segment ≠ 0 ∧ segment * 16 + 1024 < acpiSafeLimit
  · rw [if_pos hsome]
    exact ⟨⟨hread, hebda.1, (hfirst _ hebda).1⟩, (hfirst _ hebda).2⟩
  · rw [if_neg hsome]
    exact ⟨⟨hread, mapped_pure _, hbios.1⟩, hbios.2⟩

theorem rsdpChecksum_mapped {rsdp : ℕ} {extended : Bool} (h : rsdp ≤ 0x100400) :
    Mapped (rsdpChecksumOk m rsdp extended) := by
  have hlimit : acpiSafeLimit = 0x40000000 := rfl
  unfold rsdpChecksumOk
  refine mapped_ite_bind.2 ⟨checksum_mapped (by omega), fun _ => ?_, fun _ => mapped_pure _⟩
  split_ifs
  · refine (mapped_bind _ _).2 ⟨number_mapped (by omega), ?_⟩
    split_ifs
    · exact mapped_pure _
    · exact checksum_mapped (by omega)
  · exact mapped_pure _

/-- The pointers of the descriptor: the second one is followed where nothing was found from the
first. -/
structure PointersMapped (m : ℕ → UInt8) (rsdp : ℕ) : Prop where
  xsdt : 2 ≤ m (rsdp + 15) → RootMapped m (physU64 m (rsdp + 24)).value "XSDT" true
  rsdt : (2 ≤ m (rsdp + 15) →
      (walkSigned m (physU64 m (rsdp + 24)).value "XSDT" true).value = false) →
    RootMapped m (physU32 m (rsdp + 16)).value "RSDT" false

/-- Nothing beyond the limit is read just where no pointer of the tables leads across it. -/
theorem acpiInit_mapped_iff (m : ℕ → UInt8) : (∀ a ∈ (acpiInit m).reads, a < acpiSafeLimit)
    ↔ ((findRsdp m).value ≠ 0 → (rsdpChecksumOk m (findRsdp m).value
        (2 ≤ m ((findRsdp m).value + 15))).value = true → PointersMapped m (findRsdp m).value) := by
  have hlimit : acpiSafeLimit = 0x40000000 := rfl
  have hfour : ∀ s ∈ ["XSDT", "RSDT"], (ascii s).length = 4 := by decide +kernel
  obtain ⟨hfind, hrsdp⟩ := @findRsdp_mapped m
  show Mapped (acpiInit m) ↔ _
  unfold acpiInit
  rw [mapped_bind, and_iff_right hfind]
  generalize (findRsdp m).value = rsdp at *
  split_ifs with h0
  · exact iff_of_true (mapped_pure _) fun hne => absurd h0 hne
  rw [forall_prop_of_true h0, mapped_bind,
    and_iff_right (show Mapped (physU8 m (rsdp + 15)) from within_read.2 (by omega)),
    show (physU8 m (rsdp + 15)).value = m (rsdp + 15) from rfl, mapped_ite_bind,
    and_iff_right (rsdpChecksum_mapped hrsdp)]
  refine (and_iff_left fun _ => mapped_pure _).trans (forall_congr' fun _ => ?_)
  have hx : Mapped (physU64 m (rsdp + 24)) := number_mapped (by omega)
  have hr : Mapped (physU32 m (rsdp + 16)) := number_mapped (by omega)
  have hxsdt := @root_mapped_iff m (physU64 m (rsdp + 24)).value "XSDT" true (hfour _ (by simp))
  have hrsdt := @root_mapped_iff m (physU32 m (rsdp + 16)).value "RSDT" false (hfour _ (by simp))
  rw [mapped_bind, mapped_bind]
  by_cases hrevision : 2 ≤ m (rsdp + 15)
  · rw [if_pos hrevision, mapped_bind, and_iff_right hx, hxsdt, value_bind]
    constructor
    · rintro ⟨hroot, hrest, -⟩
      refine ⟨fun _ => hroot, fun hnone => ?_⟩
      rw [hnone hrevision, if_neg (by decide), mapped_bind] at hrest
      exact hrsdt.1 hrest.2
    · rintro ⟨hroot, hrest⟩
      refine ⟨hroot hrevision, ?_, mapped_pure _⟩
      cases hfound : (walkSigned m (physU64 m (rsdp + 24)).value "XSDT" true).value
      · rw [if_neg (by decide), mapped_bind]
        exact ⟨hr, hrsdt.2 (hrest fun _ => hfound)⟩
      · exact mapped_pure _
  · rw [if_neg hrevision, value_pure, if_neg (by decide), mapped_bind, and_iff_right hr, hrsdt]
    exact ⟨fun h => ⟨fun h2 => absurd h2 hrevision, fun _ => h.2.1⟩,
      fun h => ⟨mapped_pure _, h.2 fun h2 => absurd h2 hrevision, mapped_pure _⟩⟩

/-- A descriptor in the BIOS area, whose checksums are right, with an XSDT at the limit. -/
def hostileDescriptor (a : ℕ) : UInt8 :=
  if a < 0xE0000 then 0
  else (ascii "RSD PTR " ++ [0xDF, 0, 0, 0, 0, 0, 0, 2, 0, 0, 0, 0, 36, 0, 0, 0, 0, 0, 0, 0x40, 0, 0, 0, 0,
    0x9C]).getD (a - 0xE0000) 0

theorem beyond_limit : acpiSafeLimit ∈ (acpiInit hostileDescriptor).reads := by decide +kernel

end Acpi

end DemonOS
