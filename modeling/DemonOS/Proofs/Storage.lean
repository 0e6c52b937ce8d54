import DemonOS.Proofs.Channels
import DemonOS.Proofs.Files
import DemonOS.Proofs.Handles
import DemonOS.Proofs.Names

/-!
# Storage calls that fail

A storage call that reports failure leaves every file as it was, unless it has created the file it
was called with and a later step fails: the arena has no room for the seeded bytes, or the
capability table of the caller no slot for the handle. The new file then stays
(`storage_failure_keeps_files_iff`).
-/

namespace DemonOS

namespace Ramfs

/-- The same names and the same contents. -/
def SameFiles (fs fs' : Ramfs) : Prop :=
  ∀ id, fs'.nameOf id = fs.nameOf id ∧ fs'.ramfsView id = fs.ramfsView id

def Creates (fs : Ramfs) (name : List UInt8) : Prop :=
  validName name = true ∧ fs.table.find name = none ∧ fs.table.firstFree.isSome = true

theorem SameFiles.refl (fs : Ramfs) : fs.SameFiles fs := fun _ => ⟨rfl, rfl⟩

theorem Creates.opens {fs : Ramfs} {name : List UInt8} (h : fs.Creates name) :
    ∃ i fs', fs.ramfsOpen name true = some (i + 1, fs') ∧ fs.nameOf (i + 1) = none
      ∧ fs'.nameOf (i + 1) = some name ∧ fs'.table.payloadFor (i + 1) = some {}
      ∧ fs'.storageUsed = fs.storageUsed := by
  obtain ⟨hvalid, hfind, hfree⟩ := h
  obtain ⟨hpos, hmax⟩ := validName_length hvalid
  obtain ⟨i, hi⟩ := Option.isSome_iff_exists.1 hfree
  obtain ⟨hlt, hunused⟩ := BoundedTable.firstFree_eq_some hi
  refine ⟨i, { fs with table := ⟨Function.update fs.table.slots i
    { used := true, name := name, payload := {} }⟩ }, ?_, ?_, ?_, ?_, rfl⟩
  · unfold ramfsOpen BoundedTable.openName
    simp only [hvalid, hfind, hi, Bool.not_true, Bool.false_eq_true, if_false, Bool.or_eq_true,
      decide_eq_true_eq, false_or]
    rw [if_neg (by omega)]
    rfl
  · rw [Option.eq_none_iff_forall_ne_some]
    intro old hold
    obtain ⟨j, hj, hij, -⟩ := nameOf_eq_some.1 hold
    obtain rfl : i = j := by omega
    exact absurd (hunused.symm.trans hj.2) (by simp)
  · exact nameOf_eq_some.2 ⟨i, ⟨hlt, by simp⟩, rfl, by simp⟩
  · exact BoundedTable.payloadFor_eq_some.2 ⟨i, hlt, rfl, by simp, by simp⟩

theorem ramfsOpen_keeps {fs fs' : Ramfs} {name : List UInt8} {create : Bool} {id : ℕ}
    (h : fs.ramfsOpen name create = some (id, fs')) (hnot : create = true → ¬fs.Creates name) :
    fs' = fs := by
  unfold ramfsOpen at h
  split_ifs at h with hvalid
  split at h
  · cases h
  · rename_i id' t ht
    simp only [Option.some.injEq, Prod.mk.injEq] at h
    obtain ⟨rfl, rfl⟩ := h
    rcases BoundedTable.openName_eq_some ht with ⟨-, rfl⟩ | ⟨hnone, hcreate, -, -, i, hi, -, -⟩
    · rfl
    · rw [Bool.not_eq_true, Bool.not_eq_false'] at hvalid
      exact absurd ⟨hvalid, hnone, by rw [hi]; rfl⟩ (hnot hcreate)

theorem not_sameFiles {fs fs' : Ramfs} {id : ℕ} {name : List UInt8} (h : fs.nameOf id = none)
    (h' : fs'.nameOf id = some name) : ¬fs.SameFiles fs' := by
  intro hsame
  rw [(hsame id).1, h] at h'
  cases h'

theorem store_new {fs : Ramfs} {id : ℕ} {data : List UInt8} (h : fs.table.payloadFor id = some {})
    (hlen : data.length ≤ ramfsDataMax) :
    fs.store id data = none ↔ ramfsStorageMax - fs.storageUsed < data.length := by
  unfold store
  simp only [h, Option.isSome_none, Bool.false_eq_true, false_or, not_lt.2 hlen, if_false]
  split_ifs with hpos hroom
  · simpa using hroom
  · simpa using not_lt.1 hroom
  · simp only [false_iff, not_lt]
    omega

def reported (fs : Ramfs) (r : Option Ramfs) : Bool × Ramfs := (r.isSome, r.getD fs)

theorem reported_keeps {fs : Ramfs} {r : Option Ramfs} (h : (fs.reported r).1 = false) :
    fs.SameFiles (fs.reported r).2 := by
  cases r with
  | none => exact .refl fs
  | some fs' => cases h

theorem ramfsSeed_keeps_iff (fs : Ramfs) (name data : List UInt8) :
    ((fs.ramfsSeed name data).1 = false → fs.SameFiles (fs.ramfsSeed name data).2)
      ↔ ¬(fs.Creates name ∧ data.length ≤ ramfsDataMax
        ∧ ramfsStorageMax - fs.storageUsed < data.length) := by
  unfold ramfsSeed
  by_cases hlen : ramfsDataMax < data.length
  · simp only [hlen, if_true, not_le.2 hlen, false_and, and_false, not_false_iff, iff_true]
    exact fun _ => .refl fs
  rw [if_neg hlen]
  by_cases hnew : fs.Creates name
  · obtain ⟨i, fs', hopen, hold, hname, hempty, hused⟩ := hnew.opens
    have hfit := store_new hempty (not_lt.1 hlen)
    rw [hopen, ← hused]
    simp only [hnew, not_lt.1 hlen, true_and, ← hfit]
    cases hstore : fs'.store (i + 1) data with
    | none => simpa using not_sameFiles hold hname
    | some fs'' => simp
  · simp only [hnew, false_and, not_false_iff, iff_true]
    cases hopen : fs.ramfsOpen name true with
    | none => exact fun _ => .refl fs
    | some r =>
      obtain ⟨id, fs'⟩ := r
      obtain rfl := ramfsOpen_keeps hopen fun _ => hnew
      simp only
      cases hstore : fs'.store id data with
      | none => exact fun _ => .refl fs'
      | some fs'' => simp

theorem ramfsSeedReference_keeps {fs : Ramfs} {name data : List UInt8}
    (h : (fs.ramfsSeedReference name data).1 = false) :
    fs.SameFiles (fs.ramfsSeedReference name data).2 := by
  unfold ramfsSeedReference at h ⊢
  by_cases hnew : fs.Creates name
  · obtain ⟨i, fs', hopen, -, -, hempty, -⟩ := hnew.opens
    simp [hopen, hempty] at h
  · cases hopen : fs.ramfsOpen name true with
    | none => exact .refl fs
    | some r =>
      obtain ⟨id, fs'⟩ := r
      obtain rfl := ramfsOpen_keeps hopen fun _ => hnew
      rw [hopen] at h
      simp only at h ⊢
      cases hfile : fs'.table.payloadFor id with
      | none => exact .refl fs'
      | some file =>
        rw [hfile] at h
        simp only at h ⊢
        split_ifs at h ⊢ with hc
        exact .refl fs'

end Ramfs

namespace Kernel

/-- A call that changes the file table: one of the kernel's own, or system call 9. -/
inductive StorageCall where
  | seed (name data : List UInt8)
  | seedReference (name data : List UInt8)
  | openName (name : List UInt8) (create : Bool)
  | rename (oldName newName : List UInt8)
  | delete (name : List UInt8)
  | fileOpen (registers : Frame) (user : ℕ → UInt8) (dev : Devices)

def storageCall (k : Kernel) : StorageCall → Bool × Ramfs
  | .seed name data => k.files.ramfsSeed name data
  | .seedReference name data => k.files.ramfsSeedReference name data
  | .openName name create => k.files.reported ((k.files.ramfsOpen name create).map Prod.snd)
  | .rename oldName newName => k.files.reported (k.files.ramfsRename oldName newName)
  | .delete name => k.files.reported (k.files.ramfsDelete name)
  | .fileOpen registers user dev =>
    let k' := k.step (.syscall { registers with rax := 9 } user dev)
    ((k'.sched.frames k'.current).rax != u64Max, k'.files)

def Strands (k : Kernel) : StorageCall → Prop
  | .seed name data => k.files.Creates name ∧ data.length ≤ ramfsDataMax
    ∧ ramfsStorageMax - k.files.storageUsed < data.length
  | .fileOpen registers user _ => k.userMode ∧ k.holds registers.rdi rightOpen .storage = true
    ∧ k.canRead registers.rsi registers.rdx = true ∧ registers.r10 ≠ 0
    ∧ k.files.Creates (readUser user registers.rsi.toNat registers.rdx.toNat)
    ∧ ∀ slot < slotsPerProcess, (k.objects.caps.entry k.current slot).isOpen = true
  | _ => False

theorem allocateSlot_eq_none {c : Capabilities} {pid : ℕ} {payload : CapabilityPayload} :
    c.allocateSlot pid payload = none
      ↔ ∀ slot < slotsPerProcess, (c.entry pid slot).isOpen = true := by
  unfold Capabilities.allocateSlot SlotTable.allocate
  cases h : Table.firstIndex slotsPerProcess fun i => !((c.tables pid).entries i).isOpen with
  | none =>
    simp only [true_iff]
    rw [Table.firstIndex_eq_none] at h
    exact fun slot hslot => by simpa [Capabilities.entry] using h slot hslot
  | some i =>
    obtain ⟨hlt, hfree, -⟩ := Table.firstIndex_eq_some.1 h
    simp only [reduceCtorEq, false_iff, not_forall]
    exact ⟨i, hlt, by simpa [Capabilities.entry] using hfree⟩

theorem makeHandle_ne_failure {c : Capabilities} {pid slot : ℕ} (hpid : pid < processLimit)
    (hslot : slot < slotsPerProcess) :
    UInt64.ofNat (makeHandle pid slot (c.entry pid slot).generation) ≠ u64Max := by
  have hd := decodeHandle_entry c hpid hslot
  intro h
  have hn := congrArg UInt64.toNat h
  rw [UInt64.toNat_ofNat'] at hn
  unfold decodeHandle at hd
  split_ifs at hd with hhigh
  rw [not_not, Nat.shiftRight_eq_div_pow] at hhigh
  have hlt : makeHandle pid slot (c.entry pid slot).generation < 2 ^ 32 := by
    simpa using Nat.lt_of_div_eq_zero (Nat.two_pow_pos 32) hhigh
  rw [Nat.mod_eq_of_lt (by omega)] at hn
  rw [hn] at hlt
  exact absurd hlt (by decide)

theorem capabilityOpenFile_eq_none {c : Capabilities} {pid i : ℕ} (hne : pid ≠ 0)
    (hlt : pid < processLimit) :
    c.capabilityOpenFile pid (i + 1) = none
      ↔ ∀ slot < slotsPerProcess, (c.entry pid slot).isOpen = true := by
  unfold Capabilities.capabilityOpenFile
  rw [if_neg (by omega), allocateSlot_eq_none]

theorem current_lt_of_holds {k : Kernel} {handle : UInt64} {right : BitVec 32}
    {service : CapabilityService} (h : k.holds handle right service = true) :
    k.current < processLimit := by
  unfold holds resolveObject at h
  split at h
  · cases h
  · rename_i v hv
    obtain ⟨slot, hd, -⟩ := Capabilities.capabilityResolveObject_eq_some.1 hv
    exact (decodeHandle_lt hd).1

theorem syscallOpenFile_keeps_iff {k : Kernel} (hne : k.current ≠ 0) (f : Frame)
    (user : ℕ → UInt8) :
    (((k.syscallOpenFile f user).sched.frames k.current).rax = u64Max →
        k.files.SameFiles (k.syscallOpenFile f user).files)
      ↔ ¬(k.holds f.rdi rightOpen .storage = true ∧ k.canRead f.rsi f.rdx = true ∧ f.r10 ≠ 0
        ∧ k.files.Creates (readUser user f.rsi.toNat f.rdx.toNat)
        ∧ ∀ slot < slotsPerProcess, (k.objects.caps.entry k.current slot).isOpen = true) := by
  unfold syscallOpenFile
  by_cases hok : k.holds f.rdi rightOpen .storage = true ∧ k.canRead f.rsi f.rdx = true
  swap
  · rw [if_pos (by simpa [imp_iff_not_or] using hok)]
    refine ⟨fun _ h => hok ⟨h.1, h.2.1⟩, fun _ _ => .refl _⟩
  obtain ⟨hholds, hread⟩ := hok
  have hlt := current_lt_of_holds hholds
  rw [if_neg (by simp [hholds, hread])]
  simp only [hholds, hread, true_and]
  generalize readUser user f.rsi.toNat f.rdx.toNat = name
  by_cases hnew : f.r10 ≠ 0 ∧ k.files.Creates name
  · obtain ⟨i, fs', hopen, hold, hname, -⟩ := hnew.2.opens
    have hcreate : (f.r10 != 0) = true := by simpa using hnew.1
    rw [hcreate, hopen]
    simp only [hnew.1, hnew.2, ne_eq, not_false_eq_true, true_and,
      ← capabilityOpenFile_eq_none (i := i) hne hlt]
    cases hcap : k.objects.caps.capabilityOpenFile k.current (i + 1) with
    | none =>
      simp only [not_true_eq_false, iff_false, Classical.not_imp]
      exact ⟨by simp [retHandle, current], Ramfs.not_sameFiles hold hname⟩
    | some r =>
      obtain ⟨handle, caps⟩ := r
      obtain ⟨-, -, -, slot, rfl, hopens⟩ := Capabilities.capabilityOpenFile_spec hcap
      simp only [reduceCtorEq, not_false_eq_true, iff_true]
      intro hrax
      refine absurd ?_ (makeHandle_ne_failure (c := k.objects.caps) hlt hopens.slot_lt)
      simpa [retHandle, current] using hrax
  · refine ⟨fun _ h => hnew ⟨h.1, h.2.1⟩, fun _ _ => ?_⟩
    cases hopen : k.files.ramfsOpen name (f.r10 != 0) with
    | none => exact .refl _
    | some r =>
      obtain ⟨id, fs'⟩ := r
      obtain rfl := Ramfs.ramfsOpen_keeps hopen fun hc => fun h => hnew ⟨by simpa using hc, h⟩
      simp only
      rw [retHandle_files]
      exact .refl _

/-- A storage call that reports failure keeps every file, if and only if it is not one that makes
a new file and then fails. -/
theorem storage_failure_keeps_files_iff (k : Kernel) (c : StorageCall) :
    ((k.storageCall c).1 = false → k.files.SameFiles (k.storageCall c).2) ↔ ¬k.Strands c := by
  cases c with
  | seed name data => exact Ramfs.ramfsSeed_keeps_iff k.files name data
  | seedReference name data => exact ⟨fun _ => id, fun _ => Ramfs.ramfsSeedReference_keeps⟩
  | openName name create => exact ⟨fun _ => id, fun _ => Ramfs.reported_keeps⟩
  | rename oldName newName => exact ⟨fun _ => id, fun _ => Ramfs.reported_keeps⟩
  | delete name => exact ⟨fun _ => id, fun _ => Ramfs.reported_keeps⟩
  | fileOpen registers user dev =>
    simp only [storageCall, Strands]
    by_cases hu : k.userMode
    · have hstep : k.step (.syscall { registers with rax := 9 } user dev)
          = (k.enter { registers with rax := 9 }).syscallOpenFile
            { registers with rax := 9 } user := by
        simp only [step, if_pos hu, syscallDispatch, enter_frame]
        rfl
      have hcur := (syscallOpenFile_local (k.enter { registers with rax := 9 })
        { registers with rax := 9 } user).currentPid
      have h := syscallOpenFile_keeps_iff (k := k.enter { registers with rax := 9 }) hu.2
        { registers with rax := 9 } user
      rw [hstep, bne_eq_false_iff_eq]
      simp only [hu, true_and]
      unfold current at h ⊢
      rw [hcur]
      exact h
    · simp only [step, hu, false_and, not_false_eq_true, iff_true]
      exact fun _ => .refl _

/-- The arena is used up by files deleted since, as deleting gives nothing back: seeding a file of
one byte fails, and leaves it there empty. -/
theorem seed_strands_new_file :
    let k := (fresh smallBoot).withFiles { storageUsed := ramfsStorageMax }
    (k.storageCall (.seed [0x61] [0])).1 = false
      ∧ ¬k.files.SameFiles (k.storageCall (.seed [0x61] [0])).2 := by
  refine ⟨by decide +kernel, fun h => ?_⟩
  have hname := (h 1).1
  revert hname
  decide +kernel

end Kernel

end DemonOS
