import DemonOS.Proofs.Processes
import DemonOS.Proofs.Storage

/-!
# File handles and file instances

A file capability holds the number of a slot of the file table, and deleting a file frees its slot
while capabilities for it stay open. What an event does to the files is one call of the file system
(`step_files`), and a handle stands for the file it was opened for as long as no file is created in
a slot that an open capability still names (`file_handle_identity`).
-/

namespace DemonOS

variable {f : Frame} {fs : Ramfs} {i id : ℕ} {k : Kernel}

namespace Ramfs

instance (fs : Ramfs) (name : List UInt8) : Decidable (fs.Creates name) :=
  inferInstanceAs (Decidable (_ ∧ _ ∧ _))

def created (fs : Ramfs) : FileOp → Option ℕ
  | .seed name data =>
    if data.length ≤ ramfsDataMax ∧ fs.Creates name then fs.table.firstFree else none
  | .seedReference name _ => if fs.Creates name then fs.table.firstFree else none
  | .openName name create =>
    if create = true ∧ fs.Creates name then fs.table.firstFree else none
  | _ => none

theorem ramfsOpen_fills {fs fs' : Ramfs} {name : List UInt8} {create : Bool}
    (h : fs.ramfsOpen name create = some (id, fs')) (hfree : (fs.table.slots i).used = false)
    (hused : (fs'.table.slots i).used = true) :
    create = true ∧ fs.Creates name ∧ fs.table.firstFree = some i := by
  unfold ramfsOpen at h
  split_ifs at h with hvalid
  rw [Bool.not_eq_true, Bool.not_eq_false'] at hvalid
  split at h
  · cases h
  · rename_i id' t ht
    obtain ⟨-, rfl⟩ := h
    rcases BoundedTable.openName_eq_some ht with ⟨-, rfl⟩ | ⟨hnone, hcreate, -, -, j, hj, -, rfl⟩
    · exact absurd (hfree.symm.trans hused) (by simp)
    · have hij : i = j := by
        by_contra hne
        simp [hne, hfree] at hused
      subst hij
      exact ⟨hcreate, ⟨hvalid, hnone, by rw [hj]; rfl⟩, hj⟩

theorem store_fills {fs fs' : Ramfs} {data : List UInt8}
    (h : fs.store id data = some fs') :
    (fs'.table.slots i).used = (fs.table.slots i).used := by
  obtain ⟨j, -, -, -, file, hs, -⟩ := store_eq_some h
  rw [hs]
  rcases eq_or_ne i j with rfl | hne
  · simp
  · simp [hne]

theorem perform_fills {op : FileOp} (hfree : (fs.table.slots i).used = false)
    (hused : ((fs.perform op).2.table.slots i).used = true) : fs.created op = some i := by
  have hno : ∀ {P : Prop}, (fs.table.slots i).used = true → P :=
    fun h => absurd (hfree.symm.trans h) (by simp)
  cases op with
  | seed name data =>
    simp only [perform, ramfsSeed] at hused
    split at hused
    · exact hno hused
    · rename_i hlen
      cases hopen : fs.ramfsOpen name true with
      | none =>
        rw [hopen] at hused
        exact hno hused
      | some r =>
        obtain ⟨id, fs'⟩ := r
        have hused' : (fs'.table.slots i).used = true := by
          rw [hopen] at hused
          simp only at hused
          split at hused
          · exact hused
          · rename_i fs'' hstore
            rw [← store_fills hstore]
            exact hused
        obtain ⟨-, hcreates, hfirst⟩ := ramfsOpen_fills hopen hfree hused'
        simp only [created]
        rw [if_pos ⟨not_lt.1 hlen, hcreates⟩, hfirst]
  | seedReference name data =>
    simp only [perform, ramfsSeedReference] at hused
    cases hopen : fs.ramfsOpen name true with
    | none =>
      rw [hopen] at hused
      exact hno hused
    | some r =>
      obtain ⟨id, fs'⟩ := r
      have hused' : (fs'.table.slots i).used = true := by
        rw [hopen] at hused
        simp only at hused
        split at hused
        · exact hused
        · split at hused
          · exact hused
          · simp only [BoundedTable.setPayload] at hused
            rcases eq_or_ne i (id - 1) with rfl | hne
            · simpa using hused
            · simpa [hne] using hused
      obtain ⟨-, hcreates, hfirst⟩ := ramfsOpen_fills hopen hfree hused'
      simp only [created]
      rw [if_pos hcreates, hfirst]
  | openName name create =>
    simp only [perform] at hused
    cases hopen : fs.ramfsOpen name create with
    | none =>
      rw [hopen] at hused
      exact hno hused
    | some r =>
      rw [hopen] at hused
      obtain ⟨hcreate, hcreates, hfirst⟩ := ramfsOpen_fills hopen hfree hused
      simp only [created]
      rw [if_pos ⟨hcreate, hcreates⟩, hfirst]
  | write id data =>
    simp only [perform, ramfsWrite] at hused
    cases hstore : fs.store id data with
    | none =>
      rw [hstore] at hused
      exact hno hused
    | some fs' =>
      rw [hstore] at hused
      exact hno ((store_fills hstore).symm.trans hused)
  | rename oldName newName =>
    simp only [perform] at hused
    cases h : fs.ramfsRename oldName newName with
    | none =>
      rw [h] at hused
      exact hno hused
    | some fs' =>
      rw [h] at hused
      obtain ⟨-, -, -, j, -, -, rfl⟩ := ramfsRename_eq_some h
      rcases eq_or_ne i j with rfl | hne
      · exact hno (by simpa [settle] using hused)
      · exact hno (by simpa [settle, hne] using hused)
  | delete name =>
    simp only [perform] at hused
    cases h : fs.ramfsDelete name with
    | none =>
      rw [h] at hused
      exact hno hused
    | some fs' =>
      rw [h] at hused
      obtain ⟨j, -, -, rfl⟩ := ramfsDelete_eq_some h
      rcases eq_or_ne i j with rfl | hne
      · simp [settle] at hused
      · exact hno (by simpa [settle, hne] using hused)

theorem ramfsReadRange_gone (h : fs.table.payloadFor id = none)
    (offset capacity : ℕ) : fs.ramfsReadRange id offset capacity = none := by
  unfold ramfsReadRange
  rw [h]

theorem payloadFor_gone (h : fs.nameOf id = none) :
    fs.table.payloadFor id = none := by
  rw [Option.eq_none_iff_forall_ne_some]
  intro v hv
  obtain ⟨i, hi, rfl, hu, -⟩ := BoundedTable.payloadFor_eq_some.1 hv
  rw [nameOf_eq_some.2 ⟨i, ⟨hi, hu⟩, rfl, rfl⟩] at h
  cases h

end Ramfs

theorem copyRamfsToUser_gone (h : fs.table.payloadFor id = none)
    (offset : ℕ) {capacity : ℕ} (hpos : capacity ≠ 0) :
    copyRamfsToUser fs id offset capacity = none := by
  unfold copyRamfsToUser copyChunks
  rw [if_neg (by simpa using hpos), if_neg (by simp)]
  simp only [Ramfs.ramfsReadRange_gone h]

namespace Kernel

/-! ## What an event does to the files -/

def FileCall.op : FileCall → FileOp
  | .seed name data => .seed name data
  | .seedReference name data => .seedReference name data
  | .create name => .openName name true
  | .write id data => .write id data
  | .rename oldName newName => .rename oldName newName
  | .delete name => .delete name

def syscallFileOp (k : Kernel) (f : Frame) (user : ℕ → UInt8) : Option FileOp :=
  if f.rax.toNat = 6 then
    match k.objects.caps.capabilityResolveObject k.current f.rdi.toNat rightWrite with
    | none => none
    | some v =>
      if v.service = .file ∧ k.canRead f.rsi f.rdx = true then
        some (.write v.objectId (readUser user f.rsi.toNat f.rdx.toNat))
      else none
  else if (k.holds f.rdi rightOpen .storage && k.canRead f.rsi f.rdx) = false then none
  else if f.rax.toNat = 9 then
    some (.openName (readUser user f.rsi.toNat f.rdx.toNat) (f.r10 != 0))
  else if f.rax.toNat = 43 then some (.delete (readUser user f.rsi.toNat f.rdx.toNat))
  else if f.rax.toNat = 44 ∧ k.canRead f.r10 f.r8 = true then
    some (.rename (readUser user f.rsi.toNat f.rdx.toNat) (readUser user f.r10.toNat f.r8.toNat))
  else none

def fileOp (k : Kernel) : Event → Option FileOp
  | .syscall registers user _ => if k.userMode then k.syscallFileOp registers user else none
  | .kernel (.file call) => if k.sched.usersRunning then none else some (FileCall.op call)
  | _ => none

def filesAfter (fs : Ramfs) : Option FileOp → Ramfs
  | none => fs
  | some op => (fs.perform op).2

theorem fileCall_eq (fs : Ramfs) (call : FileCall) :
    fileCall fs call = (fs.perform (FileCall.op call)).2 := by
  cases call with
  | seed name data => rfl
  | seedReference name data => rfl
  | create name =>
    simp only [fileCall, FileCall.op, Ramfs.perform]
    cases fs.ramfsOpen name true <;> rfl
  | write id data =>
    simp only [fileCall, FileCall.op, Ramfs.perform]
    cases fs.ramfsWrite id data <;> rfl
  | rename oldName newName =>
    simp only [fileCall, FileCall.op, Ramfs.perform]
    cases fs.ramfsRename oldName newName <;> rfl
  | delete name =>
    simp only [fileCall, FileCall.op, Ramfs.perform]
    cases fs.ramfsDelete name <;> rfl

theorem syscallWrite_files (h : f.rax.toNat = 6) (user : ℕ → UInt8) :
    (k.syscallWrite f user).files = filesAfter k.files (k.syscallFileOp f user) := by
  unfold syscallWrite syscallFileOp
  rw [if_pos h]
  cases k.objects.caps.capabilityResolveObject k.current f.rdi.toNat rightWrite with
  | none => rfl
  | some v =>
    simp only
    by_cases hconsole : v.service = .console
    · simp [hconsole, filesAfter]
    · rw [if_neg hconsole]
      by_cases hfile : v.service = .file ∧ k.canRead f.rsi f.rdx = true
      · rw [if_pos hfile, if_pos hfile]
        simp only [filesAfter, Ramfs.perform]
        cases k.files.ramfsWrite v.objectId (readUser user f.rsi.toNat f.rdx.toNat) <;> rfl
      · rw [if_neg hfile, if_neg hfile]
        rfl

theorem syscallOpenFile_files (h : f.rax.toNat = 9) (user : ℕ → UInt8) :
    (k.syscallOpenFile f user).files = filesAfter k.files (k.syscallFileOp f user) := by
  unfold syscallOpenFile syscallFileOp
  rw [← Bool.not_and]
  cases hok : k.holds f.rdi rightOpen .storage && k.canRead f.rsi f.rdx with
  | false => simp [h, filesAfter]
  | true =>
    simp only [h, Bool.not_true, Bool.false_eq_true, Bool.true_eq_false, if_false, if_true,
      Nat.reduceEqDiff, filesAfter, Ramfs.perform]
    cases k.files.ramfsOpen (readUser user f.rsi.toNat f.rdx.toNat) (f.r10 != 0) with
    | none => rfl
    | some r => exact retHandle_files _ _

theorem syscallDelete_files (h : f.rax.toNat = 43) (user : ℕ → UInt8) :
    (k.syscallDelete f user).files = filesAfter k.files (k.syscallFileOp f user) := by
  unfold syscallDelete syscallFileOp
  rw [← Bool.not_and]
  cases hok : k.holds f.rdi rightOpen .storage && k.canRead f.rsi f.rdx with
  | false => simp [h, filesAfter]
  | true =>
    simp only [h, Bool.not_true, Bool.false_eq_true, Bool.true_eq_false, if_false, if_true,
      Nat.reduceEqDiff, filesAfter, Ramfs.perform]
    cases k.files.ramfsDelete (readUser user f.rsi.toNat f.rdx.toNat) <;> rfl

theorem syscallRename_files (h : f.rax.toNat = 44) (user : ℕ → UInt8) :
    (k.syscallRename f user).files = filesAfter k.files (k.syscallFileOp f user) := by
  unfold syscallRename syscallFileOp
  rw [← Bool.not_and, ← Bool.not_and]
  cases hok : k.holds f.rdi rightOpen .storage && k.canRead f.rsi f.rdx with
  | false => simp [h, filesAfter]
  | true =>
    cases hread : k.canRead f.r10 f.r8 with
    | false => simp [h, filesAfter]
    | true =>
      simp only [h, Bool.and_self, Bool.not_true, Bool.false_eq_true, Bool.true_eq_false, if_false,
        if_true, Nat.reduceEqDiff, and_self, filesAfter, Ramfs.perform]
      cases k.files.ramfsRename (readUser user f.rsi.toNat f.rdx.toNat)
        (readUser user f.r10.toNat f.r8.toNat) <;> rfl

theorem syscallFileOp_eq_none {user : ℕ → UInt8} (h6 : f.rax.toNat ≠ 6)
    (h9 : f.rax.toNat ≠ 9) (h43 : f.rax.toNat ≠ 43) (h44 : f.rax.toNat ≠ 44) :
    k.syscallFileOp f user = none := by
  unfold syscallFileOp
  simp [h6, h9, h43, h44]

theorem Control.files {k k' : Kernel} {user : ℕ → UInt8} (h : Control k f user k')
    (h6 : f.rax.toNat ≠ 6) (h9 : f.rax.toNat ≠ 9) (h43 : f.rax.toNat ≠ 43)
    (h44 : f.rax.toNat ≠ 44) : k'.files = k.files := by
  cases h with
  | yield => rfl
  | exit => exact (syscallExit_lifecycle k f).files
  | write number => exact absurd number h6
  | openFile number => exact absurd number h9
  | delete number => exact absurd number h43
  | rename number => exact absurd number h44
  | spawn => exact (syscallSpawn_lifecycle k f user).files
  | wait => exact (schedulerOnWait_lifecycle k _).files
  | terminate => exact (syscallTerminate_lifecycle k f).files
  | ipcCreate =>
    unfold syscallIpcCreate
    split <;> rfl
  | send => exact (syscallSend_same k f user).files
  | receive => exact (syscallReceive_same k f).files
  | select => exact (syscallSelect_same k f).files
  | spawnAndWait => exact (syscallSpawnAndWait_lifecycle k f user).files
  | reapExited => exact k.syscallReapExited_lifecycle.files

theorem syscallDispatch_files (k : Kernel) (user : ℕ → UInt8) (dev : Devices) :
    (k.syscallDispatch user dev).files
      = filesAfter k.files (k.syscallFileOp (k.sched.frames k.current) user) := by
  have hnumber : ∀ n, (k.sched.frames k.current).rax.toNat = n → n = 6 ∨ n = 9 ∨ n = 43 ∨ n = 44 →
      (k.syscallDispatch user dev).files
        = filesAfter k.files (k.syscallFileOp (k.sched.frames k.current) user) := by
    rintro n h (rfl | rfl | rfl | rfl)
    · rw [← syscallWrite_files h]
      simp only [syscallDispatch, h]
      rfl
    · rw [← syscallOpenFile_files h]
      simp only [syscallDispatch, h]
      rfl
    · rw [← syscallDelete_files h]
      simp only [syscallDispatch, h]
      rfl
    · rw [← syscallRename_files h]
      simp only [syscallDispatch, h]
      rfl
  by_cases hfile : (k.sched.frames k.current).rax.toNat = 6
      ∨ (k.sched.frames k.current).rax.toNat = 9 ∨ (k.sched.frames k.current).rax.toNat = 43
      ∨ (k.sched.frames k.current).rax.toNat = 44
  · exact hnumber _ rfl hfile
  · simp only [not_or] at hfile
    obtain ⟨h6, h9, h43, h44⟩ := hfile
    rw [syscallFileOp_eq_none h6 h9 h43 h44]
    rcases k.syscallDispatch_control user dev with hl | hc
    · exact hl.files
    · exact hc.files h6 h9 h43 h44

/-- An event makes at most one call of the file system, and does nothing else to the files. -/
theorem step_files (k : Kernel) (e : Event) :
    (k.step e).files = filesAfter k.files (k.fileOp e) := by
  cases e with
  | syscall registers user dev =>
    simp only [step, fileOp]
    split_ifs with hu
    · have h := syscallDispatch_files (k.enter registers) user dev
      rw [enter_frame] at h
      exact h
    · rfl
  | timerTick registers =>
    simp only [step, fileOp, filesAfter]
    have h : ∀ k₁ : Kernel, k₁.files = k.files → k₁.schedulerOnTimerTick.files = k.files :=
      fun k₁ h => (schedulerOnTimerTick_same k₁).files.trans h
    split_ifs
    · exact h _ rfl
    · exact h _ rfl
  | input event => exact (inputPublish_same k event).files
  | kernel call =>
    simp only [step]
    split_ifs with hu
    · cases call with
      | file call => simp [fileOp, hu, filesAfter]
      | _ => rfl
    · cases call with
      | discardInput => rfl
      | file call =>
        simp only [kernelCall, fileOp, hu, Bool.false_eq_true, if_false]
        exact fileCall_eq k.files call
      | _ => exact (kernelCall_lifecycle (by simp) (by simp)).files

/-! ## Handles -/

def createdFile (k : Kernel) (e : Event) : Option ℕ := (k.fileOp e).bind k.files.created

theorem step_createdFile {e : Event}
    (hfree : (k.files.table.slots i).used = false)
    (hused : ((k.step e).files.table.slots i).used = true) : k.createdFile e = some i := by
  rw [step_files] at hused
  unfold createdFile
  cases hop : k.fileOp e with
  | none =>
    rw [hop] at hused
    exact absurd (hfree.symm.trans hused) (by simp)
  | some op =>
    rw [hop] at hused
    exact Ramfs.perform_fills hfree hused

def fileWatch : Instances.Watch Kernel ℕ (ℕ × ℕ) where
  live := fun k i => (k.files.table.slots i).used
  names := fun k a => objectOf .file (k.objects.caps.entry a.1 a.2)

def fileHistory (b : BootInfo) (events : List Event) : Instances.History ℕ (ℕ × ℕ) :=
  (Machine.run (fileWatch.traced step) (fresh b, {}) events).2

def FileCreatesUnnamed (k : Kernel) (e : Event) : Prop :=
  ∀ i ∈ k.createdFile e, ∀ p < processLimit, ∀ slot < slotsPerProcess,
    objectOf .file (k.objects.caps.entry p slot) ≠ some i

instance (k : Kernel) (e : Event) : Decidable (FileCreatesUnnamed k e) :=
  inferInstanceAs (Decidable (∀ i ∈ k.createdFile e, ∀ p < processLimit,
    ∀ slot < slotsPerProcess, objectOf .file (k.objects.caps.entry p slot) ≠ some i))

def FilesSound (k : Kernel) : Prop := k.files.Inv ∧ ∃ m, k.files.Represents m

theorem step_filesSound (h : k.FilesSound) (e : Event) : (k.step e).FilesSound := by
  obtain ⟨hinv, m, hm⟩ := h
  unfold FilesSound
  rw [step_files]
  cases k.fileOp e with
  | none => exact ⟨hinv, m, hm⟩
  | some op =>
    obtain ⟨hinv', hm'⟩ := Ramfs.perform_spec hinv hm op
    exact ⟨hinv', _, hm'⟩

theorem fresh_filesSound (b : BootInfo) : (fresh b).FilesSound :=
  ⟨Ramfs.inv_init, _, Ramfs.represents_init⟩

theorem step_fileFaithful (t : Kernel × Instances.History ℕ (ℕ × ℕ)) (e : Event)
    (h : ProcInv t.1 ∧ t.1.FilesSound ∧ fileWatch.Faithful t) (hok : FileCreatesUnnamed t.1 e) :
    ProcInv (fileWatch.traced step t e).1 ∧ (fileWatch.traced step t e).1.FilesSound
      ∧ fileWatch.Faithful (fileWatch.traced step t e) := by
  obtain ⟨k, history⟩ := t
  refine ⟨step_procInv h.1 e, step_filesSound h.2.1 e,
    h.2.2.next (fun a i ha => (k.step_keeps e).objectOf ha) ?_⟩
  intro i hdead hlive a ha
  obtain ⟨hp, hslot, -⟩ := h.1.held a.1 a.2 (objectOf_eq_some.1 ha).1
  exact hok i (step_createdFile hdead hlive) a.1 hp.2 a.2 hslot ha

/-- In a run in which no file is created in a slot that an open FILE capability names, a handle that
resolves stands for the file it was opened for: a write through it leaves every other file alone,
and once that file is deleted, writing, asking for its size and reading through it fail. -/
theorem file_handle_identity (b : BootInfo) (events : List Event)
    (hok : Machine.Meets step FileCreatesUnnamed (fresh b) events) (pid handle : ℕ)
    (right : BitVec 32) (v : CapabilityPayload)
    (hv : (runFrom b events).objects.caps.capabilityResolveObject pid handle right = some v)
    (hservice : v.service = .file) :
    (∃ slot generation, decodeHandle handle = some (pid, slot, generation)
      ∧ (fileHistory b events).issued (pid, slot)
        = (fileHistory b events).born (v.objectId - 1))
    ∧ (∀ data files, (runFrom b events).files.ramfsWrite v.objectId data = some files →
      ∀ id, id ≠ v.objectId → files.ramfsView id = (runFrom b events).files.ramfsView id)
    ∧ ((runFrom b events).files.nameOf v.objectId = none →
      (∀ data, (runFrom b events).files.ramfsWrite v.objectId data = none)
      ∧ (runFrom b events).files.ramfsSize v.objectId = none
      ∧ ∀ offset capacity, capacity ≠ 0 →
        copyRamfsToUser (runFrom b events).files v.objectId offset capacity = none) := by
  have hrun : (Machine.run (fileWatch.traced step) (fresh b, {}) events).1 = runFrom b events :=
    fileWatch.run_traced_fst step events _
  obtain ⟨-, hsound, hfaithful⟩ := Machine.run_inv_of_meets _ step_fileFaithful events
    (fresh b, {}) ⟨fresh_procInv b, fresh_filesSound b, fun a i ha => by cases ha⟩
    (fileWatch.meets_traced events _ hok)
  rw [hrun] at hsound
  refine ⟨?_, fun data files hw id hne => ?_, fun hgone => ?_⟩
  · obtain ⟨slot, hd, -, hopen, hpay, -⟩ := Capabilities.capabilityResolveObject_eq_some.1 hv
    have hid := runFrom_numbered b events pid slot hopen (.inl (hpay ▸ hservice))
    rw [hpay] at hid
    refine ⟨slot, _, hd, hfaithful (pid, slot) (v.objectId - 1) ?_⟩
    rw [hrun]
    exact objectOf_eq_some.2 ⟨hopen, hpay ▸ hservice, by rw [hpay]; omega⟩
  · obtain ⟨hinv, m, hm⟩ := hsound
    have h := (hinv.mirrors hm).write_others v.objectId data id hne
    simp only [Ramfs.perform, hw] at h
    exact h
  · have hnone := Ramfs.payloadFor_gone hgone
    refine ⟨fun data => ?_, ?_, fun offset capacity hpos => ?_⟩
    · unfold Ramfs.ramfsWrite Ramfs.store
      rw [hnone]
    · unfold Ramfs.ramfsSize
      rw [hnone]
      rfl
    · exact copyRamfsToUser_gone hnone offset hpos

/-- A process opens the storage service and creates a file, `aa`. -/
def fileCreation : List Event :=
  bootEvents ++ [call { rax := 5, rdi := 4 },
    call { rax := 9, rdi := 65792, rsi := 0x330000, rdx := 2, r10 := 1 }]

theorem file_handle_identity_creation :
    ∃ v, (runFrom smallBoot fileCreation).objects.caps.capabilityResolveObject 1
        (makeHandle 1 1 1) rightWrite = some v
      ∧ ∃ slot generation, decodeHandle (makeHandle 1 1 1) = some (1, slot, generation)
        ∧ (fileHistory smallBoot fileCreation).issued (1, slot)
          = (fileHistory smallBoot fileCreation).born (v.objectId - 1) := by
  have hv : (runFrom smallBoot fileCreation).objects.caps.capabilityResolveObject 1
      (makeHandle 1 1 1) rightWrite = some { service := .file
                                             rights := rightRead ||| rightWrite ||| rightQuery
                                             objectId := 2 } := by
    decide +kernel
  exact ⟨_, hv, (file_handle_identity smallBoot fileCreation (by decide +kernel) 1 _ _ _ hv rfl).1⟩

/-- The file is deleted and another one, `aaa`, is created. The old handle writes to that one. -/
theorem file_handle_reaches_later_file :
    let events := fileCreation ++ [
      call { rax := 43, rdi := 65792, rsi := 0x330000, rdx := 2 },
      call { rax := 9, rdi := 65792, rsi := 0x330000, rdx := 3, r10 := 1 }]
    ((runFrom smallBoot events).objects.caps.capabilityResolveObject 1 (makeHandle 1 1 1)
        rightWrite).map (·.objectId) = some 2
      ∧ (runFrom smallBoot events).files.nameOf 2 = some [0x61, 0x61, 0x61]
      ∧ ((runFrom smallBoot events).files.ramfsWrite 2 [0x62]).isSome = true
      ∧ (fileHistory smallBoot events).issued (1, 1)
        ≠ (fileHistory smallBoot events).born 1 := by
  decide +kernel

end Kernel

end DemonOS
