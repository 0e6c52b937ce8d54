import DemonOS.Proofs.Storage
import DemonOS.Xterm.Storage

/-!
# What xterm's file calls do

The file calls are told by three things of the state before: whether the process may open the
storage service, how many slots its capability table has free (`Storage.room`), and the files as a
map from names to contents (`Ramfs.contents`). A read takes two slots and gives one of them back, as
nothing closes the service's handle; so does a write, and a write that finds no slot for its file
handle, or no room for its bytes, leaves the empty file it has created.
-/

namespace DemonOS

variable {create : Bool} {handle id : ℕ} {name : List UInt8}

namespace Ramfs

variable {fs fs' : Ramfs}

/-- The files of a table by name. -/
def contents (fs : Ramfs) : FileMap := fun name => (fs.table.find name).bind fs.ramfsView

theorem Inv.find_used (h : fs.Inv) {i : ℕ} (hu : fs.Used i) :
    fs.table.find (fs.table.slots i).name = some (i + 1) := by
  obtain ⟨hpos, hmax⟩ := h.named i hu
  cases hfind : fs.table.find (fs.table.slots i).name with
  | none => exact absurd rfl ((BoundedTable.find_eq_none hpos hmax).1 hfind i hu.1 hu.2)
  | some id =>
    obtain ⟨j, hj, rfl, huj, hn⟩ := BoundedTable.find_eq_some hfind
    rw [h.unique j i ⟨hj, huj⟩ hu hn]

theorem Inv.represents (h : fs.Inv) : fs.Represents fs.contents := by
  intro name data
  unfold contents
  rw [Option.bind_eq_some_iff]
  constructor
  · rintro ⟨id, hfind, hview⟩
    obtain ⟨i, hi, rfl, hu, hn⟩ := BoundedTable.find_eq_some hfind
    rw [ramfsView_used ⟨hi, hu⟩, Option.some.injEq] at hview
    exact ⟨i, ⟨hi, hu⟩, hn, hview⟩
  · rintro ⟨i, hu, rfl, rfl⟩
    exact ⟨i + 1, h.find_used hu, ramfsView_used hu⟩

theorem Represents.eq {m m' : FileMap} (h : fs.Represents m) (h' : fs.Represents m') : m = m' := by
  funext name
  exact Option.ext fun data => (h name data).trans (h' name data).symm

theorem Inv.contents_eq (h : fs.Inv) {m : FileMap} (hm : fs.Represents m) : fs.contents = m :=
  h.represents.eq hm

theorem contents_eq_none :
    fs.contents name = none ↔ fs.table.find name = none := by
  unfold contents
  rw [Option.bind_eq_none_iff]
  constructor
  · intro hnone
    by_contra hfind
    obtain ⟨id, hid⟩ := Option.ne_none_iff_exists'.1 hfind
    obtain ⟨i, hi, rfl, hu, -⟩ := BoundedTable.find_eq_some hid
    have := hnone _ hid
    rw [ramfsView_used ⟨hi, hu⟩] at this
    cases this
  · rintro hfind id hid
    rw [hfind] at hid
    cases hid

theorem copyRamfsToUser_once (fs : Ramfs) (id : ℕ) {capacity : ℕ} (hpos : 0 < capacity)
    (hle : capacity ≤ 4096) : copyRamfsToUser fs id 0 capacity = fs.ramfsReadRange id 0 capacity := by
  unfold copyRamfsToUser copyChunks
  rw [if_neg (by simpa using hpos.ne'), if_neg (by simp)]
  dsimp only
  rw [List.length_nil, Nat.sub_zero, min_eq_left hle, Nat.zero_add]
  cases hr : fs.ramfsReadRange id 0 capacity with
  | none => rfl
  | some received =>
    dsimp only
    rw [List.nil_append]
    split_ifs with hlt
    · rfl
    · cases hf : capacity / 4096 with
      | zero => rfl
      | succ n => rw [copyChunks, if_pos (not_lt.1 hlt)]

/-- The file is stored under that name, which may first be created. -/
def Accepts (fs : Ramfs) (name data : List UInt8) : Prop :=
  ∃ id fs', fs.ramfsOpen name true = some (id, fs') ∧ (fs'.store id data).isSome = true

theorem ramfsOpen_contents (h : fs.Inv)
    (ho : fs.ramfsOpen name create = some (id, fs')) :
    fs'.Inv ∧ (∃ i, fs'.Used i ∧ id = i + 1 ∧ (fs'.table.slots i).name = name)
      ∧ (fs' = fs ∧ fs.contents name ≠ none
        ∨ fs.Creates name ∧ create = true ∧ fs'.contents = fs.contents.put name []) := by
  obtain ⟨hinv, hm, hslot⟩ := ramfsOpen_spec h h.represents ho
  refine ⟨hinv, hslot, ?_⟩
  by_cases hnew : create = true ∧ fs.Creates name
  · refine .inr ⟨hnew.2, hnew.1, ?_⟩
    rw [hinv.contents_eq hm, FileMap.create, if_pos (contents_eq_none.2 hnew.2.2.1)]
  · obtain rfl := ramfsOpen_keeps ho fun hc hcr => hnew ⟨hc, hcr⟩
    obtain ⟨i, hu, -, rfl⟩ := hslot
    exact .inl ⟨rfl, by rw [h.represents.of_used hu]; simp⟩

theorem ramfsOpen_there (hv : validName name = true)
    (hc : fs.contents name ≠ none) (create : Bool) :
    ∃ id, fs.ramfsOpen name create = some (id, fs) := by
  obtain ⟨id, hid⟩ := Option.ne_none_iff_exists'.1 (mt contents_eq_none.2 hc)
  refine ⟨id, ?_⟩
  unfold ramfsOpen BoundedTable.openName
  simp [hv, hid]

theorem ramfsOpen_valid
    (ho : fs.ramfsOpen name create = some (id, fs')) : validName name = true := by
  unfold ramfsOpen at ho
  split_ifs at ho with hv
  simpa using hv

theorem ramfsDelete_isSome : (fs.ramfsDelete name).isSome = true
    ↔ validName name = true ∧ fs.contents name ≠ none := by
  unfold ramfsDelete
  rw [ne_eq, contents_eq_none]
  cases hv : validName name with
  | false => simp
  | true =>
    cases hfind : fs.table.find name with
    | none => simp
    | some id =>
      obtain ⟨i, hi, rfl, hu, -⟩ := BoundedTable.find_eq_some hfind
      simp [BoundedTable.release, payloadFor_used ⟨hi, hu⟩]

theorem ramfsRename_isSome {oldName newName : List UInt8} :
    (fs.ramfsRename oldName newName).isSome = true ↔ validName oldName = true
      ∧ validName newName = true ∧ fs.contents newName = none ∧ fs.contents oldName ≠ none := by
  unfold ramfsRename
  rw [ne_eq, contents_eq_none, contents_eq_none]
  cases hold : validName oldName with
  | false => simp
  | true =>
    cases hnew : validName newName with
    | false => simp
    | true =>
      obtain ⟨hpos, hmax⟩ := validName_length hnew
      cases hn : fs.table.find newName with
      | some id => simp
      | none =>
        cases ho : fs.table.find oldName with
        | none => simp
        | some id =>
          obtain ⟨i, hi, rfl, hu, -⟩ := BoundedTable.find_eq_some ho
          have hne : newName ≠ [] := List.ne_nil_of_length_pos hpos
          simp [BoundedTable.rename, BoundedTable.slot_eq_some.2 ⟨hi, rfl⟩, hu, hne, hmax]

end Ramfs

namespace Xterm

namespace Storage

variable {s s' : Storage}

/-! ## Slots -/

/-- The free slots of the process's capability table. -/
def free (s : Storage) : Finset ℕ :=
  (Finset.range slotsPerProcess).filter fun slot =>
    (s.objects.caps.entry s.pid slot).isOpen = false

def room (s : Storage) : ℕ := s.free.card

theorem mem_free {slot : ℕ} : slot ∈ s.free
    ↔ slot < slotsPerProcess ∧ (s.objects.caps.entry s.pid slot).isOpen = false := by
  rw [free, Finset.mem_filter, Finset.mem_range]

def Permitted (s : Storage) : Prop :=
  s.pid ≠ 0 ∧ s.pid < processLimit
    ∧ s.objects.caps.assignedServices s.pid &&& CapabilityService.storage.bit ≠ 0#32

/-- The same process, with the same permission. -/
structure Same (s s' : Storage) : Prop where
  pid_eq : s'.pid = s.pid
  permitted : s'.Permitted ↔ s.Permitted

theorem Same.refl (s : Storage) : Same s s := ⟨rfl, Iff.rfl⟩

theorem Same.trans {s'' : Storage} (h : Same s s') (h' : Same s' s'') : Same s s'' :=
  ⟨h'.pid_eq.trans h.pid_eq, h'.permitted.trans h.permitted⟩

@[simp] theorem setEntry_assignedServices (c : Capabilities) (pid slot : ℕ)
    (e : SlotEntry CapabilityPayload) :
    (c.setEntry pid slot e).assignedServices = c.assignedServices := rfl

theorem same_withFiles (s : Storage) (files : Ramfs) : Same s (s.withFiles files) :=
  ⟨rfl, Iff.rfl⟩

theorem room_eq_zero : s.room = 0
    ↔ ∀ slot < slotsPerProcess, (s.objects.caps.entry s.pid slot).isOpen = true := by
  unfold room free
  simp

def Held (s : Storage) (handle : ℕ) (payload : CapabilityPayload) : Prop :=
  ∃ slot < slotsPerProcess, s.pid < processLimit
    ∧ handle = makeHandle s.pid slot (s.objects.caps.entry s.pid slot).generation
    ∧ (s.objects.caps.entry s.pid slot).isOpen = true
    ∧ (s.objects.caps.entry s.pid slot).payload = payload

theorem Held.resolves {payload : CapabilityPayload} (h : s.Held handle payload)
    {right : BitVec 32} (hr : payload.rights &&& right = right) :
    s.objects.caps.capabilityResolveObject s.pid handle right = some payload := by
  obtain ⟨slot, hlt, hpid, rfl, hopen, hpay⟩ := h
  exact Capabilities.capabilityResolveObject_eq_some.2
    ⟨slot, decodeHandle_entry _ hpid hlt, hlt, hopen, hpay, hr⟩

theorem opens_room {slot : ℕ} {payload : CapabilityPayload} {caps : Capabilities}
    (h : s.objects.caps.Opens s.pid slot payload caps) (hpid : s.pid < processLimit) :
    (s.withCaps caps).room + 1 = s.room ∧ Same s (s.withCaps caps)
      ∧ (s.withCaps caps).Held
        (makeHandle s.pid slot (s.objects.caps.entry s.pid slot).generation) payload := by
  have hself : caps.entry s.pid slot
      = { s.objects.caps.entry s.pid slot with isOpen := true, payload := payload } := by
    rw [h.eq, Capabilities.entry_setEntry, if_pos ⟨rfl, rfl⟩]
  have hmem : slot ∈ s.free := mem_free.2 ⟨h.slot_lt, h.free⟩
  have hother : ∀ i, i ≠ slot → caps.entry s.pid i = s.objects.caps.entry s.pid i := by
    intro i hi
    rw [h.eq, Capabilities.entry_setEntry, if_neg fun hc => hi hc.2]
  have hfree : (s.withCaps caps).free = s.free.erase slot := by
    refine Finset.ext fun i => ?_
    rw [Finset.mem_erase, mem_free, mem_free]
    show i < slotsPerProcess ∧ (caps.entry s.pid i).isOpen = false ↔ _
    rcases eq_or_ne i slot with rfl | hi
    · simp [hself]
    · simp [hother i hi, hi]
  refine ⟨?_, ⟨rfl, ?_⟩, slot, h.slot_lt, hpid, ?_, ?_, ?_⟩
  · have := Finset.card_pos.2 ⟨slot, hmem⟩
    rw [room, hfree, Finset.card_erase_of_mem hmem, room]
    omega
  · simp [Permitted, withCaps, h.eq]
  all_goals
    simp [withCaps, hself]

/-! ## The calls -/

def servicePayload : CapabilityPayload where
  service := .storage
  rights := rightOpen ||| rightQuery
  objectId := 0

def filePayload (id : ℕ) : CapabilityPayload where
  service := .file
  rights := rightRead ||| rightWrite ||| rightQuery
  objectId := id

theorem demonServiceOpen_refused (h : ¬ (s.Permitted ∧ 0 < s.room)) :
    s.demonServiceOpen storageService = (none, s) := by
  have hnone : s.objects.caps.capabilityOpen s.pid storageService = none := by
    rw [Option.eq_none_iff_forall_ne_some]
    rintro ⟨handle, caps⟩ ho
    obtain ⟨h0, hlt, -, hbit, slot, rfl, hopens⟩ := Capabilities.capabilityOpen_spec ho
    refine h ⟨⟨h0, hlt, hbit⟩, ?_⟩
    have := (opens_room hopens hlt).1
    omega
  rw [demonServiceOpen, hnone]
  rfl

theorem demonServiceOpen_opened (hp : s.Permitted) (hr : 0 < s.room) :
    ∃ handle s', s.demonServiceOpen storageService = (some handle, s') ∧ s'.files = s.files
      ∧ s'.room + 1 = s.room ∧ Same s s' ∧ s'.Held handle servicePayload := by
  have hsome : (s.objects.caps.capabilityOpen s.pid storageService).isSome = true := by
    unfold Capabilities.capabilityOpen
    rw [if_neg]
    · rw [Option.isSome_iff_ne_none]
      intro hnone
      have := room_eq_zero.2 (Kernel.allocateSlot_eq_none.1 hnone)
      omega
    · rintro (h | h | h | h)
      · exact hp.1 h
      · exact absurd hp.2.1 (by omega)
      · exact absurd h (by decide)
      · exact hp.2.2 h
  obtain ⟨⟨handle, caps⟩, ho⟩ := Option.isSome_iff_exists.1 hsome
  obtain ⟨-, hlt, -, -, slot, rfl, hopens⟩ := Capabilities.capabilityOpen_spec ho
  obtain ⟨hroom, hsame, hheld⟩ := opens_room hopens hlt
  refine ⟨_, s.withCaps caps, ?_, rfl, hroom, hsame, hheld⟩
  rw [demonServiceOpen, ho]
  rfl

theorem Held.storage (h : s.Held handle servicePayload) :
    s.resolveObject handle rightOpen .storage = some 0 := by
  rw [resolveObject, h.resolves (by decide)]
  rfl

theorem Held.read (h : s.Held handle (filePayload id)) {capacity : ℕ} :
    s.demonHandleRead handle capacity = copyRamfsToUser s.files id 0 capacity := by
  rw [demonHandleRead, resolveObject, h.resolves (by simp [filePayload]; decide)]
  rfl

theorem Held.write_refused {bytes : List UInt8}
    (h : s.Held handle (filePayload id)) (hs : s.files.store id bytes = none) :
    s.demonHandleWrite handle bytes = (none, s) := by
  rw [demonHandleWrite, h.resolves (by simp [filePayload]; decide)]
  simp [filePayload, Ramfs.ramfsWrite, hs]

theorem Held.write_stored {bytes : List UInt8} {files : Ramfs}
    (h : s.Held handle (filePayload id)) (hs : s.files.store id bytes = some files) :
    s.demonHandleWrite handle bytes = (some bytes.length, s.withFiles files) := by
  rw [demonHandleWrite, h.resolves (by simp [filePayload]; decide)]
  simp [filePayload, Ramfs.ramfsWrite, hs]

theorem decodeHandle_slot {handle pid slot generation : ℕ}
    (h : decodeHandle handle = some (pid, slot, generation)) : handle &&& 0xFF = slot := by
  unfold decodeHandle at h
  dsimp only at h
  split_ifs at h with h2
  simp only [Option.some.injEq, Prod.mk.injEq] at h
  exact h.2.1

theorem Held.close (h : s.Held handle (filePayload id)) :
    (s.demonHandleClose handle).files = s.files ∧ (s.demonHandleClose handle).room = s.room + 1
      ∧ Same s (s.demonHandleClose handle) := by
  have hres := h.resolves (show _ &&& 0#32 = 0#32 by simp)
  obtain ⟨slot, hlt, hpid, rfl, hopen, hpay⟩ := h
  have hslot := decodeHandle_slot (decodeHandle_entry s.objects.caps hpid hlt)
  obtain ⟨o', ho⟩ : ∃ o', s.objects.releaseSlot s.pid slot = some o' := by
    by_contra hnone
    have := Objects.releaseSlot_eq_none (Option.eq_none_iff_forall_ne_some.2
      fun o' ho => hnone ⟨o', ho⟩) hlt
    rw [hopen] at this
    cases this
  have hclose : s.demonHandleClose
      (makeHandle s.pid slot (s.objects.caps.entry s.pid slot).generation)
      = { s with objects := o' } := by
    rw [demonHandleClose, Objects.capabilityClose, hres]
    rw [hslot, ho]
  obtain ⟨-, -, ⟨e, he, -, hcaps⟩, -⟩ := Objects.releaseSlot_spec ho
  have hfree : ({ s with objects := o' } : Storage).free = insert slot s.free := by
    refine Finset.ext fun i => ?_
    rw [Finset.mem_insert, mem_free, mem_free]
    rw [hcaps, Capabilities.entry_setEntry]
    rcases eq_or_ne i slot with rfl | hi
    · simp [he, hlt]
    · simp [hi]
  have hnot : slot ∉ s.free := fun hmem => by
    have := (mem_free.1 hmem).2
    rw [hopen] at this
    cases this
  rw [hclose]
  refine ⟨rfl, ?_, rfl, ?_⟩
  · rw [room, hfree, Finset.card_insert_of_notMem hnot, room]
  · simp [Permitted, hcaps]

/-! ## Opening -/

theorem demonFileOpen_refused {storage : ℕ} (h : s.Held storage servicePayload)
    (ho : s.files.ramfsOpen name create = none) :
    s.demonFileOpen storage name create = (none, s) := by
  rw [demonFileOpen, h.storage]
  simp [ho]

theorem demonFileOpen_some {storage id : ℕ} (h : s.Held storage servicePayload)
    {files : Ramfs} (ho : s.files.ramfsOpen name create = some (id, files)) :
    s.demonFileOpen storage name create
      = (s.withFiles files).opened (s.objects.caps.capabilityOpenFile s.pid id) := by
  rw [demonFileOpen, h.storage]
  simp [ho]

theorem opened_file (hp : s.Permitted) (files : Ramfs) (i : ℕ) :
    (s.room = 0 ∧ (s.withFiles files).opened (s.objects.caps.capabilityOpenFile s.pid (i + 1))
        = (none, s.withFiles files))
      ∨ ∃ handle s', (s.withFiles files).opened (s.objects.caps.capabilityOpenFile s.pid (i + 1))
          = (some handle, s') ∧ s'.files = files ∧ s'.room + 1 = s.room ∧ Same s s'
        ∧ s'.Held handle (filePayload (i + 1)) := by
  cases ho : s.objects.caps.capabilityOpenFile s.pid (i + 1) with
  | none =>
    exact .inl ⟨room_eq_zero.2 ((Kernel.capabilityOpenFile_eq_none hp.1 hp.2.1).1 ho), rfl⟩
  | some r =>
    obtain ⟨handle, caps⟩ := r
    obtain ⟨-, hlt, -, slot, rfl, hopens⟩ := Capabilities.capabilityOpenFile_spec ho
    obtain ⟨hroom, hsame, hheld⟩ := opens_room (s := s.withFiles files) hopens hlt
    exact .inr ⟨_, _, rfl, rfl, hroom, (same_withFiles s files).trans hsame, hheld⟩

/-- What `openFile` comes to: the file is open; or it is not, and then nothing has changed in the
files but for one that was created before no slot was left. -/
theorem openFile_cases (hinv : s.files.Inv) (name : List UInt8) (create : Bool) :
    (∃ handle i s', s.openFile name create = (some handle, s') ∧ s.Permitted ∧ s'.room + 2 = s.room
      ∧ Same s s' ∧ s'.Held handle (filePayload (i + 1)) ∧ s'.files.Used i
      ∧ s.files.ramfsOpen name create = some (i + 1, s'.files))
    ∨ ∃ s', s.openFile name create = (none, s') ∧ Same s s' ∧ s'.room ≤ s.room ∧
      (s'.files = s.files ∧ (s.Permitted ∧ 2 ≤ s.room → s.files.ramfsOpen name create = none)
        ∧ ¬ (s.Permitted ∧ s.room = 1 ∧ create = true ∧ s.files.Creates name)
      ∨ s.Permitted ∧ s.room = 1 ∧ create = true ∧ s.files.Creates name ∧ s'.files.Inv
        ∧ s'.files.contents = s.files.contents.put name []) := by
  by_cases hserve : s.Permitted ∧ 0 < s.room
  swap
  · refine .inr ⟨s, ?_, .refl s, le_rfl, .inl ⟨rfl, fun h => ?_, fun h => ?_⟩⟩
    · rw [openFile, demonServiceOpen_refused hserve]
    · exact absurd ⟨h.1, by omega⟩ hserve
    · exact absurd ⟨h.1, by omega⟩ hserve
  obtain ⟨hp, hpos⟩ := hserve
  obtain ⟨storage, s₁, hs, hfiles, hroom, hsame, hheld⟩ := demonServiceOpen_opened hp hpos
  have hopen : s.openFile name create = s₁.demonFileOpen storage name create := by
    rw [openFile, hs]
  rw [hopen]
  cases ho : s.files.ramfsOpen name create with
  | none =>
    rw [demonFileOpen_refused hheld (hfiles ▸ ho)]
    refine .inr ⟨s₁, rfl, hsame, by omega, .inl ⟨hfiles, fun _ => rfl, ?_⟩⟩
    rintro ⟨-, -, rfl, hc⟩
    obtain ⟨_, _, hc, -⟩ := hc.opens
    rw [ho] at hc
    cases hc
  | some r =>
    obtain ⟨id, files⟩ := r
    obtain ⟨hinv', ⟨i, hu, rfl, -⟩, hcases⟩ := Ramfs.ramfsOpen_contents hinv ho
    rw [demonFileOpen_some hheld (hfiles ▸ ho)]
    rcases opened_file (hsame.permitted.2 hp) files i with ⟨h0, he⟩ | ⟨handle, s₂, he, hf, hr, hs₂, hh⟩
    · refine .inr ⟨_, he, hsame.trans (same_withFiles _ _), ?_, ?_⟩
      · show s₁.room ≤ s.room
        omega
      · rcases hcases with ⟨rfl, hthere⟩ | ⟨hc, hcr, hcont⟩
        · refine .inl ⟨rfl, fun h => by omega, fun h => ?_⟩
          exact hthere (Ramfs.contents_eq_none.2 h.2.2.2.2.1)
        · exact .inr ⟨hp, by omega, hcr, hc, hinv', hcont⟩
    · refine .inl ⟨handle, i, s₂, he, hp, by omega, hsame.trans hs₂, hh, ?_, ?_⟩
      · rw [hf]
        exact hu
      · rw [hf]

/-! ## The shell's backend -/

/-- The file can be read: the process has the two slots and the name a file. -/
def Readable (s : Storage) (path : List UInt8) : Prop :=
  s.Permitted ∧ 2 ≤ s.room ∧ Ramfs.validName path = true ∧ s.files.contents path ≠ none

/-- The bytes can be stored under the name. -/
def Writable (s : Storage) (path data : List UInt8) : Prop :=
  s.Permitted ∧ 2 ≤ s.room ∧ s.files.Accepts path data

theorem xtermShellReadFile_cases (hinv : s.files.Inv) (path : List UInt8) {capacity : ℕ}
    (hpos : 0 < capacity) (hle : capacity ≤ 4096) :
    (∃ data s', s.xtermShellReadFile path capacity
        = (some (data.take capacity, (data.take capacity).length), s')
      ∧ s.Readable path ∧ s.files.contents path = some data ∧ s'.files = s.files
      ∧ s'.room + 1 = s.room ∧ Same s s')
    ∨ ∃ s', s.xtermShellReadFile path capacity = (none, s') ∧ ¬ s.Readable path
      ∧ s'.files = s.files ∧ Same s s' := by
  rcases openFile_cases hinv path false with
    ⟨handle, i, s₁, ho, hp, hroom, hsame, hheld, hu, hopen⟩ | ⟨s₁, ho, hsame, -, hcases⟩
  · obtain ⟨hfiles, hclosed, hsame'⟩ := hheld.close
    obtain ⟨-, ⟨j, huj, hij, hname⟩, hthere⟩ := Ramfs.ramfsOpen_contents hinv hopen
    obtain ⟨hsf, hne⟩ : s₁.files = s.files ∧ s.files.contents path ≠ none :=
      hthere.resolve_right fun h => absurd h.2.1 (by simp)
    obtain rfl : i = j := by omega
    have hdata : s.files.contents path = some (s.files.contentAt i) := by
      rw [hsf] at hu hname
      rw [← hname, hinv.represents.of_used hu]
    have hread : s₁.demonHandleRead handle capacity = some ((s.files.contentAt i).take capacity) := by
      rw [hheld.read, Ramfs.copyRamfsToUser_once _ _ hpos hle, hsf,
        Ramfs.ramfsReadRange_used (hsf ▸ hu), if_neg (Nat.not_lt_zero _), List.drop_zero]
    refine .inl ⟨s.files.contentAt i, s₁.demonHandleClose handle, ?_,
      ⟨hp, by omega, Ramfs.ramfsOpen_valid hopen, hne⟩, hdata, hfiles.trans hsf, by omega,
      hsame.trans hsame'⟩
    rw [xtermShellReadFile, ho]
    dsimp only
    rw [hread]
    rfl
  · rcases hcases with ⟨hf, hnone, -⟩ | ⟨-, -, hfalse, -⟩
    · refine .inr ⟨s₁, by rw [xtermShellReadFile, ho], ?_, hf, hsame⟩
      rintro ⟨hp, hr, hv, hc⟩
      obtain ⟨id, hid⟩ := Ramfs.ramfsOpen_there hv hc false
      rw [hnone ⟨hp, hr⟩] at hid
      cases hid
    · cases hfalse

/-- A write stores the bytes; or it fails, and then nothing has changed in the files but for an
empty file it has created. -/
theorem xtermShellWriteFile_cases (hinv : s.files.Inv) (path data : List UInt8) :
    (∃ s', s.xtermShellWriteFile path data = (true, s') ∧ s.Writable path data ∧ s'.files.Inv
      ∧ s'.files.contents = s.files.contents.put path data ∧ s'.room + 1 = s.room ∧ Same s s')
    ∨ ∃ s', s.xtermShellWriteFile path data = (false, s') ∧ ¬ s.Writable path data
      ∧ (s'.files = s.files ∧ ¬ (s.Permitted ∧ 0 < s.room ∧ s.files.Creates path)
        ∨ s.Permitted ∧ 0 < s.room ∧ s.files.Creates path
          ∧ s'.files.contents = s.files.contents.put path []) := by
  rcases openFile_cases hinv path true with
    ⟨handle, i, s₁, ho, hp, hroom, hsame, hheld, hu, hopen⟩ | ⟨s₁, ho, hsame, -, hcases⟩
  · obtain ⟨hinv₁, ⟨j, huj, hij, hname⟩, hthere⟩ := Ramfs.ramfsOpen_contents hinv hopen
    obtain rfl : i = j := by omega
    have hput : s₁.files.contents.put path data = s.files.contents.put path data := by
      rcases hthere with ⟨hsf, -⟩ | ⟨-, -, hcont⟩
      · rw [hsf]
      · rw [hcont]
        exact Function.update_idem _ _ _
    cases hstore : s₁.files.store (i + 1) data with
    | none =>
      obtain ⟨hfiles, -, -⟩ := hheld.close
      refine .inr ⟨s₁.demonHandleClose handle, ?_, ?_, ?_⟩
      · rw [xtermShellWriteFile, ho]
        dsimp only
        rw [hheld.write_refused hstore]
        rfl
      · rintro ⟨-, -, id, fs', hid, hsome⟩
        rw [hopen, Option.some.injEq, Prod.mk.injEq] at hid
        rw [← hid.1, ← hid.2, hstore] at hsome
        cases hsome
      · rw [hfiles]
        rcases hthere with ⟨hsf, hne⟩ | ⟨hc, -, hcont⟩
        · exact .inl ⟨hsf, fun h => hne (Ramfs.contents_eq_none.2 h.2.2.2.1)⟩
        · exact .inr ⟨hp, by omega, hc, hcont⟩
    | some files =>
      have hheld' : (s₁.withFiles files).Held handle (filePayload (i + 1)) := hheld
      obtain ⟨hfiles, hclosed, hsame'⟩ := hheld'.close
      obtain ⟨hinv₂, k, huk, hik, hrep, -⟩ := Ramfs.store_spec hinv₁ hinv₁.represents hstore
      obtain rfl : i = k := by omega
      have hwithin : (s₁.withFiles files).room = s₁.room := rfl
      refine .inl ⟨(s₁.withFiles files).demonHandleClose handle, ?_, ⟨hp, by omega, i + 1, s₁.files,
        hopen, by rw [hstore]; rfl⟩, ?_, ?_, by omega,
        (hsame.trans (same_withFiles _ _)).trans hsame'⟩
      · rw [xtermShellWriteFile, ho]
        dsimp only
        rw [hheld.write_stored hstore]
        rfl
      · rw [hfiles]
        exact hinv₂
      · rw [hfiles, ← hput, ← hname]
        exact hinv₂.contents_eq hrep
  · refine .inr ⟨s₁, by rw [xtermShellWriteFile, ho], ?_, ?_⟩
    · rintro ⟨hp, hr, id, fs', hid, -⟩
      rcases hcases with ⟨-, hnone, -⟩ | ⟨-, h1, -⟩
      · rw [hnone ⟨hp, hr⟩] at hid
        cases hid
      · omega
    · rcases hcases with ⟨hf, hnone, hnot⟩ | ⟨hp, h1, -, hc, -, hcont⟩
      · refine .inl ⟨hf, fun h => ?_⟩
        rcases Nat.lt_or_ge s.room 2 with hlt | hge
        · exact hnot ⟨h.1, by omega, rfl, h.2.2⟩
        · obtain ⟨_, _, hc, -⟩ := h.2.2.opens
          rw [hnone ⟨h.1, hge⟩] at hc
          cases hc
      · exact .inr ⟨hp, by omega, hc, hcont⟩

theorem xtermShellDeleteFile_cases (hinv : s.files.Inv) (path : List UInt8) :
    (∃ s', s.xtermShellDeleteFile path = (true, s') ∧ s'.files.contents = s.files.contents.drop path)
    ∨ ∃ s', s.xtermShellDeleteFile path = (false, s') ∧ s'.files = s.files
      ∧ ¬ (s.Permitted ∧ 0 < s.room ∧ Ramfs.validName path = true
        ∧ s.files.contents path ≠ none) := by
  by_cases hserve : s.Permitted ∧ 0 < s.room
  swap
  · refine .inr ⟨s, ?_, rfl, fun h => hserve ⟨h.1, h.2.1⟩⟩
    rw [xtermShellDeleteFile, demonServiceOpen_refused hserve]
  obtain ⟨storage, s₁, hs, hfiles, -, -, hheld⟩ := demonServiceOpen_opened hserve.1 hserve.2
  have hdel : s.xtermShellDeleteFile path = s₁.changed (s.files.ramfsDelete path) := by
    rw [xtermShellDeleteFile, hs]
    dsimp only
    rw [demonFileDelete, hheld.storage, hfiles]
  rw [hdel]
  cases hd : s.files.ramfsDelete path with
  | none =>
    refine .inr ⟨s₁, rfl, hfiles, fun h => ?_⟩
    have := Ramfs.ramfsDelete_isSome.2 h.2.2
    rw [hd] at this
    cases this
  | some files =>
    obtain ⟨hinv', hrep⟩ := Ramfs.ramfsDelete_spec hinv hinv.represents hd
    exact .inl ⟨s₁.withFiles files, rfl, hinv'.contents_eq hrep⟩

def Renamable (s : Storage) (oldPath newPath : List UInt8) : Prop :=
  s.Permitted ∧ 0 < s.room ∧ Ramfs.validName oldPath = true ∧ Ramfs.validName newPath = true
    ∧ s.files.contents newPath = none ∧ s.files.contents oldPath ≠ none

theorem xtermShellRenameFile_cases (hinv : s.files.Inv) (oldPath newPath : List UInt8) :
    (∃ s', s.xtermShellRenameFile oldPath newPath = (true, s') ∧ s.Renamable oldPath newPath
      ∧ s'.files.contents = s.files.contents.move oldPath newPath)
    ∨ ∃ s', s.xtermShellRenameFile oldPath newPath = (false, s') ∧ ¬ s.Renamable oldPath newPath
      ∧ s'.files = s.files ∧ Same s s' ∧ (s.Permitted → s'.room = s.room - 1) := by
  by_cases hserve : s.Permitted ∧ 0 < s.room
  swap
  · refine .inr ⟨s, ?_, fun h => hserve ⟨h.1, h.2.1⟩, rfl, .refl s, fun hp => ?_⟩
    · rw [xtermShellRenameFile, demonServiceOpen_refused hserve]
    · have : ¬ 0 < s.room := fun h => hserve ⟨hp, h⟩
      omega
  obtain ⟨storage, s₁, hs, hfiles, hroom, hsame, hheld⟩ := demonServiceOpen_opened hserve.1 hserve.2
  have hren : s.xtermShellRenameFile oldPath newPath
      = s₁.changed (s.files.ramfsRename oldPath newPath) := by
    rw [xtermShellRenameFile, hs]
    dsimp only
    rw [demonFileRename, hheld.storage, hfiles]
  rw [hren]
  cases hr : s.files.ramfsRename oldPath newPath with
  | none =>
    refine .inr ⟨s₁, rfl, fun h => ?_, hfiles, hsame, fun _ => by omega⟩
    have := Ramfs.ramfsRename_isSome.2 h.2.2
    rw [hr] at this
    cases this
  | some files =>
    obtain ⟨hinv', hrep⟩ := Ramfs.ramfsRename_spec hinv hinv.represents hr
    have hsome := Ramfs.ramfsRename_isSome.1 (Option.isSome_of_eq_some hr)
    exact .inl ⟨s₁.withFiles files, rfl, ⟨hserve.1, hserve.2, hsome⟩, hinv'.contents_eq hrep⟩

end Storage

end Xterm

end DemonOS
