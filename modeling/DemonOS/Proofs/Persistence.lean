import DemonOS.Persistence
import DemonOS.Proofs.Xterm.Storage

/-!
# A save and a termination

The configuration that is encoded is decoded again (`decode_encode`). A save writes the new one to
another file first, and then deletes the old one and renames the new: between these two calls, and
only there, neither can be loaded (`save_keeps_iff`).
-/

namespace DemonOS.Persistence

open Xterm Xterm.Storage

variable {config : ButterscotchConfig} {data : List UInt8}

/-! ## The record -/

theorem checksum_congr {bytes bytes' : ℕ → UInt8} {count : ℕ} (h : ∀ i < count, bytes i = bytes' i) :
    checksum bytes count = checksum bytes' count := by
  unfold checksum
  exact List.foldl_ext _ _ _ fun hash i hi => by rw [h i (List.mem_range.1 hi)]

theorem encodeFields_beyond (config : ButterscotchConfig) {i : ℕ} (h : 24 ≤ i) :
    encodeFields config i = 0 := by
  unfold encodeFields
  simp (disch := omega) only [LittleEndian.store_apply_of_disjoint]
  exact List.getD_eq_default _ _ (by simp; omega)

theorem load_encodeFields (config : ButterscotchConfig) :
    LittleEndian.load (encodeFields config) 4 4 = 1
      ∧ LittleEndian.load (encodeFields config) 8 4 = config.gameId.toNat
      ∧ LittleEndian.load (encodeFields config) 12 4 = config.windowWidth.toNat
      ∧ LittleEndian.load (encodeFields config) 16 4 = config.windowHeight.toNat
      ∧ LittleEndian.load (encodeFields config) 20 2 = config.masterGainQ8.toNat := by
  unfold encodeFields
  simp (disch := omega) only [LittleEndian.load_store_of_disjoint, LittleEndian.load_store]
  exact ⟨rfl, Nat.mod_eq_of_lt config.gameId.toNat_lt, Nat.mod_eq_of_lt config.windowWidth.toNat_lt,
    Nat.mod_eq_of_lt config.windowHeight.toNat_lt, Nat.mod_eq_of_lt config.masterGainQ8.toNat_lt⟩

/-- What is encoded is decoded again. -/
theorem decode_encode (hvalid : config.Valid) :
    ∃ data, encode config = some data ∧ data.length = configBytes ∧ decode data = some config := by
  refine ⟨_, if_pos hvalid, by simp, ?_⟩
  set bytes := LittleEndian.store (encodeFields config) 28 4
    (checksum (encodeFields config) 28).toNat with hbytes
  have hdata : (fun i => ((List.range configBytes).map bytes).getD i 0) = bytes := by
    funext i
    rcases Nat.lt_or_ge i configBytes with hi | hi
    · simp [hi]
    · rw [List.getD_eq_default _ _ (by simpa using hi), hbytes,
        LittleEndian.store_apply_of_disjoint _ _ (by unfold configBytes at hi; omega),
        encodeFields_beyond config (by unfold configBytes at hi; omega)]
  have hchecksum : checksum bytes 28 = checksum (encodeFields config) 28 :=
    checksum_congr fun i hi => LittleEndian.store_apply_of_disjoint _ _ (.inl hi)
  have hload : ∀ a n, a + n ≤ 28 →
      LittleEndian.load bytes a n = LittleEndian.load (encodeFields config) a n :=
    fun a n h => LittleEndian.load_store_of_disjoint _ _ (.inl h)
  have hmagic : ∀ i < 4, bytes i = [0x42, 0x53, 0x43, 0x46].getD i 0 := by
    intro i hi
    rw [hbytes]
    unfold encodeFields
    simp (disch := omega) only [LittleEndian.store_apply_of_disjoint]
  have hfull : LittleEndian.load bytes 22 2 = if config.fullscreen then 1 else 0 := by
    rw [hload _ _ (by omega)]
    exact LittleEndian.load_store_of_lt _ (by split_ifs <;> decide)
  have hsum : LittleEndian.load bytes 28 4 = (checksum bytes 28).toNat := by
    rw [hchecksum]
    exact LittleEndian.load_store_of_lt _ (checksum (encodeFields config) 28).toNat_lt
  obtain ⟨hversion, hgame, hwidth, hheight, hgain⟩ := load_encodeFields config
  rw [← hload _ _ (by decide)] at hversion hgame hwidth hheight hgain
  unfold decode
  rw [hdata]
  dsimp only
  rw [hversion, hsum, hgame, hwidth, hheight, hgain, hfull, hmagic 0 (by decide),
    hmagic 1 (by decide), hmagic 2 (by decide), hmagic 3 (by decide), if_neg]
  · obtain ⟨gameId, width, height, gain, fullscreen⟩ := config
    cases fullscreen <;> simpa using hvalid
  · cases config.fullscreen <;> simp

/-! ## The handle of the service -/

variable {s : Storage} {storage id : ℕ}

/-- The handle is one of the storage service that may open files. -/
def Serves (s : Storage) (storage : ℕ) : Prop :=
  ∃ payload, s.objects.caps.capabilityResolveObject s.pid storage rightOpen = some payload
    ∧ payload.service = .storage

theorem Serves.resolves (h : Serves s storage) :
    ∃ v, s.resolveObject storage rightOpen .storage = some v := by
  obtain ⟨payload, hres, hservice⟩ := h
  exact ⟨payload.objectId, by rw [resolveObject, hres]; exact if_pos hservice⟩

theorem resolveObject_eq_none (h : ¬Serves s storage) :
    s.resolveObject storage rightOpen .storage = none := by
  unfold resolveObject
  rcases hres : s.objects.caps.capabilityResolveObject s.pid storage rightOpen with _ | payload
  · rfl
  · exact if_neg fun hservice => h ⟨payload, hres, hservice⟩

theorem Serves.of_entry (h : Serves s storage) {objects : Objects} (changed : ℕ)
    (hfile : (s.objects.caps.entry s.pid changed).isOpen = true →
      (s.objects.caps.entry s.pid changed).payload.service = .file)
    (hrest : ∀ i ≠ changed, objects.caps.entry s.pid i = s.objects.caps.entry s.pid i) :
    Serves { s with objects := objects } storage := by
  obtain ⟨payload, hres, hservice⟩ := h
  obtain ⟨slot, hdecode, hslot, hopen, hpayload, hrights⟩ :=
    Capabilities.capabilityResolveObject_eq_some.1 hres
  have hne : slot ≠ changed := by
    rintro rfl
    rw [← hpayload, hfile hopen] at hservice
    cases hservice
  refine ⟨payload, Capabilities.capabilityResolveObject_eq_some.2 ⟨slot, ?_⟩, hservice⟩
  dsimp only
  rw [hrest slot hne]
  exact ⟨hdecode, hslot, hopen, hpayload, hrights⟩

theorem Serves.close (h : Serves s storage) {file : ℕ} (hfile : s.Held file (filePayload id)) :
    Serves (s.demonHandleClose file) storage := by
  have hres := hfile.resolves (show _ &&& 0#32 = 0#32 by simp)
  obtain ⟨slot, hlt, hpid, rfl, hopen, hpayload⟩ := hfile
  unfold demonHandleClose Objects.capabilityClose
  rw [hres]
  dsimp only
  rw [decodeHandle_slot (decodeHandle_entry s.objects.caps hpid hlt)]
  rcases ho : s.objects.releaseSlot s.pid slot with _ | objects
  · exact h
  · obtain ⟨-, -, ⟨e, -, -, hcaps⟩, -⟩ := Objects.releaseSlot_spec ho
    refine h.of_entry slot (fun _ => hpayload ▸ rfl) fun i hi => ?_
    rw [hcaps, Capabilities.entry_setEntry, if_neg fun hc => hi hc.2]

/-- The process is one that can open a file with the handle. -/
def CanLoad (s : Storage) (storage : ℕ) : Prop :=
  Serves s storage ∧ s.pid ≠ 0 ∧ s.pid < processLimit ∧ 0 < s.room

theorem demonFileOpen_cases (hinv : s.files.Inv) (storage : ℕ) (name : List UInt8) (create : Bool) :
    (∃ t, s.demonFileOpen storage name create = (none, t)
      ∧ (t.files = s.files ∨ ∃ id, s.files.ramfsOpen name create = some (id, t.files))
      ∧ (CanLoad s storage → s.files.ramfsOpen name create = none))
    ∨ ∃ handle id t, s.demonFileOpen storage name create = (some handle, t)
      ∧ s.files.ramfsOpen name create = some (id, t.files) ∧ t.Held handle (filePayload id)
      ∧ CanLoad s storage ∧ Serves t storage ∧ t.pid = s.pid := by
  by_cases hserves : Serves s storage
  swap
  · rw [demonFileOpen, resolveObject_eq_none hserves]
    exact .inl ⟨s, rfl, .inl rfl, fun h => absurd h.1 hserves⟩
  obtain ⟨v, hv⟩ := hserves.resolves
  rw [demonFileOpen, hv]
  rcases hopen : s.files.ramfsOpen name create with _ | ⟨id, files⟩
  · exact .inl ⟨s, rfl, .inl rfl, fun _ => rfl⟩
  dsimp only
  rcases hfile : s.objects.caps.capabilityOpenFile s.pid id with _ | ⟨handle, caps⟩
  · refine .inl ⟨s.withFiles files, rfl, .inr ⟨id, rfl⟩, ?_⟩
    rintro ⟨-, hpid, hlt, hroom⟩
    obtain ⟨-, ⟨i, -, rfl, -⟩, -⟩ := Ramfs.ramfsOpen_contents hinv hopen
    have := room_eq_zero.2 ((Kernel.capabilityOpenFile_eq_none hpid hlt).1 hfile)
    omega
  · obtain ⟨hne, hlt, -, slot, rfl, hopens⟩ := Capabilities.capabilityOpenFile_spec hfile
    have hroom := (opens_room hopens hlt).1
    obtain ⟨-, -, hheld⟩ := opens_room (s := s.withFiles files) hopens hlt
    refine .inr ⟨_, id, _, rfl, rfl, hheld, ⟨hserves, hne, hlt, by omega⟩, ?_, rfl⟩
    refine hserves.of_entry slot (fun hopen => ?_) fun i hi => ?_
    · rw [hopens.free] at hopen
      cases hopen
    · have hentry : caps.entry s.pid i = s.objects.caps.entry s.pid i := by
        rw [hopens.eq, Capabilities.entry_setEntry, if_neg fun hc => hi hc.2]
      exact hentry

/-! ## What can be loaded -/

def loads (files : Ramfs) (path : List UInt8) : Option ButterscotchConfig :=
  (files.contents path).bind fun data =>
    if data.length = configBytes then decode data else none

theorem load_eq (hinv : s.files.Inv) (hload : CanLoad s storage) {path : List UInt8}
    (hpath : Ramfs.validName path = true) : (load s storage path).1 = loads s.files path := by
  unfold load loads
  rcases hcontents : s.files.contents path with _ | data
  · have hrefused : s.files.ramfsOpen path false = none := by
      rcases hopen : s.files.ramfsOpen path false with _ | ⟨id, files⟩
      · rfl
      · obtain ⟨-, -, ⟨-, hthere⟩ | ⟨-, hcreate, -⟩⟩ := Ramfs.ramfsOpen_contents hinv hopen
        · exact absurd hcontents hthere
        · cases hcreate
    obtain ⟨t, ht, -⟩ | ⟨handle, id, t, -, hopen, -⟩ := demonFileOpen_cases hinv storage path false
    · rw [ht]
      rfl
    · rw [hrefused] at hopen
      cases hopen
  obtain ⟨id, hthere⟩ := Ramfs.ramfsOpen_there hpath
    (fun hnone => by rw [hnone] at hcontents; cases hcontents) false
  obtain ⟨t, -, -, hnone⟩ | ⟨handle, id, t, ht, hopen, hheld, -⟩ :=
    demonFileOpen_cases hinv storage path false
  · rw [hnone hload] at hthere
    cases hthere
  rw [hopen, Option.some.injEq, Prod.mk.injEq] at hthere
  obtain ⟨-, hfiles⟩ := hthere
  obtain ⟨-, ⟨i, hused, rfl, rfl⟩, -⟩ := Ramfs.ramfsOpen_contents hinv hopen
  have hdata : t.files.contentAt i = data := by
    rw [← hfiles] at hinv hcontents
    rw [Ramfs.contents, hinv.find_used hused, Option.bind_some, Ramfs.ramfsView_used hused]
      at hcontents
    exact Option.some.inj hcontents
  have hquery : demonHandleQuery t handle = some data.length := by
    rw [demonHandleQuery, resolveObject, hheld.resolves (by simp [filePayload]; decide), ← hdata,
      Ramfs.length_contentAt]
    simp [filePayload, Ramfs.ramfsSize, Ramfs.payloadFor_used hused]
  have hread : demonHandleReadAt t handle configBytes 0 = some (data.take configBytes) := by
    rw [demonHandleReadAt, resolveObject, hheld.resolves (by simp [filePayload]; decide)]
    simp only [filePayload, if_true, Option.bind_some]
    rw [Ramfs.copyRamfsToUser_once _ _ (by decide) (by decide), Ramfs.ramfsReadRange_used hused,
      if_neg (by simp), List.drop_zero, hdata]
  rw [ht]
  dsimp only
  rw [hquery, Option.bind_some, Option.bind_some]
  split_ifs with hlength
  · rw [hread, Option.bind_some, List.take_of_length_le hlength.le, if_pos hlength]
  · rfl

/-! ## A save -/

variable {path tempPath : List UInt8}

theorem contents_open {fs fs' : Ramfs} (hinv : fs.Inv) {create : Bool}
    (h : fs.ramfsOpen tempPath create = some (id, fs')) (hne : path ≠ tempPath) :
    fs'.Inv ∧ fs'.contents path = fs.contents path := by
  obtain ⟨hinv', -, ⟨rfl, -⟩ | ⟨-, -, hcontents⟩⟩ := Ramfs.ramfsOpen_contents hinv h
  · exact ⟨hinv', rfl⟩
  · exact ⟨hinv', by rw [hcontents]; exact Function.update_of_ne hne _ _⟩

theorem delete_spec (hinv : s.files.Inv) (hserves : Serves s storage)
    (hpath : Ramfs.validName path = true) :
    (s.demonFileDelete storage path).2.files.Inv
      ∧ (s.demonFileDelete storage path).2.files.contents = s.files.contents.drop path
      ∧ ∃ files, (s.demonFileDelete storage path).2 = s.withFiles files := by
  obtain ⟨v, hv⟩ := hserves.resolves
  rw [demonFileDelete, hv]
  rcases hdelete : s.files.ramfsDelete path with _ | files
  · refine ⟨hinv, ?_, s.files, rfl⟩
    have hnone : s.files.contents path = none := by
      by_contra hthere
      have := Ramfs.ramfsDelete_isSome.2 ⟨hpath, hthere⟩
      rw [hdelete] at this
      cases this
    exact (Function.update_eq_self_iff.2 hnone.symm).symm
  · obtain ⟨hinv', hrep⟩ := Ramfs.ramfsDelete_spec hinv hinv.represents hdelete
    exact ⟨hinv', hinv'.contents_eq hrep, files, rfl⟩

theorem rename_spec (hinv : s.files.Inv) (hserves : Serves s storage)
    (hpath : Ramfs.validName path = true) (htemp : Ramfs.validName tempPath = true)
    (hfree : s.files.contents path = none) (hthere : s.files.contents tempPath ≠ none) :
    ∃ files, s.demonFileRename storage tempPath path = (true, s.withFiles files) ∧ files.Inv
      ∧ files.contents = s.files.contents.move tempPath path := by
  obtain ⟨v, hv⟩ := hserves.resolves
  obtain ⟨files, hrename⟩ := Option.isSome_iff_exists.1
    (Ramfs.ramfsRename_isSome.2 ⟨htemp, hpath, hfree, hthere⟩)
  obtain ⟨hinv', hrep⟩ := Ramfs.ramfsRename_spec hinv hinv.represents hrename
  refine ⟨files, ?_, hinv', hinv'.contents_eq hrep⟩
  rw [demonFileRename, hv]
  dsimp only
  rw [hrename]
  rfl

theorem write_close {handle i : ℕ} (hinv : s.files.Inv)
    (hname : (s.files.table.slots i).name = tempPath) (hheld : s.Held handle (filePayload (i + 1)))
    (hserves : Serves s storage) (bytes : List UInt8) :
    ∃ written closed, s.demonHandleWrite handle bytes = written
      ∧ written.2.demonHandleClose handle = closed ∧ closed.files = written.2.files
      ∧ written.2.files.Inv ∧ Serves closed storage ∧ closed.pid = s.pid
      ∧ closed.room = s.room + 1
      ∧ (written.1 = none ∧ written.2.files = s.files
        ∨ written.1 = some bytes.length
          ∧ written.2.files.contents = s.files.contents.put tempPath bytes) := by
  rcases hstore : s.files.store (i + 1) bytes with _ | files
  · obtain ⟨hfiles, hroom, hsame⟩ := hheld.close
    refine ⟨_, _, hheld.write_refused hstore, rfl, hfiles, hinv, hserves.close hheld, hsame.pid_eq,
      hroom, .inl ⟨rfl, rfl⟩⟩
  · obtain ⟨hinv', j, -, hj, hrep, -⟩ := Ramfs.store_spec hinv hinv.represents hstore
    obtain rfl := Nat.succ_injective hj
    have hheld' : (s.withFiles files).Held handle (filePayload (i + 1)) := hheld
    have hserves' : Serves (s.withFiles files) storage := hserves
    obtain ⟨hfiles, hroom, hsame⟩ := hheld'.close
    exact ⟨_, _, hheld.write_stored hstore, rfl, hfiles, hinv', hserves'.close hheld', hsame.pid_eq,
      hroom, .inr ⟨rfl, hname ▸ hinv'.contents_eq hrep⟩⟩

/-- What is at `path` is as it was. -/
def Keeps (s : Storage) (path : List UInt8) (call : StorageCall × Storage) : Prop :=
  call.1 ≠ .delete ∧ call.2.files.Inv ∧ call.2.files.contents path = s.files.contents path

variable (storage) in
theorem save_cases (hinv : s.files.Inv) {bytes : List UInt8} (hbytes : encode config = some bytes)
    (hpath : Ramfs.validName path = true) (htemp : Ramfs.validName tempPath = true)
    (hne : path ≠ tempPath) :
    (∃ calls, save s storage path tempPath config = ⟨false, calls⟩ ∧ ∀ call ∈ calls, Keeps s path call)
    ∨ ∃ calls deleted renamed, save s storage path tempPath config
        = ⟨true, calls ++ [(.delete, deleted), (.rename, renamed)]⟩
      ∧ (∀ call ∈ calls, Keeps s path call) ∧ deleted.files.Inv
      ∧ deleted.files.contents path = none ∧ renamed.files.Inv
      ∧ renamed.files.contents path = some bytes ∧ CanLoad renamed storage := by
  unfold save
  rw [hbytes]
  dsimp only
  obtain ⟨t, ht, hfiles, -⟩ | ⟨handle, id, created, ht, hopen, hheld, hload, hserves, hpid⟩ :=
    demonFileOpen_cases hinv storage tempPath true
  · rw [ht]
    refine .inl ⟨_, rfl, fun call hcall => ?_⟩
    obtain rfl := List.mem_singleton.1 hcall
    obtain hfiles | ⟨id, hopen⟩ := hfiles
    · exact ⟨by simp, hfiles ▸ hinv, by rw [hfiles]⟩
    · obtain ⟨hinv', hcontents⟩ := contents_open hinv hopen hne
      exact ⟨by simp, hinv', hcontents⟩
  rw [ht]
  dsimp only
  obtain ⟨hinv₁, hcontents⟩ := contents_open hinv hopen hne
  obtain ⟨-, ⟨i, hused, rfl, hname⟩, -⟩ := Ramfs.ramfsOpen_contents hinv hopen
  obtain ⟨written, closed, hwritten, hclosed, hfiles, hinv₂, hserves₂, hpid₂, hroom₂, hcase⟩ :=
    write_close hinv₁ hname hheld hserves bytes
  have hkeeps : written.2.files.contents path = s.files.contents path → ∀ call ∈
      [(StorageCall.create, created), (.write, written.2), (.close, closed)], Keeps s path call := by
    intro hsame call hcall
    simp only [List.mem_cons, List.not_mem_nil, or_false] at hcall
    rcases hcall with rfl | rfl | rfl
    · exact ⟨by simp, hinv₁, hcontents⟩
    · exact ⟨by simp, hinv₂, hsame⟩
    · exact ⟨by simp, hfiles ▸ hinv₂, by rw [hfiles]; exact hsame⟩
  rw [hwritten, hclosed]
  rcases hcase with ⟨hnone, hsame⟩ | ⟨hsome, hput⟩
  · have hsame' : written.2.files.contents path = s.files.contents path := by rw [hsame, hcontents]
    obtain ⟨hinv₃, hdrop, -⟩ := delete_spec (hfiles ▸ hinv₂) hserves₂ htemp
    rw [if_pos (by simp [hnone])]
    refine .inl ⟨_, rfl, fun call hcall => ?_⟩
    obtain hcall | hcall := List.mem_append.1 hcall
    · exact hkeeps hsame' call hcall
    · obtain rfl := List.mem_singleton.1 hcall
      refine ⟨by simp, hinv₃, ?_⟩
      rw [hdrop, hfiles]
      exact (Function.update_of_ne hne _ _).trans hsame'
  · have hsame' : written.2.files.contents path = s.files.contents path := by
      rw [hput]
      exact (Function.update_of_ne hne _ _).trans hcontents
    obtain ⟨hinv₃, hdrop, deleted, hdeleted⟩ := delete_spec (hfiles ▸ hinv₂) hserves₂ hpath
    rw [hdeleted] at hinv₃ hdrop
    have hserves₃ : Serves (closed.withFiles deleted) storage := hserves₂
    have hgone : (closed.withFiles deleted).files.contents path = none := by
      rw [hdrop]
      exact Function.update_self _ _ _
    have hthere : (closed.withFiles deleted).files.contents tempPath = some bytes := by
      rw [hdrop, hfiles, hput]
      exact (Function.update_of_ne hne.symm _ _).trans (Function.update_self _ _ _)
    obtain ⟨renamed, hrenamed, hinv₄, hmove⟩ :=
      rename_spec hinv₃ hserves₃ hpath htemp hgone (by rw [hthere]; simp)
    rw [if_neg (by simp [hsome]), hdeleted, hrenamed, if_pos rfl]
    refine .inr ⟨_, _, _, rfl, hkeeps hsame', hinv₃, hgone, hinv₄, ?_, hserves₃, ?_, ?_, ?_⟩
    · show renamed.contents path = some bytes
      rw [hmove]
      exact (Function.update_self _ _ _).trans hthere
    · exact (hpid₂.trans hpid).trans_ne hload.2.1
    · exact (hpid₂.trans hpid).trans_lt hload.2.2.1
    · show 0 < closed.room
      omega

/-- A save that succeeds leaves the new configuration to be loaded, and one that fails the old.
Terminated after one of its calls, it leaves one of the two, but for the call that deletes. -/
theorem save_keeps_iff (s : Storage) (storage : ℕ) (hinv : s.files.Inv) (hvalid : config.Valid)
    (hpath : Ramfs.validName path = true) (htemp : Ramfs.validName tempPath = true)
    (hne : path ≠ tempPath) :
    ((save s storage path tempPath config).success = true →
      ∃ t, (save s storage path tempPath config).calls.getLast? = some (.rename, t)
        ∧ CanLoad t storage
        ∧ ∀ reader handle, reader.files = t.files → CanLoad reader handle →
          (load reader handle path).1 = some config)
    ∧ ∀ old, loads s.files path = some old →
      ((save s storage path tempPath config).success = false →
        ∀ call ∈ (save s storage path tempPath config).calls, ∀ reader handle,
          reader.files = call.2.files → CanLoad reader handle →
            (load reader handle path).1 = some old)
      ∧ ∀ call ∈ (save s storage path tempPath config).calls, ∀ reader handle,
        reader.files = call.2.files → CanLoad reader handle →
          ((load reader handle path).1 = some old ∨ (load reader handle path).1 = some config
            ↔ call.1 ≠ .delete) := by
  obtain ⟨bytes, hbytes, hlength, hdecode⟩ := decode_encode hvalid
  have hload : ∀ {files : Ramfs}, files.Inv → ∀ reader handle, reader.files = files →
      CanLoad reader handle → (load reader handle path).1 = loads files path := by
    rintro _ hinv reader handle rfl hreader
    exact load_eq hinv hreader hpath
  have hkept : ∀ {old call}, loads s.files path = some old → Keeps s path call → ∀ reader handle,
      reader.files = call.2.files → CanLoad reader handle →
        (load reader handle path).1 = some old := by
    rintro old call hold ⟨-, hinv', hsame⟩ reader handle hfiles hreader
    rw [hload hinv' reader handle hfiles hreader, loads, hsame]
    exact hold
  obtain ⟨calls, hsave, hcalls⟩ | ⟨calls, deleted, renamed, hsave, hcalls, hinv₃, hgone, hinv₄,
    hstored, hagain⟩ := save_cases storage hinv hbytes hpath htemp hne
  all_goals rw [hsave]
  · refine ⟨fun h => absurd h (by simp), fun old hold => ⟨fun _ call hcall =>
      hkept hold (hcalls call hcall), fun call hcall reader handle hfiles hreader => ?_⟩⟩
    exact iff_of_true (.inl (hkept hold (hcalls call hcall) reader handle hfiles hreader))
      (hcalls call hcall).1
  · have hnew : ∀ reader handle, reader.files = renamed.files → CanLoad reader handle →
        (load reader handle path).1 = some config := by
      intro reader handle hfiles hreader
      rw [hload hinv₄ reader handle hfiles hreader, loads, hstored, Option.bind_some,
        if_pos hlength, hdecode]
    refine ⟨fun _ => ⟨renamed, by simp, hagain, hnew⟩, fun old hold =>
      ⟨fun h => absurd h (by simp), fun call hcall reader handle hfiles hreader => ?_⟩⟩
    simp only [List.mem_append, List.mem_cons, List.not_mem_nil, or_false] at hcall
    rcases hcall with hcall | rfl | rfl
    · exact iff_of_true (.inl (hkept hold (hcalls call hcall) reader handle hfiles hreader))
        (hcalls call hcall).1
    · refine iff_of_false ?_ (by simp)
      rw [hload hinv₃ reader handle hfiles hreader, loads, hgone]
      simp
    · exact iff_of_true (.inr (hnew reader handle hfiles hreader)) (by simp)

def freshProcess : Storage where
  pid := 1
  objects := (({ pid := 1, objects := { caps := .capabilitiesInit, surfaces := {} }, files := {} } :
    Storage).demonServiceOpen storageService).2.objects
  files := {}

def firstHandle : ℕ := makeHandle 1 0 1

def windowed : ButterscotchConfig where
  gameId := 661770190
  windowWidth := 640
  windowHeight := 480
  masterGainQ8 := 192
  fullscreen := false

def savedOnce : Storage :=
  (((save freshProcess firstHandle [0x61] [0x62] windowed).calls.getLast?.map Prod.snd).getD
    freshProcess)

def fullscreen : ButterscotchConfig := { windowed with fullscreen := true }

def secondSave : Saved := save savedOnce firstHandle [0x61] [0x62] fullscreen

theorem savedOnce_inv : savedOnce.files.Inv := by
  obtain ⟨bytes, hbytes, -⟩ := @decode_encode windowed (by decide)
  have hsaved : (save freshProcess firstHandle [0x61] [0x62] windowed).success = true := by
    decide +kernel
  obtain ⟨calls, hsave, -⟩ | ⟨calls, deleted, renamed, hsave, -, -, -, hinv, -⟩ :=
    @save_cases windowed freshProcess firstHandle [0x61] [0x62] Ramfs.inv_init _ hbytes (by decide) (by decide) (by decide)
  · rw [hsave] at hsaved
    cases hsaved
  · unfold savedOnce
    rw [hsave]
    simpa using hinv

theorem save_keeps_iff_second :
    (∃ t, secondSave.calls.getLast? = some (.rename, t) ∧ CanLoad t firstHandle
      ∧ ∀ reader handle, reader.files = t.files → CanLoad reader handle →
        (load reader handle [0x61]).1 = some fullscreen)
    ∧ ∀ call ∈ secondSave.calls, ∀ reader handle, reader.files = call.2.files →
      CanLoad reader handle →
        ((load reader handle [0x61]).1 = some windowed
          ∨ (load reader handle [0x61]).1 = some fullscreen ↔ call.1 ≠ .delete) := by
  have h := @save_keeps_iff fullscreen [0x61] [0x62] savedOnce firstHandle savedOnce_inv (by decide) (by decide) (by decide)
    (by decide)
  exact ⟨h.1 (by decide +kernel), (h.2 windowed (by decide +kernel)).2⟩

/-- A second save that is terminated after its delete leaves nothing to be loaded. -/
theorem second_save_terminated : (load savedOnce firstHandle [0x61]).1 = some windowed
    ∧ (secondSave.calls.map fun call => (call.1, (load call.2 firstHandle [0x61]).1))
      = [(.create, some windowed), (.write, some windowed), (.close, some windowed),
        (.delete, none), (.rename, some fullscreen)] := by
  decide +kernel

end DemonOS.Persistence
