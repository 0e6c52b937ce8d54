import DemonOS.Lib.Machine
import DemonOS.Ramfs

/-!
# The file table as a finite map

What the RAM file system is for: a finite map from names to byte strings (`FileMap`). The bytes of
a file lie in a range of the arena that belongs to it alone, or outside the arena (`Ramfs.Inv`), so
storing one file leaves the others alone, and along every run of calls the files read back as the
map says (`ramfs_refines_file_map`).
-/

namespace DemonOS

/-! ## The map -/

abbrev FileMap := List UInt8 → Option (List UInt8)

namespace FileMap

def put (m : FileMap) (name data : List UInt8) : FileMap := Function.update m name (some data)

def create (m : FileMap) (name : List UInt8) : FileMap := if m name = none then m.put name [] else m

def drop (m : FileMap) (name : List UInt8) : FileMap := Function.update m name none

def move (m : FileMap) (oldName newName : List UInt8) : FileMap :=
  Function.update (m.drop oldName) newName (m oldName)

theorem put_create (m : FileMap) (name data : List UInt8) :
    (m.create name).put name data = m.put name data := by
  unfold create put
  split_ifs
  · exact Function.update_idem _ _ _
  · rfl

end FileMap

inductive FileOp where
  | seed (name data : List UInt8)
  | seedReference (name data : List UInt8)
  | openName (name : List UInt8) (create : Bool)
  | write (id : ℕ) (data : List UInt8)
  | rename (oldName newName : List UInt8)
  | delete (name : List UInt8)

/-- How far a call came: whether it opened the file, and whether it succeeded. -/
structure Outcome where
  opened : Bool := false
  ok : Bool := false

/-- What a call with that outcome means for the map; a write goes to the file `target`. -/
def FileMap.apply (m : FileMap) (target : Option (List UInt8)) : FileOp → Outcome → FileMap
  | .seed name data, r => if r.ok then m.put name data else if r.opened then m.create name else m
  | .seedReference name data, r =>
    if r.ok then m.put name data else if r.opened then m.create name else m
  | .openName name _, r => if r.ok then m.create name else m
  | .write _ data, r => if r.ok then target.elim m (m.put · data) else m
  | .rename oldName newName, r => if r.ok then m.move oldName newName else m
  | .delete name, r => if r.ok then m.drop name else m

namespace Ramfs

variable {fs fs' : Ramfs} {i id : ℕ} {m : FileMap} {name : List UInt8}

def nameOf (fs : Ramfs) (id : ℕ) : Option (List UInt8) :=
  match fs.table.slot id with
  | none => none
  | some i => if (fs.table.slots i).used then some (fs.table.slots i).name else none

/-- A call that succeeds or leaves everything as it is. -/
def settle (fs : Ramfs) (r : Option Ramfs) : Outcome × Ramfs :=
  match r with
  | none => ({}, fs)
  | some fs' => ({ opened := true, ok := true }, fs')

def perform (fs : Ramfs) : FileOp → Outcome × Ramfs
  | .seed name data =>
    ({ opened := data.length ≤ ramfsDataMax && (fs.ramfsOpen name true).isSome
       ok := (fs.ramfsSeed name data).1 }, (fs.ramfsSeed name data).2)
  | .seedReference name data =>
    ({ opened := (fs.ramfsOpen name true).isSome, ok := (fs.ramfsSeedReference name data).1 },
      (fs.ramfsSeedReference name data).2)
  | .openName name create => fs.settle ((fs.ramfsOpen name create).map Prod.snd)
  | .write id data => fs.settle (fs.ramfsWrite id data)
  | .rename oldName newName => fs.settle (fs.ramfsRename oldName newName)
  | .delete name => fs.settle (fs.ramfsDelete name)

def target (fs : Ramfs) : FileOp → Option (List UInt8)
  | .write id _ => fs.nameOf id
  | _ => none

def performBoth (t : Ramfs × FileMap) (op : FileOp) : Ramfs × FileMap :=
  ((t.1.perform op).2, t.2.apply (t.1.target op) op (t.1.perform op).1)

/-! ## The files of a table -/

def contentAt (fs : Ramfs) (i : ℕ) : List UInt8 :=
  (List.range (fs.table.slots i).payload.length).map (fs.byteAt (fs.table.slots i).payload)

def Used (fs : Ramfs) (i : ℕ) : Prop := i < ramfsFiles ∧ (fs.table.slots i).used = true

structure Inv (fs : Ramfs) : Prop where
  named : ∀ i, fs.Used i →
    0 < (fs.table.slots i).name.length ∧ (fs.table.slots i).name.length ≤ nameMax
  unique : ∀ i j, fs.Used i → fs.Used j → (fs.table.slots i).name = (fs.table.slots j).name → i = j
  fits : ∀ i, fs.Used i → (fs.table.slots i).payload.externalData = none →
    (fs.table.slots i).payload.length ≤ (fs.table.slots i).payload.capacity
  refers : ∀ i data, fs.Used i → (fs.table.slots i).payload.externalData = some data →
    (fs.table.slots i).payload.length = data.length
  within : ∀ i, fs.Used i → (fs.table.slots i).payload.offset + (fs.table.slots i).payload.capacity
    ≤ fs.storageUsed
  apart : ∀ i j, fs.Used i → fs.Used j → i ≠ j →
    (fs.table.slots i).payload.offset + (fs.table.slots i).payload.capacity
        ≤ (fs.table.slots j).payload.offset
      ∨ (fs.table.slots j).payload.offset + (fs.table.slots j).payload.capacity
        ≤ (fs.table.slots i).payload.offset
  bound : fs.storageUsed ≤ ramfsStorageMax

def Represents (fs : Ramfs) (m : FileMap) : Prop :=
  ∀ name data, m name = some data
    ↔ ∃ i, fs.Used i ∧ (fs.table.slots i).name = name ∧ fs.contentAt i = data

theorem nameOf_eq_some :
    fs.nameOf id = some name ↔ ∃ i, fs.Used i ∧ id = i + 1 ∧ (fs.table.slots i).name = name := by
  unfold nameOf Used
  cases h : fs.table.slot id with
  | none =>
    simp only [reduceCtorEq, false_iff]
    rintro ⟨i, hi, rfl, -⟩
    rw [BoundedTable.slot_eq_some.2 ⟨hi.1, rfl⟩] at h
    cases h
  | some i =>
    obtain ⟨hi, rfl⟩ := BoundedTable.slot_eq_some.1 h
    simp only [Option.ite_none_right_eq_some, Option.some.injEq]
    constructor
    · rintro ⟨hu, hn⟩
      exact ⟨i, ⟨hi, hu⟩, rfl, hn⟩
    · rintro ⟨j, hj, he, hn⟩
      obtain rfl : i = j := by omega
      exact ⟨hj.2, hn⟩

theorem payloadFor_used (h : fs.Used i) :
    fs.table.payloadFor (i + 1) = some (fs.table.slots i).payload :=
  BoundedTable.payloadFor_eq_some.2 ⟨i, h.1, rfl, h.2, rfl⟩

theorem ramfsView_used (h : fs.Used i) :
    fs.ramfsView (i + 1) = some (fs.contentAt i) := by
  unfold ramfsView
  rw [payloadFor_used h]
  rfl

theorem length_contentAt (fs : Ramfs) (i : ℕ) :
    (fs.contentAt i).length = (fs.table.slots i).payload.length := by
  simp [contentAt]

theorem ramfsReadRange_used (h : fs.Used i) (offset capacity : ℕ) :
    fs.ramfsReadRange (i + 1) offset capacity
      = if (fs.contentAt i).length < offset then none
        else some (((fs.contentAt i).drop offset).take capacity) := by
  unfold ramfsReadRange
  rw [payloadFor_used h, length_contentAt]
  simp only
  split_ifs with hlen
  · rfl
  · congr 1
    apply List.ext_getElem
    · simp [contentAt, min_comm]
    · intro n _ _
      simp [contentAt]

theorem contentAt_congr
    (hp : (fs'.table.slots i).payload = (fs.table.slots i).payload)
    (hs : (fs.table.slots i).payload.externalData = none →
      ∀ n < (fs.table.slots i).payload.length,
        fs'.storage ((fs.table.slots i).payload.offset + n)
          = fs.storage ((fs.table.slots i).payload.offset + n)) :
    fs'.contentAt i = fs.contentAt i := by
  unfold contentAt
  rw [hp]
  refine List.map_congr_left fun n hn => ?_
  unfold byteAt
  split
  · rfl
  · rename_i hext
    exact hs hext n (List.mem_range.1 hn)

/-! ## One slot changes -/

/-- A file that slot `i` may hold beside the other files, in an arena used up to `top`. -/
structure Admits (fs : Ramfs) (i top : ℕ) (e : TableEntry RamfsPayload) : Prop where
  named : 0 < e.name.length ∧ e.name.length ≤ nameMax
  unique : ∀ j, fs.Used j → j ≠ i → (fs.table.slots j).name ≠ e.name
  fits : e.payload.externalData = none → e.payload.length ≤ e.payload.capacity
  refers : ∀ data, e.payload.externalData = some data → e.payload.length = data.length
  within : e.payload.offset + e.payload.capacity ≤ top
  apart : ∀ j, fs.Used j → j ≠ i →
    e.payload.offset + e.payload.capacity ≤ (fs.table.slots j).payload.offset
      ∨ (fs.table.slots j).payload.offset + (fs.table.slots j).payload.capacity ≤ e.payload.offset

section Update

variable {fs fs' : Ramfs} {i : ℕ} {e : TableEntry RamfsPayload}

theorem Used.of_update (hs : fs'.table.slots = Function.update fs.table.slots i e) {j : ℕ}
    (hj : j ≠ i) : fs'.Used j ↔ fs.Used j := by
  unfold Used
  rw [hs, Function.update_of_ne hj]

theorem Inv.update (h : fs.Inv) (hs : fs'.table.slots = Function.update fs.table.slots i e)
    (hle : fs.storageUsed ≤ fs'.storageUsed) (hmax : fs'.storageUsed ≤ ramfsStorageMax)
    (he : e.used = true → fs.Admits i fs'.storageUsed e) : fs'.Inv := by
  have hself : fs'.table.slots i = e := by rw [hs, Function.update_self]
  have hother : ∀ j, j ≠ i → fs'.table.slots j = fs.table.slots j :=
    fun j hj => by rw [hs, Function.update_of_ne hj]
  have hadm : fs'.Used i → fs.Admits i fs'.storageUsed e := fun hu => he (hself ▸ hu.2)
  refine ⟨fun j hj => ?_, fun j l hj hl => ?_, fun j hj => ?_, fun j data hj => ?_, fun j hj => ?_,
    fun j l hj hl hne => ?_, hmax⟩
  · rcases eq_or_ne j i with rfl | hji
    · rw [hself]
      exact (hadm hj).named
    · rw [hother j hji]
      exact h.named j ((Used.of_update hs hji).1 hj)
  · rcases eq_or_ne j i with rfl | hji
    · rcases eq_or_ne l j with rfl | hlj
      · exact fun _ => rfl
      · rw [hself, hother l hlj]
        exact fun hn => absurd hn.symm ((hadm hj).unique l ((Used.of_update hs hlj).1 hl) hlj)
    · rcases eq_or_ne l i with rfl | hli
      · rw [hself, hother j hji]
        exact fun hn => absurd hn ((hadm hl).unique j ((Used.of_update hs hji).1 hj) hji)
      · rw [hother j hji, hother l hli]
        exact h.unique j l ((Used.of_update hs hji).1 hj) ((Used.of_update hs hli).1 hl)
  · rcases eq_or_ne j i with rfl | hji
    · rw [hself]
      exact (hadm hj).fits
    · rw [hother j hji]
      exact h.fits j ((Used.of_update hs hji).1 hj)
  · rcases eq_or_ne j i with rfl | hji
    · rw [hself]
      exact (hadm hj).refers data
    · rw [hother j hji]
      exact h.refers j data ((Used.of_update hs hji).1 hj)
  · rcases eq_or_ne j i with rfl | hji
    · rw [hself]
      exact (hadm hj).within
    · rw [hother j hji]
      exact (h.within j ((Used.of_update hs hji).1 hj)).trans hle
  · rcases eq_or_ne j i with rfl | hji
    · rw [hself, hother l hne.symm]
      exact (hadm hj).apart l ((Used.of_update hs hne.symm).1 hl) hne.symm
    · rcases eq_or_ne l i with rfl | hli
      · rw [hself, hother j hji]
        exact ((hadm hl).apart j ((Used.of_update hs hji).1 hj) hji).symm
      · rw [hother j hji, hother l hli]
        exact h.apart j l ((Used.of_update hs hji).1 hj) ((Used.of_update hs hli).1 hl) hne

theorem Represents.update {f : Ramfs} (hs : fs'.table.slots = Function.update f.table.slots i e)
    (hc : ∀ j, f.Used j → j ≠ i → fs'.contentAt j = f.contentAt j) {m' : FileMap}
    (hm : ∀ name data, m' name = some data ↔
      (fs'.Used i ∧ e.name = name ∧ fs'.contentAt i = data)
        ∨ ∃ j, j ≠ i ∧ f.Used j ∧ (f.table.slots j).name = name ∧ f.contentAt j = data) :
    fs'.Represents m' := by
  intro name data
  rw [hm]
  constructor
  · rintro (⟨hu, hn, hd⟩ | ⟨j, hji, hu, hn, hd⟩)
    · exact ⟨i, hu, by rw [hs, Function.update_self, hn], hd⟩
    · refine ⟨j, (Used.of_update hs hji).2 hu, ?_, (hc j hu hji).trans hd⟩
      rw [hs, Function.update_of_ne hji, hn]
  · rintro ⟨j, hu, hn, hd⟩
    rcases eq_or_ne j i with rfl | hji
    · rw [hs, Function.update_self] at hn
      exact .inl ⟨hu, hn, hd⟩
    · have hu' := (Used.of_update hs hji).1 hu
      rw [hs, Function.update_of_ne hji] at hn
      exact .inr ⟨j, hji, hu', hn, (hc j hu' hji).symm.trans hd⟩

end Update

/-! ## The calls -/

theorem Represents.eq_none (h : fs.Represents m)
    (hn : ∀ i, fs.Used i → (fs.table.slots i).name ≠ name) : m name = none := by
  cases hm : m name with
  | none => rfl
  | some data =>
    obtain ⟨i, hu, hname, -⟩ := (h name data).1 hm
    exact absurd hname (hn i hu)

theorem Represents.of_used (h : fs.Represents m)
    (hu : fs.Used i) : m (fs.table.slots i).name = some (fs.contentAt i) :=
  (h _ _).2 ⟨i, hu, rfl, rfl⟩

theorem Represents.others (h : fs.Represents m) (hne : name ≠ (fs.table.slots i).name)
    (data : List UInt8) :
    m name = some data
      ↔ ∃ j, j ≠ i ∧ fs.Used j ∧ (fs.table.slots j).name = name ∧ fs.contentAt j = data := by
  rw [h]
  constructor
  · rintro ⟨j, huj, hn, hd⟩
    refine ⟨j, ?_, huj, hn, hd⟩
    rintro rfl
    exact hne hn.symm
  · rintro ⟨j, -, huj, hn, hd⟩
    exact ⟨j, huj, hn, hd⟩

theorem Inv.no_other (hinv : fs.Inv) (hu : fs.Used i) (data : List UInt8) :
    ¬∃ j, j ≠ i ∧ fs.Used j ∧ (fs.table.slots j).name = (fs.table.slots i).name
      ∧ fs.contentAt j = data := by
  rintro ⟨j, hji, huj, hn, -⟩
  exact hji (hinv.unique j i huj hu hn)

theorem ramfsOpen_eq_some {create : Bool}
    (h : fs.ramfsOpen name create = some (id, fs')) :
    (fs' = fs ∧ ∃ i, fs.Used i ∧ id = i + 1 ∧ (fs.table.slots i).name = name)
      ∨ (0 < name.length ∧ name.length ≤ nameMax ∧ (∀ i, fs.Used i → (fs.table.slots i).name ≠ name)
        ∧ ∃ i, i < ramfsFiles ∧ (fs.table.slots i).used = false ∧ id = i + 1
          ∧ fs' = { fs with table :=
              ⟨Function.update fs.table.slots i { used := true, name := name, payload := {} }⟩ }) := by
  unfold ramfsOpen at h
  split_ifs at h
  split at h
  · cases h
  · rename_i id' t ht
    obtain ⟨rfl, rfl⟩ := h
    rcases BoundedTable.openName_eq_some ht with ⟨hfind, rfl⟩ | ⟨hnone, -, hpos, hmax, i, hi, rfl, rfl⟩
    · obtain ⟨i, hi, rfl, hu, hn⟩ := BoundedTable.find_eq_some hfind
      exact .inl ⟨rfl, i, ⟨hi, hu⟩, rfl, hn⟩
    · obtain ⟨hlt, hfree⟩ := BoundedTable.firstFree_eq_some hi
      refine .inr ⟨hpos, hmax, fun j hj => ?_, i, hlt, hfree, rfl, rfl⟩
      exact (BoundedTable.find_eq_none hpos hmax).1 hnone j hj.1 hj.2

theorem ramfsOpen_spec {create : Bool}
    (hinv : fs.Inv) (hm : fs.Represents m) (h : fs.ramfsOpen name create = some (id, fs')) :
    fs'.Inv ∧ fs'.Represents (m.create name)
      ∧ ∃ i, fs'.Used i ∧ id = i + 1 ∧ (fs'.table.slots i).name = name := by
  rcases ramfsOpen_eq_some h with ⟨rfl, i, hu, rfl, hn⟩ | ⟨hpos, hmax, hfresh, i, hi, hfree, rfl, hfs⟩
  · refine ⟨hinv, ?_, i, hu, rfl, hn⟩
    have hsome := hm.of_used hu
    rw [hn] at hsome
    unfold FileMap.create
    rw [if_neg (by simp [hsome])]
    exact hm
  · have hnot : ∀ j, fs.Used j → j ≠ i := by
      rintro j hj rfl
      exact absurd (hfree.symm.trans hj.2) (by simp)
    have hs : fs'.table.slots = Function.update fs.table.slots i
        { used := true, name := name, payload := {} } := by rw [hfs]
    have hself : fs'.table.slots i = { used := true, name := name, payload := {} } := by
      rw [hs, Function.update_self]
    have hu : fs'.Used i := ⟨hi, by rw [hself]⟩
    have hempty : fs'.contentAt i = [] := by simp [contentAt, hself]
    have hused : fs'.storageUsed = fs.storageUsed := by rw [hfs]
    refine ⟨hinv.update hs hused.ge (hused ▸ hinv.bound) fun _ => ?_, ?_, i, hu, rfl, by rw [hself]⟩
    · refine ⟨⟨hpos, hmax⟩, fun j hj _ => hfresh j hj, fun _ => le_rfl, fun data hd => ?_,
        Nat.zero_le _, fun j _ _ => .inl (Nat.zero_le _)⟩
      cases hd
    · have hkeep : ∀ j, fs.Used j → j ≠ i → fs'.contentAt j = fs.contentAt j := by
        intro j _ hji
        refine contentAt_congr (by rw [hs, Function.update_of_ne hji]) fun _ _ _ => ?_
        rw [hfs]
      refine Represents.update hs hkeep fun name' data => ?_
      unfold FileMap.create FileMap.put
      rw [if_pos (hm.eq_none hfresh), hempty]
      rcases eq_or_ne name' name with rfl | hne
      · rw [Function.update_self, Option.some.injEq]
        constructor
        · exact fun hd => .inl ⟨hu, rfl, hd⟩
        · rintro (⟨-, -, hd⟩ | ⟨j, -, hj, hn, -⟩)
          · exact hd
          · exact absurd hn (hfresh j hj)
      · rw [Function.update_of_ne hne, hm]
        simp only [hne.symm, false_and, and_false, false_or]
        exact ⟨fun ⟨j, hj, hr⟩ => ⟨j, hnot j hj, hj, hr⟩, fun ⟨j, _, hj, hr⟩ => ⟨j, hj, hr⟩⟩

theorem store_eq_some {data : List UInt8}
    (h : fs.store id data = some fs') :
    ∃ i, fs.Used i ∧ id = i + 1 ∧ (fs.table.slots i).payload.externalData = none
      ∧ ∃ file : RamfsPayload,
        fs'.table.slots = Function.update fs.table.slots i
          { fs.table.slots i with payload := { file with length := data.length } }
        ∧ (∀ a, fs'.storage a = if file.offset ≤ a ∧ a < file.offset + data.length
            then data.getD (a - file.offset) 0 else fs.storage a)
        ∧ file.externalData = none ∧ data.length ≤ file.capacity
        ∧ ((file = (fs.table.slots i).payload ∧ fs'.storageUsed = fs.storageUsed)
          ∨ (file.offset = fs.storageUsed ∧ file.capacity = data.length
            ∧ fs'.storageUsed = fs.storageUsed + data.length
            ∧ data.length ≤ ramfsStorageMax - fs.storageUsed)) := by
  unfold store at h
  split at h
  · cases h
  · rename_i file hfile
    obtain ⟨i, hi, rfl, hu, rfl⟩ := BoundedTable.payloadFor_eq_some.1 hfile
    split_ifs at h with hext hcap hroom
    all_goals
      rw [not_or, Bool.not_eq_true, Option.isSome_eq_false_iff, Option.isNone_iff_eq_none,
        not_lt] at hext
      refine ⟨i, ⟨hi, hu⟩, rfl, hext.1, ?_⟩
    · rw [Option.some.injEq] at h
      subst h
      exact ⟨_, rfl, fun _ => rfl, hext.1, le_rfl, .inr ⟨rfl, rfl, rfl, not_lt.1 hroom⟩⟩
    · rw [Option.some.injEq] at h
      subst h
      exact ⟨_, rfl, fun _ => rfl, hext.1, not_lt.1 hcap, .inl ⟨rfl, rfl⟩⟩

theorem store_spec {data : List UInt8}
    (hinv : fs.Inv) (hm : fs.Represents m) (h : fs.store id data = some fs') :
    fs'.Inv ∧ ∃ i, fs.Used i ∧ id = i + 1 ∧ fs'.Represents (m.put (fs.table.slots i).name data)
      ∧ ∀ j, fs.Used j → j ≠ i → fs'.Used j ∧ fs'.contentAt j = fs.contentAt j := by
  obtain ⟨i, hu, rfl, -, file, hs, hstore, hext, hcap, hplace⟩ := store_eq_some h
  -- the range written to belongs to no other file
  have haway : ∀ j, fs.Used j → j ≠ i → file.offset + file.capacity ≤ (fs.table.slots j).payload.offset
      ∨ (fs.table.slots j).payload.offset + (fs.table.slots j).payload.capacity ≤ file.offset := by
    intro j hj hji
    rcases hplace with ⟨rfl, -⟩ | ⟨hoff, -⟩
    · exact hinv.apart i j hu hj hji.symm
    · exact .inr (hoff ▸ hinv.within j hj)
  have hself : fs'.table.slots i
      = { fs.table.slots i with payload := { file with length := data.length } } := by
    rw [hs, Function.update_self]
  have hdata : fs'.contentAt i = data := by
    unfold contentAt byteAt
    rw [hself]
    simp only [hext]
    apply List.ext_getElem
    · simp
    · intro n h1 h2
      simp [hstore, h2]
  have hkeep : ∀ j, fs.Used j → j ≠ i → fs'.contentAt j = fs.contentAt j := by
    intro j hj hji
    refine contentAt_congr (by rw [hs, Function.update_of_ne hji]) fun hnone n hn => ?_
    have hfits := hinv.fits j hj hnone
    rw [hstore, if_neg]
    rcases haway j hj hji with h | h <;> omega
  have hu' : fs'.Used i := ⟨hu.1, by rw [hself]; exact hu.2⟩
  refine ⟨hinv.update hs ?_ ?_ fun _ => ?_, i, hu, rfl, ?_, fun j hj hji =>
    ⟨(Used.of_update hs hji).2 hj, hkeep j hj hji⟩⟩
  · rcases hplace with ⟨-, hused⟩ | ⟨-, -, hused, -⟩ <;> omega
  · have := hinv.bound
    rcases hplace with ⟨-, hused⟩ | ⟨-, -, hused, hroom⟩ <;> omega
  · refine ⟨hinv.named i hu, fun j hj hji hn => hji (hinv.unique j i hj hu hn), fun _ => hcap,
      fun d hd => ?_, ?_, haway⟩
    · exact absurd (hext.symm.trans hd) (by simp)
    · have := hinv.within i hu
      rcases hplace with ⟨rfl, hused⟩ | ⟨hoff, hcap', hused, -⟩
      · simpa [hused] using this
      · simp only [hused, hoff, hcap', le_refl]
  · refine Represents.update hs hkeep fun name d => ?_
    unfold FileMap.put
    rw [hdata]
    rcases eq_or_ne name (fs.table.slots i).name with rfl | hne
    · rw [Function.update_self, Option.some.injEq]
      exact ⟨fun hd => .inl ⟨hu', rfl, hd⟩, fun hd => hd.elim (·.2.2) fun ho =>
        absurd ho (hinv.no_other hu d)⟩
    · rw [Function.update_of_ne hne, hm.others hne]
      simp [hne.symm]

theorem ramfsRename_eq_some {oldName newName : List UInt8}
    (h : fs.ramfsRename oldName newName = some fs') :
    0 < newName.length ∧ newName.length ≤ nameMax
      ∧ (∀ i, fs.Used i → (fs.table.slots i).name ≠ newName)
      ∧ ∃ i, fs.Used i ∧ (fs.table.slots i).name = oldName
        ∧ fs' = { fs with table :=
            ⟨Function.update fs.table.slots i { fs.table.slots i with name := newName }⟩ } := by
  unfold ramfsRename at h
  split_ifs at h
  split at h
  · cases h
  · rename_i hnew
    split at h
    · cases h
    · rename_i id hold
      obtain ⟨i, hi, rfl, hu, hn⟩ := BoundedTable.find_eq_some hold
      rw [Option.map_eq_some_iff] at h
      obtain ⟨t, ht, rfl⟩ := h
      unfold BoundedTable.rename at ht
      rw [BoundedTable.slot_eq_some.2 ⟨hi, rfl⟩] at ht
      simp only [Bool.or_eq_true, Bool.not_eq_eq_eq_not, Bool.not_true, decide_eq_true_eq] at ht
      split_ifs at ht with hc
      simp only [not_or, not_lt] at hc
      rw [Option.some.injEq] at ht
      subst ht
      have hpos : 0 < newName.length := by omega
      refine ⟨hpos, hc.2, fun j hj => ?_, i, ⟨hi, hu⟩, hn, rfl⟩
      exact (BoundedTable.find_eq_none hpos hc.2).1 hnew j hj.1 hj.2

theorem ramfsDelete_eq_some
    (h : fs.ramfsDelete name = some fs') :
    ∃ i, fs.Used i ∧ (fs.table.slots i).name = name
      ∧ fs' = { fs with table := ⟨Function.update fs.table.slots i
          { used := false, name := [], payload := default }⟩ } := by
  unfold ramfsDelete at h
  split_ifs at h
  split at h
  · cases h
  · rename_i id hfind
    obtain ⟨i, hi, rfl, hu, hn⟩ := BoundedTable.find_eq_some hfind
    rw [Option.map_eq_some_iff] at h
    obtain ⟨t, ht, rfl⟩ := h
    unfold BoundedTable.release at ht
    rw [payloadFor_used ⟨hi, hu⟩] at ht
    simp only [Option.some.injEq] at ht
    subst ht
    exact ⟨i, ⟨hi, hu⟩, hn, rfl⟩

theorem contentAt_of_table {t : BoundedTable RamfsPayload ramfsFiles} {i j : ℕ}
    {e : TableEntry RamfsPayload} (ht : t.slots = Function.update fs.table.slots i e) (hji : j ≠ i) :
    contentAt { fs with table := t } j = fs.contentAt j := by
  refine contentAt_congr ?_ fun _ _ _ => rfl
  simp only [ht, Function.update_of_ne hji]

theorem ramfsRename_spec {oldName newName : List UInt8}
    (hinv : fs.Inv) (hm : fs.Represents m) (h : fs.ramfsRename oldName newName = some fs') :
    fs'.Inv ∧ fs'.Represents (m.move oldName newName) := by
  obtain ⟨hpos, hmax, hfresh, i, hu, rfl, rfl⟩ := ramfsRename_eq_some h
  refine ⟨hinv.update rfl le_rfl hinv.bound fun _ => ?_, ?_⟩
  · exact ⟨⟨hpos, hmax⟩, fun j hj _ => hfresh j hj, hinv.fits i hu, fun d => hinv.refers i d hu,
      hinv.within i hu, fun j hj hji => hinv.apart i j hu hj hji.symm⟩
  · have hself : contentAt { fs with table :=
        ⟨Function.update fs.table.slots i { fs.table.slots i with name := newName }⟩ } i
        = fs.contentAt i := contentAt_congr (by simp) fun _ _ _ => rfl
    have hs : (⟨Function.update fs.table.slots i { fs.table.slots i with name := newName }⟩ :
        BoundedTable RamfsPayload ramfsFiles).slots = Function.update fs.table.slots i
          { fs.table.slots i with name := newName } := rfl
    generalize (⟨Function.update fs.table.slots i { fs.table.slots i with name := newName }⟩ :
      BoundedTable RamfsPayload ramfsFiles) = t at hs hself ⊢
    have hu' : Used { fs with table := t } i := ⟨hu.1, by simp [hs, hu.2]⟩
    refine Represents.update (f := fs) hs (fun j _ hji => contentAt_of_table hs hji) fun name d => ?_
    unfold FileMap.move FileMap.drop
    rw [hself]
    rcases eq_or_ne name newName with rfl | hnew
    · rw [Function.update_self, hm.of_used hu, Option.some.injEq]
      refine ⟨fun hd => .inl ⟨hu', rfl, hd⟩, ?_⟩
      rintro (⟨-, -, hd⟩ | ⟨j, -, hj, hn, -⟩)
      · exact hd
      · exact absurd hn (hfresh j hj)
    · rw [Function.update_of_ne hnew]
      rcases eq_or_ne name (fs.table.slots i).name with rfl | hold
      · rw [Function.update_self]
        simp only [reduceCtorEq, hnew.symm, false_and, and_false, false_or, false_iff]
        exact hinv.no_other hu d
      · rw [Function.update_of_ne hold, hm.others hold]
        simp [hnew.symm]

theorem ramfsDelete_spec
    (hinv : fs.Inv) (hm : fs.Represents m) (h : fs.ramfsDelete name = some fs') :
    fs'.Inv ∧ fs'.Represents (m.drop name) := by
  obtain ⟨i, hu, rfl, rfl⟩ := ramfsDelete_eq_some h
  refine ⟨hinv.update rfl le_rfl hinv.bound fun he => absurd he (by simp), ?_⟩
  refine Represents.update (f := fs) rfl (fun j _ hji => contentAt_of_table rfl hji) fun name d => ?_
  unfold FileMap.drop
  have hgone : ¬Used { fs with table := ⟨Function.update fs.table.slots i
      { used := false, name := [], payload := default }⟩ } i := by simp [Used]
  rcases eq_or_ne name (fs.table.slots i).name with rfl | hne
  · rw [Function.update_self]
    simp only [reduceCtorEq, hgone, false_and, false_or, false_iff]
    exact hinv.no_other hu d
  · rw [Function.update_of_ne hne, hm.others hne]
    simp [hgone]

theorem ramfsSeed_spec (hinv : fs.Inv) (hm : fs.Represents m)
    (name data : List UInt8) :
    (fs.perform (.seed name data)).2.Inv ∧ (fs.perform (.seed name data)).2.Represents
      (m.apply none (.seed name data) (fs.perform (.seed name data)).1) := by
  simp only [perform, FileMap.apply, ramfsSeed]
  by_cases hlen : ramfsDataMax < data.length
  · simp only [hlen, if_true, Bool.false_eq_true, if_false, not_le.2 hlen, decide_false,
      Bool.false_and]
    exact ⟨hinv, hm⟩
  · simp only [hlen, if_false, not_lt.1 hlen, decide_true, Bool.true_and]
    cases hopen : fs.ramfsOpen name true with
    | none =>
      exact ⟨hinv, hm⟩
    | some r =>
      obtain ⟨id, fs'⟩ := r
      obtain ⟨hinv', hm', i, hu, rfl, hn⟩ := ramfsOpen_spec hinv hm hopen
      simp only [Option.isSome_some, if_true]
      cases hstore : fs'.store (i + 1) data with
      | none =>
        exact ⟨hinv', hm'⟩
      | some fs'' =>
        obtain ⟨hinv'', j, -, hij, hm'', -⟩ := store_spec hinv' hm' hstore
        obtain rfl : i = j := by omega
        rw [hn, FileMap.put_create] at hm''
        exact ⟨hinv'', hm''⟩

theorem refer_spec (hinv : fs.Inv) (hm : fs.Represents m)
    (hu : fs.Used i) (data : List UInt8) :
    let file := { (fs.table.slots i).payload with externalData := some data, length := data.length }
    let fs' : Ramfs := { fs with table := fs.table.setPayload (i + 1) file }
    fs'.Inv ∧ fs'.Represents (m.put (fs.table.slots i).name data) := by
  intro file fs'
  have hs : fs'.table.slots
      = Function.update fs.table.slots i { fs.table.slots i with payload := file } := rfl
  have hdata : fs'.contentAt i = data := by
    unfold contentAt byteAt
    rw [hs, Function.update_self]
    apply List.ext_getElem <;> simp +contextual [file]
  have hu' : fs'.Used i := ⟨hu.1, by rw [hs, Function.update_self]; exact hu.2⟩
  refine ⟨hinv.update hs le_rfl hinv.bound fun _ => ?_, ?_⟩
  · refine ⟨hinv.named i hu, fun j hj hji hn => hji (hinv.unique j i hj hu hn), fun hd => ?_,
      fun d hd => ?_, hinv.within i hu, fun j hj hji => hinv.apart i j hu hj hji.symm⟩
    · cases hd
    · rw [← Option.some.inj hd]
  · refine Represents.update hs (fun j _ hji => contentAt_of_table hs hji) fun name d => ?_
    unfold FileMap.put
    rw [hdata]
    rcases eq_or_ne name (fs.table.slots i).name with rfl | hne
    · rw [Function.update_self, Option.some.injEq]
      exact ⟨fun hd => .inl ⟨hu', rfl, hd⟩, fun hd => hd.elim (·.2.2) fun ho =>
        absurd ho (hinv.no_other hu d)⟩
    · rw [Function.update_of_ne hne, hm.others hne]
      simp [hne.symm]

theorem ramfsSeedReference_spec (hinv : fs.Inv) (hm : fs.Represents m)
    (name data : List UInt8) :
    (fs.perform (.seedReference name data)).2.Inv
      ∧ (fs.perform (.seedReference name data)).2.Represents
        (m.apply none (.seedReference name data) (fs.perform (.seedReference name data)).1) := by
  simp only [perform, FileMap.apply, ramfsSeedReference]
  cases hopen : fs.ramfsOpen name true with
  | none =>
    exact ⟨hinv, hm⟩
  | some r =>
    obtain ⟨id, fs'⟩ := r
    obtain ⟨hinv', hm', i, hu, rfl, hn⟩ := ramfsOpen_spec hinv hm hopen
    simp only [Option.isSome_some, if_true, payloadFor_used hu]
    split
    · simp only [Bool.false_eq_true, if_false]
      exact ⟨hinv', hm'⟩
    · simp only [if_true]
      have h := refer_spec hinv' hm' hu data
      rw [hn, FileMap.put_create] at h
      exact h

theorem perform_spec (hinv : fs.Inv) (hm : fs.Represents m)
    (op : FileOp) :
    (fs.perform op).2.Inv
      ∧ (fs.perform op).2.Represents (m.apply (fs.target op) op (fs.perform op).1) := by
  cases op with
  | seed name data => exact ramfsSeed_spec hinv hm name data
  | seedReference name data => exact ramfsSeedReference_spec hinv hm name data
  | openName name create =>
    simp only [perform]
    cases h : fs.ramfsOpen name create with
    | none => exact ⟨hinv, hm⟩
    | some r =>
      obtain ⟨hinv', hm', -⟩ := ramfsOpen_spec hinv hm h
      exact ⟨hinv', hm'⟩
  | write id data =>
    simp only [perform, ramfsWrite]
    cases h : fs.store id data with
    | none => exact ⟨hinv, hm⟩
    | some fs' =>
      obtain ⟨hinv', i, hu, rfl, hm', -⟩ := store_spec hinv hm h
      refine ⟨hinv', ?_⟩
      simp only [settle, FileMap.apply, target, if_true,
        nameOf_eq_some.2 ⟨i, hu, rfl, rfl⟩, Option.elim_some]
      exact hm'
  | rename oldName newName =>
    simp only [perform]
    cases h : fs.ramfsRename oldName newName with
    | none => exact ⟨hinv, hm⟩
    | some fs' => exact ramfsRename_spec hinv hm h
  | delete name =>
    simp only [perform]
    cases h : fs.ramfsDelete name with
    | none => exact ⟨hinv, hm⟩
    | some fs' => exact ramfsDelete_spec hinv hm h

theorem inv_init : ({} : Ramfs).Inv where
  named := fun i hi => absurd hi.2 (by simp [BoundedTable.empty])
  unique := fun i _ hi => absurd hi.2 (by simp [BoundedTable.empty])
  fits := fun i hi => absurd hi.2 (by simp [BoundedTable.empty])
  refers := fun i _ hi => absurd hi.2 (by simp [BoundedTable.empty])
  within := fun i hi => absurd hi.2 (by simp [BoundedTable.empty])
  apart := fun i _ hi => absurd hi.2 (by simp [BoundedTable.empty])
  bound := Nat.zero_le _

theorem represents_init : ({} : Ramfs).Represents fun _ => none := by
  intro name data
  simp only [reduceCtorEq, false_iff]
  rintro ⟨i, hi, -⟩
  exact absurd hi.2 (by simp [BoundedTable.empty])

/-! ## Runs -/

/-- The files of `fs` are the map `m`: names are unique, every file reads back as the map says, the
ranges the files own are disjoint and lie in the used part of the arena, and a call on one file
leaves the others as they are. -/
structure Mirrors (fs : Ramfs) (m : FileMap) : Prop where
  unique : ∀ id id' name, fs.nameOf id = some name → fs.nameOf id' = some name → id = id'
  named : ∀ name, m name ≠ none ↔ ∃ id, fs.nameOf id = some name
  reads : ∀ id name, fs.nameOf id = some name → ∃ data, m name = some data
    ∧ fs.ramfsView id = some data
    ∧ ∀ offset capacity, fs.ramfsReadRange id offset capacity
      = if data.length < offset then none else some ((data.drop offset).take capacity)
  apart : ∀ id id' file file', id ≠ id' → fs.table.payloadFor id = some file →
    fs.table.payloadFor id' = some file' →
    file.offset + file.capacity ≤ file'.offset ∨ file'.offset + file'.capacity ≤ file.offset
  within : ∀ id file, fs.table.payloadFor id = some file →
    file.offset + file.capacity ≤ fs.storageUsed
  bound : fs.storageUsed ≤ ramfsStorageMax
  write_others : ∀ id data id', id' ≠ id →
    (fs.perform (.write id data)).2.ramfsView id' = fs.ramfsView id'
  write_failed : ∀ id data, (fs.perform (.write id data)).1.ok = false →
    (fs.perform (.write id data)).2 = fs
  rename_others : ∀ oldName newName id',
    (fs.perform (.rename oldName newName)).2.ramfsView id' = fs.ramfsView id'
  delete_others : ∀ name id', fs.nameOf id' ≠ some name →
    (fs.perform (.delete name)).2.ramfsView id' = fs.ramfsView id'

theorem ramfsView_congr
    (h : ∀ i, id = i + 1 → (fs'.Used i ↔ fs.Used i) ∧ (fs.Used i → fs'.contentAt i = fs.contentAt i)) :
    fs'.ramfsView id = fs.ramfsView id := by
  have hnone : ∀ f : Ramfs, (∀ i, id = i + 1 → ¬f.Used i) → f.ramfsView id = none := by
    intro f hf
    unfold ramfsView
    rw [Option.map_eq_none_iff, Option.eq_none_iff_forall_ne_some]
    intro v hv
    obtain ⟨i, hi, rfl, hu, -⟩ := BoundedTable.payloadFor_eq_some.1 hv
    exact hf i rfl ⟨hi, hu⟩
  by_cases hu : ∃ i, id = i + 1 ∧ fs.Used i
  · obtain ⟨i, rfl, hu⟩ := hu
    rw [ramfsView_used hu, ramfsView_used ((h i rfl).1.2 hu), (h i rfl).2 hu]
  · have hu' : ∀ i, id = i + 1 → ¬fs.Used i := fun i hi hf => hu ⟨i, hi, hf⟩
    rw [hnone fs hu', hnone fs' fun i hi hf => hu' i hi ((h i hi).1.1 hf)]

theorem Inv.mirrors (hinv : fs.Inv) (hm : fs.Represents m) :
    fs.Mirrors m where
  unique := by
    intro id id' name h h'
    obtain ⟨i, hi, rfl, hn⟩ := nameOf_eq_some.1 h
    obtain ⟨j, hj, rfl, hn'⟩ := nameOf_eq_some.1 h'
    rw [hinv.unique i j hi hj (hn.trans hn'.symm)]
  named := by
    intro name
    rw [Option.ne_none_iff_exists']
    constructor
    · rintro ⟨data, hd⟩
      obtain ⟨i, hi, hn, -⟩ := (hm name data).1 hd
      exact ⟨i + 1, nameOf_eq_some.2 ⟨i, hi, rfl, hn⟩⟩
    · rintro ⟨id, hid⟩
      obtain ⟨i, hi, -, rfl⟩ := nameOf_eq_some.1 hid
      exact ⟨_, hm.of_used hi⟩
  reads := by
    intro id name h
    obtain ⟨i, hi, rfl, rfl⟩ := nameOf_eq_some.1 h
    exact ⟨_, hm.of_used hi, ramfsView_used hi, ramfsReadRange_used hi⟩
  apart := by
    intro id id' file file' hne h h'
    obtain ⟨i, hi, rfl, hu, rfl⟩ := BoundedTable.payloadFor_eq_some.1 h
    obtain ⟨j, hj, rfl, hu', rfl⟩ := BoundedTable.payloadFor_eq_some.1 h'
    exact hinv.apart i j ⟨hi, hu⟩ ⟨hj, hu'⟩ (by omega)
  within := by
    intro id file h
    obtain ⟨i, hi, rfl, hu, rfl⟩ := BoundedTable.payloadFor_eq_some.1 h
    exact hinv.within i ⟨hi, hu⟩
  bound := hinv.bound
  write_others := by
    intro id data id' hne
    simp only [perform, ramfsWrite]
    cases h : fs.store id data with
    | none => rfl
    | some fs' =>
      obtain ⟨-, i, -, rfl, -, hkeep⟩ := store_spec hinv hm h
      obtain ⟨l, -, hl, -, file, hs, -⟩ := store_eq_some h
      refine ramfsView_congr fun j hj => ?_
      have hji : j ≠ i := by omega
      exact ⟨Used.of_update hs (by omega), fun hu => (hkeep j hu hji).2⟩
  write_failed := by
    intro id data hfail
    simp only [perform, ramfsWrite] at hfail ⊢
    cases h : fs.store id data with
    | none => rfl
    | some fs' =>
      rw [h] at hfail
      cases hfail
  rename_others := by
    intro oldName newName id'
    simp only [perform]
    cases h : fs.ramfsRename oldName newName with
    | none => rfl
    | some fs' =>
      obtain ⟨-, -, -, i, hu, -, rfl⟩ := ramfsRename_eq_some h
      refine ramfsView_congr fun j _ => ?_
      rcases eq_or_ne j i with rfl | hji
      · exact ⟨by simp [settle, Used], fun _ => contentAt_congr (by simp [settle]) fun _ _ _ => rfl⟩
      · exact ⟨Used.of_update rfl hji, fun _ => contentAt_of_table rfl hji⟩
  delete_others := by
    intro name id' hne
    simp only [perform]
    cases h : fs.ramfsDelete name with
    | none => rfl
    | some fs' =>
      obtain ⟨i, hu, hn, rfl⟩ := ramfsDelete_eq_some h
      refine ramfsView_congr fun j hj => ?_
      have hji : j ≠ i := by
        rintro rfl
        exact hne (nameOf_eq_some.2 ⟨j, hu, hj, hn⟩)
      exact ⟨Used.of_update rfl hji, fun _ => contentAt_of_table rfl hji⟩

/-- Along every run of calls the files are the finite map the calls describe. -/
theorem ramfs_refines_file_map (ops : List FileOp) :
    (Machine.run performBoth ({}, fun _ => none) ops).1.Mirrors
      (Machine.run performBoth ({}, fun _ => none) ops).2 := by
  have h := Machine.run_inv performBoth (I := fun t => t.1.Inv ∧ t.1.Represents t.2)
    (fun t op ht => perform_spec ht.1 ht.2 op) ops ({}, fun _ => none) ⟨inv_init, represents_init⟩
  exact h.1.mirrors h.2

end Ramfs

end DemonOS
