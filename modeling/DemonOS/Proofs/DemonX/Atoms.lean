import DemonOS.Lib.Interning
import DemonOS.Proofs.DemonX.Properties

/-!
# The atoms of the DemonX server

No atom is ever given up, so the table holds the names in the order in which they came (`Names`), and
`InternAtom` is the interning of the library (`internAtom_spec`). `GetAtomName` gives back names of
up to 16 bytes alone, though `InternAtom` takes 32 (`getAtomName_spec`).
-/

namespace DemonOS

namespace DemonX

open Interning (intern)

/-! ## Names -/

def nameBytes (name : ℕ → UInt8) (length : ℕ) : List UInt8 := (List.range length).map name

@[simp] theorem length_nameBytes (name : ℕ → UInt8) (length : ℕ) :
    (nameBytes name length).length = length := by simp [nameBytes]

theorem nameBytes_inj {a b : ℕ → UInt8} {length : ℕ} :
    nameBytes a length = nameBytes b length ↔ ∀ k < length, a k = b k := by
  simp [nameBytes, List.map_inj_left]

theorem nameBytes_getD (l : List UInt8) : nameBytes (fun k => l.getD k 0) l.length = l := by
  refine List.ext_getElem (by simp) fun k hk hk' => ?_
  simp [nameBytes, hk']

namespace Server

theorem sameName_iff {a b : ℕ → UInt8} {length : ℕ} :
    sameName a b length = true ↔ nameBytes a length = nameBytes b length := by
  simp [sameName, nameBytes_inj]

theorem atomHash_congr {a b : ℕ → UInt8} {length : ℕ} (h : nameBytes a length = nameBytes b length) :
    atomHash a length = atomHash b length := by
  unfold atomHash
  refine List.foldl_ext _ _ _ fun hash k hk => ?_
  rw [nameBytes_inj.1 h k (List.mem_range.1 hk)]

end Server

/-! ## The table -/

def atomCode (i : ℕ) : UInt32 := (UInt16.ofNat (dynamicAtomBase + i)).toUInt32

theorem atomCode_toNat {i : ℕ} (hi : i < atomLimit) : (atomCode i).toNat = dynamicAtomBase + i := by
  have hsmall : dynamicAtomBase + i < 2 ^ 16 := by
    unfold atomLimit at hi
    unfold dynamicAtomBase
    omega
  rw [atomCode, UInt16.toNat_toUInt32, UInt16.toNat_ofNat_of_lt' hsmall]

theorem atomCode_inj {i j : ℕ} (hi : i < atomLimit) (hj : j < atomLimit)
    (h : atomCode i = atomCode j) : i = j := by
  have hnat := congrArg UInt32.toNat h
  rw [atomCode_toNat hi, atomCode_toNat hj] at hnat
  omega

theorem atomCode_ne_zero {i : ℕ} (hi : i < atomLimit) : atomCode i ≠ 0 := by
  intro h
  have hnat := congrArg UInt32.toNat h
  rw [atomCode_toNat hi] at hnat
  have hbase : (0 : UInt32).toNat = 0 := rfl
  unfold dynamicAtomBase at hnat
  omega

/-- The atom is that of the name, in its slot. -/
structure Atom.Holds (a : Atom) (i : ℕ) (name : List UInt8) : Prop where
  used : a.used = true
  id : a.id = UInt16.ofNat (dynamicAtomBase + i)
  length : a.length.toNat = name.length
  bytes : nameBytes a.name name.length = name
  hash : a.hash = Server.atomHash a.name name.length

/-- The table holds the names, in the order in which they came. -/
structure Names (atoms : ℕ → Atom) (names : List (List UInt8)) : Prop where
  nodup : names.Nodup
  room : names.length ≤ atomLimit
  held : ∀ i (hi : i < names.length), (atoms i).Holds i names[i]
  free : ∀ i, names.length ≤ i → i < atomLimit → (atoms i).used = false

namespace Names

variable {atoms : ℕ → Atom} {names : List (List UInt8)} {s : Server} {name : ℕ → UInt8}
  {length : ℕ}

theorem start : Names (fun _ => {}) [] where
  nodup := List.nodup_nil
  room := Nat.zero_le _
  held i hi := absurd hi (Nat.not_lt_zero i)
  free _ _ _ := rfl

theorem matches_iff (h : Names s.atoms names) {i : ℕ} (hi : i < atomLimit) :
    ((s.atoms i).used && (s.atoms i).hash == Server.atomHash name length
        && (s.atoms i).length.toNat == length && Server.sameName (s.atoms i).name name length) = true
      ↔ names[i]? = some (nameBytes name length) := by
  by_cases hin : i < names.length
  · have hheld := h.held i hin
    rw [List.getElem?_eq_getElem hin]
    simp only [hheld.used, hheld.length, Bool.true_and, Bool.and_eq_true, beq_iff_eq,
      Server.sameName_iff, Option.some.injEq]
    constructor
    · rintro ⟨⟨-, rfl⟩, hname⟩
      exact hheld.bytes.symm.trans hname
    · intro hname
      have hlength : names[i].length = length := by rw [hname, length_nameBytes]
      have hsame : nameBytes (s.atoms i).name length = nameBytes name length := by
        rw [← hlength, hheld.bytes, hname, length_nameBytes]
      refine ⟨⟨?_, hlength⟩, hsame⟩
      rw [hheld.hash, hlength]
      exact Server.atomHash_congr hsame
  · rw [h.free i (not_lt.1 hin) hi, List.getElem?_eq_none (not_lt.1 hin)]
    simp

theorem known_eq (h : Names s.atoms names) (hmem : nameBytes name length ∈ names) :
    (Table.firstIndex atomLimit fun i => (s.atoms i).used
        && (s.atoms i).hash == Server.atomHash name length
        && (s.atoms i).length.toNat == length && Server.sameName (s.atoms i).name name length)
      = some (names.idxOf (nameBytes name length)) := by
  have hlt := List.idxOf_lt_length_of_mem hmem
  refine Table.firstIndex_eq_some.2 ⟨hlt.trans_le h.room, ?_, fun j hj => ?_⟩
  · rw [h.matches_iff (hlt.trans_le h.room), List.getElem?_eq_getElem hlt, List.getElem_idxOf hlt]
  · refine Bool.eq_false_iff.2 fun hmatch => ?_
    rw [h.matches_iff ((hj.trans hlt).trans_le h.room), List.getElem?_eq_getElem (hj.trans hlt),
      Option.some.injEq] at hmatch
    have hidx := h.nodup.idxOf_getElem j (hj.trans hlt)
    rw [hmatch] at hidx
    omega

theorem known_eq_none (h : Names s.atoms names) (hmem : nameBytes name length ∉ names) :
    (Table.firstIndex atomLimit fun i => (s.atoms i).used
        && (s.atoms i).hash == Server.atomHash name length
        && (s.atoms i).length.toNat == length && Server.sameName (s.atoms i).name name length)
      = none := by
  refine Table.firstIndex_eq_none.2 fun i hi => Bool.eq_false_iff.2 fun hmatch => hmem ?_
  rw [h.matches_iff hi] at hmatch
  exact List.mem_of_getElem? hmatch

theorem free_eq (h : Names s.atoms names) (hroom : names.length < atomLimit) :
    (Table.firstIndex atomLimit fun i => !(s.atoms i).used) = some names.length := by
  refine Table.firstIndex_eq_some.2 ⟨hroom, ?_, fun j hj => ?_⟩
  · rw [h.free _ le_rfl hroom]
    rfl
  · rw [(h.held j hj).used]
    rfl

theorem free_eq_none (h : Names s.atoms names) (hroom : ¬names.length < atomLimit) :
    (Table.firstIndex atomLimit fun i => !(s.atoms i).used) = none := by
  refine Table.firstIndex_eq_none.2 fun i hi => ?_
  rw [(h.held i (by omega)).used]
  rfl

theorem concat (h : Names atoms names) {a : Atom} {new : List UInt8} (hnew : new ∉ names)
    (hroom : names.length < atomLimit) (ha : a.Holds names.length new) :
    Names (Function.update atoms names.length a) (names ++ [new]) where
  nodup := List.nodup_append.2 ⟨h.nodup, by simp, fun x hx y hy hxy => by
    rw [List.mem_singleton.1 hy] at hxy
    exact hnew (hxy ▸ hx)⟩
  room := by simpa [Nat.succ_le_iff] using hroom
  held i hi := by
    rw [List.length_append, List.length_singleton] at hi
    rcases Nat.lt_succ_iff_lt_or_eq.1 hi with hlt | rfl
    · rw [Function.update_of_ne hlt.ne, List.getElem_append_left hlt]
      exact h.held i hlt
    · rw [Function.update_self, List.getElem_append_right le_rfl]
      simpa using ha
  free i hi hlt := by
    rw [List.length_append, List.length_singleton] at hi
    rw [Function.update_of_ne (by omega)]
    exact h.free i (by omega) hlt

variable (name) in
theorem makeAtom_spec (h : Names s.atoms names) (hlength : length ≤ 32) (onlyIfExists : Bool) :
    (s.makeAtom name length onlyIfExists).1
        = ((intern atomLimit names (nameBytes name length) !onlyIfExists).1.map atomCode).getD 0
      ∧ Names (s.makeAtom name length onlyIfExists).2.atoms
        (intern atomLimit names (nameBytes name length) !onlyIfExists).2
      ∧ (s.makeAtom name length onlyIfExists).2
        = { s with atoms := (s.makeAtom name length onlyIfExists).2.atoms }
      ∧ (onlyIfExists = true → (s.makeAtom name length onlyIfExists).2 = s) := by
  unfold Server.makeAtom intern
  dsimp only
  by_cases hmem : nameBytes name length ∈ names
  · have hlt := (List.idxOf_lt_length_of_mem hmem)
    rw [h.known_eq hmem, if_pos hmem]
    refine ⟨?_, h, rfl, fun _ => rfl⟩
    dsimp only
    rw [(h.held _ hlt).id, Option.map_some, Option.getD_some]
    rfl
  rw [h.known_eq_none hmem, if_neg hmem]
  dsimp only
  by_cases honly : onlyIfExists = true
  · rw [if_pos honly, if_neg (by simp [honly])]
    exact ⟨rfl, h, rfl, fun _ => rfl⟩
  rw [if_neg honly]
  by_cases hroom : names.length < atomLimit
  · rw [h.free_eq hroom, if_pos ⟨by simpa using honly, hroom⟩]
    refine ⟨rfl, h.concat hmem hroom ?_, rfl, fun hyes => absurd hyes honly⟩
    have hcopied : nameBytes (copyBytes (s.atoms names.length).name 0 name length) length
        = nameBytes name length := by
      refine nameBytes_inj.2 fun k hk => ?_
      unfold copyBytes
      rw [if_pos (by omega), Nat.sub_zero]
    refine ⟨rfl, rfl, ?_, ?_, ?_⟩
    · rw [length_nameBytes]
      exact UInt8.toNat_ofNat_of_lt' (show length < 2 ^ 8 by omega)
    · rw [length_nameBytes]
      exact hcopied
    · rw [length_nameBytes]
      exact Server.atomHash_congr hcopied.symm
  · rw [h.free_eq_none hroom, if_neg fun hmake => hroom hmake.2]
    exact ⟨rfl, h, rfl, fun hyes => absurd hyes honly⟩

theorem findAtom_eq (h : Names s.atoms names) {i : ℕ} (hi : i < names.length) :
    s.findAtom (atomCode i) = some i := by
  have hlt := hi.trans_le h.room
  have hcode : ∀ j, j < names.length → (s.atoms j).id.toUInt32 = atomCode j := fun j hj => by
    rw [(h.held j hj).id]
    rfl
  refine Table.firstIndex_eq_some.2 ⟨hlt, ?_, fun j hj => ?_⟩
  · simp [(h.held i hi).used, hcode i hi]
  · have hne : atomCode j ≠ atomCode i := fun hsame =>
      hj.ne (atomCode_inj (hj.trans hlt) hlt hsame)
    simp [hcode j (hj.trans hi), hne]

theorem findAtom_cases (h : Names s.atoms names) (id : UInt32) :
    (∃ i, i < names.length ∧ id = atomCode i)
      ∨ (s.findAtom id = none ∧ ∀ i < names.length, id ≠ atomCode i) := by
  by_cases hid : ∃ i, i < names.length ∧ id = atomCode i
  · exact .inl hid
  have hother : ∀ i < names.length, id ≠ atomCode i := fun i hi hsame => hid ⟨i, hi, hsame⟩
  refine .inr ⟨Table.firstIndex_eq_none.2 fun i hi => ?_, hother⟩
  by_cases hin : i < names.length
  · have hne : ¬(s.atoms i).id.toUInt32 = id := fun hsame => hother i hin (by
      rw [← hsame, (h.held i hin).id]
      rfl)
    simp [hne]
  · simp [h.free i (not_lt.1 hin) hi]

end Names

/-! ## The replies -/

def Packet.repliedAtom (p : Packet) : Option UInt32 :=
  if p.flags = flagReply ∧ read32 p.payload 8 ≠ 0 then some (read32 p.payload 8) else none

def Packet.repliedName (p : Packet) : Option (List UInt8) :=
  if p.flags = flagReply then
    some (nameBytes (fun k => p.payload (32 + k)) (read16 p.payload 8).toNat)
  else none

namespace Server

variable {s : Server} {names : List (List UInt8)}

structure Told (s : Server) (r : Bool × Server) : Prop where
  sent : r.1 = true
  same : r.2 = { s with atoms := r.2.atoms, outgoing := r.2.outgoing }
  client : r.2.outgoing.clientId = s.incoming.clientId
  flags : r.2.outgoing.flags = flagReply ∨ r.2.outgoing.flags = flagError
  fits : r.2.outgoing.payloadLength.toNat ≤ payloadBytes
  head : 32 ≤ r.2.outgoing.payloadLength.toNat

theorem refuse_told (s : Server) (code opcode : UInt8) (bad : UInt32) :
    Told s (s.refuse code opcode bad) :=
  ⟨rfl, rfl, rfl, .inr rfl, (by decide : 32 ≤ payloadBytes), (le_refl 32 : 32 ≤ 32)⟩

theorem reply_length (s : Server) {length : ℕ} (payload : ℕ → UInt8) (hlength : length ≤ payloadBytes) :
    (s.reply length payload).outgoing.payloadLength.toNat = length :=
  UInt16.toNat_ofNat_of_lt' (show length < 2 ^ 16 from lt_of_le_of_lt hlength (by decide))

theorem reply_fits (s : Server) {length : ℕ} (payload : ℕ → UInt8) (hlength : length ≤ payloadBytes) :
    (s.reply length payload).outgoing.payloadLength.toNat ≤ payloadBytes :=
  (reply_length s payload hlength).trans_le hlength

structure InternsAtom (s : Server) : Prop where
  length : s.field16 4 ≠ 0 ∧ s.field16 4 ≤ 32
  size : s.incoming.payloadLength.toNat = 8 + padded (s.field16 4).toNat

def atomName (s : Server) : List UInt8 :=
  nameBytes (fun k => s.payload (8 + k)) (s.field16 4).toNat

theorem makeAtom_same (s : Server) (name : ℕ → UInt8) (length : ℕ) (onlyIfExists : Bool) :
    (s.makeAtom name length onlyIfExists).2
      = { s with atoms := (s.makeAtom name length onlyIfExists).2.atoms } := by
  unfold makeAtom
  dsimp only
  rcases Table.firstIndex atomLimit _ with _ | i
  · dsimp only
    split_ifs
    · rfl
    · rcases Table.firstIndex atomLimit _ with _ | i <;> rfl
  · rfl

theorem repliedAtom_ne_zero {p : Packet} {a : UInt32} (h : p.repliedAtom = some a) : a ≠ 0 := by
  unfold Packet.repliedAtom at h
  split_ifs at h with hatom
  obtain rfl := Option.some.inj h
  exact hatom.2

theorem internAtom_made (hgood : s.InternsAtom) :
    Told s s.internAtom
      ∧ s.internAtom.2.outgoing.repliedAtom.getD 0
        = (s.makeAtom (fun k => s.payload (8 + k)) (s.field16 4).toNat (s.payload 1 != 0)).1
      ∧ s.internAtom.2.atoms
        = (s.makeAtom (fun k => s.payload (8 + k)) (s.field16 4).toNat (s.payload 1 != 0)).2.atoms := by
  obtain ⟨⟨hzero, hle⟩, hsize⟩ := hgood
  have hsame := s.makeAtom_same (fun k => s.payload (8 + k)) (s.field16 4).toNat (s.payload 1 != 0)
  unfold internAtom
  dsimp only
  rw [if_neg (by simp [hzero, UInt16.not_lt.2 hle, hsize])]
  generalize s.makeAtom (fun k => s.payload (8 + k)) (s.field16 4).toNat (s.payload 1 != 0) = r
    at hsame ⊢
  by_cases hrefused : r.1 = 0 ∧ (!(s.payload 1 != 0)) = true
  · rw [if_pos hrefused]
    refine ⟨⟨rfl, ?_, ?_, .inr rfl, (by decide : 32 ≤ payloadBytes), (le_refl 32 : 32 ≤ 32)⟩, ?_,
      rfl⟩
    · exact congrArg (fun t : Server => { t with outgoing := (r.2.refuse 11 Opcode.internAtom
        0).2.outgoing }) hsame
    · rw [hsame]
      rfl
    · exact hrefused.1.symm
  · rw [if_neg hrefused]
    refine ⟨⟨rfl, ?_, ?_, .inl rfl, reply_fits _ _ (by decide),
      (reply_length _ _ (by decide)).ge⟩, ?_, rfl⟩
    · exact congrArg (fun t : Server => { t with outgoing := (r.2.reply 32 (write32 (s.header 1 0) 8
        r.1)).outgoing }) hsame
    · rw [hsame]
      rfl
    · have hread : read32 (r.2.reply 32 (write32 (s.header 1 0) 8 r.1)).outgoing.payload 8 = r.1 :=
        read32_write32 _ _ _
      unfold Packet.repliedAtom
      rw [hread]
      split_ifs with hatom
      · rfl
      · by_contra hne
        exact hatom ⟨rfl, Ne.symm hne⟩

/-- A well-formed `InternAtom` interns the name it carries. -/
theorem internAtom_spec (h : Names s.atoms names) (hgood : s.InternsAtom) :
    Told s s.internAtom
      ∧ s.internAtom.2.outgoing.repliedAtom
        = (intern atomLimit names s.atomName !(s.payload 1 != 0)).1.map atomCode
      ∧ Names s.internAtom.2.atoms (intern atomLimit names s.atomName !(s.payload 1 != 0)).2
      ∧ ((s.payload 1 != 0) = true → s.internAtom.2.atoms = s.atoms) := by
  have hlength : (s.field16 4).toNat ≤ 32 := UInt16.le_iff_toNat_le.1 hgood.length.2
  obtain ⟨htold, hatom, hatoms⟩ := internAtom_made hgood
  obtain ⟨hid, hnames, -, honly⟩ := h.makeAtom_spec (fun k => s.payload (8 + k)) hlength
    (s.payload 1 != 0)
  have hnonzero : ∀ a, (intern atomLimit names s.atomName !(s.payload 1 != 0)).1.map atomCode = some a →
      a ≠ 0 := fun a ha => by
    obtain ⟨i, hi, rfl⟩ := Option.map_eq_some_iff.1 ha
    refine atomCode_ne_zero ?_
    unfold intern at hi
    split_ifs at hi with hknown hmake
    · obtain rfl := Option.some.inj hi
      exact (List.idxOf_lt_length_of_mem hknown).trans_le h.room
    · obtain rfl := Option.some.inj hi
      exact hmake.2
  refine ⟨htold, ?_, hatoms ▸ hnames,
    fun hyes => hatoms.trans (congrArg Server.atoms (honly hyes))⟩
  change _ = ((intern atomLimit names s.atomName !(s.payload 1 != 0)).1.map atomCode).getD 0 at hid
  rw [hid] at hatom
  generalize (intern atomLimit names s.atomName !(s.payload 1 != 0)).1.map atomCode = known
    at hatom hnonzero ⊢
  rcases hreplied : s.internAtom.2.outgoing.repliedAtom with _ | a <;> rcases known with _ | b <;>
    rw [hreplied] at hatom
  · exact absurd hatom.symm (hnonzero b rfl)
  · exact absurd hatom (repliedAtom_ne_zero hreplied)
  · exact congrArg some hatom

/-- `GetAtomName` gives back the name of an atom where it has 16 bytes at most. -/
theorem getAtomName_spec (h : Names s.atoms names) {i : ℕ} (hi : i < names.length) :
    Told s (s.getAtomName (atomCode i))
      ∧ (s.getAtomName (atomCode i)).2.atoms = s.atoms
      ∧ (s.getAtomName (atomCode i)).2.outgoing.repliedName
        = (if names[i].length ≤ 16 then some names[i] else none)
      ∧ (names[i].length ≤ 16 → 32 + names[i].length
        ≤ (s.getAtomName (atomCode i)).2.outgoing.payloadLength.toNat) := by
  have hheld := h.held i hi
  unfold getAtomName
  rw [h.findAtom_eq hi]
  dsimp only
  rw [hheld.length]
  split_ifs with hlong hshort hshort
  · omega
  · exact ⟨refuse_told s _ _ _, rfl, rfl, fun hle => absurd hle hshort⟩
  · have hpadded : names[i].length ≤ padded names[i].length := by
      unfold padded
      omega
    have hfits : 32 + padded names[i].length ≤ payloadBytes := by
      unfold padded payloadBytes
      omega
    refine ⟨⟨rfl, rfl, rfl, .inl rfl, reply_fits _ _ hfits,
      (Nat.le_add_right 32 _).trans (reply_length _ _ hfits).ge⟩, rfl, ?_, fun _ => ?_⟩
    · have hread : read16 (s.reply (32 + padded names[i].length) (copyBytes (write16 (write32
          (s.header 1 0) 4 (UInt32.ofNat ((names[i].length + 3) / 4))) 8
          (UInt16.ofNat names[i].length)) 32 (s.atoms i).name names[i].length)).outgoing.payload 8
          = UInt16.ofNat names[i].length := by
        change read16 (copyBytes _ _ _ _) 8 = _
        rw [read16, load_copyBytes_of_disjoint _ _ (.inl (by omega))]
        exact read16_write16 _ _ _
      have hnat : (UInt16.ofNat names[i].length).toNat = names[i].length :=
        UInt16.toNat_ofNat_of_lt' (show names[i].length < 2 ^ 16 by omega)
      refine (if_pos rfl).trans ?_
      dsimp only
      rw [hread, hnat]
      conv_rhs => rw [← hheld.bytes]
      refine congrArg some (nameBytes_inj.2 fun k hk => ?_)
      change copyBytes _ _ _ _ _ = _
      unfold copyBytes
      rw [if_pos (by omega), Nat.add_sub_cancel_left]
    · rw [reply_length _ _ hfits]
      omega
  · omega

theorem getAtomName_unknown {id : UInt32} (h : s.findAtom id = none) :
    s.getAtomName id = s.refuse 5 Opcode.getAtomName id := by
  rw [getAtomName, h]

end Server

end DemonX

end DemonOS
