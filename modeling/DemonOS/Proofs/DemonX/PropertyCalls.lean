import DemonOS.Proofs.DemonX.AtomCalls
import DemonOS.Proofs.DemonX.PropertyReplies

/-!
# Properties through the library

What a client changes of a property, and what a client then reads of it. A change replaces the value
where the window is there and the table has room (`xChangeProperty_spec`), of which the client is told
nothing; a client that reads a property gets 16 bytes of its value (`xGetWindowProperty_shows`),
unless something else waits for it, which it then takes for the answer (`Misled.request`).
-/

namespace DemonOS

namespace DemonX

variable {atom property window : UInt32} {length : ℕ} {v : Stored}

namespace Server

variable {s t : Server}

/-! ## Atoms -/

theorem makeAtom_congr (s : Server) {a b : ℕ → UInt8} (onlyIfExists : Bool)
    (h : nameBytes a length = nameBytes b length) :
    s.makeAtom a length onlyIfExists = s.makeAtom b length onlyIfExists := by
  have hsame : ∀ c, sameName c a length = sameName c b length := fun c => by
    rw [Bool.eq_iff_iff, sameName_iff, sameName_iff, h]
  have hcopy : ∀ c, copyBytes c 0 a length = copyBytes c 0 b length := fun c => by
    funext k
    unfold copyBytes
    split_ifs with hk
    · exact nameBytes_inj.1 h _ (by omega)
    · rfl
  unfold makeAtom
  simp only [atomHash_congr h, hsame, hcopy]

theorem makeAtom_of_atoms (hatoms : t.atoms = s.atoms) (name : ℕ → UInt8) (length : ℕ)
    (onlyIfExists : Bool) :
    (t.makeAtom name length onlyIfExists).1 = (s.makeAtom name length onlyIfExists).1
      ∧ (t.makeAtom name length onlyIfExists).2.atoms
        = (s.makeAtom name length onlyIfExists).2.atoms := by
  unfold makeAtom
  simp only [hatoms]
  rcases Table.firstIndex atomLimit _ with _ | i
  · dsimp only
    split_ifs
    · exact ⟨rfl, hatoms⟩
    · rcases Table.firstIndex atomLimit _ with _ | i
      · exact ⟨rfl, hatoms⟩
      · refine ⟨rfl, ?_⟩
        unfold setAtom
        rw [hatoms]
  · exact ⟨rfl, hatoms⟩

theorem makeAtom_again {name : ℕ → UInt8} (hlength : length ≤ 32)
    (hne : (s.makeAtom name length false).1 ≠ 0)
    (hatoms : t.atoms = (s.makeAtom name length false).2.atoms) :
    (t.makeAtom name length true).1 = (s.makeAtom name length false).1 := by
  unfold makeAtom at hne hatoms ⊢
  dsimp only at hne hatoms ⊢
  rcases hknown : Table.firstIndex atomLimit (fun i => (s.atoms i).used
    && (s.atoms i).hash == atomHash name length && (s.atoms i).length.toNat == length
    && sameName (s.atoms i).name name length) with _ | i
  · rw [hknown] at hne hatoms
    rcases hfree : Table.firstIndex atomLimit (fun i => !(s.atoms i).used) with _ | i
    · rw [hfree] at hne
      exact absurd rfl hne
    rw [hfree] at hatoms
    obtain ⟨hi, -, -⟩ := Table.firstIndex_eq_some.1 hfree
    have hself : t.atoms i
        = { hash := atomHash name length, id := UInt16.ofNat (dynamicAtomBase + i)
            length := UInt8.ofNat length, used := true
            name := copyBytes (s.atoms i).name 0 name length } := by
      rw [hatoms]
      exact Function.update_self _ _ _
    have hfound : Table.firstIndex atomLimit (fun i => (t.atoms i).used
        && (t.atoms i).hash == atomHash name length && (t.atoms i).length.toNat == length
        && sameName (t.atoms i).name name length) = some i := by
      refine Table.firstIndex_eq_some.2 ⟨hi, ?_, fun j hj => ?_⟩
      · have hsmall : (UInt8.ofNat length).toNat = length :=
          UInt8.toNat_ofNat_of_lt' (show length < 2 ^ 8 by omega)
        have hname : sameName (copyBytes (s.atoms i).name 0 name length) name length = true := by
          rw [sameName_iff, nameBytes_inj]
          intro k hk
          unfold copyBytes
          rw [if_pos (by omega), Nat.sub_zero]
        rw [hself]
        simp [hsmall, hname]
      · have hother : t.atoms j = s.atoms j := by
          rw [hatoms]
          exact Function.update_of_ne (by omega) _ _
        rw [hother]
        exact Table.firstIndex_eq_none.1 hknown j (by omega)
    rw [hfound]
    dsimp only
    rw [hself]
    rfl
  · rw [hknown] at hatoms
    rw [hatoms, hknown]

/-! ## The slot of a property -/

theorem setProperty_self (s : Server) (i : ℕ) (p : Property) : (s.setProperty i p).properties i = p :=
  Function.update_self _ _ _

theorem setProperty_of_ne (s : Server) {i j : ℕ} (h : j ≠ i) (p : Property) :
    (s.setProperty i p).properties j = s.properties j := Function.update_of_ne h _ _

theorem propertySlot_some {i : ℕ}
    (h : s.propertySlot window atom = some (i, t)) :
    ((t.properties i).used = true ∧ (t.properties i).window = window
      ∧ (t.properties i).atom = atom)
    ∧ ∀ p : Property, p.used = true ∧ p.window = window ∧ p.atom = atom →
      t.setProperty i p = s.setProperty i p
        ∧ (s.setProperty i p).findProperty window atom = some i := by
  have hfound : ∀ p : Property, p.used = true ∧ p.window = window ∧ p.atom = atom →
      i < propertyLimit → (∀ j < i, ¬((s.properties j).used = true ∧ (s.properties j).window = window
        ∧ (s.properties j).atom = atom)) →
      (s.setProperty i p).findProperty window atom = some i := fun p hp hi hbefore => by
    refine Table.firstIndex_eq_some.2 ⟨hi, ?_, fun j hj => ?_⟩
    · rw [setProperty_self]
      exact decide_eq_true hp
    · rw [setProperty_of_ne s (by omega)]
      exact decide_eq_false (hbefore j hj)
  unfold propertySlot at h
  rcases hfind : s.findProperty window atom with _ | j
  · rw [hfind] at h
    obtain ⟨j, hfree, heq⟩ := Option.map_eq_some_iff.1 h
    obtain ⟨rfl, rfl⟩ := Prod.mk.inj heq
    obtain ⟨hj, -, -⟩ := Table.firstIndex_eq_some.1 hfree
    refine ⟨by rw [setProperty_self]; exact ⟨rfl, rfl, rfl⟩, fun p hp => ⟨setProperty_setProperty _ _ _ _,
      hfound p hp hj fun k hk => ?_⟩⟩
    exact of_decide_eq_false (Table.firstIndex_eq_none.1 hfind k (by omega))
  · rw [hfind] at h
    obtain ⟨rfl, rfl⟩ := Prod.mk.inj (Option.some.inj h)
    obtain ⟨hj, hmatch, hbefore⟩ := Table.firstIndex_eq_some.1 hfind
    exact ⟨of_decide_eq_true hmatch, fun p hp => ⟨rfl, hfound p hp hj fun k hk =>
      of_decide_eq_false (hbefore k hk)⟩⟩

/-- A change that replaces a value, and is good as far as it goes without the window and the
table. -/
structure Replaces (s : Server) : Prop where
  atom : s.field32 8 ≠ 0
  type : s.field32 12 ≠ 0
  format : itemBytes (s.payload 16) ≠ 0
  fits : s.countedBytes ≤ propertyDataBytes
  length : s.incoming.payloadLength.toNat = 24 + padded s.countedBytes
  mode : s.payload 1 = 0

def carried (s : Server) : Stored where
  type := s.field32 12
  format := s.payload 16
  bytes := (List.range s.countedBytes).map fun k => s.payload (24 + k)

theorem Replaces.holds (h : s.Replaces) (p : Property) : (s.changedProperty p).Holds s.carried := by
  have hlength : (s.changedProperty p).dataLength.toNat = s.countedBytes := by
    rw [changedProperty_length s p h.fits fun hmode => absurd h.mode hmode, if_pos h.mode]
  refine ⟨rfl, h.type, rfl, h.format, ?_, hlength.trans_le h.fits, ?_⟩
  · rw [changedProperty_value s p h.fits fun hmode => absurd h.mode hmode, joined, if_pos h.mode]
    rfl
  · change (itemBytes (s.payload 16)).toNat ∣ _
    rw [hlength, countedBytes, UInt32.toNat_mul]
    have hunit : (itemBytes (s.payload 16)).toNat ∣ 2 ^ 32 := by
      rcases itemBytes_cases h.format with ⟨-, hunit⟩ | ⟨-, hunit⟩ | ⟨-, hunit⟩ <;> rw [hunit] <;>
        decide
    exact (Nat.dvd_mod_iff hunit).2 (Nat.dvd_mul_left _ _)

structure AdmitsProperty (s : Server) (window atom : UInt32) : Prop where
  valid : s.validPropertyWindow window = true
  slot : (s.propertySlot window atom).isSome = true

structure HoldsProperty (s : Server) (window atom : UInt32) (v : Stored) : Prop where
  valid : s.validPropertyWindow window = true
  holds : ∃ i, s.findProperty window atom = some i ∧ (s.properties i).Holds v

theorem findProperty_congr (hproperties : t.properties = s.properties) (window atom : UInt32) :
    t.findProperty window atom = s.findProperty window atom := by
  unfold findProperty
  rw [hproperties]

theorem AdmitsProperty.congr (h : s.AdmitsProperty window atom)
    (hmemory : t.memory = s.memory) (hproperties : t.properties = s.properties) :
    t.AdmitsProperty window atom := by
  refine ⟨(validPropertyWindow_congr hmemory window).trans h.valid, ?_⟩
  have hslot := h.slot
  unfold propertySlot at hslot ⊢
  rw [findProperty_congr hproperties, hproperties]
  rcases hfind : s.findProperty window atom with _ | i
  · rw [hfind] at hslot
    simpa using hslot
  · rfl

theorem HoldsProperty.congr (h : s.HoldsProperty window atom v)
    (hmemory : t.memory = s.memory) (hproperties : t.properties = s.properties) :
    t.HoldsProperty window atom v := by
  refine ⟨(validPropertyWindow_congr hmemory window).trans h.valid, ?_⟩
  rw [findProperty_congr hproperties, hproperties]
  exact h.holds

theorem changeProperty_replaces (h : s.Replaces) (id : UInt32) :
    (s.AdmitsProperty id (s.field32 8) ∧ ∃ i p, (s.setProperty i p).HoldsProperty id (s.field32 8) s.carried
        ∧ s.changeProperty id = (s.setProperty i p).propertyNotify id (s.field32 8) 0)
      ∨ (¬s.AdmitsProperty id (s.field32 8)
        ∧ ∃ code bad, s.changeProperty id = s.refuse code Opcode.changeProperty bad) := by
  have hfits := Nat.not_lt.2 h.fits
  unfold changeProperty
  by_cases hwindow : s.validPropertyWindow id = true
  · rw [if_neg (by
      simp only [hwindow, h.atom, h.type, h.format, h.mode, ne_eq, Bool.not_true,
        Bool.false_eq_true, false_or]
      rintro (hlong | hlength | hmode)
      · exact hfits hlong
      · exact hlength h.length
      · exact absurd hmode (by decide))]
    rcases hslot : s.propertySlot id (s.field32 8) with _ | ⟨i, t⟩
    · refine .inr ⟨fun hadmits => ?_, _, _, rfl⟩
      have := hadmits.slot
      rw [hslot] at this
      cases this
    · obtain ⟨hkey, hset⟩ := propertySlot_some hslot
      obtain ⟨hsame, hfind⟩ := hset (s.changedProperty (t.properties i)) hkey
      refine .inl ⟨⟨hwindow, by rw [hslot]; rfl⟩, i, s.changedProperty (t.properties i),
        ⟨hwindow, i, hfind, ?_⟩, ?_⟩
      · rw [setProperty_self]
        exact h.holds _
      · dsimp only
        have hpayload := congrArg Server.payload hsame
        change t.payload = s.payload at hpayload
        rw [if_neg fun hmode => hmode.1 h.mode, ← hsame, hpayload]
        rfl
  · refine .inr ⟨fun hadmits => hwindow hadmits.valid, _, _, if_pos (.inl ?_)⟩
    simpa using hwindow

/-! ## What is read of a property -/

theorem getProperty_told (id : UInt32) (hkeep : s.payload 1 = 0) : Told s (s.getProperty id) := by
  unfold getProperty
  split_ifs with hwindow
  · exact refuse_told s _ _ _
  rcases s.findProperty id (s.field32 8) with _ | i
  · exact ⟨rfl, rfl, rfl, .inl rfl, (by decide : 32 ≤ payloadBytes), (le_refl 32 : 32 ≤ 32)⟩
  dsimp only
  split_ifs with htype hpast hdelete
  · exact ⟨rfl, rfl, rfl, .inl rfl, (by decide : 32 ≤ payloadBytes), (le_refl 32 : 32 ≤ 32)⟩
  · exact refuse_told s _ _ _
  · exact absurd hkeep hdelete.1
  · have hsmall : (returnedBytes (s.properties i) (s.field32 16 * 4) (s.field32 20 * 4)).toNat ≤ 16 := by
      unfold returnedBytes
      rw [toNat_min]
      exact min_le_right _ _
    have hfits : 32 + padded (returnedBytes (s.properties i) (s.field32 16 * 4)
        (s.field32 20 * 4)).toNat ≤ payloadBytes := by
      unfold padded payloadBytes
      omega
    exact ⟨rfl, rfl, rfl, .inl rfl, reply_fits _ _ hfits,
      (Nat.le_add_right 32 _).trans (reply_length _ _ hfits).ge⟩

theorem getProperty_holds {id : UInt32} (h : s.HoldsProperty id (s.field32 8) v)
    (htype : s.field32 12 = 0 ∨ s.field32 12 = v.type) (hoffset : s.field32 16 = 0)
    (hlength : (s.field32 20).toNat < 2 ^ 30) :
    CarriesPart v 0 (s.field32 20).toNat (s.getProperty id).2.outgoing := by
  obtain ⟨i, hfind, hholds⟩ := h.holds
  rw [findProperty_eq] at hfind
  have hzero : (s.field32 16).toNat = 0 := congrArg UInt32.toNat hoffset
  have hright := (getProperty_right_iff s h.valid (KeyedTable.get_of_find hfind) hholds htype).2
    ⟨fun hfar => by omega, fun _ hlong => by omega⟩
  rw [hzero] at hright
  exact hright.carries (Nat.zero_le _)

def LacksProperty (s : Server) (window atom : UInt32) : Prop :=
  s.validPropertyWindow window = true → s.findProperty window atom = none

theorem LacksProperty.congr (h : s.LacksProperty window atom)
    (hmemory : t.memory = s.memory) (hproperties : t.properties = s.properties) :
    t.LacksProperty window atom := fun hvalid =>
  (findProperty_congr hproperties window atom).trans
    (h ((validPropertyWindow_congr hmemory window).symm.trans hvalid))

theorem getProperty_lacks {id : UInt32} (h : s.LacksProperty id (s.field32 8))
    (hflags : (s.getProperty id).2.outgoing.flags = flagReply) :
    read32 (s.getProperty id).2.outgoing.payload 8 = 0 := by
  unfold getProperty at hflags ⊢
  by_cases hwindow : s.validPropertyWindow id = true
  · rw [if_neg (by simpa using hwindow), h hwindow]
    change read32 (s.header 1 0) 8 = 0
    simp (disch := omega) only [header, write8, write16, read32_store_of_disjoint]
    simp [read32, LittleEndian.load]
  · rw [if_pos (by simpa using hwindow)] at hflags
    have herror : flagError = flagReply := hflags
    exact absurd herror (by decide)

end Server

namespace Desktop

variable {d d' : Desktop} {s t : Server} {sys : Answers} {client getter : UInt32}

/-! ## Answers -/

/-- A property as the library gives it, with what the first `n` words of its value hold. -/
structure WindowProperty.Reads (w : WindowProperty) (v : Stored) (n : ℕ) : Prop where
  type : w.actualType = v.type
  format : w.actualFormat = v.format
  items : w.itemCount.toNat * (Server.itemBytes v.format).toNat = (v.part 0 n).length
  data : nameBytes w.data (v.part 0 n).length = v.part 0 n

def propertyRead (client : UInt32) (d : Desktop) : Option WindowProperty × Desktop :=
  match d.replied client with
  | none => (none, d)
  | some p =>
    let data := copyBytes (d.display client).propertyData 0 (fun k => p (32 + k)) (returnedBytes p)
    (some ⟨read32 p 8, p 1, read32 p 16, read32 p 12, data⟩,
      d.setDisplay client { d.display client with propertyData := data })

theorem part_zero (v : Stored) (n : ℕ) : v.part 0 n = v.bytes.take (min (4 * n) 16) := by
  simp [Stored.part]

theorem Answered.reads {n : ℕ} (h : d.Answered client t d')
    (hc : CarriesPart v 0 n t.outgoing) (hformed : Server.itemBytes v.format ≠ 0) :
    ∃ w d'', d'.propertyRead client = (some w, d'') ∧ w.Reads v n := by
  have hpart : (v.part 0 n).length ≤ 16 := by
    rw [part_zero, List.length_take]
    omega
  have hpadded : (v.part 0 n).length ≤ padded (v.part 0 n).length := by
    unfold padded
    omega
  have hsize := hc.size
  unfold propertyRead
  rw [h.replied_eq, if_pos hc.flags]
  have hformat : (d'.display client).packet.payload 1 = v.format :=
    (h.packet.bytes 1 (by omega)).trans hc.format
  have hitems := hc.items
  rw [← h.field32 (a := 16) (by omega)] at hitems
  have hreturned : returnedBytes (d'.display client).packet.payload = (v.part 0 n).length := by
    unfold returnedBytes
    rw [hformat, Server.unit_eq hformed, UInt32.toNat_mul, Nat.mul_comm, hitems]
    omega
  refine ⟨_, _, rfl, (h.field32 (by omega)).trans hc.type, hformat, hitems, ?_⟩
  have hdata : nameBytes (fun k => t.outgoing.payload (32 + k)) (v.part 0 n).length = v.part 0 n :=
    hc.data
  refine Eq.trans (nameBytes_inj.2 fun k hk => ?_) hdata
  dsimp only
  unfold copyBytes
  rw [hreturned, if_pos (by omega), Nat.sub_zero]
  exact h.packet.bytes (32 + k) (by omega)

theorem Answered.reads_none (h : d.Answered client t d')
    (hhead : 32 ≤ t.outgoing.payloadLength.toNat)
    (hnone : t.outgoing.flags = flagReply → read32 t.outgoing.payload 8 = 0) :
    ∃ r d'', d'.propertyRead client = (r, d'') ∧ ∀ w, r = some w → w.actualType = 0 := by
  unfold propertyRead
  rw [h.replied_eq]
  by_cases hflags : t.outgoing.flags = flagReply
  · rw [if_pos hflags]
    refine ⟨_, _, rfl, fun w hw => ?_⟩
    obtain rfl := Option.some.inj hw
    exact (h.field32 (by omega)).trans (hnone hflags)
  · rw [if_neg hflags]
    exact ⟨_, _, rfl, fun w hw => by cases hw⟩

/-! ## Requests -/

def getPropertyPayload (window property type length : UInt32) : ℕ → UInt8 :=
  write32 (write32 (write32 (write32 (requestHead Opcode.getProperty 0 24 window) 8 property) 12
    type) 16 0) 20 length

theorem getPropertyPayload_fields (window property type length : UInt32) :
    let p := getPropertyPayload window property type length
    (p 0 = Opcode.getProperty ∧ p 1 = 0 ∧ read16 p 2 = 6) ∧ read32 p 4 = window
      ∧ read32 p 8 = property ∧ read32 p 12 = type ∧ read32 p 16 = 0 ∧ read32 p 20 = length := by
  simp (disch := omega) only [getPropertyPayload, write32, read16_store_of_disjoint,
    read32_store_of_disjoint, read32_store_self, requestHead_words,
    requestHead_id, and_true]
  exact ⟨rfl, rfl, rfl⟩

structure Gets (s q : Server) (property type length : UInt32) : Prop where
  same : q = { s with assembly := q.assembly }
  property : q.field32 8 = property
  type : q.field32 12 = type
  offset : q.field32 16 = 0
  length : q.field32 20 = length
  keep : q.payload 1 = 0

theorem xGetWindowProperty_asked (hsys : Server.Delivers sys) (hrun : d.Runs s)
    (hready : d.Ready s client) (window property type length : UInt32) :
    ∃ q d', Gets s q property type length ∧ d.Answered client (q.getProperty window).2 d'
      ∧ d.xGetWindowProperty sys client window property 0 length false type
        = some (d'.propertyRead client) := by
  have hfits : 24 ≤ payloadBytes := by decide
  obtain ⟨⟨hopcode, hkeep, hwords⟩, hwindow, hproperty, htype, hoffset, hlength⟩ :=
    getPropertyPayload_fields window property type length
  obtain ⟨q, hhas, hanswer⟩ := request_answered (getPropertyPayload window property type length)
    hsys hrun hready hfits
  have hsize : (d.packet client 24
      (getPropertyPayload window property type length)).payloadLength.toNat = 24 :=
    packet_length hfits
  have hfield : ∀ {a v}, a + 4 ≤ 24 →
      read32 (getPropertyPayload window property type length) a = v → q.field32 a = v :=
    fun ha hv => (hhas.field32 (by omega)).trans hv
  have hadmitted : q.Admitted := hhas.admitted (by rw [hsize]; exact hwords) (by omega) (by omega)
    hready.free
  have hgets : Gets s q property type length :=
    ⟨hhas.same, hfield (by omega) hproperty, hfield (by omega) htype, hfield (by omega) hoffset,
      hfield (by omega) hlength, (hhas.payload (by omega)).trans hkeep⟩
  have hparse : q.parseRequest sys = some (q.getProperty window) := by
    rw [← hfield (a := 4) (by omega) hwindow]
    exact Server.parseRequest_resource hadmitted 21 rfl ((hhas.payload (by omega)).trans hopcode)
      (decide_eq_true (hhas.carries.length ▸ hsize))
  obtain ⟨d', hrequest, hanswered⟩ := hanswer _ hparse
    (told_tells (Server.getProperty_told window hgets.keep))
  refine ⟨q, d', hgets, hanswered, ?_⟩
  change (d.request sys client 24 (getPropertyPayload window property type length)).map
    (propertyRead client) = _
  rw [hrequest, Option.map_some]

theorem Gets.holds {q : Server} {window property type length : UInt32}
    (h : Gets s q property type length) (hholds : s.HoldsProperty window property v) :
    q.HoldsProperty window (q.field32 8) v := by
  rw [h.property, h.same]
  exact hholds.congr rfl rfl

theorem xGetWindowProperty_holds (hsys : Server.Delivers sys) (hrun : d.Runs s)
    (hready : d.Ready s client) {window property type length : UInt32}
    (hholds : s.HoldsProperty window property v) (htype : type = 0 ∨ type = v.type)
    (hlength : length.toNat < 2 ^ 30) :
    ∃ w d', d.xGetWindowProperty sys client window property 0 length false type = some (some w, d')
      ∧ w.Reads v length.toNat := by
  obtain ⟨q, d', hgets, hanswered, hcall⟩ :=
    xGetWindowProperty_asked hsys hrun hready window property type length
  have hcarries := Server.getProperty_holds (hgets.holds hholds) (by rw [hgets.type]; exact htype)
    hgets.offset (by rw [hgets.length]; exact hlength)
  rw [hgets.length] at hcarries
  obtain ⟨i, -, hproperty⟩ := hholds.holds
  obtain ⟨w, d'', hread, hreads⟩ := hanswered.reads hcarries hproperty.formed
  exact ⟨w, d'', hcall.trans (congrArg some hread), hreads⟩

theorem xGetWindowProperty_lacks (hsys : Server.Delivers sys) (hrun : d.Runs s)
    (hready : d.Ready s client)
    (hlacks : s.LacksProperty window property) (type length : UInt32) :
    ∃ r d', d.xGetWindowProperty sys client window property 0 length false type = some (r, d')
      ∧ ∀ w, r = some w → w.actualType = 0 := by
  obtain ⟨q, d', hgets, hanswered, hcall⟩ :=
    xGetWindowProperty_asked hsys hrun hready window property type length
  have hlacks' : q.LacksProperty window (q.field32 8) := by
    rw [hgets.property, hgets.same]
    exact hlacks.congr rfl rfl
  obtain ⟨r, d'', hread, hnone⟩ := hanswered.reads_none
    (Server.getProperty_told window hgets.keep).head (Server.getProperty_lacks hlacks')
  exact ⟨r, d'', hcall.trans (congrArg some hread), hnone⟩

/-! ## Packets that are taken for answers -/

def Misled (d : Desktop) (client : UInt32) : Prop :=
  ∃ p rest, Packet.Short p ∧ p.flags ≠ flagReply ∧ d.replies client = p.record 0 :: rest

theorem take_replies (sys : Answers) (d : Desktop) (record : Packet) (client : UInt32) :
    ∃ new, (take sys d record).replies client = d.replies client ++ new := by
  unfold take
  rcases d.server with s | code | _
  · rcases Process.step sys (.running s) record.toWire with t | code | _
    · by_cases hclient : client = t.outgoing.clientId
      · subst hclient
        exact ⟨_, Function.update_self _ _ _⟩
      · exact ⟨[], (Function.update_of_ne hclient _ _).trans (List.append_nil _).symm⟩
    · exact ⟨[], (List.append_nil _).symm⟩
    · exact ⟨[], (List.append_nil _).symm⟩
  · exact ⟨[], (List.append_nil _).symm⟩
  · exact ⟨[], (List.append_nil _).symm⟩

theorem foldl_take_replies (sys : Answers) (client : UInt32) : ∀ (records : List Packet) (d : Desktop),
    ∃ new, (records.foldl (take sys) d).replies client = d.replies client ++ new
  | [], d => ⟨[], (List.append_nil _).symm⟩
  | record :: records, d => by
    obtain ⟨new, hnew⟩ := take_replies sys d record client
    obtain ⟨more, hmore⟩ := foldl_take_replies sys client records (take sys d record)
    exact ⟨new ++ more, by rw [List.foldl_cons, hmore, hnew, List.append_assoc]⟩

/-- The client takes what waits for it for the answer to its request, which is none. -/
theorem Misled.request (h : d.Misled client) (sys : Answers) (length : ℕ) (payload : ℕ → UInt8) :
    ∃ d', d.request sys client length payload = some d' ∧ d'.replied client = none := by
  obtain ⟨p, rest, hshort, hflags, hreplies⟩ := h
  obtain ⟨new, hnew⟩ := foldl_take_replies sys client (sendPacket (d.packet client length payload))
    (d.setDisplay client { d.display client with
      sequence := (d.display client).sequence + 1, packet := d.packet client length payload })
  have hsent : (d.send sys client length payload).replies client = p.record 0 :: (rest ++ new) := by
    rw [← List.cons_append, ← hreplies]
    exact hnew
  obtain ⟨packet, hreceive, hcarries⟩ := receive_record hshort hsent
  refine ⟨_, hreceive, ?_⟩
  have hpacket : packet.flags ≠ flagReply := by
    rw [hcarries.flags]
    exact hflags
  refine if_neg ?_
  simpa [setDisplay] using hpacket

theorem Misled.xInternAtom (h : d.Misled client) (sys : Answers) (name : CString)
    (onlyIfExists : Bool) : ∃ d', d.xInternAtom sys client name onlyIfExists = some (0, d') := by
  unfold Desktop.xInternAtom
  dsimp only
  by_cases hlength : name.bytes.length = 0 ∨ 32 < name.bytes.length
  · rw [if_pos hlength]
    exact ⟨d, rfl⟩
  · obtain ⟨d', hrequest, hreplied⟩ := h.request sys _ _
    rw [if_neg hlength, hrequest, Option.map_some, hreplied]
    exact ⟨d', rfl⟩

theorem Misled.xGetWindowProperty (h : d.Misled client) (sys : Answers)
    (window property offset length : UInt32) (deleteAfter : Bool) (type : UInt32) :
    ∃ d', d.xGetWindowProperty sys client window property offset length deleteAfter type
      = some (none, d') := by
  unfold Desktop.xGetWindowProperty
  dsimp only
  obtain ⟨d', hrequest, hreplied⟩ := h.request sys 24 _
  rw [hrequest, Option.map_some, hreplied]
  exact ⟨d', rfl⟩

/-! ## Atoms -/

def named (s : Server) (name : CString) (onlyIfExists : Bool) : UInt32 × Server :=
  s.makeAtom (fun k => name.bytes.getD k 0) name.bytes.length onlyIfExists

/-- A call leaves the windows, the properties and what is selected on the root. -/
structure Besides (s t : Server) : Prop where
  memory : t.memory = s.memory
  properties : t.properties = s.properties
  rootEventMask : t.rootEventMask = s.rootEventMask
  rootEventClient : t.rootEventClient = s.rootEventClient

theorem Besides.trans {u : Server} (h : Besides s t) (h' : Besides t u) : Besides s u :=
  ⟨h'.memory.trans h.memory, h'.properties.trans h.properties,
    h'.rootEventMask.trans h.rootEventMask, h'.rootEventClient.trans h.rootEventClient⟩

theorem xInternAtom_makes (hsys : Server.Delivers sys) (hrun : d.Runs s)
    (hready : d.Ready s client) (name : CString) (onlyIfExists : Bool)
    (hlength : ¬(name.bytes.length = 0 ∨ 32 < name.bytes.length)) :
    ∃ d' t, d.Continues s d' t ∧ Besides s t ∧ t.atoms = (named s name onlyIfExists).2.atoms
      ∧ d.xInternAtom sys client name onlyIfExists = some ((named s name onlyIfExists).1, d') := by
  obtain ⟨p, q, d', hhas, hgood, hname, honly, hcall, hanswered⟩ :=
    xInternAtom_asked hsys hrun hready name onlyIfExists hlength
  obtain ⟨htold, hatom, hatoms⟩ := Server.internAtom_made hgood
  have hnat : (q.field16 4).toNat = name.bytes.length := by
    rw [← hname, Server.atomName, length_nameBytes]
  have hbytes : nameBytes (fun k => q.payload (8 + k)) name.bytes.length
      = nameBytes (fun k => name.bytes.getD k 0) name.bytes.length := by
    rw [nameBytes_getD, ← hnat]
    exact hname
  have hmade : q.makeAtom (fun k => q.payload (8 + k)) (q.field16 4).toNat (q.payload 1 != 0)
      = named q name onlyIfExists := by
    rw [honly, hnat]
    exact q.makeAtom_congr onlyIfExists hbytes
  rw [hmade] at hatom hatoms
  have hqatoms : q.atoms = s.atoms := by rw [hhas.same]
  have hfirst := Server.makeAtom_of_atoms hqatoms (fun k => name.bytes.getD k 0) name.bytes.length
    onlyIfExists
  have hbesides : Besides s q.internAtom.2 := by
    refine Besides.trans (t := q) ?_ ?_
    · rw [hhas.same]
      exact ⟨rfl, rfl, rfl, rfl⟩
    · rw [htold.same]
      exact ⟨rfl, rfl, rfl, rfl⟩
  refine ⟨d', _, hanswered.continues hhas ?_ ?_ ?_, ⟨hbesides.memory, hbesides.properties,
    hbesides.rootEventMask, hbesides.rootEventClient⟩, hatoms.trans hfirst.2, ?_⟩
  · rw [htold.same]
  · rw [htold.same]
  · rw [htold.same]
  · rw [hcall, hatom]
    exact congrArg (fun a => some (a, d')) hfirst.1

/-! ## Changes -/

def changePropertyPayload (window property type : UInt32) (format : UInt8) (count bytes : ℕ)
    (data : ℕ → UInt8) : ℕ → UInt8 :=
  copyBytes (write32 (write8 (write32 (write32 (requestHead Opcode.changeProperty propModeReplace
    (24 + padded bytes) window) 8 property) 12 type) 16 format) 20 (UInt32.ofNat count)) 24 data bytes

theorem changePropertyPayload_fields (window property type : UInt32) (format : UInt8)
    (count bytes : ℕ) (data : ℕ → UInt8) :
    let p := changePropertyPayload window property type format count bytes data
    (p 0 = Opcode.changeProperty ∧ p 1 = 0 ∧ read16 p 2 = UInt16.ofNat ((24 + padded bytes) / 4))
      ∧ read32 p 4 = window ∧ read32 p 8 = property ∧ read32 p 12 = type ∧ p 16 = format
      ∧ read32 p 20 = UInt32.ofNat count ∧ ∀ k < bytes, p (24 + k) = data k := by
  have hcopy : ∀ a, a < 24 → ∀ b source n, copyBytes b 24 source n a = b a := fun a ha b source n =>
    if_neg (by omega)
  have hload : ∀ a n, a + n ≤ 24 → ∀ b source m,
      LittleEndian.load (copyBytes b 24 source m) a n = LittleEndian.load b a n :=
    fun a n ha b source m => load_copyBytes_of_disjoint _ _ (.inl ha)
  refine ⟨⟨?_, ?_, ?_⟩, ?_, ?_, ?_, ?_, ?_, fun k hk => ?_⟩
  · rw [changePropertyPayload, hcopy 0 (by omega), ← read8_eq (write32 _ _ _) 0]
    simp (disch := omega) only [write8, write32, read8_store_of_disjoint]
    rw [read8_eq, requestHead_opcode]
  · rw [changePropertyPayload, hcopy 1 (by omega), ← read8_eq (write32 _ _ _) 1]
    rfl
  · rw [changePropertyPayload, read16, hload 2 2 (by omega), ← read16]
    simp (disch := omega) only [write8, write32, read16_store_of_disjoint, requestHead_words]
  · rw [changePropertyPayload, read32, hload 4 4 (by omega), ← read32]
    simp (disch := omega) only [write8, write32, read32_store_of_disjoint, requestHead_id]
  · rw [changePropertyPayload, read32, hload 8 4 (by omega), ← read32]
    simp (disch := omega) only [write8, write32, read32_store_of_disjoint, read32_store_self]
  · rw [changePropertyPayload, read32, hload 12 4 (by omega), ← read32]
    simp (disch := omega) only [write8, write32, read32_store_of_disjoint, read32_store_self]
  · rw [changePropertyPayload, hcopy 16 (by omega), ← read8_eq (write32 _ _ _) 16]
    simp (disch := omega) only [write8, write32, read8_store_of_disjoint, read8_store_self]
  · rw [changePropertyPayload, read32, hload 20 4 (by omega), ← read32]
    exact read32_write32 _ _ _
  · unfold changePropertyPayload copyBytes
    rw [if_pos (by omega), Nat.add_sub_cancel_left]

structure Changes (s q : Server) (property : UInt32) (v : Stored) : Prop where
  same : q = { s with assembly := q.assembly }
  whole : q.assembly.active = false
  property : q.field32 8 = property
  good : q.Replaces
  carried : q.carried = v

theorem sent_ready {q : Server} {began : Display} {payload : ℕ → UInt8}
    (hsend : d.send sys client length payload = { d.setDisplay client began with
      server := .running (t.sentTo t.outgoing.clientId (t.outgoing.record 0))
      replies := Function.update d.replies t.outgoing.clientId
        (d.replies t.outgoing.clientId ++ [t.outgoing.record 0]) })
    (hsame : q = { s with assembly := q.assembly }) (hmemory : t.memory = q.memory)
    (hgrab : t.serverGrabClient = q.serverGrabClient) (hshort : t.outgoing.Short)
    (hflags : t.outgoing.flags ≠ flagReply) (hready : d.Ready s getter) :
    (t.outgoing.clientId = getter → (d.send sys client length payload).Misled getter)
      ∧ (t.outgoing.clientId ≠ getter → (d.send sys client length payload).Ready
        (t.sentTo t.outgoing.clientId (t.outgoing.record 0)) getter) := by
  rw [hsend]
  constructor
  · rintro rfl
    refine ⟨t.outgoing, [], hshort, hflags, ?_⟩
    dsimp only
    rw [Function.update_self, hready.quiet, List.nil_append]
  · intro hother
    refine ⟨hready.connected.congr (hmemory.trans (by rw [hsame])), ?_, ?_⟩
    · have hfree := hready.free
      change t.serverGrabClient = 0 ∨ t.serverGrabClient = getter
      rw [hgrab, hsame]
      exact hfree
    · dsimp only
      rw [Function.update_of_ne (Ne.symm hother)]
      exact hready.quiet

/-- What a change of a property comes to for the client that reads next. -/
inductive Changed (s : Server) (window property : UInt32) (v : Stored) (getter : UInt32)
    (d : Desktop) (t : Server) : Prop
  | kept (hadmits : s.AdmitsProperty window property) (hheard : s.propertyListener window ≠ some getter)
      (hholds : t.HoldsProperty window property v) (hready : d.Ready t getter)
  | noticed (hheard : s.propertyListener window = some getter) (hmisled : d.Misled getter)
  | refused (hnot : ¬s.AdmitsProperty window property) (hlacks : t.LacksProperty window property)
      (hready : d.Ready t getter)
  | reported (hnot : ¬s.AdmitsProperty window property) (hmisled : d.Misled getter)

theorem lacks_of_not_admits (h : ¬s.AdmitsProperty window property) :
    s.LacksProperty window property := by
  intro hvalid
  by_contra hfind
  refine h ⟨hvalid, ?_⟩
  obtain ⟨i, hi⟩ := Option.ne_none_iff_exists'.1 hfind
  rw [Server.propertySlot, hi]
  rfl

theorem Changes.sent {q : Server}
    {payload : ℕ → UInt8} (h : Changes s q property v) (hsys : Server.Delivers sys)
    (hrun : d.Runs s) (hlength : length ≤ payloadBytes)
    (hhas : s.Has (d.packet client length payload) q)
    (hhandle : s.handle sys ((d.packet client length payload).record 0).toWire
      = (q.parseRequest sys).map .ok)
    (hparse : q.parseRequest sys = some (q.changeProperty window))
    (hready : d.Ready s client) (hget : d.Ready s getter)
    (hheard : ∀ c, s.propertyListener window = some c → s.Connected c) :
    ∃ t, (d.send sys client length payload).Runs t ∧ t.atoms = s.atoms
      ∧ Changed s window property v getter (d.send sys client length payload) t := by
  have hmemory : q.memory = s.memory := hhas.memory
  have hproperties : q.properties = s.properties := by rw [h.same]
  have hatoms : q.atoms = s.atoms := by rw [h.same]
  rcases Server.changeProperty_replaces h.good window with
    ⟨hadmits, i, p, hholds, heq⟩ | ⟨hnot, code, bad, heq⟩
  · rw [h.property] at hadmits hholds heq
    rw [h.carried] at hholds
    have hadmits' : s.AdmitsProperty window property := hadmits.congr hmemory.symm hproperties.symm
    have hlistener : (q.setProperty i p).propertyListener window = s.propertyListener window := by
      rw [h.same]
      rfl
    unfold Server.propertyNotify at heq
    rw [hlistener] at heq
    rcases hlisten : s.propertyListener window with _ | listener <;> rw [hlisten] at heq <;>
      rw [heq] at hparse
    · have hsend := send_silent hrun hlength hhas hhandle hparse rfl
      refine ⟨q.setProperty i p, ?_, hatoms, .kept hadmits' (by rw [hlisten]; exact nofun) hholds ?_⟩
      · rw [hsend]
        exact ⟨rfl, h.whole⟩
      · rw [hsend]
        refine ⟨hget.connected.congr hmemory, ?_, hget.quiet⟩
        rw [h.same]
        exact hget.free
    · have hshort : Packet.Short ((q.setProperty i p).event listener (write8 (write32 (write32 (write32
          ((q.setProperty i p).header 28 0) 4 window) 8 property) 12
            (q.setProperty i p).incoming.sequence) 16 0)).outgoing :=
        ⟨(by decide : 32 ≤ payloadBytes), (by decide : hasMore flagEvent = false)⟩
      have hsend := send_told hsys hrun hlength hhas hhandle hparse rfl rfl hshort
        (hheard listener hlisten)
      obtain ⟨hmine, hother⟩ := sent_ready hsend h.same rfl rfl hshort
        (by decide : flagEvent ≠ flagReply) hget
      refine ⟨_, ⟨congrArg Desktop.server hsend, h.whole⟩, hatoms, ?_⟩
      by_cases hgetter : listener = getter
      · exact .noticed (hlisten.trans (congrArg some hgetter)) (hmine hgetter)
      · exact .kept hadmits' (fun hsame => hgetter (Option.some.inj (hlisten.symm.trans hsame)))
          ⟨hholds.valid, hholds.holds⟩ (hother hgetter)
  · rw [h.property] at hnot
    have hnot' : ¬s.AdmitsProperty window property := fun hadmits =>
      hnot (hadmits.congr hmemory hproperties)
    rw [heq] at hparse
    have hshort : Packet.Short (q.refuse code Opcode.changeProperty bad).2.outgoing :=
      ⟨(by decide : 32 ≤ payloadBytes), (by decide : hasMore flagError = false)⟩
    have hclient : (q.refuse code Opcode.changeProperty bad).2.outgoing.clientId = client :=
      hhas.carries.clientId
    have hsend := send_told hsys hrun hlength hhas hhandle hparse rfl rfl hshort
      (hclient ▸ hready.connected)
    obtain ⟨hmine, hother⟩ := sent_ready hsend h.same rfl rfl hshort
      (by decide : flagError ≠ flagReply) hget
    refine ⟨_, ⟨congrArg Desktop.server hsend, h.whole⟩, hatoms, ?_⟩
    by_cases hgetter : client = getter
    · exact .reported hnot' (hmine (hclient.trans hgetter))
    · exact .refused hnot' ((lacks_of_not_admits hnot').congr hmemory hproperties)
        (hother (hclient ▸ hgetter))

/-- A value is replaced through the library, which is told of no failure. -/
theorem xChangeProperty_spec (hsys : Server.Delivers sys) (hrun : d.Runs s)
    (hready : d.Ready s client) (hget : d.Ready s getter) {window property type : UInt32}
    {format : UInt8} {count bytes : ℕ} (data : ℕ → UInt8)
    (hheard : ∀ c, s.propertyListener window = some c → s.Connected c)
    (hproperty : property ≠ 0) (htype : type ≠ 0) (hformat : Server.itemBytes format ≠ 0)
    (hstated : count * (Server.itemBytes format).toNat = bytes) (hcount : bytes ≤ propertyDataBytes) :
    ∃ d' t, d.xChangeProperty sys client window property type format propModeReplace data count
        = (true, d') ∧ d'.Runs t ∧ t.atoms = s.atoms
      ∧ Changed s window property ⟨type, format, nameBytes data bytes⟩ getter d' t := by
  subst hstated
  have hunit : (format / 8).toUInt32 = Server.itemBytes format ∧ (Server.itemBytes format).toNat ≠ 0
      ∧ (format = 8 ∨ format = 16 ∨ format = 32) := by
    rcases Server.itemBytes_cases hformat with ⟨rfl, h⟩ | ⟨rfl, h⟩ | ⟨rfl, h⟩ <;> rw [h] <;> decide
  obtain ⟨hunit, hpos, hknown⟩ := hunit
  have hsmall : count ≤ propertyDataBytes :=
    (Nat.le_mul_of_pos_right count (Nat.pos_of_ne_zero hpos)).trans hcount
  have hbytes : (UInt32.ofNat count * (format / 8).toUInt32).toNat
      = count * (Server.itemBytes format).toNat := by
    unfold propertyDataBytes at hsmall hcount
    rw [hunit, UInt32.toNat_mul, UInt32.toNat_ofNat_of_lt' (show count < 2 ^ 32 by omega)]
    exact Nat.mod_eq_of_lt (by omega)
  have hrefused : ¬((format ≠ 8 ∧ format ≠ 16 ∧ format ≠ 32) ∨ 2 < propModeReplace
      ∨ propertyDataBytes < count * (Server.itemBytes format).toNat) := by
    rintro (hother | hmode | hlong)
    · rcases hknown with h | h | h
      · exact hother.1 h
      · exact hother.2.1 h
      · exact hother.2.2 h
    · exact absurd hmode (by decide)
    · omega
  unfold xChangeProperty
  rw [hbytes, if_neg hrefused]
  generalize count * (Server.itemBytes format).toNat = bytes at hcount hbytes ⊢
  obtain ⟨⟨hopcode, hmode, hwords⟩, hwindow, hproperty', htype', hformat', hcount', hdata⟩ :=
    changePropertyPayload_fields window property type format count bytes data
  have hpadded : padded bytes % 4 = 0 ∧ bytes ≤ padded bytes ∧ padded bytes ≤ 24 := by
    unfold propertyDataBytes at hcount
    unfold padded
    omega
  have hfits : 24 + padded bytes ≤ payloadBytes := by
    unfold payloadBytes
    omega
  change ∃ d' t, (true, d.send sys client (24 + padded bytes)
    (changePropertyPayload window property type format count bytes data)) = (true, d') ∧ _
  generalize changePropertyPayload window property type format count bytes data = payload
    at hopcode hmode hwords hwindow hproperty' htype' hformat' hcount' hdata ⊢
  obtain ⟨q, hhas, hhandle⟩ := send_asked payload sys hrun hready.connected.slot hfits
  have hsize : (d.packet client (24 + padded bytes) payload).payloadLength.toNat
      = 24 + padded bytes := packet_length hfits
  have hadmitted : q.Admitted := hhas.admitted (by rw [hsize]; exact hwords) (by omega) (by omega)
    hready.free
  have hfield : ∀ {a v}, a + 4 ≤ 24 → read32 payload a = v → q.field32 a = v :=
    fun ha hv => (hhas.field32 (by omega)).trans hv
  have hqformat : q.payload 16 = format := (hhas.payload (by omega)).trans hformat'
  have hcounted : q.countedBytes = bytes := by
    rw [Server.countedBytes, hfield (by omega) hcount', hqformat, ← hunit, hbytes]
  have hqlength := hhas.carries.length
  have hchanges : Changes s q property ⟨type, format, nameBytes data bytes⟩ := by
    refine ⟨hhas.same, hhas.whole, hfield (by omega) hproperty', ⟨?_, ?_, ?_, ?_, ?_, ?_⟩, ?_⟩
    · rwa [hfield (by omega) hproperty']
    · rwa [hfield (by omega) htype']
    · rwa [hqformat]
    · rwa [hcounted]
    · rw [hcounted]
      omega
    · exact (hhas.payload (by omega)).trans hmode
    · unfold Server.carried
      rw [hcounted, hfield (by omega) htype', hqformat]
      refine congrArg (Stored.mk type format) (nameBytes_inj.2 fun k hk => ?_)
      exact (hhas.payload (by omega)).trans (hdata k hk)
  have hparse : q.parseRequest sys = some (q.changeProperty window) := by
    rw [← hfield (a := 4) (by omega) hwindow]
    exact Server.parseRequest_resource hadmitted 19 rfl ((hhas.payload (by omega)).trans hopcode)
      (decide_eq_true (by omega))
  obtain ⟨t, hruns, hatoms, hchanged⟩ :=
    hchanges.sent hsys hrun hfits hhas hhandle hparse hready hget hheard
  exact ⟨_, t, rfl, hruns, hatoms, hchanged⟩

end Desktop

end DemonX

end DemonOS
