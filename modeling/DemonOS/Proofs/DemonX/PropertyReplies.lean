import DemonOS.Proofs.DemonX.Properties

/-!
# The replies to GetProperty

`GetProperty` asks for the words of a property from an offset on. Where the table keeps what the
store says, the reply is right (`Session.Replies`) just when the offset and the length in bytes,
which the server takes modulo `2^32`, come to the same (`Stored.InRange`), and over a whole sequence
of changes the store is kept and the reply right just when the changes are in range as well
(`property_reply_iff`). An offset of `2^30` words is answered with the start of the property
(`property_offset_wraps`).
-/

namespace DemonOS

namespace DemonX

/-- The bytes of a value that a request is answered with, 16 at most. -/
def Stored.part (v : Stored) (offset length : ℕ) : List UInt8 :=
  (v.bytes.drop (4 * offset)).take (min (4 * length) 16)

/-- The reply carries the type, the format and a part of the value, and says what comes after. -/
structure CarriesPart (v : Stored) (offset length : ℕ) (reply : Packet) : Prop where
  flags : reply.flags = flagReply
  format : reply.payload 1 = v.format
  type : read32 reply.payload 8 = v.type
  data : ((List.range (v.part offset length).length).map fun k => reply.payload (32 + k))
    = v.part offset length
  items : (read32 reply.payload 16).toNat * (Server.itemBytes v.format).toNat
    = (v.part offset length).length
  words : (read32 reply.payload 4).toNat = ((v.part offset length).length + 3) / 4
  size : reply.payloadLength.toNat = 32 + padded (v.part offset length).length
  after : (read32 reply.payload 12).toNat
    = v.bytes.length - 4 * offset - (v.part offset length).length

/-- The answer to a request for a part of the value: an error where it starts past the end. -/
structure RightAnswer (v : Stored) (offset length : ℕ) (r : Bool × Server) : Prop where
  sent : r.1 = true
  error : r.2.outgoing.flags = flagError ↔ v.bytes.length < 4 * offset
  carries : 4 * offset ≤ v.bytes.length → CarriesPart v offset length r.2.outgoing

/-- The offset, in bytes and modulo `2^32`, is past the end where it is as a number, and so far as
the length goes round it still takes in the part that is asked for. -/
structure Stored.InRange (v : Stored) (offset length : ℕ) : Prop where
  start : 2 ^ 30 ≤ offset → v.bytes.length < 4 * offset % 2 ^ 32
  size : 4 * offset ≤ v.bytes.length → 2 ^ 30 ≤ length →
    min (v.bytes.length - 4 * offset) 16 ≤ 4 * length % 2 ^ 32

/-! ## The fields of a reply -/

theorem toNat_min (a b : UInt32) : (min a b).toNat = min a.toNat b.toNat := by
  have hmin : min a b = if a ≤ b then a else b := rfl
  rw [hmin]
  split_ifs with h
  · exact (Nat.min_eq_left (UInt32.le_iff_toNat_le.1 h)).symm
  · rw [UInt32.le_iff_toNat_le] at h
    omega

theorem toNat_mul_four (a : UInt32) : (a * 4).toNat = 4 * a.toNat % 2 ^ 32 := by
  rw [UInt32.toNat_mul, Nat.mul_comm]
  rfl

theorem Property.Holds.length_eq {p : Property} {v : Stored} (h : p.Holds v) :
    v.bytes.length = p.dataLength.toNat := by
  rw [← h.value, Property.value, List.length_map, List.length_range]

namespace Server

variable (s : Server) (p : Property) (offset length : UInt32)

def returnedBytes : UInt32 := min (min (p.dataLength.toUInt32 - offset) length) 16

theorem propertyReply_payload :
    (s.propertyReply p offset length).2.outgoing.payload
      = copyBytes (write32 (write32 (write32 (write32 (write8 (s.header 1 0) 1 p.format) 4
          ((returnedBytes p offset length + 3) / 4)) 8 p.type) 12
          (p.dataLength.toUInt32 - offset - returnedBytes p offset length)) 16
          (if p.format.toUInt32 / 8 = 0 then 0
            else returnedBytes p offset length / (p.format.toUInt32 / 8))) 32
        (fun k => p.data (offset.toNat + k)) (returnedBytes p offset length).toNat := rfl

theorem read32_copyBytes_of_disjoint (bytes source : ℕ → UInt8) {a count b : ℕ} (h : b + 4 ≤ a) :
    read32 (copyBytes bytes a source count) b = read32 bytes b := by
  rw [read32, load_copyBytes_of_disjoint bytes source (.inl h), read32]

theorem propertyReply_fields :
    let reply := (s.propertyReply p offset length).2.outgoing.payload
    reply 1 = p.format ∧ read32 reply 4 = (returnedBytes p offset length + 3) / 4
      ∧ read32 reply 8 = p.type
      ∧ read32 reply 12 = p.dataLength.toUInt32 - offset - returnedBytes p offset length
      ∧ read32 reply 16 = (if p.format.toUInt32 / 8 = 0 then 0
          else returnedBytes p offset length / (p.format.toUInt32 / 8))
      ∧ ∀ k < (returnedBytes p offset length).toNat, reply (32 + k) = p.data (offset.toNat + k) := by
  dsimp only
  rw [propertyReply_payload]
  refine ⟨?_, ?_, ?_, ?_, ?_, fun k hk => ?_⟩
  · rw [← read8_eq (copyBytes _ _ _ _) 1, read8, load_copyBytes_of_disjoint _ _ (.inl (by omega)),
      ← read8]
    simp (disch := omega) only [write8, write32, read8_store_of_disjoint, read8_store_self]
  · rw [read32_copyBytes_of_disjoint _ _ (by omega)]
    simp (disch := omega) only [write8, write32, read32_store_of_disjoint, read32_store_self]
  · rw [read32_copyBytes_of_disjoint _ _ (by omega)]
    simp (disch := omega) only [write8, write32, read32_store_of_disjoint, read32_store_self]
  · rw [read32_copyBytes_of_disjoint _ _ (by omega)]
    simp (disch := omega) only [write8, write32, read32_store_of_disjoint, read32_store_self]
  · rw [read32_copyBytes_of_disjoint _ _ (by omega)]
    exact read32_write32 _ _ _
  · unfold copyBytes
    rw [if_pos (by omega), Nat.add_sub_cancel_left]

variable {p offset length} {v : Stored} {o n : ℕ}

theorem part_length (v : Stored) (o n : ℕ) :
    (v.part o n).length = min (min (4 * n) 16) (v.bytes.length - 4 * o) := by
  rw [Stored.part, List.length_take, List.length_drop]

theorem rest_toNat (hoffset : offset.toNat ≤ p.dataLength.toNat) :
    (p.dataLength.toUInt32 - offset).toNat = p.dataLength.toNat - offset.toNat := by
  have hle : offset ≤ p.dataLength.toUInt32 := by
    rw [UInt32.le_iff_toNat_le, UInt8.toNat_toUInt32]
    exact hoffset
  rw [UInt32.toNat_sub_of_le _ _ hle, UInt8.toNat_toUInt32]

variable (length) in
theorem returnedBytes_toNat (hoffset : offset.toNat ≤ p.dataLength.toNat) :
    (returnedBytes p offset length).toNat
      = min (min (p.dataLength.toNat - offset.toNat) length.toNat) 16 := by
  unfold returnedBytes
  rw [toNat_min, toNat_min, rest_toNat hoffset]
  rfl

theorem dvd_part_length (h : p.Holds v) (o n : ℕ) :
    (itemBytes v.format).toNat ∣ (v.part o n).length := by
  have hwhole := h.whole
  rw [part_length, h.length_eq]
  obtain ⟨-, hunit⟩ | ⟨-, hunit⟩ | ⟨-, hunit⟩ := itemBytes_cases h.formed
  · rw [hunit]
    exact one_dvd _
  · rw [hunit] at hwhole ⊢
    change 2 ∣ _ at hwhole ⊢
    omega
  · rw [hunit] at hwhole ⊢
    change 4 ∣ _ at hwhole ⊢
    omega

theorem unit_eq (h : itemBytes v.format ≠ 0) : v.format.toUInt32 / 8 = itemBytes v.format := by
  obtain ⟨hformat, hunit⟩ | ⟨hformat, hunit⟩ | ⟨hformat, hunit⟩ := itemBytes_cases h
  all_goals
    rw [hunit, hformat]
    rfl

theorem part_eq (h : p.Holds v) (o n : ℕ) :
    v.part o n = (List.range (v.part o n).length).map fun k => p.data (4 * o + k) := by
  refine List.ext_getElem (by simp) fun k hk _ => ?_
  unfold Stored.part
  simp only [← h.value, Property.value, List.getElem_take, List.getElem_drop, List.getElem_map,
    List.getElem_range]

variable (length) in
theorem propertyReply_carries_iff (h : p.Holds v) (hoffset : offset.toNat = 4 * o)
    (hstart : 4 * o ≤ v.bytes.length) :
    CarriesPart v o n (s.propertyReply p offset length).2.outgoing
      ↔ (returnedBytes p offset length).toNat = (v.part o n).length := by
  obtain ⟨hformat, hwords, htype, hafter, hitems, hdata⟩ := s.propertyReply_fields p offset length
  have hlength := h.length_eq
  have hle : offset.toNat ≤ p.dataLength.toNat := by omega
  have hreturned := returnedBytes_toNat length hle
  have hpart := part_length v o n
  have hfits : returnedBytes p offset length ≤ p.dataLength.toUInt32 - offset := by
    rw [UInt32.le_iff_toNat_le, rest_toNat hle]
    omega
  have hrest := UInt32.toNat_sub_of_le _ _ hfits
  rw [rest_toNat hle, ← hafter] at hrest
  constructor
  · intro hcarries
    have := hcarries.after
    omega
  · intro heq
    refine ⟨rfl, hformat.trans h.format, htype.trans h.type, ?_, ?_, ?_, ?_, ?_⟩
    · rw [part_eq h o n, List.length_map, List.length_range]
      refine List.map_congr_left fun k hk => ?_
      rw [hdata k (heq ▸ List.mem_range.1 hk), hoffset]
    · rw [hitems, h.format, unit_eq h.formed, if_neg h.formed, UInt32.toNat_div, heq]
      exact Nat.div_mul_cancel (dvd_part_length h o n)
    · have hsmall : (returnedBytes p offset length).toNat ≤ 16 := by omega
      rw [hwords, UInt32.toNat_div, UInt32.toNat_add, heq]
      change ((v.part o n).length + 3) % 2 ^ 32 / 4 = _
      omega
    · change (UInt16.ofNat (32 + padded (returnedBytes p offset length).toNat)).toNat = _
      rw [heq, UInt16.toNat_ofNat']
      unfold padded
      omega
    · omega

/-- What `getProperty` comes to for a property of the type asked for: an error where the offset in
bytes is past its end, else the reply. -/
theorem getProperty_cases {id : UInt32} (hvalid : s.validPropertyWindow id = true)
    (hp : s.property (id, s.field32 8) = some p)
    (htype : s.field32 12 = 0 ∨ s.field32 12 = p.type) :
    (p.dataLength.toNat < (s.field32 16 * 4).toNat
        ∧ s.getProperty id = s.refuse 2 Opcode.getProperty (s.field32 16))
      ∨ ((s.field32 16 * 4).toNat ≤ p.dataLength.toNat ∧ (s.getProperty id).1 = true
        ∧ (s.getProperty id).2.outgoing
          = (s.propertyReply p (s.field32 16 * 4) (s.field32 20 * 4)).2.outgoing) := by
  obtain ⟨i, hi, rfl⟩ := Option.map_eq_some_iff.1 hp
  unfold getProperty
  rw [hvalid, findProperty_eq, hi]
  dsimp only
  rw [if_neg (by simp), if_neg (by tauto)]
  by_cases hpast : (s.properties i).dataLength.toUInt32 < s.field32 16 * 4
  · have hlt := UInt32.lt_iff_toNat_lt.1 hpast
    rw [UInt8.toNat_toUInt32] at hlt
    exact .inl ⟨hlt, if_pos hpast⟩
  · rw [if_neg hpast]
    rw [UInt32.lt_iff_toNat_lt, UInt8.toNat_toUInt32, not_lt] at hpast
    refine .inr ⟨hpast, rfl, ?_⟩
    dsimp only
    split_ifs <;> rfl

theorem getProperty_right_iff {id : UInt32} (hvalid : s.validPropertyWindow id = true)
    (hp : s.property (id, s.field32 8) = some p) (h : p.Holds v)
    (htype : s.field32 12 = 0 ∨ s.field32 12 = v.type) :
    RightAnswer v (s.field32 16).toNat (s.field32 20).toNat (s.getProperty id)
      ↔ v.InRange (s.field32 16).toNat (s.field32 20).toNat := by
  have hlength := h.length_eq
  have hbyte := p.dataLength.toNat_lt
  have hoffset := toNat_mul_four (s.field32 16)
  have hn := toNat_mul_four (s.field32 20)
  have hwide := (s.field32 16).toNat_lt
  obtain ⟨hlt, hrefused⟩ | ⟨hle, hsent, hreply⟩ :=
    getProperty_cases s hvalid hp (h.type ▸ htype)
  · -- the offset is past the end even modulo 2^32
    refine iff_of_true ⟨by rw [hrefused]; rfl, ?_, fun hstart => ?_⟩ ⟨fun _ => ?_, fun hstart => ?_⟩
    · rw [hrefused]
      exact iff_of_true rfl (by omega)
    all_goals omega
  · have hflags : (s.getProperty id).2.outgoing.flags = flagReply := by
      rw [hreply]
      rfl
    have hnoerror : ¬(s.getProperty id).2.outgoing.flags = flagError := by
      rw [hflags]
      decide
    by_cases hround : 2 ^ 30 ≤ (s.field32 16).toNat
    · exact iff_of_false (fun hright => hnoerror (hright.error.2 (by omega)))
        fun hrange => by have := hrange.start hround; omega
    have hexact : (s.field32 16 * 4).toNat = 4 * (s.field32 16).toNat := by omega
    have hstart : 4 * (s.field32 16).toNat ≤ v.bytes.length := by omega
    have hcarries := propertyReply_carries_iff s (s.field32 20 * 4)
      (n := (s.field32 20).toNat) h hexact hstart
    have hreturned := returnedBytes_toNat (s.field32 20 * 4) hle
    have hpart := part_length v (s.field32 16).toNat (s.field32 20).toNat
    constructor
    · intro hright
      have := hcarries.1 (hreply ▸ hright.carries hstart)
      exact ⟨fun hfar => absurd hfar hround, fun _ hlong => by omega⟩
    · intro hrange
      refine ⟨hsent, iff_of_false hnoerror (by omega), fun _ => ?_⟩
      rw [hreply]
      refine hcarries.2 ?_
      by_cases hlong : 2 ^ 30 ≤ (s.field32 20).toNat
      · have := hrange.size hstart hlong
        omega
      · omega

end Server

/-! ## A request after a sequence of changes -/

structure Session.Gets (t : Session) (g : Packet) (v : Stored) : Prop where
  admitted : (t.server.requested g).Admitted
  opcode : g.payload 0 = Opcode.getProperty
  length : g.payloadLength = 24
  known : t.store g.propertyKey = some v
  type : read32 g.payload 12 = 0 ∨ read32 g.payload 12 = v.type

/-- The request is answered, and rightly. -/
def Session.Replies (sys : Answers) (t : Session) (g : Packet) (v : Stored) : Prop :=
  ∃ r, (t.server.requested g).parseRequest sys = some r
    ∧ RightAnswer v (read32 g.payload 16).toNat (read32 g.payload 20).toNat r

theorem Session.Keeps.replies_iff {sys : Answers} {t : Session} {g : Packet} {v : Stored}
    (h : t.Keeps) (hgets : t.Gets g v) :
    t.Replies sys g v ↔ v.InRange (read32 g.payload 16).toNat (read32 g.payload 20).toNat := by
  have hasked := h.requested g
  have hparse : (t.server.requested g).parseRequest sys
      = some ((t.server.requested g).getProperty ((t.server.requested g).field32 4)) :=
    Server.parseRequest_resource hgets.admitted 21 rfl hgets.opcode
      (decide_eq_true (congrArg UInt16.toNat hgets.length))
  have hslot := hasked.kept g.propertyKey
  have hvalid := hasked.windows g.propertyKey (Option.isSome_iff_exists.2 ⟨v, hgets.known⟩)
  dsimp only at hslot hvalid
  rw [hgets.known] at hslot
  rcases hp : (t.server.requested g).property g.propertyKey with _ | p
  · rw [hp] at hslot
    exact nomatch hslot
  rw [hp] at hslot
  cases hslot with
  | held hheld =>
    have hright := Server.getProperty_right_iff _ hvalid hp hheld hgets.type
    refine Iff.trans ?_ hright
    unfold Session.Replies
    rw [hparse]
    exact ⟨fun ⟨r, hr, hans⟩ => Option.some.inj hr ▸ hans, fun hans => ⟨_, rfl, hans⟩⟩

/-- All along a sequence of changes and deletions the table keeps what they make of the store, and
the `GetProperty` after it is answered with an error or with the part of the value it asks for, just
when no change is made of more data than 32 bits count and neither the offset nor the length of the
request goes round to a smaller one. -/
theorem property_reply_iff (sys : Answers) (s : Server) (edits : List PropertyEdit) (g : Packet)
    (v : Stored) (h : (Machine.run (Session.step sys) (Session.start s) edits).Gets g v) :
    ((∀ before, before <+: edits →
        (Machine.run (Session.step sys) (Session.start s) before).Keeps)
      ∧ (Machine.run (Session.step sys) (Session.start s) edits).Replies sys g v)
      ↔ Machine.Meets (Session.step sys) Session.InRange (Session.start s) edits
        ∧ v.InRange (read32 g.payload 16).toNat (read32 g.payload 20).toNat := by
  rw [Session.keeps_iff sys s edits]
  refine and_congr_right fun hmeets => ?_
  exact ((Session.keeps_iff sys s edits).2 hmeets edits List.prefix_rfl).replies_iff h

/-! ## A property of one byte -/

def byteEdit : PropertyEdit where
  packet :=
    { payloadLength := 28
      payload := write8 (write8 (write8 (write32 (write32 (write32 (write16 (write8 (fun _ => 0) 0
        Opcode.changeProperty) 2 7) 4 rootWindow) 8 40) 12 31) 16 8) 20 1) 24 97 }
  edits := .inl (by decide)

def wordRequest (offset : UInt32) : Packet where
  payloadLength := 24
  payload := write8 (write32 (write32 (write32 (write16 (write8 (fun _ => 0) 0
    Opcode.getProperty) 2 6) 4 rootWindow) 8 40) 16 offset) 20 1

def byteSession : Session :=
  Machine.run (Session.step fun _ => failure) (Session.start {}) [byteEdit]

theorem byteSession_gets {g : Packet} (hg : g = wordRequest 0 ∨ g = wordRequest 0x40000000) :
    byteSession.Gets g ⟨31, 8, [97]⟩ := by
  rcases hg with rfl | rfl
  all_goals exact ⟨⟨rfl, by decide +kernel, rfl, by decide +kernel⟩, by decide +kernel, rfl,
    by decide +kernel, by decide +kernel⟩

/-- The byte is read back. -/
theorem property_reply_byte :
    ((∀ before, before <+: [byteEdit] →
        (Machine.run (Session.step fun _ => failure) (Session.start {}) before).Keeps)
      ∧ byteSession.Replies (fun _ => failure) (wordRequest 0) ⟨31, 8, [97]⟩)
      ↔ Machine.Meets (Session.step fun _ => failure) Session.InRange (Session.start {}) [byteEdit]
        ∧ Stored.InRange ⟨31, 8, [97]⟩ 0 1 :=
  property_reply_iff (fun _ => failure) {} [byteEdit] (wordRequest 0) ⟨31, 8, [97]⟩
    (byteSession_gets (.inl rfl))

/-- A request from the word `2^30` on is answered with the first byte of the value. -/
theorem property_offset_wraps :
    ¬∀ (sys : Answers) (s : Server) (edits : List PropertyEdit) (g : Packet) (v : Stored),
      (Machine.run (Session.step sys) (Session.start s) edits).Gets g v →
        (Machine.run (Session.step sys) (Session.start s) edits).Replies sys g v := by
  intro h
  obtain ⟨r, hr, hright⟩ := h (fun _ => failure) {} [byteEdit] (wordRequest 0x40000000) _
    (byteSession_gets (.inr rfl))
  have hreply : (((byteSession.server.requested (wordRequest 0x40000000)).parseRequest
      fun _ => failure).map fun r => r.2.outgoing.flags) = some flagReply := by decide +kernel
  have hflags : r.2.outgoing.flags = flagReply := by
    have hmap := congrArg (Option.map fun r => r.2.outgoing.flags) hr
    exact (Option.some.inj (hreply.symm.trans hmap)).symm
  have herror := hright.error.2 (by decide +kernel)
  rw [hflags] at herror
  exact absurd herror (by decide)

end DemonX

end DemonOS
