import DemonOS.Lib.KeyedTable
import DemonOS.Proofs.DemonX.Reports

/-!
# The property store of the DemonX server

A property has a type, a format and a value, and a sequence of `ChangeProperty` and `DeleteProperty`
requests says what they are (`PropertyStore.apply`): the data of a change replaces the value, or is
put before or after it. The table of the server keeps what the store says (`Session.Keeps`) along a
sequence just when no change that is taken states more data than its length can count in 32 bits
(`keeps_iff`); a slot that a refused change has left behind has no type.
-/

namespace DemonOS

namespace DemonX

/-! ## The store -/

/-- What is kept of a property. -/
structure Stored where
  type : UInt32
  format : UInt8
  bytes : List UInt8
  deriving DecidableEq

/-- The properties there are, by window and atom. -/
abbrev PropertyStore := UInt32 × UInt32 → Option Stored

def Packet.propertyKey (p : Packet) : UInt32 × UInt32 := (read32 p.payload 4, read32 p.payload 8)

/-- The length of the data of a `ChangeProperty`: its items times the bytes of one. -/
def Packet.statedBytes (p : Packet) : ℕ :=
  (read32 p.payload 20).toNat * (Server.itemBytes (p.payload 16)).toNat

def Packet.statedData (p : Packet) : List UInt8 :=
  (List.range p.statedBytes).map fun k => p.payload (24 + k)

def joined (mode : UInt8) (old data : List UInt8) : List UInt8 :=
  if mode = 0 then data else if mode = 2 then old ++ data else data ++ old

theorem length_le_joined (mode : UInt8) (old data : List UInt8) :
    data.length ≤ (joined mode old data).length := by
  unfold joined
  split_ifs <;> simp

namespace PropertyStore

def bytes (store : PropertyStore) (k : UInt32 × UInt32) : List UInt8 :=
  ((store k).map Stored.bytes).getD []

def change (store : PropertyStore) (p : Packet) : PropertyStore :=
  Function.update store p.propertyKey (some
    { type := read32 p.payload 12, format := p.payload 16
      bytes := joined (p.payload 1) (store.bytes p.propertyKey) p.statedData })

def delete (store : PropertyStore) (p : Packet) : PropertyStore :=
  Function.update store p.propertyKey none

/-- The store after a request that is not refused. -/
def apply (store : PropertyStore) (p : Packet) : PropertyStore :=
  if p.payload 0 = Opcode.changeProperty then store.change p else store.delete p

end PropertyStore

/-- A request that edits a property: a `ChangeProperty` or a `DeleteProperty`, well formed or not. -/
structure PropertyEdit where
  packet : Packet
  edits : packet.payload 0 = Opcode.changeProperty ∨ packet.payload 0 = Opcode.deleteProperty

structure Session where
  server : Server
  store : PropertyStore

def Server.requested (s : Server) (p : Packet) : Server :=
  { s with assembly := { s.assembly with incoming := p } }

/-- The request is answered with an error. -/
def isRefusal (r : Bool × Server) : Bool := r.1 && r.2.outgoing.flags == flagError

namespace Session

def start (s : Server) : Session where
  server := { s with properties := fun _ => {} }
  store := fun _ => none

/-- The server takes a request; where it does not come to an end, nothing more happens. -/
def step (sys : Answers) (t : Session) (e : PropertyEdit) : Session :=
  match (t.server.requested e.packet).parseRequest sys with
  | none => t
  | some r =>
    { server := r.2, store := if isRefusal r then t.store else t.store.apply e.packet }

end Session

/-! ## What the table holds -/

/-- The window and the atom a slot is for. -/
def Property.key (p : Property) : Option (UInt32 × UInt32) :=
  if p.used then some (p.window, p.atom) else none

def Property.value (p : Property) : List UInt8 := (List.range p.dataLength.toNat).map p.data

/-- The property in the table has the value that is kept of it. -/
structure Property.Holds (p : Property) (v : Stored) : Prop where
  type : p.type = v.type
  typed : v.type ≠ 0
  format : p.format = v.format
  formed : Server.itemBytes v.format ≠ 0
  value : p.value = v.bytes
  fits : p.dataLength.toNat ≤ propertyDataBytes
  whole : (Server.itemBytes v.format).toNat ∣ p.dataLength.toNat

/-- What the table holds under a key is what is kept there. -/
inductive SlotKeeps : Option Property → Option Stored → Prop
  | missing : SlotKeeps none none
  /-- A change that was refused has left the slot behind. -/
  | untyped {p : Property} (htype : p.type = 0) : SlotKeeps (some p) none
  | held {p : Property} {v : Stored} (h : p.Holds v) : SlotKeeps (some p) (some v)

def Server.property (s : Server) (k : UInt32 × UInt32) : Option Property :=
  KeyedTable.get propertyLimit Property.key s.properties k

/-- The table of the server keeps what the store says, and its windows are there. -/
structure Session.Keeps (t : Session) : Prop where
  unique : KeyedTable.Unique propertyLimit Property.key t.server.properties
  kept : ∀ k, SlotKeeps (t.server.property k) (t.store k)
  windows : ∀ k, (t.store k).isSome → t.server.validPropertyWindow k.1 = true

/-! ## The handlers -/

namespace Server

variable {s : Server} {id : UInt32}

theorem findProperty_eq (s : Server) (window atom : UInt32) :
    s.findProperty window atom
      = KeyedTable.find propertyLimit Property.key s.properties (window, atom) := by
  unfold findProperty KeyedTable.find
  congr 1
  funext i
  unfold Property.key
  by_cases hused : (s.properties i).used = true
  · simp [hused]
  · simp [hused]

theorem key_eq_none {p : Property} : p.key = none ↔ p.used = false := by
  unfold Property.key
  split_ifs with hused
  · simp [hused]
  · simpa using hused

def freshProperty (k : UInt32 × UInt32) : Property := { window := k.1, atom := k.2, used := true }

theorem propertySlot_cases (s : Server)
    (hunique : KeyedTable.Unique propertyLimit Property.key s.properties) (k : UInt32 × UInt32) :
    (s.propertySlot k.1 k.2 = none ∧ s.findProperty k.1 k.2 = none
        ∧ ∀ i < propertyLimit, (s.properties i).used = true)
      ∨ ∃ i p, KeyedTable.Open propertyLimit Property.key s.properties i k ∧ p.key = some k
        ∧ s.propertySlot k.1 k.2 = some (i, s.setProperty i p)
        ∧ ((s.property k = some p ∧ s.setProperty i p = s)
          ∨ (s.property k = none ∧ p = freshProperty k)) := by
  have hfound := findProperty_eq s k.1 k.2
  unfold propertySlot
  rcases hfind : s.findProperty k.1 k.2 with _ | i
  · rw [hfind] at hfound
    have hmissing : s.property k = none := by
      rw [property, KeyedTable.get, ← hfound, Option.map_none]
    rcases hfree : Table.firstIndex propertyLimit fun i => !(s.properties i).used with _ | i
    · refine .inl ⟨rfl, rfl, fun i hi => ?_⟩
      simpa using Table.firstIndex_eq_none.1 hfree i hi
    · obtain ⟨hi, hunused, -⟩ := Table.firstIndex_eq_some.1 hfree
      exact .inr ⟨i, freshProperty k, ⟨hi, .inr ⟨key_eq_none.2 (by simpa using hunused),
        hfound.symm⟩⟩, rfl, rfl, .inr ⟨hmissing, rfl⟩⟩
  · rw [hfind] at hfound
    obtain ⟨hi, hkey⟩ := (KeyedTable.find_eq_some hunique).1 hfound.symm
    have hself : s.setProperty i (s.properties i) = s := by
      rw [setProperty, Function.update_eq_self]
    exact .inr ⟨i, s.properties i, ⟨hi, .inl hkey⟩, hkey, by rw [hself],
      .inl ⟨KeyedTable.get_of_find hfound.symm, hself⟩⟩

/-- The change of a property of the window `id` is good, and there is room for it. -/
structure Takes (s : Server) (id : UInt32) : Prop where
  window : s.validPropertyWindow id = true
  atom : s.field32 8 ≠ 0
  type : s.field32 12 ≠ 0
  format : itemBytes (s.payload 16) ≠ 0
  fits : (s.field32 20 * itemBytes (s.payload 16)).toNat ≤ propertyDataBytes
  length : s.incoming.payloadLength.toNat
    = 24 + padded (s.field32 20 * itemBytes (s.payload 16)).toNat
  mode : s.payload 1 ≤ 2
  room : s.findProperty id (s.field32 8) = none → ∃ i < propertyLimit, (s.properties i).used = false
  adds : s.payload 1 ≠ 0 → ∃ p, s.property (id, s.field32 8) = some p ∧ p.type = s.field32 12
    ∧ p.format = s.payload 16
    ∧ p.dataLength.toNat + (s.field32 20 * itemBytes (s.payload 16)).toNat ≤ propertyDataBytes

def changedProperty (s : Server) (p : Property) : Property :=
  let length := s.field32 20 * itemBytes (s.payload 16)
  let dataLength := if s.payload 1 = 0 then length.toUInt8 else p.dataLength + length.toUInt8
  { p with
    type := s.field32 12, format := s.payload 16, dataLength := dataLength
    itemCount := dataLength.toUInt32 / itemBytes (s.payload 16)
    data := changedData p (s.payload 1) (fun k => s.payload (24 + k)) length.toNat }

/-- What a refused request leaves: the server as it was, or a slot taken for a property. -/
inductive Leftover (s : Server) : Server → Prop
  | same : Leftover s s
  | slot {i : ℕ} {k : UInt32 × UInt32}
      (hopen : KeyedTable.Open propertyLimit Property.key s.properties i k)
      (hmissing : s.property k = none) : Leftover s (s.setProperty i (freshProperty k))

structure Changes (s : Server) (id : UInt32) (i : ℕ) (p : Property) : Prop where
  hopen : KeyedTable.Open propertyLimit Property.key s.properties i (id, s.field32 8)
  key : p.key = some (id, s.field32 8)
  adds : s.payload 1 ≠ 0 → s.property (id, s.field32 8) = some p
  result : s.changeProperty id
    = (s.setProperty i (s.changedProperty p)).propertyNotify id (s.field32 8) 0

theorem setProperty_setProperty (s : Server) (i : ℕ) (p q : Property) :
    (s.setProperty i p).setProperty i q = s.setProperty i q := by
  unfold setProperty
  rw [Function.update_idem]

theorem changeProperty_cases (s : Server)
    (hunique : KeyedTable.Unique propertyLimit Property.key s.properties) (id : UInt32) :
    (s.Takes id ∧ ∃ i p, s.Changes id i p)
      ∨ (¬s.Takes id ∧ ∃ t code bad, Leftover s t
        ∧ s.changeProperty id = t.refuse code Opcode.changeProperty bad) := by
  by_cases hbad : !s.validPropertyWindow id ∨ s.field32 8 = 0 ∨ s.field32 12 = 0
      ∨ itemBytes (s.payload 16) = 0
      ∨ propertyDataBytes < (s.field32 20 * itemBytes (s.payload 16)).toNat
      ∨ s.incoming.payloadLength.toNat
        ≠ 24 + padded (s.field32 20 * itemBytes (s.payload 16)).toNat ∨ 2 < s.payload 1
  · refine .inr ⟨fun h => ?_, s, 2, s.field32 8, .same, ?_⟩
    · simp only [h.window, h.atom, h.type, h.format, Nat.not_lt.2 h.fits, h.length,
        UInt8.not_lt.2 h.mode, Bool.not_true, Bool.false_eq_true, ne_eq, not_true_eq_false,
        or_self] at hbad
    · unfold changeProperty
      exact if_pos hbad
  have hgood := hbad
  simp only [not_or, not_not, Bool.not_eq_true', Bool.not_eq_false, not_lt, UInt8.not_lt] at hgood
  obtain ⟨hwindow, hatom, htype, hformat, hfits, hlength, hmode⟩ := hgood
  unfold changeProperty
  rw [if_neg hbad]
  obtain ⟨hnone, hmissing, hfull⟩ | ⟨i, p, hopen, hkey, hslot, hold⟩ :=
    propertySlot_cases s hunique (id, s.field32 8)
  · refine .inr ⟨fun h => ?_, s, 11, s.field32 8, .same, by rw [hnone]⟩
    obtain ⟨i, hi, hunused⟩ := h.room hmissing
    exact absurd (hfull i hi) (by simp [hunused])
  rw [hslot]
  dsimp only
  have hself : (s.setProperty i p).properties i = p := Function.update_self _ _ _
  rw [hself]
  by_cases hadds : s.payload 1 ≠ 0 ∧ (p.type ≠ s.field32 12 ∨ p.format ≠ s.payload 16
      ∨ propertyDataBytes
        < p.dataLength.toNat + (s.field32 20 * itemBytes (s.payload 16)).toNat)
  · rw [if_pos hadds]
    refine .inr ⟨fun h => ?_, s.setProperty i p, 8, s.field32 8, ?_, rfl⟩
    · obtain ⟨q, hq, htype', hformat', hfits'⟩ := h.adds hadds.1
      obtain ⟨hsome, -⟩ | ⟨hnone, -⟩ := hold
      · obtain rfl := Option.some.inj (hq.symm.trans hsome)
        obtain ⟨-, hne | hne | hlt⟩ := hadds
        · exact hne htype'
        · exact hne hformat'
        · omega
      · exact nomatch hq.symm.trans hnone
    · obtain ⟨-, hsame⟩ | ⟨hnone, rfl⟩ := hold
      · rw [hsame]
        exact .same
      · exact .slot hopen hnone
  · rw [if_neg hadds]
    have hold' : s.payload 1 ≠ 0 → s.property (id, s.field32 8) = some p := fun hadd => by
      obtain ⟨hsome, -⟩ | ⟨-, rfl⟩ := hold
      · exact hsome
      · exact absurd ⟨hadd, .inl (Ne.symm htype)⟩ hadds
    refine .inl ⟨⟨hwindow, hatom, htype, hformat, hfits, hlength, hmode, fun hmissing => ?_,
      fun hadd => ?_⟩, i, p, ⟨hopen, hkey, hold', ?_⟩⟩
    · obtain ⟨hi, hown | ⟨hfree, -⟩⟩ := hopen
      · rw [findProperty_eq] at hmissing
        exact absurd hown (KeyedTable.find_eq_none.1 hmissing i hi)
      · exact ⟨i, hi, key_eq_none.1 hfree⟩
    · simp only [not_and, not_or, not_not, not_lt] at hadds
      exact ⟨p, hold' hadd, hadds hadd⟩
    · unfold changeProperty
      rw [if_neg hbad, hslot]
      dsimp only
      rw [hself, if_neg hadds, setProperty_setProperty]
      rfl

/-! ## The value of a property -/

theorem map_range_add (f : ℕ → UInt8) (m n : ℕ) :
    (List.range (m + n)).map f = (List.range m).map f ++ (List.range n).map fun k => f (m + k) := by
  rw [List.range_add, List.map_append, List.map_map]
  rfl

theorem map_copyBytes_inside (bytes source : ℕ → UInt8) (a count : ℕ) :
    ((List.range count).map fun k => copyBytes bytes a source count (a + k))
      = (List.range count).map source := by
  refine List.map_congr_left fun k hk => ?_
  have := List.mem_range.1 hk
  unfold copyBytes
  rw [if_pos (by omega), Nat.add_sub_cancel_left]

theorem map_copyBytes_before (bytes source : ℕ → UInt8) {a count n : ℕ} (h : n ≤ a) :
    (List.range n).map (copyBytes bytes a source count) = (List.range n).map bytes := by
  refine List.map_congr_left fun k hk => ?_
  have := List.mem_range.1 hk
  exact if_neg (by omega)

theorem itemBytes_cases {format : UInt8} (h : itemBytes format ≠ 0) :
    (format = 8 ∧ itemBytes format = 1) ∨ (format = 16 ∧ itemBytes format = 2)
      ∨ (format = 32 ∧ itemBytes format = 4) := by
  unfold itemBytes at h ⊢
  split_ifs at h ⊢ with h8 h16 h32
  · exact .inl ⟨h8, rfl⟩
  · exact .inr (.inl ⟨h16, rfl⟩)
  · exact .inr (.inr ⟨h32, rfl⟩)
  · exact absurd rfl h

def countedBytes (s : Server) : ℕ := (s.field32 20 * itemBytes (s.payload 16)).toNat

theorem changedProperty_length (s : Server) (p : Property) (hfits : s.countedBytes ≤ propertyDataBytes)
    (hadds : s.payload 1 ≠ 0 → p.dataLength.toNat + s.countedBytes ≤ propertyDataBytes) :
    (s.changedProperty p).dataLength.toNat
      = if s.payload 1 = 0 then s.countedBytes else p.dataLength.toNat + s.countedBytes := by
  unfold countedBytes propertyDataBytes at *
  unfold changedProperty
  split_ifs with hmode
  · rw [UInt32.toNat_toUInt8]
    omega
  · have := hadds hmode
    rw [UInt8.toNat_add, UInt32.toNat_toUInt8]
    omega

theorem changedProperty_value (s : Server) (p : Property) (hfits : s.countedBytes ≤ propertyDataBytes)
    (hadds : s.payload 1 ≠ 0 → p.dataLength.toNat + s.countedBytes ≤ propertyDataBytes) :
    (s.changedProperty p).value = joined (s.payload 1) p.value
      ((List.range s.countedBytes).map fun k => s.payload (24 + k)) := by
  unfold Property.value
  rw [changedProperty_length s p hfits hadds]
  have hdata : (s.changedProperty p).data
      = changedData p (s.payload 1) (fun k => s.payload (24 + k)) s.countedBytes := rfl
  rw [hdata]
  unfold joined changedData
  split_ifs with hreplace happend
  · have h := map_copyBytes_inside p.data (fun k => s.payload (24 + k)) 0 s.countedBytes
    simpa only [Nat.zero_add] using h
  · rw [map_range_add, map_copyBytes_inside, map_copyBytes_before _ _ le_rfl]
  · rw [Nat.add_comm, map_range_add]
    have h := map_copyBytes_inside (copyBytes p.data s.countedBytes p.data p.dataLength.toNat)
      (fun k => s.payload (24 + k)) 0 s.countedBytes
    simp only [Nat.zero_add] at h
    congr 1
    rw [← map_copyBytes_inside p.data p.data s.countedBytes p.dataLength.toNat]
    refine List.map_congr_left fun k _ => ?_
    exact if_neg (by omega)

theorem countedBytes_eq (s : Server) (h : s.incoming.statedBytes < 2 ^ 32) :
    s.countedBytes = s.incoming.statedBytes := by
  exact Nat.mod_eq_of_lt h

/-! ## The request an edit comes to -/

variable {sys : Answers}

variable (sys) in
theorem parseRequest_unadmitted (h : ¬s.Admitted) (hgrab : s.payload 0 ≠ Opcode.grabServer)
    (hungrab : s.payload 0 ≠ Opcode.ungrabServer) :
    ∃ code bad, s.parseRequest sys = some (s.refuse code (s.payload 0) bad) := by
  unfold parseRequest
  dsimp only
  split_ifs with hwords hg hu hgranted
  · exact ⟨_, _, rfl⟩
  · exact absurd hg.1 hgrab
  · exact absurd hu.1 hungrab
  · exact ⟨_, _, rfl⟩
  · rw [not_or, not_not] at hwords
    exact absurd ⟨rfl, hwords, rfl, by simpa using hgranted⟩ h

theorem find_misfit_eq_none {α : Type} {requests : List (Request α)}
    (hnodup : (requests.map Request.opcode).Nodup) {r : Request α} (hr : r ∈ requests) {length : ℕ}
    (hmisfit : r.takes length = false) : Request.find requests r.opcode length = none := by
  rcases hfind : Request.find requests r.opcode length with _ | handle
  · rfl
  · obtain ⟨q, hq, hop, htakes, -⟩ := Request.find_some hfind
    obtain rfl := List.inj_on_of_nodup_map hnodup hq hr hop
    exact nomatch htakes.symm.trans hmisfit

variable (sys) in
theorem parseRequest_misfit (h : s.Admitted)
    {r : Request (Server → Answers → UInt32 → Bool × Server)} (n : ℕ)
    (hn : resourceRequests[n]? = some r) (hop : s.payload 0 = r.opcode)
    (hmisfit : r.takes s.incoming.payloadLength.toNat = false) :
    ∃ code bad, s.parseRequest sys = some (s.refuse code (s.payload 0) bad) := by
  have hmem : ∀ op ∈ resourceRequests.map Request.opcode,
      (op ≠ Opcode.grabServer ∧ op ≠ Opcode.ungrabServer) ∧ op ≠ Opcode.selectInput
        ∧ op ≠ Opcode.createWindow ∧ op ∉ focusRequests.map Request.opcode
        ∧ op ∉ windowRequests.map Request.opcode := by decide +kernel
  have hr : r ∈ resourceRequests := List.mem_of_getElem? hn
  obtain ⟨⟨hgrab, hungrab⟩, hselect, hcreate, hfocus, hwindow⟩ :=
    hmem _ (List.mem_map_of_mem hr)
  rw [parseRequest_admitted h (hop ▸ hgrab) (hop ▸ hungrab)]
  unfold ungrabbedRequest windowRequest
  dsimp only
  rw [hop, find_misfit_eq_none (by decide +kernel) hr hmisfit, Request.find_eq_none hfocus,
    Request.find_eq_none hwindow]
  dsimp only
  rw [if_neg fun hroot => hselect hroot.1, if_neg hcreate]
  rcases s.findWindow (s.field32 4) with _ | i
  · exact ⟨_, _, rfl⟩
  · exact ⟨_, _, rfl⟩

structure ChangesProperty (s : Server) : Prop where
  admitted : s.Admitted
  opcode : s.payload 0 = Opcode.changeProperty
  length : 24 ≤ s.incoming.payloadLength.toNat
  takes : s.Takes (s.field32 4)

inductive Edited (sys : Answers) (s : Server) : Prop
  | changed (h : s.ChangesProperty) (hparse : s.parseRequest sys = some (s.changeProperty (s.field32 4)))
  | deleted (hop : s.payload 0 = Opcode.deleteProperty)
      (hparse : s.parseRequest sys = some (s.deleteProperty (s.field32 4)))
  | refused (h : ¬s.ChangesProperty) {t : Server} (hleft : Leftover s t) (code opcode : UInt8)
      (bad : UInt32) (hparse : s.parseRequest sys = some (t.refuse code opcode bad))

theorem edited (sys : Answers) (s : Server)
    (hunique : KeyedTable.Unique propertyLimit Property.key s.properties)
    (hop : s.payload 0 = Opcode.changeProperty ∨ s.payload 0 = Opcode.deleteProperty) :
    s.Edited sys := by
  by_cases hadmitted : s.Admitted
  · rcases hop with hop | hop
    · by_cases hlength : 24 ≤ s.incoming.payloadLength.toNat
      · have hparse : s.parseRequest sys = some (s.changeProperty (s.field32 4)) :=
          parseRequest_resource hadmitted 19 rfl hop (decide_eq_true hlength)
        obtain ⟨htakes, -⟩ | ⟨htakes, t, code, bad, hleft, hrefused⟩ :=
          changeProperty_cases s hunique (s.field32 4)
        · exact .changed ⟨hadmitted, hop, hlength, htakes⟩ hparse
        · exact .refused (fun h => htakes h.takes) hleft _ _ _ (hrefused ▸ hparse)
      · obtain ⟨code, bad, hparse⟩ := parseRequest_misfit sys hadmitted 19 rfl hop
          (decide_eq_false hlength)
        exact .refused (fun h => hlength h.length) .same _ _ _ hparse
    · by_cases hlength : s.incoming.payloadLength.toNat = 12
      · exact .deleted hop
          (parseRequest_resource hadmitted 20 rfl hop (decide_eq_true hlength))
      · obtain ⟨code, bad, hparse⟩ := parseRequest_misfit sys hadmitted 20 rfl hop
          (decide_eq_false hlength)
        exact .refused (fun h => absurd (hop.symm.trans h.opcode) (by decide)) .same _ _ _ hparse
  · have hgrabs : s.payload 0 ≠ Opcode.grabServer ∧ s.payload 0 ≠ Opcode.ungrabServer := by
      rcases hop with hop | hop
      · rw [hop]
        decide
      · rw [hop]
        decide
    obtain ⟨code, bad, hparse⟩ := parseRequest_unadmitted sys hadmitted hgrabs.1 hgrabs.2
    exact .refused (fun h => hadmitted h.admitted) .same _ _ _ hparse

/-! ## What an edit keeps -/

theorem Changes.held {i : ℕ} {p : Property} {o : Option Stored} (hc : s.Changes id i p)
    (h : s.Takes id) (hkept : SlotKeeps (s.property (id, s.field32 8)) o) (hadd : s.payload 1 ≠ 0) :
    (∃ v, o = some v ∧ p.Holds v) ∧ p.format = s.payload 16
      ∧ p.dataLength.toNat + s.countedBytes ≤ propertyDataBytes := by
  obtain ⟨q, hq, htype, hformat, hfits⟩ := h.adds hadd
  rw [hc.adds hadd] at hq hkept
  obtain rfl := Option.some.inj hq
  refine ⟨?_, hformat, hfits⟩
  cases hkept with
  | untyped hzero => exact absurd (htype.symm.trans hzero) h.type
  | held hheld => exact ⟨_, rfl, hheld⟩

theorem changedProperty_holds_iff {i : ℕ} {p : Property} {o : Option Stored} (hc : s.Changes id i p)
    (h : s.Takes id) (hkept : SlotKeeps (s.property (id, s.field32 8)) o) :
    (s.changedProperty p).Holds
        { type := s.field32 12, format := s.payload 16
          bytes := joined (s.payload 1) ((o.map Stored.bytes).getD []) s.incoming.statedData }
      ↔ s.incoming.statedBytes < 2 ^ 32 := by
  have hadds : s.payload 1 ≠ 0 → p.dataLength.toNat + s.countedBytes ≤ propertyDataBytes :=
    fun hadd => (hc.held h hkept hadd).2.2
  have hlength := changedProperty_length s p h.fits hadds
  constructor
  · intro hholds
    have hvalue := congrArg List.length hholds.value
    rw [Property.value, List.length_map, List.length_range] at hvalue
    have hstated : s.incoming.statedData.length = s.incoming.statedBytes := by
      rw [Packet.statedData, List.length_map, List.length_range]
    have hle := length_le_joined (s.payload 1) ((o.map Stored.bytes).getD []) s.incoming.statedData
    have hfits := hholds.fits
    unfold propertyDataBytes at hfits
    dsimp only at hvalue
    omega
  · intro hbig
    have hcounted := countedBytes_eq s hbig
    have hunit : (itemBytes (s.payload 16)).toNat ∣ s.countedBytes := by
      rw [hcounted]
      exact Nat.dvd_mul_left _ _
    have hvalue := changedProperty_value s p h.fits hadds
    refine ⟨rfl, h.type, rfl, h.format, ?_, ?_, ?_⟩
    · rw [hvalue, hcounted]
      unfold joined
      split_ifs with hmode
      · rfl
      all_goals
        obtain ⟨⟨v, rfl, hv⟩, -⟩ := hc.held h hkept hmode
        rw [hv.value]
        rfl
    · rw [hlength]
      split_ifs with hmode
      · exact h.fits
      · exact hadds hmode
    · rw [hlength]
      split_ifs with hmode
      · exact hunit
      · obtain ⟨⟨v, -, hv⟩, hformat, -⟩ := hc.held h hkept hmode
        have hwhole := hv.whole
        rw [← hv.format, hformat] at hwhole
        exact Nat.dvd_add hwhole hunit

theorem propertyNotify_properties (s : Server) (windowId atom : UInt32) (state : UInt8) :
    (s.propertyNotify windowId atom state).2.properties = s.properties := by
  unfold propertyNotify
  rcases s.propertyListener windowId with _ | destination <;> rfl

theorem propertyNotify_memory (s : Server) (windowId atom : UInt32) (state : UInt8) :
    (s.propertyNotify windowId atom state).2.memory = s.memory := by
  unfold propertyNotify
  rcases s.propertyListener windowId with _ | destination <;> rfl

theorem propertyNotify_accepted (s : Server) (windowId atom : UInt32) (state : UInt8) :
    isRefusal (s.propertyNotify windowId atom state) = false := by
  unfold propertyNotify
  rcases s.propertyListener windowId with _ | destination <;> rfl

theorem validPropertyWindow_congr {t : Server} (h : t.memory = s.memory) (id : UInt32) :
    t.validPropertyWindow id = s.validPropertyWindow id := by
  unfold validPropertyWindow findWindow window
  rw [h]

end Server

namespace Session

variable {sys : Answers} {t : Session} {e : PropertyEdit}

theorem Keeps.congr {u : Session} (h : t.Keeps) (hproperties : u.server.properties = t.server.properties)
    (hmemory : u.server.memory = t.server.memory) (hstore : u.store = t.store) : u.Keeps where
  unique := by
    rw [hproperties]
    exact h.unique
  kept k := by
    rw [Server.property, hproperties, hstore]
    exact h.kept k
  windows k hk := by
    rw [Server.validPropertyWindow_congr hmemory]
    exact h.windows k (hstore ▸ hk)

theorem Keeps.requested (h : t.Keeps) (p : Packet) :
    (Session.mk (t.server.requested p) t.store).Keeps := h.congr rfl rfl rfl

theorem Keeps.leftover (h : t.Keeps) {s : Server} (hleft : t.server.Leftover s) :
    (Session.mk s t.store).Keeps := by
  cases hleft with
  | same => exact h
  | @slot i k hopen hmissing =>
    have hkey : (Server.freshProperty k).key = some k := rfl
    refine ⟨KeyedTable.unique_update h.unique hopen hkey, fun l => ?_, h.windows⟩
    have hl := h.kept l
    rw [Server.property] at hl ⊢
    have hget := KeyedTable.get_update h.unique hopen hkey l
    dsimp only [Server.setProperty]
    rw [hget]
    split_ifs with heq
    · rw [heq] at hl ⊢
      rw [Server.property] at hmissing
      rw [hmissing] at hl
      generalize t.store k = o at hl ⊢
      cases hl
      exact .untyped rfl
    · exact hl

theorem Keeps.changed_iff {s : Server} {store : PropertyStore} (h : (Session.mk s store).Keeps)
    (htakes : s.Takes (s.field32 4)) :
    (Session.mk (s.changeProperty (s.field32 4)).2 (store.change s.incoming)).Keeps
      ↔ s.incoming.statedBytes < 2 ^ 32 := by
  obtain ⟨-, i, p, hc⟩ | ⟨hnot, -⟩ := Server.changeProperty_cases s h.unique (s.field32 4)
  swap
  · exact absurd htakes hnot
  have hkey : (s.changedProperty p).key = some (s.field32 4, s.field32 8) := hc.key
  have hheld := Server.changedProperty_holds_iff hc htakes (h.kept (s.field32 4, s.field32 8))
  have hget := KeyedTable.get_update h.unique hc.hopen hkey
  have hproperties : (s.changeProperty (s.field32 4)).2.properties
      = Function.update s.properties i (s.changedProperty p) := by
    rw [hc.result, Server.propertyNotify_properties]
    rfl
  have hmemory : (s.changeProperty (s.field32 4)).2.memory = s.memory := by
    rw [hc.result, Server.propertyNotify_memory]
    rfl
  have hself : store.change s.incoming (s.field32 4, s.field32 8) = some
      { type := s.field32 12, format := s.payload 16
        bytes := joined (s.payload 1)
          (((store (s.field32 4, s.field32 8)).map Stored.bytes).getD []) s.incoming.statedData } :=
    Function.update_self _ _ _
  have hother : ∀ k ≠ (s.field32 4, s.field32 8), store.change s.incoming k = store k :=
    fun k hk => Function.update_of_ne hk _ _
  rw [← hheld]
  constructor
  · intro hkeeps
    have hslot := hkeeps.kept (s.field32 4, s.field32 8)
    dsimp only at hslot
    rw [Server.property, hproperties, hget, if_pos rfl, hself] at hslot
    cases hslot with
    | held hheld => exact hheld
  · intro hholds
    refine ⟨?_, fun k => ?_, fun k hk => ?_⟩
    · dsimp only
      rw [hproperties]
      exact KeyedTable.unique_update h.unique hc.hopen hkey
    · dsimp only
      rw [Server.property, hproperties, hget]
      split_ifs with hk
      · rw [hk, hself]
        exact .held hholds
      · rw [hother k hk]
        exact h.kept k
    · dsimp only at hk ⊢
      rw [Server.validPropertyWindow_congr hmemory]
      rcases eq_or_ne k (s.field32 4, s.field32 8) with rfl | hne
      · exact htakes.window
      · rw [hother k hne] at hk
        exact h.windows k hk

theorem Keeps.deleted {s : Server} {store : PropertyStore} (h : (Session.mk s store).Keeps) :
    (Session.mk (s.deleteProperty (s.field32 4)).2 (store.delete s.incoming)).Keeps := by
  have hdropped : (Session.mk (s.dropProperty (s.field32 4) (s.field32 8))
      (store.delete s.incoming)).Keeps := by
    have hself : store.delete s.incoming (s.field32 4, s.field32 8) = none :=
      Function.update_self _ _ _
    have hother : ∀ k ≠ (s.field32 4, s.field32 8), store.delete s.incoming k = store k :=
      fun k hk => Function.update_of_ne hk _ _
    have hwindows : ∀ k, (store.delete s.incoming k).isSome → s.validPropertyWindow k.1 = true := by
      intro k hk
      rcases eq_or_ne k (s.field32 4, s.field32 8) with rfl | hne
      · rw [hself] at hk
        exact nomatch hk
      · rw [hother k hne] at hk
        exact h.windows k hk
    have hfound := Server.findProperty_eq s (s.field32 4) (s.field32 8)
    unfold Server.dropProperty
    rcases hfind : s.findProperty (s.field32 4) (s.field32 8) with _ | i
    · refine ⟨h.unique, fun k => ?_, hwindows⟩
      rcases eq_or_ne k (s.field32 4, s.field32 8) with rfl | hne
      · have hmissing : s.property (s.field32 4, s.field32 8) = none := by
          rw [Server.property, KeyedTable.get, ← hfound, hfind, Option.map_none]
        dsimp only
        rw [hself, hmissing]
        exact .missing
      · dsimp only
        rw [hother k hne]
        exact h.kept k
    · rw [hfind] at hfound
      obtain ⟨hi, hkey⟩ := (KeyedTable.find_eq_some h.unique).1 hfound.symm
      have hfreed : Property.key { s.properties i with used := false } = none := rfl
      refine ⟨KeyedTable.unique_clear h.unique hfreed i, fun k => ?_, hwindows⟩
      dsimp only [Server.property, Server.setProperty]
      rw [KeyedTable.get_clear h.unique hkey hi hfreed]
      split_ifs with hk
      · rw [hk, hself]
        exact .missing
      · rw [hother k hk]
        exact h.kept k
  exact hdropped.congr (Server.propertyNotify_properties _ _ _ _)
    (Server.propertyNotify_memory _ _ _ _) rfl

/-- A change the server makes states no more data than its length can count. -/
def InRange (t : Session) (e : PropertyEdit) : Prop :=
  (t.server.requested e.packet).ChangesProperty → e.packet.statedBytes < 2 ^ 32

theorem step_keeps_iff (sys : Answers) (h : t.Keeps) (e : PropertyEdit) :
    (t.step sys e).Keeps ↔ t.InRange e := by
  have hasked := h.requested e.packet
  unfold step InRange
  cases Server.edited sys (t.server.requested e.packet) hasked.unique e.edits with
  | changed hchanges hparse =>
    obtain ⟨-, i, p, hc⟩ | ⟨hnot, -⟩ := Server.changeProperty_cases _ hasked.unique
      ((t.server.requested e.packet).field32 4)
    swap
    · exact absurd hchanges.takes hnot
    have haccepted : isRefusal ((t.server.requested e.packet).changeProperty
        ((t.server.requested e.packet).field32 4)) = false := by
      rw [hc.result]
      exact Server.propertyNotify_accepted _ _ _ _
    have happly : t.store.apply e.packet = t.store.change e.packet := if_pos hchanges.opcode
    rw [hparse]
    dsimp only
    rw [haccepted, if_neg Bool.false_ne_true, happly]
    exact (hasked.changed_iff hchanges.takes).trans ⟨fun hlt _ => hlt, fun hin => hin hchanges⟩
  | deleted hop hparse =>
    have hnot : e.packet.payload 0 ≠ Opcode.changeProperty := fun hchange =>
      absurd (hop.symm.trans hchange) (by decide)
    have haccepted : isRefusal ((t.server.requested e.packet).deleteProperty
        ((t.server.requested e.packet).field32 4)) = false := Server.propertyNotify_accepted _ _ _ _
    have happly : t.store.apply e.packet = t.store.delete e.packet := if_neg hnot
    rw [hparse]
    dsimp only
    rw [haccepted, if_neg Bool.false_ne_true, happly]
    exact iff_of_true hasked.deleted fun hchanges => absurd hchanges.opcode hnot
  | refused hnot hleft code opcode bad hparse =>
    rw [hparse]
    exact iff_of_true ((hasked.leftover hleft).congr rfl rfl rfl) fun hchanges => absurd hchanges hnot

theorem start_keeps (s : Server) : (start s).Keeps where
  unique i _ _ _ k hi _ := nomatch (hi : none = some k)
  kept k := by
    exact .missing
  windows _ hk := nomatch hk

/-- The table keeps what the store says all along a sequence of requests just when every change that
is made is in range. -/
theorem keeps_iff (sys : Answers) (s : Server) (edits : List PropertyEdit) :
    (∀ before, before <+: edits → (Machine.run (step sys) (start s) before).Keeps)
      ↔ Machine.Meets (step sys) InRange (start s) edits := by
  rw [Machine.prefixes_iff (step sys) edits (start s) (start_keeps s)]
  exact Machine.meets_congr (step sys) (fun _ e ht => step_keeps_iff sys ht e)
    (fun _ _ _ hkept => hkept) edits (start s) (start_keeps s)

end Session

end DemonX

end DemonOS
