import DemonOS.DemonX.Protocol
import Mathlib.Data.List.Infix
import Mathlib.Data.List.Forall2

/-!
# Messages over the DemonX transport

A record reaches the other side as it was sent (`ofWire_toWire`), and each of the two reassemblers
takes the next record of the message it holds the start of (`receive_record`, `loop_record`). So a
message that is sent without interruption arrives (`fragmentation_round_trip`). In a channel that
several clients write to, all complete messages arrive exactly when no record comes between two
records of one message (`reassembly_contiguous`).
-/

namespace DemonOS

namespace DemonX

variable {a : Assembly} {offset : ℕ} {p : Packet}

/-! ## The continuation flag -/

theorem hasMore_or {flags : UInt16} (h : hasMore flags = false) (b : Bool) :
    hasMore (flags ||| if b then flagMore else 0) = b := by
  have hflags : flags &&& flagMore = 0 := by simpa [hasMore] using h
  have hor : ∀ x : UInt16, (flags ||| x) &&& flagMore = (flags &&& flagMore) ||| (x &&& flagMore) :=
    fun x => UInt16.toBitVec_inj.1 (by ext i; simp [Bool.and_or_distrib_right])
  unfold hasMore
  rw [hor, hflags]
  cases b <;> decide

theorem withoutMore_or {flags : UInt16} (h : hasMore flags = false) (b : Bool) :
    withoutMore (flags ||| if b then flagMore else 0) = flags := by
  have hflags : flags &&& flagMore = 0 := by simpa [hasMore] using h
  have hbit : ∀ i (hi : i < 16), (flags.toBitVec[i] && flagMore.toBitVec[i]) = false := by
    intro i hi
    have := congrArg (fun x : UInt16 => x.toBitVec[i]) hflags
    simpa using this
  refine UInt16.toBitVec_inj.1 ?_
  unfold withoutMore
  ext i hi
  cases b <;> cases hf : flags.toBitVec[i] <;> simp_all

/-! ## Records on the wire -/

theorem load_toWire (p : Packet) {a k : ℕ} (h : a + k ≤ 16) :
    LittleEndian.load p.toWire a k = LittleEndian.load (write32 (write32 (write16 (write16
      (write32 (fun _ => 0) 0 p.magic) 4 p.payloadLength) 6 p.flags) 8 p.clientId) 12
      p.sequence) a k := load_copyBytes_of_disjoint _ _ (by omega)

theorem payload_toWire (h : ∀ i, payloadBytes ≤ i → p.payload i = 0) (i : ℕ) :
    p.toWire (16 + i) = p.payload i := by
  unfold Packet.toWire copyBytes
  split_ifs with hi
  · rw [Nat.add_sub_cancel_left]
  · rw [h i (by omega)]
    simp (disch := omega) only [write32, write16, LittleEndian.store_apply_of_disjoint]

/-- A record comes out of a channel as it went in. -/
theorem ofWire_toWire (h : ∀ i, payloadBytes ≤ i → p.payload i = 0) :
    Packet.ofWire p.toWire = p := by
  refine Packet.ext ?_ ?_ ?_ ?_ ?_ (funext (payload_toWire h))
  all_goals
    simp (disch := omega) only [Packet.ofWire, read32, read16, load_toWire, write32, write16,
      LittleEndian.load_store_of_disjoint]
  · exact read32_write32 _ _ p.magic
  · exact read16_write16 _ _ p.payloadLength
  · exact read16_write16 _ _ p.flags
  · exact read32_write32 _ _ p.clientId
  · exact read32_write32 _ _ p.sequence

theorem clientId_ofWire (p : Packet) : (Packet.ofWire p.toWire).clientId = p.clientId := by
  simp (disch := omega) only [Packet.ofWire, read32, load_toWire, write32,
    LittleEndian.load_store_of_disjoint]
  exact read32_write32 _ _ p.clientId

theorem Packet.recordCount_le (p : Packet) (offset : ℕ) : p.recordCount offset ≤ payloadBytes :=
  min_le_right _ _

theorem record_length (p : Packet) (offset : ℕ) :
    (p.record offset).payloadLength.toNat = p.recordCount offset :=
  UInt16.toNat_ofNat_of_lt' (lt_of_le_of_lt (p.recordCount_le offset) (by decide))

theorem record_ofWire (p : Packet) (offset : ℕ) :
    Packet.ofWire (p.record offset).toWire = p.record offset :=
  ofWire_toWire fun i hi => if_neg (by have := p.recordCount_le offset; omega)

/-! ## One record -/

/-- A message that can be sent: its payload fits, and the continuation flag is left to the
splitter. -/
structure Packet.Logical (p : Packet) : Prop where
  fits : p.payloadLength.toNat ≤ messageBytes
  plain : hasMore p.flags = false

def Packet.FromClient (p : Packet) : Prop := p.clientId ≠ 0 ∧ p.clientId ≤ maxClients

structure Carries (q p : Packet) (n : ℕ) : Prop where
  length : q.payloadLength.toNat = n
  bytes : ∀ i < n, q.payload i = p.payload i
  clientId : q.clientId = p.clientId
  sequence : q.sequence = p.sequence
  flags : q.flags = p.flags

def Packet.moreAt (p : Packet) (offset : ℕ) : Bool :=
  p.recordCount offset < p.payloadLength.toNat - offset

theorem Packet.Logical.hasMore_record (hp : p.Logical) (offset : ℕ) :
    hasMore (p.record offset).flags = p.moreAt offset := by
  have := hasMore_or hp.plain (p.moreAt offset)
  simpa [Packet.record, Packet.moreAt] using this

theorem Packet.Logical.withoutMore_record (hp : p.Logical) (offset : ℕ) :
    withoutMore (p.record offset).flags = p.flags := by
  have := withoutMore_or hp.plain (p.moreAt offset)
  simpa [Packet.record, Packet.moreAt] using this

theorem copyBytes_record {bytes : ℕ → UInt8}
    (h : ∀ i < offset, bytes i = p.payload i) :
    ∀ i < offset + p.recordCount offset,
      copyBytes bytes offset (p.record offset).payload (p.recordCount offset) i = p.payload i := by
  intro i hi
  unfold copyBytes
  split_ifs with hin
  · simp only [Packet.record]
    rw [if_pos (by omega), Nat.add_sub_cancel' hin.1]
  · exact h i (by omega)

theorem Carries.append {q p : Packet} (hp : p.Logical)
    (hle : offset ≤ p.payloadLength.toNat) (h : Carries q p offset) :
    Carries (q.append (p.record offset)) p (offset + p.recordCount offset) where
  length := by
    have hfits := hp.fits
    have hcount := p.recordCount_le offset
    simp only [Packet.append, UInt16.toNat_add, record_length, h.length]
    refine Nat.mod_eq_of_lt ?_
    unfold messageBytes payloadBytes at *
    omega
  bytes := by
    simp only [Packet.append, record_length, h.length]
    exact copyBytes_record h.bytes
  clientId := h.clientId
  sequence := h.sequence
  flags := h.flags

/-- The server takes the next record of the message it holds the start of. -/
theorem receive_record (hp : p.Logical)
    (hc : p.FromClient) (hle : offset ≤ p.payloadLength.toNat)
    (h : if a.active then Carries a.incoming p offset else offset = 0) :
    ∃ a', a.receive (p.record offset) = .ok a' ∧ a'.active = p.moreAt offset
      ∧ Carries a'.incoming p (offset + p.recordCount offset) := by
  have htarget : Carries (a.target (p.record offset)) p offset := by
    unfold Assembly.target
    split_ifs with hactive
    · rwa [if_pos hactive] at h
    · rw [if_neg hactive] at h
      subst h
      exact ⟨rfl, fun i hi => absurd hi (by omega), rfl, rfl, hp.withoutMore_record 0⟩
  have hcontinues : (a.active && !a.continues (p.record offset)) = false := by
    cases hactive : a.active
    · rfl
    · rw [if_pos hactive] at h
      have hclient : (p.record offset).clientId = p.clientId := rfl
      have hsequence : (p.record offset).sequence = p.sequence := rfl
      simp [Assembly.continues, h.clientId, h.sequence, h.flags, hp.withoutMore_record, hclient,
        hsequence]
  have hfits : (a.target (p.record offset)).payloadLength.toNat
      + (p.record offset).payloadLength.toNat ≤ messageBytes := by
    have := hp.fits
    rw [htarget.length, record_length, Packet.recordCount]
    omega
  refine ⟨⟨hasMore (p.record offset).flags, (a.target (p.record offset)).append (p.record offset)⟩,
    ?_, hp.hasMore_record offset, htarget.append hp hle⟩
  have hcount := p.recordCount_le offset
  unfold Assembly.receive
  rw [if_neg (by rw [record_length]; simp [Packet.record, hcount]),
    if_neg (by simpa [Packet.record, Packet.FromClient] using hc), hcontinues, if_neg (by simp), if_neg (by omega)]

theorem receive_foreign {wire : Packet} (hactive : a.active = true)
    (h : a.incoming.clientId ≠ wire.clientId) : ∃ code, a.receive wire = .error code := by
  have hcontinues : (a.active && !a.continues wire) = true := by
    simp [hactive, Assembly.continues, h]
  unfold Assembly.receive
  split_ifs
  · exact ⟨_, rfl⟩
  · exact ⟨_, rfl⟩
  · exact ⟨_, rfl⟩

theorem Packet.moreAt_iff (p : Packet) (hle : offset ≤ p.payloadLength.toNat) :
    p.moreAt offset = true ↔ offset + p.recordCount offset < p.payloadLength.toNat := by
  rw [Packet.moreAt, decide_eq_true_iff]
  omega

theorem Packet.recordCount_last (hle : offset ≤ p.payloadLength.toNat)
    (h : p.moreAt offset = false) : offset + p.recordCount offset = p.payloadLength.toNat := by
  rw [← Bool.not_eq_true, p.moreAt_iff hle, Packet.recordCount] at h
  unfold Packet.recordCount
  omega

theorem Packet.recordsFrom_succ (p : Packet) {turns offset : ℕ}
    (hle : offset ≤ p.payloadLength.toNat) :
    p.recordsFrom (turns + 1) offset = p.record offset ::
      if p.moreAt offset then p.recordsFrom turns (offset + p.recordCount offset) else [] := by
  rw [Packet.recordsFrom]
  simp only [← p.moreAt_iff hle]

/-! ## One message -/

theorem feed_recordsFrom (hp : p.Logical) (hc : p.FromClient) :
    ∀ (turns offset : ℕ) (a : Assembly), offset ≤ p.payloadLength.toNat →
      p.payloadLength.toNat - offset < turns →
      (if a.active then Carries a.incoming p offset else offset = 0) →
      ∃ a', a.feed ((p.recordsFrom turns offset).map Packet.toWire) = .ok ([a'.incoming], a')
        ∧ a'.active = false ∧ Carries a'.incoming p p.payloadLength.toNat
  | 0, _, _, _, hturns, _ => absurd hturns (Nat.not_lt_zero _)
  | turns + 1, offset, a, hle, hturns, h => by
    obtain ⟨a', hreceive, hactive, hcarries⟩ := receive_record hp hc hle h
    rw [p.recordsFrom_succ hle, List.map_cons, Assembly.feed, record_ofWire, hreceive]
    cases hmore : p.moreAt offset with
    | false =>
      rw [p.recordCount_last hle hmore] at hcarries
      rw [hmore] at hactive
      refine ⟨a', ?_, hactive, hcarries⟩
      simp [Assembly.feed, Except.map, hactive]
    | true =>
      have hlt := (p.moreAt_iff hle).1 hmore
      have hcount : p.recordCount offset = payloadBytes := by
        unfold Packet.recordCount at hlt ⊢
        omega
      rw [hmore] at hactive
      obtain ⟨a'', hfeed, hrest⟩ := feed_recordsFrom hp hc turns
        (offset + p.recordCount offset) a' hlt.le (by rw [hcount]; unfold payloadBytes; omega)
        (by rwa [if_pos hactive])
      refine ⟨a'', ?_, hrest⟩
      simp only [if_true, hfeed, Except.map, hactive]

structure Received (r : Reception) (p : Packet) (n : ℕ) : Prop where
  total : r.total.toNat = n
  bytes : ∀ i < n, r.packet.payload i = p.payload i
  header : n ≠ 0 → r.clientId = p.clientId ∧ r.sequence = p.sequence ∧ r.flags = p.flags

theorem Received.record {r : Reception} (hp : p.Logical)
    (hle : offset ≤ p.payloadLength.toNat) (h : Received r p offset) :
    Carries ((r.header (p.record offset)).append (p.record offset)).finish p
        (offset + p.recordCount offset)
      ∧ Received ((r.header (p.record offset)).append (p.record offset)) p
        (offset + p.recordCount offset) := by
  have hfits := hp.fits
  have hcount := p.recordCount_le offset
  have hzero : r.total = 0 ↔ offset = 0 := by rw [← h.total, ← UInt16.toNat_inj]; rfl
  have hheader : (r.header (p.record offset)).clientId = p.clientId
      ∧ (r.header (p.record offset)).sequence = p.sequence
      ∧ (r.header (p.record offset)).flags = p.flags := by
    unfold Reception.header
    split_ifs with htotal
    · exact ⟨rfl, rfl, hp.withoutMore_record offset⟩
    · exact h.header fun h0 => htotal (hzero.2 h0)
  have hsame : (r.header (p.record offset)).packet = r.packet
      ∧ (r.header (p.record offset)).total = r.total := by
    unfold Reception.header
    split_ifs <;> exact ⟨rfl, rfl⟩
  have htotal : ((r.header (p.record offset)).append (p.record offset)).total.toNat
      = offset + p.recordCount offset := by
    simp only [Reception.append, UInt16.toNat_add, record_length, hsame.2, h.total]
    refine Nat.mod_eq_of_lt ?_
    unfold messageBytes payloadBytes at *
    omega
  have hbytes : ∀ i < offset + p.recordCount offset,
      ((r.header (p.record offset)).append (p.record offset)).packet.payload i = p.payload i := by
    simp only [Reception.append, record_length, hsame.1, hsame.2, h.total]
    exact copyBytes_record h.bytes
  exact ⟨⟨htotal, hbytes, hheader.1, hheader.2.1, hheader.2.2⟩, htotal, hbytes, fun _ => hheader⟩

/-- The client assembles a message from its records, from any of them on, and leaves what
follows. -/
theorem loop_recordsFrom (hp : p.Logical) (rest : List Packet) :
    ∀ (turns offset : ℕ) (r : Reception), offset ≤ p.payloadLength.toNat →
      p.payloadLength.toNat - offset < turns → Received r p offset →
      ∃ q, Reception.loop r (((p.recordsFrom turns offset).map fun w => Packet.ofWire w.toWire)
        ++ rest) = some (q, rest) ∧ Carries q p p.payloadLength.toNat
  | 0, _, _, _, hturns, _ => absurd hturns (Nat.not_lt_zero _)
  | turns + 1, offset, r, hle, hturns, h => by
    have hfits := hp.fits
    have hcount := p.recordCount_le offset
    obtain ⟨hfinish, hreceived⟩ := h.record hp hle
    have hcontinues : ¬(r.total ≠ 0 ∧ r.continues (p.record offset) = false) := by
      rintro ⟨htotal, hcontinues⟩
      have hoffset : offset ≠ 0 := by
        rw [← h.total]
        exact fun h0 => htotal (UInt16.toNat_inj.1 h0)
      obtain ⟨hclient, hsequence, hflags⟩ := h.header hoffset
      have hrecord : (p.record offset).clientId = p.clientId
          ∧ (p.record offset).sequence = p.sequence := ⟨rfl, rfl⟩
      simp [Reception.continues, hclient, hsequence, hflags, hp.withoutMore_record, hrecord]
        at hcontinues
    rw [p.recordsFrom_succ hle, List.map_cons, List.cons_append, Reception.loop, record_ofWire,
      if_neg (by
        rw [record_length, h.total]
        simp only [Packet.record, ne_eq, not_true, false_or, not_or, not_lt]
        unfold Packet.recordCount at hcount ⊢
        omega),
      if_neg hcontinues]
    simp only [hp.hasMore_record]
    cases hmore : p.moreAt offset with
    | false =>
      rw [p.recordCount_last hle hmore] at hfinish
      exact ⟨_, rfl, hfinish⟩
    | true =>
      have hlt := (p.moreAt_iff hle).1 hmore
      have hfull : p.recordCount offset = payloadBytes := by
        unfold Packet.recordCount at hlt ⊢
        omega
      exact loop_recordsFrom hp rest turns (offset + p.recordCount offset) _ hlt.le
        (by rw [hfull]; unfold payloadBytes; omega) hreceived

/-- Both splitters cut `p` into records that fit the channel and mark all but the last, and the
reassembler on the other side puts it together again. -/
structure RoundTrips (p : Packet) : Prop where
  fits : ∀ r ∈ p.records, 16 + r.payloadLength.toNat ≤ transportBytes
  marked : p.records.map (fun r => hasMore r.flags)
    = List.replicate (p.records.length - 1) true ++ [false]
  request : ∀ a : Assembly, a.active = false →
    ∃ a', a.feed ((sendPacket p).map Packet.toWire) = .ok ([a'.incoming], a')
      ∧ a'.active = false ∧ Carries a'.incoming p p.payloadLength.toNat
  reply : ∀ (packet : Packet) (rest : List Packet),
    ∃ q, receivePacket packet (((outgoingRecords p).map fun w => Packet.ofWire w.toWire) ++ rest)
      = some (q, rest) ∧ Carries q p p.payloadLength.toNat

theorem Packet.recordsFrom_eq_map (p : Packet) :
    ∀ turns offset : ℕ, ∃ offsets : List ℕ, p.recordsFrom turns offset = offsets.map p.record
  | 0, _ => ⟨[], rfl⟩
  | turns + 1, offset => by
    obtain ⟨offsets, h⟩ := p.recordsFrom_eq_map turns (offset + p.recordCount offset)
    rw [Packet.recordsFrom, h]
    split_ifs
    · exact ⟨offset :: offsets, rfl⟩
    · exact ⟨[offset], rfl⟩

theorem Packet.Logical.marked (hp : p.Logical) :
    ∀ turns offset : ℕ, offset ≤ p.payloadLength.toNat → p.payloadLength.toNat - offset < turns →
      (p.recordsFrom turns offset).map (fun r => hasMore r.flags)
        = List.replicate ((p.recordsFrom turns offset).length - 1) true ++ [false]
  | 0, _, _, hturns => absurd hturns (Nat.not_lt_zero _)
  | turns + 1, offset, hle, hturns => by
    rw [p.recordsFrom_succ hle, List.map_cons, hp.hasMore_record]
    cases hmore : p.moreAt offset with
    | false => rfl
    | true =>
      have hlt := (p.moreAt_iff hle).1 hmore
      have hfull : p.recordCount offset = payloadBytes := by
        unfold Packet.recordCount at hlt ⊢
        omega
      have ih := hp.marked turns (offset + p.recordCount offset) hlt.le
        (by rw [hfull]; unfold payloadBytes; omega)
      obtain ⟨next, rest, hcons⟩ : ∃ next rest,
          p.recordsFrom turns (offset + p.recordCount offset) = next :: rest := by
        refine List.exists_cons_of_ne_nil fun hnil => ?_
        rw [hnil] at ih
        cases ih
      rw [hcons] at ih
      rw [if_pos rfl, hcons, ih]
      rfl

/-- A message that fits and leaves the continuation flag to the splitter, to or from one of the
client slots, arrives as it was sent. -/
theorem fragmentation_round_trip (p : Packet) (hp : p.Logical) (hc : p.FromClient) :
    RoundTrips p where
  fits r hr := by
    obtain ⟨offsets, h⟩ := p.recordsFrom_eq_map (p.payloadLength.toNat + 1) 0
    rw [Packet.records, h, List.mem_map] at hr
    obtain ⟨offset, -, rfl⟩ := hr
    rw [record_length]
    exact Nat.add_le_add_left (p.recordCount_le offset) 16
  marked := hp.marked _ 0 (Nat.zero_le _) (by omega)
  request a ha := feed_recordsFrom hp hc _ 0 a (Nat.zero_le _) (by omega) (by rw [if_neg (by simp [ha])])
  reply packet rest := by
    have hguard : ¬(p.clientId = 0 ∨ maxClients < p.clientId) := by
      simpa [Packet.FromClient] using hc
    rw [outgoingRecords, if_neg hguard]
    exact loop_recordsFrom hp rest _ 0 _ (Nat.zero_le _) (by omega)
      ⟨rfl, fun i hi => absurd hi (Nat.not_lt_zero i), fun h => absurd rfl h⟩

def twoRecords : Packet where
  payloadLength := 96
  clientId := 3
  sequence := 7
  payload := fun i => UInt8.ofNat i

theorem twoRecords_logical : twoRecords.Logical := ⟨by decide, by decide⟩

theorem fragmentation_round_trip_twoRecords : RoundTrips twoRecords :=
  fragmentation_round_trip twoRecords twoRecords_logical ⟨by decide, by decide⟩

/-- A message that sets the continuation flag itself is never complete. -/
theorem marked_message_never_ends :
    ¬∀ p : Packet, p.payloadLength.toNat ≤ messageBytes → RoundTrips p := fun h =>
  absurd (h { flags := flagMore, clientId := 1 } (by decide)).marked (by decide)

/-! ## Several clients -/

def Packet.parts (p : Packet) (turns offset : ℕ) : List (Packet × Packet) :=
  (p.recordsFrom turns offset).map fun r => (r, p)

def stream (messages : List Packet) : List (Packet × Packet) :=
  messages.flatMap fun p => p.parts (p.payloadLength.toNat + 1) 0

/-- Each client sends logical messages under its own id. -/
def Behave (sent : UInt32 → List Packet) : Prop :=
  ∀ c, ∀ p ∈ sent c, p.Logical ∧ p.FromClient ∧ p.clientId = c

/-- The records of each client stand in the channel in the order it sent them, up to the last it
sent before it died. -/
def Interleaves (streams : UInt32 → List (Packet × Packet)) (channel : List (Packet × Packet)) :
    Prop :=
  ∀ c, (channel.filter fun x => x.1.clientId == c) <+: streams c

def completed (channel : List (Packet × Packet)) : List Packet :=
  channel.filterMap fun x => if hasMore x.1.flags then none else some x.2

/-- The server reads the channel to its end and dispatches the complete messages as they were
sent. -/
def Reassembles (a : Assembly) (channel : List (Packet × Packet)) : Prop :=
  ∃ messages a', a.feed (channel.map fun x => x.1.toWire) = .ok (messages, a')
    ∧ List.Forall₂ (fun q p => Carries q p p.payloadLength.toNat) messages (completed channel)

def Contiguous : Option UInt32 → List (Packet × Packet) → Prop
  | _, [] => True
  | sender, x :: channel => (∀ c ∈ sender, x.1.clientId = c)
    ∧ Contiguous (if hasMore x.1.flags then some x.1.clientId else none) channel

instance decidableContiguous : ∀ (sender : Option UInt32) (channel : List (Packet × Packet)),
    Decidable (Contiguous sender channel)
  | _, [] => isTrue trivial
  | sender, _ :: channel =>
    @instDecidableAnd _ _ (Option.decidableForallMem sender) (decidableContiguous _ channel)

theorem reassembles_cons {a a' : Assembly} (hp : p.Logical)
    (hle : offset ≤ p.payloadLength.toNat) (hreceive : a.receive (p.record offset) = .ok a')
    (hactive : a'.active = p.moreAt offset)
    (hcarries : Carries a'.incoming p (offset + p.recordCount offset))
    (channel : List (Packet × Packet)) :
    Reassembles a ((p.record offset, p) :: channel) ↔ Reassembles a' channel := by
  unfold Reassembles
  rw [List.map_cons, Assembly.feed, record_ofWire, hreceive, completed, List.filterMap_cons,
    hp.hasMore_record]
  cases hmore : p.moreAt offset with
  | true =>
    simp only [hactive, hmore, if_true]
    cases hfeed : a'.feed (channel.map fun x => x.1.toWire) with
    | error code => simp [Except.map]
    | ok r =>
      simp [Except.map, completed]
  | false =>
    rw [p.recordCount_last hle hmore] at hcarries
    simp only [hactive, hmore, Bool.false_eq_true, if_false]
    cases hfeed : a'.feed (channel.map fun x => x.1.toWire) with
    | error code => simp [Except.map]
    | ok r =>
      obtain ⟨messages, last⟩ := r
      simp [Except.map, completed, hcarries]

structure Pending (a : Assembly) (p : Packet) (turns offset : ℕ) : Prop where
  logical : p.Logical
  fromClient : p.FromClient
  le : offset ≤ p.payloadLength.toNat
  lt : p.payloadLength.toNat - offset < turns
  carries : if a.active then Carries a.incoming p offset else offset = 0

/-- What the clients have not yet put into the channel: the rest of the message under assembly,
then whole messages. -/
def remaining (pending : Option (Packet × ℕ × ℕ)) (rest : UInt32 → List Packet) (c : UInt32) :
    List (Packet × Packet) :=
  (pending.elim [] fun x => if x.1.clientId = c then x.1.parts x.2.1 x.2.2 else [])
    ++ stream (rest c)

theorem Interleaves.tail {streams streams' : UInt32 → List (Packet × Packet)}
    {x : Packet × Packet} {channel : List (Packet × Packet)} (h : Interleaves streams (x :: channel))
    (hhead : streams x.1.clientId = x :: streams' x.1.clientId)
    (hother : ∀ c ≠ x.1.clientId, streams' c = streams c) : Interleaves streams' channel := by
  intro c
  have hc := h c
  by_cases heq : x.1.clientId = c
  · subst heq
    rw [List.filter_cons_of_pos (by simp), hhead, List.cons_prefix_cons] at hc
    exact hc.2
  · rw [List.filter_cons_of_neg (by simp [heq])] at hc
    rw [hother c fun h => heq h.symm]
    exact hc

theorem reassembles_step {channel : List (Packet × Packet)}
    (ih : ∀ (pending : Option (Packet × ℕ × ℕ)) (rest : UInt32 → List Packet) (a : Assembly),
      Behave rest → (∀ x ∈ pending, Pending a x.1 x.2.1 x.2.2) → a.active = pending.isSome →
      Interleaves (remaining pending rest) channel →
      (Reassembles a channel ↔ Contiguous (pending.map fun x => x.1.clientId) channel))
    {turns offset : ℕ} {rest : UInt32 → List Packet}
    (hrest : Behave rest) (hp : Pending a p (turns + 1) offset)
    (hchannel : Interleaves (remaining (some (p, turns + 1, offset)) rest)
      ((p.record offset, p) :: channel)) :
    Reassembles a ((p.record offset, p) :: channel)
      ↔ Contiguous (some p.clientId) ((p.record offset, p) :: channel) := by
  obtain ⟨hlogical, hclient, hle, hlt, hcarries⟩ := hp
  obtain ⟨a', hreceive, hactive, hcarries'⟩ := receive_record hlogical hclient hle hcarries
  have hid : (p.record offset).clientId = p.clientId := rfl
  have hparts : p.parts (turns + 1) offset = (p.record offset, p) ::
      if p.moreAt offset then p.parts turns (offset + p.recordCount offset) else [] := by
    unfold Packet.parts
    rw [p.recordsFrom_succ hle]
    cases p.moreAt offset <;> rfl
  rw [reassembles_cons hlogical hle hreceive hactive hcarries', Contiguous,
    hlogical.hasMore_record, hid]
  simp only [Option.mem_def, Option.some.injEq, forall_eq', true_and]
  cases hmore : p.moreAt offset with
  | false =>
    rw [hmore] at hactive hparts
    refine ih none rest a' hrest (by simp) hactive (hchannel.tail ?_ fun c hc => ?_)
    · simp [remaining, hid, hparts]
    · simp [remaining, show p.clientId ≠ c from fun h => hc h.symm]
  | true =>
    have hfull := (p.moreAt_iff hle).1 hmore
    have hcount : p.recordCount offset = payloadBytes := by
      unfold Packet.recordCount at hfull ⊢
      omega
    rw [hmore] at hactive hparts
    refine ih (some (p, turns, offset + p.recordCount offset)) rest a' hrest ?_ hactive
      (hchannel.tail ?_ fun c hc => ?_)
    · rintro x ⟨⟩
      have hleft : p.payloadLength.toNat - (offset + p.recordCount offset) < turns := by
        rw [hcount]
        unfold payloadBytes
        omega
      exact ⟨hlogical, hclient, hfull.le, hleft, by rwa [if_pos hactive]⟩
    · simp [remaining, hid, hparts]
    · simp [remaining, show p.clientId ≠ c from fun h => hc h.symm]

/-- The server reassembles what is left of the messages exactly when it gets each in one piece. -/
theorem reassembles_iff : ∀ (channel : List (Packet × Packet)) (pending : Option (Packet × ℕ × ℕ))
    (rest : UInt32 → List Packet) (a : Assembly), Behave rest →
    (∀ x ∈ pending, Pending a x.1 x.2.1 x.2.2) → a.active = pending.isSome →
    Interleaves (remaining pending rest) channel →
    (Reassembles a channel ↔ Contiguous (pending.map fun x => x.1.clientId) channel)
  | [], _, _, a, _, _, _, _ => ⟨fun _ => trivial, fun _ => ⟨[], a, rfl, .nil⟩⟩
  | x :: channel, pending, rest, a, hrest, hpending, hactive, hchannel => by
    have hhead := hchannel x.1.clientId
    rw [List.filter_cons_of_pos (by simp)] at hhead
    cases pending with
    | none =>
      -- the record starts a message of its client
      obtain ⟨p, ps, hps⟩ : ∃ p ps, rest x.1.clientId = p :: ps := by
        refine List.exists_cons_of_ne_nil fun hnil => ?_
        simp [remaining, hnil, stream] at hhead
      obtain ⟨hlogical, hclient, -⟩ := hrest x.1.clientId p (by simp [hps])
      have hx : x = (p.record 0, p) := by
        simp only [remaining, Option.elim_none, List.nil_append, hps, stream, List.flatMap_cons,
          Packet.parts, p.recordsFrom_succ (Nat.zero_le _), List.map_cons, List.cons_append,
          List.cons_prefix_cons] at hhead
        exact hhead.1
      subst hx
      have hid : (p.record 0).clientId = p.clientId := rfl
      rw [hid] at hps
      have hrest' : Behave (Function.update rest p.clientId ps) := by
        intro c q hq
        by_cases hc : c = p.clientId
        · subst hc
          rw [Function.update_self] at hq
          exact hrest _ q (by rw [hps]; exact List.mem_cons_of_mem p hq)
        · rw [Function.update_of_ne hc] at hq
          exact hrest c q hq
      have hsame : remaining (some (p, p.payloadLength.toNat + 1, 0))
          (Function.update rest p.clientId ps) = remaining none rest := by
        funext c
        by_cases hc : p.clientId = c
        · subst hc
          simp [remaining, hps, stream]
        · simp [remaining, hc, Function.update_of_ne (Ne.symm hc)]
      have hoffset : if a.active = true then Carries a.incoming p 0 else 0 = 0 := by
        rw [if_neg (by simp [hactive])]
      have hturns : p.payloadLength.toNat - 0 < p.payloadLength.toNat + 1 := by omega
      have h := reassembles_step (reassembles_iff channel) hrest'
        ⟨hlogical, hclient, Nat.zero_le _, hturns, hoffset⟩ (by rwa [hsame])
      rw [h, Contiguous, Contiguous]
      simp [hid]
    | some pending =>
      obtain ⟨p, turns, offset⟩ := pending
      have hp : Pending a p turns offset := hpending (p, turns, offset) rfl
      have hbusy : a.active = true := hactive
      by_cases hid : p.clientId = x.1.clientId
      · obtain ⟨turns, rfl⟩ : ∃ n, turns = n + 1 := ⟨turns - 1, by have := hp.lt; omega⟩
        have hx : x = (p.record offset, p) := by
          simp only [remaining, Option.elim_some, hid, if_true, Packet.parts,
            p.recordsFrom_succ hp.le, List.map_cons, List.cons_append,
            List.cons_prefix_cons] at hhead
          exact hhead.1
        subst hx
        exact reassembles_step (reassembles_iff channel) hrest hp hchannel
      · -- the message under assembly is another client's
        have hincoming : a.incoming.clientId = p.clientId := by
          have := hp.carries
          rw [if_pos hbusy] at this
          exact this.clientId
        have hforeign : a.incoming.clientId ≠ (Packet.ofWire x.1.toWire).clientId := by
          rw [clientId_ofWire, hincoming]
          exact hid
        obtain ⟨code, hcode⟩ := receive_foreign hbusy hforeign
        refine iff_of_false ?_ fun h => hid (h.1 _ rfl).symm
        rintro ⟨messages, a', hfeed, -⟩
        rw [List.map_cons, Assembly.feed, hcode] at hfeed
        cases hfeed

/-- The clients' messages arrive, all of them that were sent to the end and exactly as they were
sent, if and only if no record comes between two records of one message. -/
theorem reassembly_contiguous (sent : UInt32 → List Packet) (hsent : Behave sent)
    (channel : List (Packet × Packet))
    (hchannel : Interleaves (fun c => stream (sent c)) channel) :
    Reassembles {} channel ↔ Contiguous none channel :=
  reassembles_iff channel none sent {} hsent (by simp) rfl hchannel

def twoClients (c : UInt32) : List Packet :=
  if c = 3 ∨ c = 4 then [{ twoRecords with clientId := c }] else []

theorem twoClients_behave : Behave twoClients := by
  intro c p hp
  unfold twoClients at hp
  split_ifs at hp with hc
  · rw [List.mem_singleton] at hp
    subst hp
    refine ⟨⟨twoRecords_logical.fits, twoRecords_logical.plain⟩, ?_, rfl⟩
    rcases hc with rfl | rfl <;> exact ⟨by decide, by decide⟩
  · cases hp

def twoClientsChannel (order : List (UInt32 × ℕ)) : List (Packet × Packet) :=
  order.map fun x => (({ twoRecords with clientId := x.1 } : Packet).record x.2,
    { twoRecords with clientId := x.1 })

theorem twoClients_stream {c : UInt32} (hc : c = 3 ∨ c = 4) :
    stream (twoClients c) = twoClientsChannel [(c, 0), (c, 48)] := by
  rw [twoClients, if_pos hc]
  rfl

theorem twoClients_interleaves {order : List (UInt32 × ℕ)}
    (hclients : ∀ x ∈ order, x.1 = 3 ∨ x.1 = 4)
    (h : ∀ c, c = 3 ∨ c = 4 → order.filter (fun x => x.1 == c) <+: [(c, 0), (c, 48)]) :
    Interleaves (fun c => stream (twoClients c)) (twoClientsChannel order) := by
  intro c
  have hfilter : (twoClientsChannel order).filter (fun x => x.1.clientId == c)
      = twoClientsChannel (order.filter fun x => x.1 == c) := by
    unfold twoClientsChannel
    rw [List.filter_map]
    rfl
  rw [hfilter]
  by_cases hc : c = 3 ∨ c = 4
  · simp only [twoClients_stream hc]
    exact (h c hc).map _
  · have hnone : order.filter (fun x => x.1 == c) = [] := by
      refine List.filter_eq_nil_iff.2 fun x hx heq => hc ?_
      rw [← eq_of_beq heq]
      exact hclients x hx
    rw [hnone]
    exact List.nil_prefix

/-- One client after the other, the second dead after its first record. -/
theorem reassembly_contiguous_twoClients :
    Reassembles {} (twoClientsChannel [(3, 0), (3, 48), (4, 0)]) :=
  (reassembly_contiguous twoClients twoClients_behave
    (twoClientsChannel [(3, 0), (3, 48), (4, 0)])
    (twoClients_interleaves (by decide) (by rintro c (rfl | rfl) <;> decide))).2 (by decide +kernel)

/-- The record of client 4 between the two of client 3 ends the server. -/
theorem interleaved_records_end_server :
    ¬∀ (sent : UInt32 → List Packet) (channel : List (Packet × Packet)), Behave sent →
      Interleaves (fun c => stream (sent c)) channel → Reassembles {} channel := by
  intro h
  have hchannel : Interleaves (fun c => stream (twoClients c))
      (twoClientsChannel [(3, 0), (4, 0), (3, 48), (4, 48)]) :=
    twoClients_interleaves (by decide) (by rintro c (rfl | rfl) <;> decide)
  have hcontiguous := (reassembles_iff _ none twoClients {} twoClients_behave (by simp) rfl
    hchannel).1 (h twoClients _ twoClients_behave hchannel)
  exact absurd hcontiguous (by decide +kernel)

end DemonX

end DemonOS
