import DemonOS.Proofs.DemonX.AtomCalls

/-!
# Client messages

A client message goes to the owner of the window it is sent to, whose next event it is
(`client_message_round_trip_iff`). Its window, its type, its format and its data are those that were
sent, but for a `long` that is negative: it is sent as 32 bits, and comes back as the unsigned number
they stand for.
-/

namespace DemonOS

namespace DemonX

open LittleEndian (load_congr load_foldl_store load_foldl_store_of_disjoint)

variable {e : XClientMessageEvent} {k : ℕ} {p : ℕ → UInt8}

/-! ## The request -/

def messageHead (propagate : Bool) (mask : Int64) (window : UInt32) (e : XClientMessageEvent) :
    ℕ → UInt8 :=
  write32 (write32 (write8 (write8 (write32 (requestHead Opcode.sendEvent
    (if propagate then 1 else 0) 44 window) 8 mask.toUInt64.toUInt32) 12 clientMessage) 13
    e.format.toUInt32.toUInt8) 16 e.window) 20 e.messageType

theorem messageHead_fields (propagate : Bool) (mask : Int64) (window : UInt32)
    (e : XClientMessageEvent) :
    let p := messageHead propagate mask window e
    (p 0 = Opcode.sendEvent ∧ read16 p 2 = 11 ∧ read32 p 4 = window)
      ∧ p 12 = clientMessage ∧ p 13 = e.format.toUInt32.toUInt8 ∧ read32 p 16 = e.window
      ∧ read32 p 20 = e.messageType := by
  dsimp only
  rw [← read8_eq (messageHead _ _ _ _) 0, ← read8_eq (messageHead _ _ _ _) 12,
    ← read8_eq (messageHead _ _ _ _) 13]
  simp (disch := omega) only [messageHead, write32, write8, read8_store_of_disjoint,
    read16_store_of_disjoint, read32_store_of_disjoint, read32_store_self, read8_store_self,
    requestHead_words, requestHead_id, and_true]
  exact ⟨rfl, rfl⟩

def CarriesData (p : ℕ → UInt8) (a : ℕ) (e : XClientMessageEvent) : Prop :=
  if e.format = 32 then ∀ k < 5, read32 p (a + 4 * k) = (e.long k).toUInt64.toUInt32
  else ∀ k < 20, p (a + k) = e.byte k

theorem writeData_carries (p : ℕ → UInt8) (e : XClientMessageEvent) :
    CarriesData (Desktop.writeData p e) 24 e := by
  unfold CarriesData Desktop.writeData
  split_ifs with hformat
  · intro k hk
    have hload := load_foldl_store (w := 4) (fun j => 24 + j * 4) (fun j k hjk => by omega)
      (v := fun j => (e.long j).toUInt64.toUInt32.toNat)
      (fun j => UInt32.toNat_lt _) p (i := k) 5 hk
    rw [read32, Nat.mul_comm 4 k]
    exact (congrArg UInt32.ofNat hload).trans (UInt32.ofNat_toNat)
  · intro k hk
    unfold copyBytes
    rw [if_pos (by omega), Nat.add_sub_cancel_left]
    rfl

theorem writeData_before (p : ℕ → UInt8) (e : XClientMessageEvent) {b k : ℕ} (h : b + k ≤ 24) :
    LittleEndian.load (Desktop.writeData p e) b k = LittleEndian.load p b k := by
  unfold Desktop.writeData
  split_ifs
  · exact load_foldl_store_of_disjoint (w := 4) (fun j => 24 + j * 4)
      (fun j => (e.long j).toUInt64.toUInt32.toNat) p 5 fun j _ => .inl (by omega)
  · exact load_copyBytes_of_disjoint _ _ (.inl h)

/-! ## The server -/

namespace Server

variable {q : Server} {i : ℕ} {window : UInt32}

def forwarded (q : Server) : ℕ → UInt8 :=
  write16 (write8 (copyBytes (fun _ => 0) 0 (fun k => q.payload (12 + k)) 32) 0
    (clientMessage ||| 0x80)) 2 q.incoming.sequence.toUInt16

theorem sendEvent_forwards (hi : q.findWindow window = some i)
    (htype : q.payload 12 = clientMessage) :
    q.sendEvent window = (true, q.event (q.window i).ownerClient q.forwarded) := by
  have hmasked : q.payload 12 &&& 0x7F = clientMessage := by
    rw [htype]
    decide
  unfold sendEvent
  rw [hi, hmasked]
  rfl

theorem forwarded_type (q : Server) : q.forwarded 0 = 0xA1 := by
  rfl

theorem forwarded_byte (q : Server) (hk : k = 1 ∨ (4 ≤ k ∧ k < 32)) :
    q.forwarded k = q.payload (12 + k) := by
  rw [← read8_eq q.forwarded k]
  simp (disch := omega) only [forwarded, write16, write8, read8_store_of_disjoint]
  rw [read8_eq, copyBytes, if_pos (by omega), Nat.sub_zero]

theorem forwarded_word (q : Server) {a : ℕ} (ha : 4 ≤ a ∧ a + 4 ≤ 32) :
    read32 q.forwarded a = q.field32 (12 + a) := by
  refine congrArg UInt32.ofNat (Eq.trans ?_ (LittleEndian.load_shift q.payload 12 4 a))
  exact load_congr fun b hb hlt => q.forwarded_byte (.inr (by omega))

end Server

/-! ## The event -/

structure CarriesMessage (p : ℕ → UInt8) (e : XClientMessageEvent) : Prop where
  type : p 0 = 0xA1
  format : p 1 = e.format.toUInt32.toUInt8
  window : read32 p 4 = e.window
  messageType : read32 p 8 = e.messageType
  data : CarriesData p 12 e

theorem CarriesData.congr {p q : ℕ → UInt8} {a b : ℕ}
    (h : CarriesData p a e) (hsame : ∀ k < 20, q (b + k) = p (a + k)) : CarriesData q b e := by
  unfold CarriesData at h ⊢
  split_ifs at h ⊢
  · intro k hk
    rw [← h k hk, read32, read32, ← LittleEndian.load_shift q, ← LittleEndian.load_shift p]
    exact congrArg UInt32.ofNat (load_congr fun c _ hc => hsame c (by omega))
  · intro k hk
    exact (hsame k hk).trans (h k hk)

theorem CarriesMessage.congr {p q : ℕ → UInt8} (h : CarriesMessage p e)
    (hsame : ∀ k < 32, q k = p k) : CarriesMessage q e where
  type := (hsame 0 (by omega)).trans h.type
  format := (hsame 1 (by omega)).trans h.format
  window := (congrArg UInt32.ofNat (load_congr fun b _ hb => hsame b (by omega))).trans h.window
  messageType :=
    (congrArg UInt32.ofNat (load_congr fun b _ hb => hsame b (by omega))).trans h.messageType
  data := h.data.congr fun k hk => hsame (12 + k) (by omega)

/-- The two events have the same window, type, format and data. -/
structure XClientMessageEvent.Same (e r : XClientMessageEvent) : Prop where
  window : r.window = e.window
  messageType : r.messageType = e.messageType
  format : r.format = e.format
  bytes : e.format = 8 → ∀ k < 20, r.byte k = e.byte k
  shorts : e.format = 16 → ∀ k < 10, r.short k = e.short k
  longs : e.format = 32 → ∀ k < 5, r.long k = e.long k

structure XClientMessageEvent.Fits (e : XClientMessageEvent) : Prop where
  format : e.format = 8 ∨ e.format = 16 ∨ e.format = 32
  longs : e.format = 32 → ∀ k < 5, -2 ^ 31 ≤ (e.long k).toInt ∧ (e.long k).toInt < 2 ^ 31

theorem decodeEvent_clientMessage (h : p 0 = 0xA1) :
    decodeEvent p = .clientMessage
      { serial := read16 p 2, sendEvent := p 0 &&& 0x80 != 0, window := read32 p 4
        messageType := read32 p 8, format := (p 1).toUInt32.toInt32, data := clientData (p 1) p } := by
  have htype : p 0 &&& 0x7F = 33 := by
    rw [h]
    decide
  unfold decodeEvent
  simp [htype, clientMessage]

theorem long_clientData (hk : k < 5) :
    read64 (clientData 32 p) (8 * k) = (read32 p (12 + 4 * k)).toUInt64 := by
  have hload := load_foldl_store (w := 8) (fun j => 8 * j) (fun j k hjk => by omega)
    (v := fun j => (read32 p (12 + 4 * j)).toUInt64.toNat)
    (fun j => UInt64.toNat_lt _) (fun _ => 0) (i := k) 5 hk
  exact (congrArg UInt64.ofNat hload).trans (UInt64.ofNat_toNat)

theorem byte_clientData {format : UInt8} (hformat : format ≠ 32)
    (hk : k < 20) : clientData format p k = p (12 + k) := by
  unfold clientData copyBytes
  rw [if_neg hformat, if_pos (by omega), Nat.sub_zero]

theorem decodeEvent_same_iff (he : e.Fits)
    (hcarries : CarriesMessage p e) :
    ∃ r, decodeEvent p = .clientMessage r
      ∧ (e.Same r ↔ (e.format = 32 → ∀ k < 5, 0 ≤ (e.long k).toInt)) := by
  obtain ⟨htype, hformat, hwindow, hmessage, hdata⟩ := hcarries
  refine ⟨_, decodeEvent_clientMessage htype, ?_⟩
  have hback : (p 1).toUInt32.toInt32 = e.format := by
    rw [hformat]
    rcases he.format with h | h | h <;> rw [h] <;> rfl
  unfold CarriesData at hdata
  by_cases hlongs : e.format = 32
  · rw [if_pos hlongs] at hdata
    have hone : p 1 = 32 := by
      rw [hformat, hlongs]
      rfl
    have hlong : ∀ k < 5, (read64 (clientData (p 1) p) (8 * k)).toInt64 = e.long k
        ↔ 0 ≤ (e.long k).toInt := fun k hk => by
      obtain ⟨hlow, hhigh⟩ := he.longs hlongs k hk
      rw [hone, long_clientData hk, hdata k hk, cut_iff, toNat_lt_iff hlow hhigh]
    constructor
    · intro hsame _ k hk
      exact (hlong k hk).1 (hsame.longs hlongs k hk)
    · intro hpositive
      refine ⟨hwindow, hmessage, hback, fun h => ?_, fun h => ?_, fun _ k hk =>
        (hlong k hk).2 (hpositive hlongs k hk)⟩
      · exact absurd (hlongs.symm.trans h) (by decide)
      · exact absurd (hlongs.symm.trans h) (by decide)
  · rw [if_neg hlongs] at hdata
    have hone : p 1 ≠ 32 := by
      rw [hformat]
      rcases he.format with h | h | h
      · rw [h]
        decide
      · rw [h]
        decide
      · exact absurd h hlongs
    have hbyte : ∀ k < 20, clientData (p 1) p k = e.data k := fun k hk =>
      (byte_clientData hone hk).trans (hdata k hk)
    refine iff_of_true ⟨hwindow, hmessage, hback, fun _ => hbyte, fun _ k hk => ?_,
      fun h => absurd h hlongs⟩ fun h => absurd h hlongs
    exact congrArg UInt16.ofNat (load_congr fun b _ hb => hbyte b (by omega))

namespace Desktop

variable {d : Desktop} {s : Server} {sys : Answers} {client receiver window : UInt32} {i : ℕ}

/-! ## The next event -/

theorem receive_first {p : Packet} {rest : List Packet} (hp : p.Short)
    (h : d.replies client = p.record 0 :: rest) : ∃ d', d.receive client = some d'
      ∧ Carries (d'.display client).packet p p.payloadLength.toNat ∧ d'.replies client = rest := by
  obtain ⟨packet, hreceive, hcarries⟩ := receive_record hp h
  refine ⟨_, hreceive, ?_, Function.update_self _ _ _⟩
  dsimp only [setDisplay]
  rw [Function.update_self]
  exact hcarries

theorem nextEvent_skips {p : Packet} (hp : p.Short) (hflags : p.flags = flagEvent) :
    ∀ (dropped : List Packet) (turns : ℕ) (d : Desktop) (rest : List Packet),
      (∀ q ∈ dropped, q.Short ∧ q.flags ≠ flagEvent) → dropped.length < turns →
      d.replies receiver = dropped.map (Packet.record · 0) ++ p.record 0 :: rest →
      ∃ packet d', nextEvent receiver turns d = some (decodeEvent packet.payload, d')
        ∧ Carries packet p p.payloadLength.toNat
  | [], turns + 1, d, rest, _, _, hreplies => by
    obtain ⟨d', hreceive, hcarries, -⟩ := receive_first hp hreplies
    refine ⟨_, d', ?_, hcarries⟩
    rw [nextEvent, hreceive]
    dsimp only
    rw [if_pos (hcarries.flags.trans hflags)]
  | q :: dropped, turns + 1, d, rest, hdropped, hturns, hreplies => by
    obtain ⟨hq, hother⟩ := hdropped q List.mem_cons_self
    obtain ⟨d', hreceive, hcarries, hrest⟩ := receive_first hq hreplies
    rw [nextEvent, hreceive]
    dsimp only
    rw [if_neg fun heq => hother (hcarries.flags.symm.trans heq)]
    exact nextEvent_skips hp hflags dropped turns d' rest
      (fun r hr => hdropped r (List.mem_cons_of_mem _ hr)) (Nat.lt_of_succ_lt_succ hturns) hrest

/-- The client has read its events: what waits for it still is answers it does not look at. -/
structure Awaits (d : Desktop) (client : UInt32) : Prop where
  putback : (d.display client).putback = none
  pending : (d.display client).pending = none
  waiting : ∃ dropped : List Packet, d.replies client = dropped.map (Packet.record · 0)
    ∧ ∀ p ∈ dropped, p.Short ∧ p.flags ≠ flagEvent

/-! ## The message -/

structure Addresses (d : Desktop) (s : Server) (sender window receiver : UInt32) : Prop where
  runs : d.Runs s
  slot : sender ≠ 0 ∧ sender ≤ maxClients
  free : s.serverGrabClient = 0 ∨ s.serverGrabClient = sender
  window : ∃ i, s.findWindow window = some i ∧ (s.window i).ownerClient = receiver
  connected : s.Connected receiver

theorem forwarded_carries {p : Packet} {q : Server} {propagate : Bool} {mask : Int64}
    (h : s.Has p q) (hlength : p.payloadLength.toNat = 44)
    (hpayload : p.payload = writeData (messageHead propagate mask window e) e) :
    (q.payload 0 = Opcode.sendEvent ∧ read16 p.payload 2 = 11 ∧ q.field32 4 = window)
      ∧ q.payload 12 = clientMessage ∧ CarriesMessage q.forwarded e := by
  obtain ⟨⟨hopcode, hwords, hwindow⟩, htype, hformat, hevent, hmessage⟩ :=
    messageHead_fields propagate mask window e
  have hload : ∀ {b k}, b + k ≤ 24 → LittleEndian.load p.payload b k
      = LittleEndian.load (messageHead propagate mask window e) b k := fun hb => by
    rw [hpayload]
    exact writeData_before _ e hb
  have hbyte : ∀ {k}, k < 24 → q.payload k = messageHead propagate mask window e k := fun hk => by
    rw [h.payload (by omega), ← read8_eq p.payload, ← read8_eq (messageHead _ _ _ _)]
    exact congrArg UInt8.ofNat (hload (by omega))
  have hword : ∀ {a}, a + 4 ≤ 24 → q.field32 a = read32 (messageHead propagate mask window e) a :=
    fun ha => (h.field32 (by omega)).trans (congrArg UInt32.ofNat (hload ha))
  have hdata : CarriesData p.payload 24 e := by
    rw [hpayload]
    exact writeData_carries _ e
  refine ⟨⟨(hbyte (by omega)).trans hopcode, (congrArg UInt16.ofNat (hload (by omega))).trans hwords,
    (hword (by omega)).trans hwindow⟩, (hbyte (by omega)).trans htype, ?_⟩
  refine ⟨q.forwarded_type, ?_, ?_, ?_, hdata.congr fun k hk => ?_⟩
  · exact (q.forwarded_byte (.inl rfl)).trans ((hbyte (by omega)).trans hformat)
  · exact (q.forwarded_word ⟨by omega, by omega⟩).trans ((hword (by omega)).trans hevent)
  · exact (q.forwarded_word ⟨by omega, by omega⟩).trans ((hword (by omega)).trans hmessage)
  · rw [q.forwarded_byte (.inr ⟨by omega, by omega⟩), ← Nat.add_assoc]
    exact h.payload (by omega)

theorem began_events (d : Desktop) (client c : UInt32) (length : ℕ) (payload : ℕ → UInt8) :
    ((d.setDisplay client (d.began client length payload)).display c).putback
        = (d.display c).putback
      ∧ ((d.setDisplay client (d.began client length payload)).display c).pending
        = (d.display c).pending := by
  unfold setDisplay
  dsimp only
  by_cases hc : c = client
  · subst hc
    rw [Function.update_self]
    exact ⟨rfl, rfl⟩
  · rw [Function.update_of_ne hc]
    exact ⟨rfl, rfl⟩

theorem xSendEvent_sent {sender : UInt32} (hsys : Server.Delivers sys)
    (h : d.Addresses s sender window receiver) (propagate : Bool) (mask : Int64)
    (he : e.Fits) :
    ∃ d' p, d.xSendEvent sys sender window propagate mask e = (true, d')
      ∧ Packet.Short p ∧ p.flags = flagEvent ∧ p.payloadLength.toNat = 32
      ∧ d'.replies receiver = d.replies receiver ++ [p.record 0]
      ∧ (d'.display receiver).putback = (d.display receiver).putback
      ∧ (d'.display receiver).pending = (d.display receiver).pending
      ∧ CarriesMessage p.payload e := by
  have hfits : 44 ≤ payloadBytes := by decide
  obtain ⟨i, hi, howner⟩ := h.window
  obtain ⟨q, hhas, hhandle⟩ := send_asked (writeData (messageHead propagate mask window e) e) sys
    h.runs h.slot hfits
  have hsize : (d.packet sender 44
      (writeData (messageHead propagate mask window e) e)).payloadLength.toNat = 44 :=
    packet_length hfits
  obtain ⟨⟨hopcode, hwords, hwindow⟩, htype, hcarries⟩ := forwarded_carries hhas hsize rfl
  have hadmitted : q.Admitted := hhas.admitted (by rw [hsize]; exact hwords) (by omega) (by omega)
    h.free
  have hparse : q.parseRequest sys = some (true, q.event (q.window i).ownerClient q.forwarded) := by
    rw [← Server.sendEvent_forwards (hhas.findWindow window ▸ hi) htype, ← hwindow]
    exact Server.parseRequest_resource hadmitted 23 rfl hopcode
      (decide_eq_true (hhas.carries.length ▸ hsize))
  have hclient : (q.window i).ownerClient = receiver := by rw [hhas.window, howner]
  rw [hclient] at hparse
  have hshort : Packet.Short (q.event receiver q.forwarded).outgoing :=
    ⟨(by decide : 32 ≤ payloadBytes), (by decide : hasMore flagEvent = false)⟩
  have hsend := send_told hsys h.runs hfits hhas hhandle hparse rfl rfl hshort h.connected
  have hcall : d.xSendEvent sys sender window propagate mask e = (true, d.send sys sender 44
      (writeData (messageHead propagate mask window e) e)) := by
    refine if_neg fun hbad => ?_
    rcases he.format with hformat | hformat | hformat
    · exact hbad.1 hformat
    · exact hbad.2.1 hformat
    · exact hbad.2.2 hformat
  refine ⟨_, (q.event receiver q.forwarded).outgoing, hcall, hshort, rfl, rfl, ?_, ?_, ?_, hcarries⟩
  · rw [hsend]
    exact Function.update_self _ _ _
  · rw [hsend]
    exact (began_events d sender receiver 44 _).1
  · rw [hsend]
    exact (began_events d sender receiver 44 _).2

/-- The next event of the owner of the window is the message, which is the same just when no long is
negative. -/
theorem client_message_round_trip_iff (sys : Answers) (hsys : Server.Delivers sys)
    {sender : UInt32} (h : d.Addresses s sender window receiver) (hawaits : d.Awaits receiver)
    (propagate : Bool) (mask : Int64) (e : XClientMessageEvent) (he : e.Fits) :
    ∃ d₁ r d₂, d.xSendEvent sys sender window propagate mask e = (true, d₁)
      ∧ d₁.xNextEvent receiver = some (.clientMessage r, d₂)
      ∧ (e.Same r ↔ (e.format = 32 → ∀ k < 5, 0 ≤ (e.long k).toInt)) := by
  obtain ⟨d₁, p, hcall, hshort, hflags, hlength, hreplies, hputback, hpending, hcarries⟩ :=
    xSendEvent_sent hsys h propagate mask he
  obtain ⟨dropped, hdropped, hother⟩ := hawaits.waiting
  rw [hdropped] at hreplies
  obtain ⟨packet, d₂, hnext, hpacket⟩ := nextEvent_skips hshort hflags dropped
    (d₁.replies receiver).length d₁ [] hother (by rw [hreplies]; simp) hreplies
  obtain ⟨r, hdecode, hsame⟩ := decodeEvent_same_iff he
    (hcarries.congr fun k hk => hpacket.bytes k (by omega))
  refine ⟨d₁, r, d₂, hcall, ?_, hsame⟩
  rw [xNextEvent, hputback, hawaits.putback, hpending, hawaits.pending]
  rw [hnext, hdecode]

/-! ## A message between two clients -/

def owning : Server := connected.setWindow 0 { id := 0x200001, used := 1, ownerClient := 1 }

def longMessage (n : Int64) : XClientMessageEvent where
  window := 0x200001
  messageType := 40
  format := 32
  data := write64 (fun _ => 0) 0 n.toUInt64

def firstLong : XEvent → Option Int64
  | .clientMessage r => some (r.long 0)
  | _ => none

theorem owning_addresses : (quiet owning).Addresses owning 2 0x200001 1 where
  runs := ⟨rfl, rfl⟩
  slot := by decide
  free := .inl rfl
  window := ⟨0, by decide +kernel, by decide +kernel⟩
  connected := ⟨by decide, by decide +kernel⟩

theorem quiet_awaits (s : Server) (client : UInt32) : (quiet s).Awaits client :=
  ⟨rfl, rfl, [], rfl, fun _ hp => absurd hp List.not_mem_nil⟩

theorem longMessage_fits {n : Int64} (hn : ∀ k < 5, -2 ^ 31 ≤ ((longMessage n).long k).toInt
    ∧ ((longMessage n).long k).toInt < 2 ^ 31) : (longMessage n).Fits :=
  ⟨.inr (.inr rfl), fun _ => hn⟩

/-- A message with a long that is not negative comes back as it is. -/
theorem client_message_round_trip_seven : ∃ d₁ r d₂,
    (quiet owning).xSendEvent taking 2 0x200001 false 0 (longMessage 7) = (true, d₁)
      ∧ d₁.xNextEvent 1 = some (.clientMessage r, d₂) ∧ (longMessage 7).Same r := by
  obtain ⟨d₁, r, d₂, hsend, hnext, hsame⟩ := client_message_round_trip_iff taking (fun _ _ _ => rfl)
    owning_addresses (quiet_awaits owning 1) false 0 (longMessage 7)
    (longMessage_fits (by decide +kernel))
  exact ⟨d₁, r, d₂, hsend, hnext, hsame.2 fun _ => by decide +kernel⟩

/-- A message with the long -1 comes back with 4294967295. -/
theorem negative_long_lost : ¬∀ e : XClientMessageEvent, e.Fits → ∃ d₁ r d₂,
    (quiet owning).xSendEvent taking 2 0x200001 false 0 e = (true, d₁)
      ∧ d₁.xNextEvent 1 = some (.clientMessage r, d₂) ∧ e.Same r := by
  intro h
  obtain ⟨d₁, r, d₂, hsend, hnext, hsame⟩ := h (longMessage (-1)) (longMessage_fits (by decide +kernel))
  have hlong : (((quiet owning).xSendEvent taking 2 0x200001 false 0 (longMessage (-1))).2.xNextEvent
      1).map (fun next => firstLong next.1) = some (some 4294967295) := by decide +kernel
  rw [hsend] at hlong
  rw [hnext] at hlong
  have hread : r.long 0 = 4294967295 := Option.some.inj (Option.some.inj hlong)
  have hkept := hsame.longs rfl 0 (by decide)
  rw [hread] at hkept
  exact absurd hkept (by decide +kernel)

end Desktop

end DemonX

end DemonOS
