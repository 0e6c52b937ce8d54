import DemonOS.DemonX.Xlib
import DemonOS.Proofs.DemonX.Reports
import DemonOS.Proofs.DemonX.Transport

/-!
# Requests and what they bring back

A request of a client that fits one record reaches `parse_request` as it was sent
(`handle_record`), and what the server then sends waits for the client it is for (`send_silent`,
`send_told`). A client takes the first packet that waits for it (`receive_record`), which is its
answer where nothing has waited before (`request_answered`).
-/

namespace DemonOS

namespace DemonX

variable {a : ℕ} {d' : Desktop} {p : Packet} {q : Server}

/-! ## Longs -/

/-- A `long` that has been sent as 32 bits and read as such is the same where it had no more. -/
theorem cut_iff (n : Int64) :
    n.toUInt64.toUInt32.toUInt64.toInt64 = n ↔ n.toUInt64.toNat < 2 ^ 32 := by
  have hcut : n.toUInt64.toUInt32.toUInt64.toNat = n.toUInt64.toNat % 2 ^ 32 := by simp
  constructor
  · intro h
    have hsame := congrArg (fun m : Int64 => m.toUInt64.toNat) h
    simp only [UInt64.toUInt64_toInt64] at hsame
    omega
  · intro h
    have hsame : n.toUInt64.toUInt32.toUInt64 = n.toUInt64 :=
      UInt64.toNat_inj.1 (hcut.trans (Nat.mod_eq_of_lt h))
    rw [hsame, Int64.toInt64_toUInt64]

/-- A `long` of 32 signed bits has no more as an unsigned one where it is not negative. -/
theorem toNat_lt_iff {n : Int64} (hlow : -2 ^ 31 ≤ n.toInt) (hhigh : n.toInt < 2 ^ 31) :
    n.toUInt64.toNat < 2 ^ 32 ↔ 0 ≤ n.toInt := by
  have hcond : n.toInt = if 2 * n.toUInt64.toNat < 2 ^ 64 then (n.toUInt64.toNat : ℤ)
      else (n.toUInt64.toNat : ℤ) - 2 ^ 64 := BitVec.toInt_eq_toNat_cond n.toBitVec
  have hlt := n.toUInt64.toNat_lt
  split_ifs at hcond <;> omega

/-! ## Packets of one record -/

structure Packet.Short (p : Packet) : Prop where
  fits : p.payloadLength.toNat ≤ payloadBytes
  plain : hasMore p.flags = false

namespace Packet.Short

variable {p : Packet}

theorem logical (h : p.Short) : p.Logical := ⟨h.fits.trans (by decide), h.plain⟩

theorem recordCount (h : p.Short) : p.recordCount 0 = p.payloadLength.toNat := by
  rw [Packet.recordCount, Nat.sub_zero, min_eq_left h.fits]

theorem moreAt (h : p.Short) : p.moreAt 0 = false := by
  rw [Packet.moreAt, h.recordCount, Nat.sub_zero]
  simp

theorem records (h : p.Short) : p.records = [p.record 0] := by
  rw [Packet.records, Packet.recordsFrom, h.recordCount, if_neg (by omega)]

end Packet.Short

theorem isNative_record (p : Packet) (offset : ℕ) :
    Server.isNative (p.record offset).toWire = false := by
  have hmagic : read16 (p.record offset).toWire 0 = 0x3144 := by
    rw [read16, load_toWire _ (by omega)]
    simp (disch := omega) only [write32, write16, LittleEndian.load_store_of_disjoint]
    change UInt16.ofNat (LittleEndian.load
      (LittleEndian.store (fun _ => 0) 0 4 transportMagic.toNat) 0 2) = _
    decide
  unfold Server.isNative
  rw [hmagic]
  simp

/-! ## The server -/

namespace Server

variable {s q t : Server} {p : Packet} {sys : Answers} {client : UInt32}

/-- The server has put a request together. -/
structure Has (s : Server) (p : Packet) (q : Server) : Prop where
  same : q = { s with assembly := q.assembly }
  whole : q.assembly.active = false
  carries : Carries q.incoming p p.payloadLength.toNat

variable (sys) in
theorem handle_record (hp : p.Short) (hc : p.FromClient) (hflags : p.flags &&& flagSetup = 0)
    (h : s.assembly.active = false) :
    ∃ q, s.Has p q ∧ s.handle sys (p.record 0).toWire = (q.parseRequest sys).map .ok := by
  obtain ⟨a, hreceive, hactive, hcarries⟩ := DemonX.receive_record hp.logical hc (Nat.zero_le _)
    (a := s.assembly) (by rw [h]; rfl)
  rw [hp.moreAt] at hactive
  rw [hp.recordCount, Nat.zero_add] at hcarries
  refine ⟨{ s with assembly := a }, ⟨rfl, hactive, hcarries⟩, ?_⟩
  have hrequest : ¬(Server.incoming { s with assembly := a }).flags &&& flagSetup ≠ 0 := by
    have hsame : (Server.incoming { s with assembly := a }).flags = p.flags := hcarries.flags
    rw [hsame, hflags]
    simp
  unfold handle
  rw [isNative_record, if_neg Bool.false_ne_true, record_ofWire, hreceive]
  dsimp only
  rw [hactive, if_neg Bool.false_ne_true]
  unfold dispatch
  rw [if_neg hrequest]

theorem Has.payload (h : s.Has p q) {k : ℕ} (hk : k < p.payloadLength.toNat) :
    q.payload k = p.payload k := h.carries.bytes k hk

theorem Has.field16 (h : s.Has p q) (ha : a + 2 ≤ p.payloadLength.toNat) :
    q.field16 a = read16 p.payload a :=
  congrArg UInt16.ofNat (LittleEndian.load_congr fun b _ hb => h.payload (by omega))

theorem Has.field32 (h : s.Has p q) (ha : a + 4 ≤ p.payloadLength.toNat) :
    q.field32 a = read32 p.payload a :=
  congrArg UInt32.ofNat (LittleEndian.load_congr fun b _ hb => h.payload (by omega))

theorem Has.memory (h : s.Has p q) : q.memory = s.memory := by rw [h.same]

theorem Has.calls (h : s.Has p q) : q.calls = s.calls := by rw [h.same]

theorem Has.window (h : s.Has p q) (i : ℕ) : q.window i = s.window i := by
  rw [Server.window, h.memory, Server.window]

theorem Has.findWindow (h : s.Has p q) (id : UInt32) : q.findWindow id = s.findWindow id := by
  simp only [Server.findWindow, h.window]

theorem Has.admitted (h : s.Has p q) (hwords : read16 p.payload 2
      = UInt16.ofNat (p.payloadLength.toNat / 4)) (hpos : 4 ≤ p.payloadLength.toNat)
    (hwhole : p.payloadLength.toNat % 4 = 0) (hfree : s.serverGrabClient = 0
      ∨ s.serverGrabClient = p.clientId) : q.Admitted := by
  have hlt := p.payloadLength.toNat_lt
  have hsmall : (UInt16.ofNat (p.payloadLength.toNat / 4)).toNat = p.payloadLength.toNat / 4 :=
    UInt16.toNat_ofNat_of_lt' (show p.payloadLength.toNat / 4 < 2 ^ 16 by omega)
  have hfield : (q.field16 2).toNat = p.payloadLength.toNat / 4 := by
    rw [h.field16 hpos, hwords, hsmall]
  have hlength := h.carries.length
  refine ⟨rfl, ⟨fun hzero => ?_, by omega⟩, rfl, ?_⟩
  · rw [hzero] at hfield
    have hnone : (0 : UInt16).toNat = 0 := rfl
    omega
  · have hgrab : q.serverGrabClient = s.serverGrabClient := by rw [h.same]
    unfold mayRequest
    rw [hgrab, h.carries.clientId]
    exact decide_eq_true hfree

structure Connected (s : Server) (client : UInt32) : Prop where
  slot : client ≠ 0 ∧ client ≤ maxClients
  handle : s.replyHandle (client.toNat - 1) ≠ 0 ∧ s.replyHandle (client.toNat - 1) ≠ failure

theorem Connected.congr (h : s.Connected client) (hmemory : t.memory = s.memory) :
    t.Connected client := by
  refine ⟨h.slot, ?_⟩
  rw [replyHandle, hmemory]
  exact h.handle

/-- The kernel takes every record that is sent. -/
def Delivers (sys : Answers) : Prop := ∀ handle record calls,
  sys (.sendRecord handle record :: calls) = 64

def sentTo (t : Server) (client : UInt32) (record : Packet) : Server :=
  { t with calls := .sendRecord (t.replyHandle (client.toNat - 1)) record :: t.calls }

theorem answer_connected (hsys : Delivers sys) (h : t.Connected t.outgoing.clientId)
    (hshort : t.outgoing.Short) :
    answer sys (true, t) = t.sentTo t.outgoing.clientId (t.outgoing.record 0) := by
  have hsend : deliverRecord sys t.outgoing.clientId (t.outgoing.record 0) t
      = (true, t.sentTo t.outgoing.clientId (t.outgoing.record 0)) := by
    have hsent : t.sendRecord sys t.outgoing.clientId (t.outgoing.record 0)
        = (true, t.sentTo t.outgoing.clientId (t.outgoing.record 0)) :=
      Prod.ext (decide_eq_true (hsys _ _ _)) rfl
    unfold deliverRecord
    rw [hsent]
    rfl
  have hdeliver : t.deliver sys t.outgoing.clientId
      = (true, t.sentTo t.outgoing.clientId (t.outgoing.record 0)) := by
    unfold deliver
    dsimp only
    rw [if_neg (not_or.2 h.handle), if_neg h.handle.2, hshort.records, forEach_singleton, hsend]
  unfold answer sendOutgoing
  dsimp only
  rw [if_pos rfl, if_neg (not_or.2 ⟨h.slot.1, UInt32.not_lt.2 h.slot.2⟩), hdeliver, if_pos rfl]

end Server

/-! ## Requests -/

section

variable (opcode second : UInt8) (length : ℕ) (id : UInt32)

theorem requestHead_opcode : requestHead opcode second length id 0 = opcode := by
  rw [← read8_eq (requestHead opcode second length id) 0]
  simp (disch := omega) only [requestHead, write8, write16, write32, read8_store_of_disjoint,
    read8_store_self]

theorem requestHead_words :
    read16 (requestHead opcode second length id) 2 = UInt16.ofNat (length / 4) := by
  simp (disch := omega) only [requestHead, write16, write32, read16_store_of_disjoint,
    read16_store_self]

theorem requestHead_id : read32 (requestHead opcode second length id) 4 = id :=
  read32_write32 _ _ _

end

/-! ## The desktop -/

namespace Desktop

variable {d : Desktop} {s t : Server} {sys : Answers} {client : UInt32} {length : ℕ}
  {payload : ℕ → UInt8}

structure Runs (d : Desktop) (s : Server) : Prop where
  running : d.server = .running s
  whole : s.assembly.active = false

theorem takenSince_self (sys : Answers) (calls : List SystemCall) :
    takenSince sys calls.length calls = [] := by
  rcases calls with _ | ⟨call, calls⟩
  · rfl
  · simp [takenSince]

def began (d : Desktop) (client : UInt32) (length : ℕ) (payload : ℕ → UInt8) : Display :=
  { d.display client with
    sequence := (d.display client).sequence + 1, packet := d.packet client length payload }

theorem packet_short (hlength : length ≤ payloadBytes) :
    (d.packet client length payload).Short where
  fits := by
    have hsmall : length < 2 ^ 16 := lt_of_le_of_lt hlength (by decide)
    exact (UInt16.toNat_ofNat_of_lt' hsmall).trans_le hlength
  plain := (by decide : hasMore 0 = false)

theorem packet_length (hlength : length ≤ payloadBytes) :
    (d.packet client length payload).payloadLength.toNat = length :=
  UInt16.toNat_ofNat_of_lt' (lt_of_le_of_lt hlength (by decide))

theorem send_eq (sys : Answers) (hlength : length ≤ payloadBytes) :
    d.send sys client length payload = take sys (d.setDisplay client (d.began client length payload))
      ((d.packet client length payload).record 0) := by
  rw [send, sendPacket, (packet_short hlength).records]
  rfl

theorem take_silent (hrun : d.Runs s)
    (hhandle : s.handle sys (p.record 0).toWire = some (.ok (false, t)))
    (hcalls : t.calls = s.calls) :
    take sys d (p.record 0) = { d with server := .running t } := by
  have hstep : Process.step sys d.server (p.record 0).toWire = .running t := by
    rw [hrun.running]
    unfold Process.step Server.turn
    dsimp only
    rw [hhandle]
    rfl
  unfold take
  rw [hstep, hrun.running]
  dsimp only
  rw [hcalls, takenSince_self, List.append_nil, Function.update_eq_self]

theorem take_told (hsys : Server.Delivers sys) (hrun : d.Runs s)
    (hhandle : s.handle sys (p.record 0).toWire = some (.ok (true, t)))
    (hcalls : t.calls = s.calls) (hconnected : t.Connected t.outgoing.clientId)
    (hshort : t.outgoing.Short) :
    take sys d (p.record 0) = { d with
      server := .running (t.sentTo t.outgoing.clientId (t.outgoing.record 0))
      replies := Function.update d.replies t.outgoing.clientId
        (d.replies t.outgoing.clientId ++ [t.outgoing.record 0]) } := by
  have hanswer := Server.answer_connected hsys hconnected hshort
  have hstep : Process.step sys d.server (p.record 0).toWire
      = .running (t.sentTo t.outgoing.clientId (t.outgoing.record 0)) := by
    rw [hrun.running]
    unfold Process.step Server.turn
    dsimp only
    rw [hhandle]
    dsimp only
    rw [hanswer]
  have htaken : takenSince sys s.calls.length
      (t.sentTo t.outgoing.clientId (t.outgoing.record 0)).calls = [t.outgoing.record 0] := by
    unfold Server.sentTo
    rw [hcalls, takenSince, if_neg (lt_irrefl _), takenSince_self, if_pos (hsys _ _ _),
      List.nil_append]
  unfold take
  rw [hstep, hrun.running]
  dsimp only
  rw [htaken]
  rfl

/-- A client takes the first packet that waits for it. -/
theorem receive_record {rest : List Packet} (hp : p.Short)
    (h : d.replies client = p.record 0 :: rest) : ∃ packet,
      d.receive client = some { d.setDisplay client { d.display client with packet := packet } with
        replies := Function.update d.replies client rest }
      ∧ Carries packet p p.payloadLength.toNat := by
  obtain ⟨packet, hloop, hcarries⟩ := loop_recordsFrom hp.logical rest (p.payloadLength.toNat + 1) 0
    { packet := (d.display client).packet } (Nat.zero_le _) (by omega)
    ⟨rfl, fun _ h => absurd h (Nat.not_lt_zero _), fun h => absurd rfl h⟩
  have hrecords : p.recordsFrom (p.payloadLength.toNat + 1) 0 = [p.record 0] := hp.records
  rw [hrecords, List.map_singleton, record_ofWire, List.singleton_append, ← h] at hloop
  refine ⟨packet, ?_, hcarries⟩
  rw [receive, receivePacket, hloop, Option.map_some]

variable (payload) in
theorem send_asked (sys : Answers) (hrun : d.Runs s) (hclient : client ≠ 0 ∧ client ≤ maxClients)
    (hlength : length ≤ payloadBytes) : ∃ q, s.Has (d.packet client length payload) q
      ∧ s.handle sys ((d.packet client length payload).record 0).toWire
        = (q.parseRequest sys).map .ok :=
  Server.handle_record sys (packet_short hlength) hclient
    (by decide : (0 : UInt16) &&& flagSetup = 0) hrun.whole

/-- What a client sends is all there is where the handler wants nothing sent. -/
theorem send_silent (hrun : d.Runs s) (hlength : length ≤ payloadBytes)
    (hhas : s.Has (d.packet client length payload) q)
    (hhandle : s.handle sys ((d.packet client length payload).record 0).toWire
      = (q.parseRequest sys).map .ok)
    (hparse : q.parseRequest sys = some (false, t)) (hcalls : t.calls = q.calls) :
    d.send sys client length payload
      = { d.setDisplay client (d.began client length payload) with server := .running t } := by
  rw [send_eq sys hlength]
  refine take_silent (s := s) ⟨hrun.running, hrun.whole⟩ ?_ (hcalls.trans hhas.calls)
  rw [hhandle, hparse]
  rfl

/-- What the handler wants sent waits for the client it is for. -/
theorem send_told (hsys : Server.Delivers sys) (hrun : d.Runs s)
    (hlength : length ≤ payloadBytes) (hhas : s.Has (d.packet client length payload) q)
    (hhandle : s.handle sys ((d.packet client length payload).record 0).toWire
      = (q.parseRequest sys).map .ok)
    (hparse : q.parseRequest sys = some (true, t)) (hcalls : t.calls = q.calls)
    (hmemory : t.memory = q.memory) (hshort : t.outgoing.Short)
    (hconnected : s.Connected t.outgoing.clientId) :
    d.send sys client length payload = { d.setDisplay client (d.began client length payload) with
      server := .running (t.sentTo t.outgoing.clientId (t.outgoing.record 0))
      replies := Function.update d.replies t.outgoing.clientId
        (d.replies t.outgoing.clientId ++ [t.outgoing.record 0]) } := by
  rw [send_eq sys hlength]
  refine take_told (s := s) hsys ⟨hrun.running, hrun.whole⟩ ?_ (hcalls.trans hhas.calls)
    (hconnected.congr (hmemory.trans hhas.memory)) hshort
  rw [hhandle, hparse]
  rfl

/-! ## Requests that are answered -/

structure Continues (d : Desktop) (s : Server) (d' : Desktop) (t : Server) : Prop where
  runs : d'.Runs t
  replies : d'.replies = d.replies
  memory : t.memory = s.memory
  grab : t.serverGrabClient = s.serverGrabClient

structure Ready (d : Desktop) (s : Server) (client : UInt32) : Prop where
  connected : s.Connected client
  free : s.serverGrabClient = 0 ∨ s.serverGrabClient = client
  quiet : d.replies client = []

theorem Continues.ready (h : d.Continues s d' t) (hready : d.Ready s client) :
    d'.Ready t client where
  connected := hready.connected.congr h.memory
  free := by
    rw [h.grab]
    exact hready.free
  quiet := by
    rw [h.replies]
    exact hready.quiet

structure Tells (q : Server) (r : Bool × Server) : Prop where
  sent : r.1 = true
  client : r.2.outgoing.clientId = q.incoming.clientId
  flags : r.2.outgoing.flags = flagReply ∨ r.2.outgoing.flags = flagError
  fits : r.2.outgoing.payloadLength.toNat ≤ payloadBytes
  calls : r.2.calls = q.calls
  memory : r.2.memory = q.memory

theorem Tells.short {r : Bool × Server} (h : Tells q r) : r.2.outgoing.Short where
  fits := h.fits
  plain := by rcases h.flags with hflags | hflags <;> rw [hflags] <;> decide

structure Answered (d : Desktop) (client : UInt32) (t : Server) (d' : Desktop) : Prop where
  running : d'.server = .running (t.sentTo client (t.outgoing.record 0))
  replies : d'.replies = d.replies
  packet : Carries (d'.display client).packet t.outgoing t.outgoing.payloadLength.toNat

variable (payload) in
/-- A request of a client that is ready reaches the server, and the client has what it is
answered. -/
theorem request_answered (hsys : Server.Delivers sys) (hrun : d.Runs s) (hready : d.Ready s client)
    (hlength : length ≤ payloadBytes) : ∃ q, s.Has (d.packet client length payload) q
      ∧ ∀ r, q.parseRequest sys = some r → Tells q r →
        ∃ d', d.request sys client length payload = some d' ∧ d.Answered client r.2 d' := by
  obtain ⟨q, hhas, hhandle⟩ := send_asked payload sys hrun hready.connected.slot hlength
  refine ⟨q, hhas, fun r hparse htells => ?_⟩
  obtain ⟨told, t⟩ := r
  obtain rfl : told = true := htells.sent
  have hclient : t.outgoing.clientId = client := htells.client.trans hhas.carries.clientId
  have hsend := send_told hsys hrun hlength hhas hhandle hparse htells.calls htells.memory
    htells.short (hclient ▸ hready.connected)
  rw [hclient] at hsend
  have hreplies : (d.send sys client length payload).replies client = [t.outgoing.record 0] := by
    rw [hsend]
    dsimp only
    rw [Function.update_self, hready.quiet, List.nil_append]
  obtain ⟨packet, hreceive, hcarries⟩ := receive_record htells.short hreplies
  refine ⟨_, hreceive, ?_, ?_, ?_⟩
  · rw [hsend]
    rfl
  · rw [hsend]
    dsimp only [setDisplay]
    rw [Function.update_idem, ← hready.quiet, Function.update_eq_self]
  · dsimp only [setDisplay]
    rw [Function.update_self]
    exact hcarries

theorem Answered.continues (h : d.Answered client t d')
    (hhas : s.Has p q) (hassembly : t.assembly = q.assembly) (hmemory : t.memory = q.memory)
    (hgrab : t.serverGrabClient = q.serverGrabClient) :
    d.Continues s d' (t.sentTo client (t.outgoing.record 0)) where
  runs := ⟨h.running, hassembly ▸ hhas.whole⟩
  replies := h.replies
  memory := hmemory.trans hhas.memory
  grab := by
    unfold Server.sentTo
    rw [hgrab, hhas.same]

theorem Answered.replied_eq (h : d.Answered client t d') : d'.replied client
      = if t.outgoing.flags = flagReply then some (d'.display client).packet.payload else none := by
  rw [replied, h.packet.flags]

theorem Answered.field16 (h : d.Answered client t d')
    (ha : a + 2 ≤ t.outgoing.payloadLength.toNat) :
    read16 (d'.display client).packet.payload a = read16 t.outgoing.payload a :=
  congrArg UInt16.ofNat (LittleEndian.load_congr fun b _ hb => h.packet.bytes b (by omega))

theorem Answered.field32 (h : d.Answered client t d')
    (ha : a + 4 ≤ t.outgoing.payloadLength.toNat) :
    read32 (d'.display client).packet.payload a = read32 t.outgoing.payload a :=
  congrArg UInt32.ofNat (LittleEndian.load_congr fun b _ hb => h.packet.bytes b (by omega))

end Desktop

end DemonX

end DemonOS
