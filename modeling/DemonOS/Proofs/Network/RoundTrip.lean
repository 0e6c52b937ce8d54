import DemonOS.Network.Transmit
import DemonOS.Proofs.Network.Segments
import DemonOS.Proofs.Network.Writes

/-!
# A segment there and back

What `network_build_tcp_data` writes, `network_receive_ethernet` takes apart again: the headers and
the data lie where they are read (`Built.carries`), and both checksums are found right, because each
was written over zero into a word of what it sums. A peer that expects the data then gives it out
unchanged (`tcp_data_round_trip`).
-/

namespace DemonOS

namespace Network

theorem toNat_complement {n : ℕ} (h : n ≤ 0xFFFF) : (complement n).toNat = 0xFFFF - n := by
  unfold complement
  simp
  omega

/-- What a frame of data is built of: what `network_build_tcp_data` is given, and the state. -/
structure TcpData where
  s : Network
  frame : ℕ → UInt8
  capacity : ℕ
  destinationMac : Mac
  remoteAddress : UInt32
  localPort : UInt16
  remotePort : UInt16
  localSequence : UInt32
  remoteSequence : UInt32
  data : List UInt8

namespace TcpData

/-- A frame is built of it. -/
structure Sends (d : TcpData) : Prop where
  up : d.s.link = .up
  address : d.s.ipv4Address ≠ 0
  remoteAddress : d.remoteAddress ≠ 0
  localPort : d.localPort ≠ 0
  remotePort : d.remotePort ≠ 0
  data : d.data.length ≠ 0
  length : d.data.length ≤ 1400
  room : 54 + d.data.length ≤ d.capacity

def header (d : TcpData) : ℕ → UInt8 :=
  d.s.dataHeader d.frame (54 + d.data.length) (40 + d.data.length) d.destinationMac d.remoteAddress

def headerSum (d : TcpData) : ℕ :=
  OnesComplement.fold (OnesComplement.wordSum (behind d.header 14) 0 20)

def segment (d : TcpData) : ℕ → UInt8 :=
  dataSegment (writeBe16 d.header 24 (complement d.headerSum)) d.localPort d.remotePort
    d.localSequence d.remoteSequence d.data

def pseudoSum (d : TcpData) : ℕ :=
  OnesComplement.fold (OnesComplement.wordSum
    (pseudoHeader d.s.ipv4Address d.remoteAddress ipProtocolTcp (20 + d.data.length)) 0 12)

def segmentSum (d : TcpData) : ℕ :=
  OnesComplement.fold (d.pseudoSum
    + OnesComplement.wordSum (behind d.segment 34) 0 (20 + d.data.length))

def built (d : TcpData) : ℕ → UInt8 := writeBe16 d.segment 50 (complement d.segmentSum)

variable {d : TcpData}

theorem sum_mod (hlength : d.data.length ≤ 1400) (m : ℕ → UInt8) :
    (d.pseudoSum + OnesComplement.wordSum m 0 (20 + d.data.length)) % 2 ^ 32
      = d.pseudoSum + OnesComplement.wordSum m 0 (20 + d.data.length) := by
  have hwords := OnesComplement.wordSum_le m (20 + d.data.length) 0
  have hpseudo : d.pseudoSum ≤ 0xFFFF := OnesComplement.fold_le _
  exact Nat.mod_eq_of_lt (by omega)

theorem Sends.buildTcpData (h : d.Sends) :
    d.s.buildTcpData d.frame d.capacity d.destinationMac d.remoteAddress d.localPort d.remotePort
        d.localSequence d.remoteSequence d.data
      = some (54 + d.data.length, d.built,
        { d.s with pendingTcpDataLength := 0, pendingTcpFin := false }) := by
  have hroom := h.room
  have hip : ((packetOf d.header d.capacity).drop 14).Has (behind d.header 14) 20 :=
    ((packetOf_has _ _).drop 14).mono (by omega)
  have htcp : ((packetOf d.segment d.capacity).drop 34).Has (behind d.segment 34)
      (20 + d.data.length) := ((packetOf_has _ _).drop 34).mono (by omega)
  have hframe : ethernetHeaderBytes + (20 + (20 + d.data.length)) = 54 + d.data.length := by
    unfold ethernetHeaderBytes
    omega
  have hchecked : ¬(d.data.length = 0 ∨ 1400 < d.data.length ∨ d.capacity < 54 + d.data.length
      ∨ d.s.link ≠ .up ∨ d.s.ipv4Address = 0 ∨ d.remoteAddress = 0 ∨ d.localPort = 0
      ∨ d.remotePort = 0) := by
    simp only [not_or, not_lt, not_not]
    exact ⟨h.data, h.length, hroom, h.up, h.address, h.remoteAddress, h.localPort, h.remotePort⟩
  have hheader : networkIpv4Checksum ((packetOf d.header d.capacity).drop 14) 20
      = some (complement d.headerSum) := networkIpv4Checksum_eq hip (by omega) (by omega) (by omega)
  have hsegment : transportChecksum d.s.ipv4Address d.remoteAddress ipProtocolTcp
      ((packetOf d.segment d.capacity).drop 34) (20 + d.data.length)
      = some (complement d.segmentSum) := by
    rw [transportChecksum_eq htcp]
    change some (complement (OnesComplement.fold ((d.pseudoSum + _) % 2 ^ 32))) = _
    rw [sum_mod h.length]
    rfl
  unfold Network.buildTcpData
  dsimp only
  rw [hframe, if_neg hchecked, show 20 + (20 + d.data.length) = 40 + d.data.length by omega]
  change (do
    let sum ← networkIpv4Checksum ((packetOf d.header d.capacity).drop 14) 20
    _) = _
  rw [hheader]
  change (do
    let sum ← transportChecksum d.s.ipv4Address d.remoteAddress ipProtocolTcp
      ((packetOf d.segment d.capacity).drop 34) (20 + d.data.length)
    _) = _
  rw [hsegment]
  rfl

theorem header_fields (d : TcpData) : be16 d.header 12 = etherTypeIpv4 ∧ d.header 14 = 0x45
    ∧ be16 d.header 16 = UInt16.ofNat (40 + d.data.length) ∧ be16 d.header 20 = 0
    ∧ d.header 23 = ipProtocolTcp ∧ d.header 24 = 0 ∧ d.header 25 = 0
    ∧ be32 d.header 26 = d.s.ipv4Address ∧ be32 d.header 30 = d.remoteAddress := by
  unfold header dataHeader
  refine ⟨?_, ?_, ?_, ?_, ?_, ?_, ?_, ?_, be32_writeBe32 _ _ _⟩
  · simp [be16_writeBe32_of_ne, be16_writeBe16_of_ne, be16_writeByte_of_ne, be16_writeBe16]
  · simp [writeBe32_of_ne, writeBe16_of_ne]
  · simp [be16_writeBe32_of_ne, be16_writeBe16_of_ne, be16_writeByte_of_ne, be16_writeBe16]
  · simp [be16, writeBe32_of_ne, writeBe16_of_ne, writeMac_of_le,
      show 20 < 54 + d.data.length by omega, show 21 < 54 + d.data.length by omega]
  · simp [writeBe32_of_ne]
  · simp [writeBe32_of_ne, writeBe16_of_ne, writeMac_of_le, show 24 < 54 + d.data.length by omega]
  · simp [writeBe32_of_ne, writeBe16_of_ne, writeMac_of_le, show 25 < 54 + d.data.length by omega]
  · simp [be32_writeBe32_of_ne, be32_writeBe32]

theorem segment_fields (d : TcpData) : be16 d.segment 34 = d.localPort
    ∧ be16 d.segment 36 = d.remotePort ∧ be32 d.segment 38 = d.localSequence
    ∧ d.segment 46 = 0x50 ∧ d.segment 47 = tcpFlagPsh ||| tcpFlagAck ∧ d.segment 50 = 0
    ∧ d.segment 51 = 0 := by
  have hhead : ∀ a, a < 54 → d.segment a = writeBe16 (writeByte (writeByte (writeBe32 (writeBe32
      (writeBe16 (writeBe16 (writeBe16 d.header 24 (complement d.headerSum)) 34 d.localPort) 36
      d.remotePort) 38 d.localSequence) 42 d.remoteSequence) 46 0x50) 47
      (tcpFlagPsh ||| tcpFlagAck)) 48 16384 a := fun a ha => if_neg (by omega)
  refine ⟨?_, ?_, ?_, ?_, ?_, ?_, ?_⟩
  · rw [be16_congr fun k hk => hhead _ (by omega)]
    simp [be16_writeBe32_of_ne, be16_writeBe16_of_ne, be16_writeByte_of_ne, be16_writeBe16]
  · rw [be16_congr fun k hk => hhead _ (by omega)]
    simp [be16_writeBe32_of_ne, be16_writeBe16_of_ne, be16_writeByte_of_ne, be16_writeBe16]
  · rw [be32_congr fun k hk => hhead _ (by omega)]
    simp [be32_writeBe32_of_ne, be32_writeBe16_of_ne, be32_writeByte_of_ne, be32_writeBe32]
  · rw [hhead _ (by omega)]
    simp [writeBe16_of_ne]
  · rw [hhead _ (by omega)]
    simp [writeBe16_of_ne]
  · rw [hhead _ (by omega)]
    simp [writeBe32_of_ne, writeBe16_of_ne, header, dataHeader, writeMac_of_le,
      show 50 < 54 + d.data.length by omega]
  · rw [hhead _ (by omega)]
    simp [writeBe32_of_ne, writeBe16_of_ne, header, dataHeader, writeMac_of_le,
      show 51 < 54 + d.data.length by omega]

theorem segment_data (d : TcpData) {i : ℕ} (h : i < d.data.length) :
    d.segment (54 + i) = d.data[i] := by
  unfold segment dataSegment
  rw [if_pos (by omega), Nat.add_sub_cancel_left, List.getD_eq_getElem?_getD,
    List.getElem?_eq_getElem h, Option.getD_some]

theorem segment_of_lt (d : TcpData) {a : ℕ} (h : a < 34) :
    d.segment a = writeBe16 d.header 24 (complement d.headerSum) a := by
  unfold segment dataSegment
  rw [if_neg (by omega), writeBe16_of_ne _ _ (by omega), writeByte_apply, if_neg (by omega),
    writeByte_apply, if_neg (by omega), writeBe32_of_ne _ _ (by omega),
    writeBe32_of_ne _ _ (by omega), writeBe16_of_ne _ _ (by omega), writeBe16_of_ne _ _ (by omega)]

theorem built_of_lt (d : TcpData) {a : ℕ} (h : a < 34) (h24 : a ≠ 24) (h25 : a ≠ 25) :
    d.built a = d.header a := by
  rw [built, writeBe16_of_ne _ _ (by omega), segment_of_lt d h, writeBe16_of_ne _ _ (by omega)]

theorem built_headerSum (d : TcpData) :
    OnesComplement.fold (OnesComplement.wordSum (behind d.built 14) 0 20) = 0xFFFF := by
  obtain ⟨-, -, -, -, -, hzero, hzero', -, -⟩ := d.header_fields
  have hsame : OnesComplement.wordSum (behind d.built 14) 0 20
      = OnesComplement.wordSum (behind (writeBe16 d.header 24 (complement d.headerSum)) 14) 0 20 :=
    OnesComplement.wordSum_congr fun b _ hb => by
      unfold behind built
      rw [writeBe16_of_ne _ _ (by omega), segment_of_lt d (by omega)]
  rw [hsame, ← Nat.zero_add (OnesComplement.wordSum _ 0 20)]
  refine @OnesComplement.fold_checks (behind d.header 14) _ 0 5 20 0 (by omega)
    (fun b hb hb' => ?_) ⟨hzero, hzero'⟩ ?_
  · unfold behind
    rw [writeBe16_of_ne _ _ (by omega)]
  · rw [Nat.zero_add (OnesComplement.wordSum _ 0 20)]
    exact (writeBe16_word d.header 24 _).trans (toNat_complement (OnesComplement.fold_le _))

theorem built_segmentSum (d : TcpData) :
    OnesComplement.fold (d.pseudoSum
      + OnesComplement.wordSum (behind d.built 34) 0 (20 + d.data.length)) = 0xFFFF := by
  obtain ⟨-, -, -, -, -, hzero, hzero'⟩ := d.segment_fields
  refine @OnesComplement.fold_checks (behind d.segment 34) _ 0 8 _ _ (by omega)
    (fun b hb hb' => ?_) ⟨hzero, hzero'⟩ ?_
  · unfold behind built
    rw [writeBe16_of_ne _ _ (by omega)]
  · exact (writeBe16_word d.segment 50 _).trans (toNat_complement (OnesComplement.fold_le _))

def sent (d : TcpData) (padded : ℕ → UInt8) : TcpSegment :=
  segmentAt (behind padded 34) (20 + d.data.length) 20

theorem built_carries (d : TcpData) (hlength : d.data.length ≤ 1400) {padded : ℕ → UInt8} {n : ℕ}
    (hn : 54 + d.data.length ≤ n) (h : ∀ i, i < 54 + d.data.length → padded i = d.built i) :
    Carries padded n d.s.ipv4Address (d.sent padded) := by
  obtain ⟨htype, hversion, htotal, hfragment, hprotocol, -, -, hsource, hdestination⟩ :=
    d.header_fields
  obtain ⟨-, -, -, hoffset, -⟩ := d.segment_fields
  have hbyte : ∀ a, a < 34 → a ≠ 24 → a ≠ 25 → padded a = d.header a := fun a ha h24 h25 =>
    (h a (by omega)).trans (d.built_of_lt ha h24 h25)
  have hip : headerLength (behind padded 14) = 20 := by
    rw [headerLength, behind, hbyte 14 (by omega) (by omega) (by omega), hversion]
    rfl
  have hall : totalLength (behind padded 14) = 40 + d.data.length := by
    have hword : be16 (behind padded 14) 2 = be16 d.header 16 :=
      be16_congr fun k hk => by
        rw [behind, hbyte _ (by omega) (by omega) (by omega)]
        congr 1
        omega
    rw [totalLength, hword, htotal]
    simp
    omega
  have hheaderSum : OnesComplement.wordSum (behind padded 14) 0 20
      = OnesComplement.wordSum (behind d.built 14) 0 20 :=
    OnesComplement.wordSum_congr fun b _ hb => h _ (by omega)
  have hsegmentSum : OnesComplement.wordSum (behind padded 34) 0 (20 + d.data.length)
      = OnesComplement.wordSum (behind d.built 34) 0 (20 + d.data.length) :=
    OnesComplement.wordSum_congr fun b _ hb => h _ (by omega)
  have haddress : be32 (behind padded 14) 12 = d.s.ipv4Address := by
    rw [← hsource]
    exact be32_congr fun k hk => by
      rw [behind, hbyte _ (by omega) (by omega) (by omega)]
      congr 1
      omega
  have hremote : be32 (behind padded 14) 16 = d.remoteAddress := by
    rw [← hdestination]
    exact be32_congr fun k hk => by
      rw [behind, hbyte _ (by omega) (by omega) (by omega)]
      congr 1
      omega
  refine ⟨?_, ⟨⟨?_, ?_, ?_, ?_, ?_, ?_⟩, ?_, haddress, ?_⟩⟩
  · rw [← htype]
    exact be16_congr fun k hk => hbyte _ (by omega) (by omega) (by omega)
  · unfold ethernetHeaderBytes
    omega
  · change padded 14 >>> 4 = 4
    rw [hbyte 14 (by omega) (by omega) (by omega), hversion]
    rfl
  · unfold ethernetHeaderBytes
    omega
  · unfold ethernetHeaderBytes
    omega
  · unfold ethernetHeaderBytes
    rw [hip, networkIpv4Checksum_eq (packetOf_has _ 20) (by omega) (by omega) (by omega),
      hheaderSum, built_headerSum]
    rfl
  · have hflags : be16 (behind padded 14) 6 = be16 d.header 20 :=
      be16_congr fun k hk => by
        rw [behind, hbyte _ (by omega) (by omega) (by omega)]
        congr 1
        omega
    unfold ethernetHeaderBytes
    rw [hflags, hfragment]
    rfl
  · change padded 23 = ipProtocolTcp
    rw [hbyte 23 (by omega) (by omega) (by omega), hprotocol]
  · have hpayload : behind (behind padded 14) 20 = behind padded 34 := by
      funext i
      unfold behind
      congr 1
      omega
    have hshift : behind padded 34 12 = 0x50 := by
      rw [behind, h _ (by omega), built, writeBe16_of_ne _ _ (by omega)]
      exact hoffset
    unfold ethernetHeaderBytes
    rw [hip, hall, hpayload, hremote, show 40 + d.data.length - 20 = 20 + d.data.length by omega,
      tcpSegment_eq (packetOf_has _ _), hshift, if_pos]
    · rfl
    · refine ⟨by omega, ?_, by decide, ?_⟩
      · rw [transportChecksum_eq (packetOf_has _ _)]
        change some (complement (OnesComplement.fold ((d.pseudoSum + _) % 2 ^ 32))) = _
        rw [sum_mod hlength, hsegmentSum, built_segmentSum]
        rfl
      · change 20 ≤ _
        omega

theorem sent_fields (d : TcpData) {padded : ℕ → UInt8}
    (h : ∀ i, i < 54 + d.data.length → padded i = d.built i) :
    (d.sent padded).sourcePort = d.localPort ∧ (d.sent padded).destinationPort = d.remotePort
      ∧ (d.sent padded).sequence = d.localSequence
      ∧ (d.sent padded).flags = tcpFlagPsh ||| tcpFlagAck ∧ (d.sent padded).data = d.data := by
  obtain ⟨hsource, hdestination, hsequence, -, hflags, -, -⟩ := d.segment_fields
  have hbyte : ∀ a, a < 54 + d.data.length → a < 50 ∨ 52 ≤ a → padded a = d.segment a :=
    fun a ha hne => by rw [h a ha, built, writeBe16_of_ne _ _ (by omega)]
  refine ⟨?_, ?_, ?_, ?_, ?_⟩
  · rw [← hsource]
    exact be16_congr fun k hk => by
      rw [behind, hbyte _ (by omega) (by omega)]
      congr 1
      omega
  · rw [← hdestination]
    exact be16_congr fun k hk => by
      rw [behind, hbyte _ (by omega) (by omega)]
      congr 1
      omega
  · rw [← hsequence]
    exact be32_congr fun k hk => by
      rw [behind, hbyte _ (by omega) (by omega)]
      congr 1
      omega
  · exact (hbyte 47 (by omega) (by omega)).trans hflags
  · refine List.ext_getElem (by simp [sent, segmentAt]) fun i hi hi' => ?_
    have hbyte' := (hbyte (54 + i) (by omega) (by omega)).trans (d.segment_data hi')
    simp only [sent, segmentAt, List.getElem_map, List.getElem_range, behind]
    rw [← hbyte']
    congr 1
    omega

end TcpData

/-- So many bytes of the connection that begin at `sequence` come in sequence: nothing is pending,
or they follow what is, and there is room for them. -/
structure Expects (s : Network) (source : UInt32) (sourcePort destinationPort : UInt16)
    (sequence : UInt32) (length : ℕ) : Prop where
  up : s.link = .up
  room : s.pendingTcpDataLength + length ≤ tcpReceiveLimit
  next : s.pendingTcpDataLength = 0 ∨ s.pendingTcpDataAddress = source
    ∧ s.pendingTcpDataRemotePort = sourcePort ∧ s.pendingTcpDataLocalPort = destinationPort
    ∧ s.pendingTcpDataNextSequence = sequence

theorem Expects.not_refuses {s : Network} {source : UInt32} {g : TcpSegment}
    (h : s.Expects source g.sourcePort g.destinationPort g.sequence g.data.length) :
    ¬s.Refuses source g := by
  have hroom := h.room
  unfold tcpReceiveLimit at hroom
  rintro ⟨-, hrefused⟩
  split_ifs at hrefused with hempty
  · unfold tcpReceiveLimit at hrefused
    omega
  · obtain ⟨haddress, hremote, hlocal, hnext⟩ := h.next.resolve_left hempty
    refine hrefused ⟨haddress, hremote, hlocal, hnext, ?_⟩
    unfold tcpReceiveLimit
    omega

/-- A frame of data is built, and the peer whose connection it is for takes it and gives out the
data behind what it has pending. -/
theorem tcp_data_round_trip (d : TcpData) (h : d.Sends) (r : Network)
    (hr : r.Expects d.s.ipv4Address d.localPort d.remotePort d.localSequence d.data.length) :
    ∃ built s', d.s.buildTcpData d.frame d.capacity d.destinationMac d.remoteAddress d.localPort
          d.remotePort d.localSequence d.remoteSequence d.data
        = some (54 + d.data.length, built, s') ∧
      ∀ (padded : ℕ → UInt8) (n : UInt64), ethernetMinFrameBytes ≤ n.toNat →
        54 + d.data.length ≤ n.toNat →
        (∀ i, i < n.toNat → padded i = if i < 54 + d.data.length then built i else 0) →
        ∃ t, r.receiveEthernet padded n = some (true, t)
          ∧ t.pendingTcpDataNextSequence = d.localSequence + UInt32.ofNat d.data.length
          ∧ ∀ capacity, r.pendingTcpDataLength + d.data.length ≤ capacity →
            (t.tcpReceive d.s.ipv4Address d.remotePort d.localPort capacity).1
              = r.pendingData ++ d.data := by
  refine ⟨d.built, _, h.buildTcpData, fun padded n hmin hn hpadded => ?_⟩
  have hbytes : ∀ i, i < 54 + d.data.length → padded i = d.built i := fun i hi => by
    rw [hpadded i (by omega), if_pos hi]
  have hcarries := d.built_carries h.length hn hbytes
  obtain ⟨hsource, hdestination, hsequence, hflags, hdata⟩ := d.sent_fields hbytes
  have hsome : (d.sent padded).data ≠ [] := by
    rw [hdata]
    exact List.length_pos_iff.1 (Nat.pos_of_ne_zero h.data)
  have hfin : (d.sent padded).fin = false := by
    rw [TcpSegment.fin, hflags]
    decide
  have hnot : ¬r.Refuses d.s.ipv4Address (d.sent padded) := by
    refine Expects.not_refuses ?_
    rw [hsource, hdestination, hsequence, hdata]
    exact hr
  obtain ⟨t, heq, htakes⟩ : ∃ t, r.receiveSegment d.s.ipv4Address (d.sent padded) = (true, t)
      ∧ r.Takes t d.s.ipv4Address (d.sent padded) := by
    have hreceives := receiveSegment_receives r d.s.ipv4Address (d.sent padded)
    rcases hresult : r.receiveSegment d.s.ipv4Address (d.sent padded) with ⟨accepted, t⟩
    rw [hresult] at hreceives
    cases hreceives with
    | refused hrefuses => exact absurd hrefuses hnot
    | empty hempty => exact absurd hempty hsome
    | taken _ _ htakes => exact ⟨t, rfl, htakes⟩
  obtain ⟨received, dropped, hframe⟩ := hcarries.receiveEthernet hmin hr.up
  rw [heq] at hframe
  refine ⟨_, hframe, ?_, fun capacity hcapacity => ?_⟩
  · dsimp only
    rw [htakes.next, hsequence, hdata, hfin]
    simp
  · have hlength := htakes.length
    have hpositive := List.length_pos_iff.2 hsome
    have hgiven := htakes.data
    rw [hdata] at hlength hgiven hpositive
    unfold tcpReceive
    rw [if_neg]
    · dsimp only
      rw [Nat.min_eq_left (by omega)]
      exact hgiven
    · simp only [not_or, not_not]
      exact ⟨by omega, htakes.address, htakes.localPort.trans hdestination,
        htakes.remotePort.trans hsource⟩

def threeBytes : TcpData where
  s := { linked with mac := #v[2, 0, 0, 0, 0, 2], ipv4Address := 0x0A000202 }
  frame := fun _ => 0
  capacity := 1536
  destinationMac := #v[2, 0, 0, 0, 0, 1]
  remoteAddress := 0x0A00020F
  localPort := 80
  remotePort := 49201
  localSequence := 100
  remoteSequence := 1
  data := [71, 69, 84]

theorem tcp_data_round_trip_threeBytes :
    ∃ built s', threeBytes.s.buildTcpData threeBytes.frame threeBytes.capacity
          threeBytes.destinationMac threeBytes.remoteAddress threeBytes.localPort
          threeBytes.remotePort threeBytes.localSequence threeBytes.remoteSequence threeBytes.data
        = some (54 + threeBytes.data.length, built, s') ∧
      ∀ (padded : ℕ → UInt8) (n : UInt64), ethernetMinFrameBytes ≤ n.toNat →
        54 + threeBytes.data.length ≤ n.toNat →
        (∀ i, i < n.toNat → padded i = if i < 54 + threeBytes.data.length then built i else 0) →
        ∃ t, linked.receiveEthernet padded n = some (true, t)
          ∧ t.pendingTcpDataNextSequence
            = threeBytes.localSequence + UInt32.ofNat threeBytes.data.length
          ∧ ∀ capacity, linked.pendingTcpDataLength + threeBytes.data.length
              ≤ capacity →
            (t.tcpReceive threeBytes.s.ipv4Address threeBytes.remotePort threeBytes.localPort
              capacity).1 = linked.pendingData ++ threeBytes.data :=
  tcp_data_round_trip threeBytes ⟨rfl, by decide, by decide, by decide, by decide, by decide,
    by decide, by decide⟩ { link := .up } ⟨rfl, by decide, .inl rfl⟩

end Network

end DemonOS
