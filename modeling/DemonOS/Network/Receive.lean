import DemonOS.Network.Packet

/-!
# What the network receives

`src/network.c`: the state of the network, the functions that take a frame apart (`receive_arp`,
`receive_dhcp`, `receive_dns`, `receive_udp`, `receive_tcp`, `receive_ipv4`,
`network_receive_ethernet`), and what is asked of the state afterwards. A loop over a packet is given
as many rounds as the packet has bytes and one more; it has no result if these do not end it.
-/

namespace DemonOS

inductive NetworkLinkState
  | noDevice
  | down
  | up
  deriving DecidableEq

structure ArpEntry where
  address : UInt32 := 0
  mac : Network.Mac := .replicate 6 0
  valid : Bool := false
  deriving DecidableEq

structure DhcpOffer where
  address : UInt32 := 0
  server : UInt32 := 0
  gateway : UInt32 := 0
  dns : UInt32 := 0
  subnetMask : UInt32 := 0
  deriving DecidableEq

structure DnsAnswer where
  address : UInt32 := 0
  ttlSeconds : UInt32 := 0
  deriving DecidableEq

structure TcpSynAck where
  remoteSequence : UInt32 := 0
  receiveWindow : UInt16 := 0
  deriving DecidableEq

structure NetworkRoute where
  gateway : UInt32 := 0
  dns : UInt32 := 0
  gatewayMac : Network.Mac := .replicate 6 0
  deriving DecidableEq

/-- The state of `src/network.c`. -/
structure Network where
  link : NetworkLinkState := .noDevice
  mac : Network.Mac := .replicate 6 0
  ipv4Address : UInt32 := 0
  receivedFrames : UInt64 := 0
  transmittedFrames : UInt64 := 0
  droppedFrames : UInt64 := 0
  arpEntries : ℕ := 0
  arpCache : Fin 4 → ArpEntry := fun _ => {}
  arpReplace : Fin 4 := 0
  pendingOffer : DhcpOffer := {}
  pendingOfferTransaction : UInt32 := 0
  pendingOfferValid : Bool := false
  pendingAck : DhcpOffer := {}
  pendingAckTransaction : UInt32 := 0
  pendingAckValid : Bool := false
  pendingDnsAnswer : DnsAnswer := {}
  pendingDnsTransaction : UInt16 := 0
  pendingDnsValid : Bool := false
  pendingTcpSynAck : TcpSynAck := {}
  pendingTcpAddress : UInt32 := 0
  pendingTcpAcknowledgment : UInt32 := 0
  pendingTcpLocalPort : UInt16 := 0
  pendingTcpRemotePort : UInt16 := 0
  pendingTcpValid : Bool := false
  pendingTcpData : ℕ → UInt8 := fun _ => 0
  pendingTcpDataLength : ℕ := 0
  pendingTcpDataNextSequence : UInt32 := 0
  pendingTcpDataAddress : UInt32 := 0
  pendingTcpDataLocalPort : UInt16 := 0
  pendingTcpDataRemotePort : UInt16 := 0
  pendingTcpFin : Bool := false
  pendingTcpFinAddress : UInt32 := 0
  pendingTcpFinNextSequence : UInt32 := 0
  pendingTcpFinLocalPort : UInt16 := 0
  pendingTcpFinRemotePort : UInt16 := 0
  httpDocument : ℕ → UInt8 := fun _ => 0
  httpDocumentLength : ℕ := 0
  httpDocumentReads : UInt64 := 0
  activeRoute : NetworkRoute := {}
  activeRouteValid : Bool := false

namespace Network

/-- The link is up, and nothing else is known. -/
def linked : Network := { link := .up }

def ethernetHeaderBytes : ℕ := 14
def ethernetMinFrameBytes : ℕ := 60
def etherTypeArp : UInt16 := 0x0806
def etherTypeIpv4 : UInt16 := 0x0800
def arpPacketBytes : ℕ := 28
def ipProtocolUdp : UInt8 := 17
def ipProtocolTcp : UInt8 := 6
def dhcpClientPort : UInt16 := 68
def dhcpServerPort : UInt16 := 67
def dhcpFixedBytes : ℕ := 240
def dnsServerPort : UInt16 := 53
def dnsClientPort : UInt16 := 49152
def tcpFlagFin : UInt8 := 0x01
def tcpFlagSyn : UInt8 := 0x02
def tcpFlagPsh : UInt8 := 0x08
def tcpFlagAck : UInt8 := 0x10
def tcpReceiveLimit : ℕ := 4096

def learnArp (s : Network) (address : UInt32) (mac : Mac) : Network :=
  match (List.finRange 4).find? fun i => (s.arpCache i).valid && (s.arpCache i).address == address with
  | some i => { s with arpCache := Function.update s.arpCache i { s.arpCache i with mac := mac } }
  | none =>
    { s with
      arpEntries := if (s.arpCache s.arpReplace).valid then s.arpEntries else s.arpEntries + 1
      arpCache := Function.update s.arpCache s.arpReplace { address, mac, valid := true }
      arpReplace := s.arpReplace + 1 }

def receiveArp (s : Network) (packet : Packet) (length : ℕ) : Option (Bool × Network) :=
  if length < arpPacketBytes then some (false, s)
  else do
    let hardware ← readBe16 packet 0
    let protocol ← readBe16 packet 2
    let hardwareLength ← packet 4
    let protocolLength ← packet 5
    if hardware ≠ 1 ∨ protocol ≠ etherTypeIpv4 ∨ hardwareLength ≠ 6 ∨ protocolLength ≠ 4 then
      return (false, s)
    let operation ← readBe16 packet 6
    if operation ≠ 1 ∧ operation ≠ 2 then return (false, s)
    return (true, s.learnArp (← readBe32 packet 14) (← readMac packet 8))

/-- What an option of an offer says, its bytes at `offset`. -/
def dhcpOption (packet : Packet) (offset : ℕ) (option : UInt8) (length : ℕ) (offer : DhcpOffer)
    (messageType : UInt8) : Option (DhcpOffer × UInt8) :=
  if option = 53 ∧ length = 1 then do return (offer, ← packet offset)
  else if option = 54 ∧ length = 4 then do
    return ({ offer with server := ← readBe32 packet offset }, messageType)
  else if option = 3 ∧ 4 ≤ length then do
    return ({ offer with gateway := ← readBe32 packet offset }, messageType)
  else if option = 6 ∧ 4 ≤ length then do
    return ({ offer with dns := ← readBe32 packet offset }, messageType)
  else if option = 1 ∧ length = 4 then do
    return ({ offer with subnetMask := ← readBe32 packet offset }, messageType)
  else some (offer, messageType)

def dhcpOptions (packet : Packet) (length : ℕ) :
    ℕ → ℕ → DhcpOffer → UInt8 → Option (Option (DhcpOffer × UInt8))
  | 0, _, _, _ => none
  | rounds + 1, offset, offer, messageType =>
    if length ≤ offset then some (some (offer, messageType))
    else do
      let option ← packet offset
      let offset ← sizeAdd offset 1
      if option = 0 then dhcpOptions packet length rounds offset offer messageType
      else if option = 255 then return some (offer, messageType)
      else if length ≤ offset then return none
      else do
        let optionLength ← packet offset
        let offset ← sizeAdd offset 1
        if (← sizeSub length offset) < optionLength.toNat then return none
        else do
          let (offer, messageType) ←
            dhcpOption packet offset option optionLength.toNat offer messageType
          let offset ← sizeAdd offset optionLength.toNat
          dhcpOptions packet length rounds offset offer messageType

def receiveDhcp (s : Network) (packet : Packet) (length : ℕ) : Option (Bool × Network) :=
  if length < dhcpFixedBytes then some (false, s)
  else do
    let operation ← packet 0
    let hardware ← packet 1
    let hardwareLength ← packet 2
    let magic ← readBe32 packet 236
    let client ← readMac packet 28
    if operation ≠ 2 ∨ hardware ≠ 1 ∨ hardwareLength ≠ 6 ∨ magic ≠ 0x63825363 ∨ client ≠ s.mac then
      return (false, s)
    let offer : DhcpOffer := { address := ← readBe32 packet 16 }
    let transaction ← readBe32 packet 4
    match ← dhcpOptions packet length (length + 1) dhcpFixedBytes offer 0 with
    | none => return (false, s)
    | some (offer, messageType) =>
      if (messageType ≠ 2 ∧ messageType ≠ 5) ∨ offer.address = 0 ∨ offer.server = 0 then
        return (false, s)
      else if messageType = 2 then
        return (true, { s with
          pendingOffer := offer, pendingOfferTransaction := transaction, pendingOfferValid := true })
      else
        return (true, { s with
          pendingAck := offer, pendingAckTransaction := transaction, pendingAckValid := true })

def dnsSkipName (packet : Packet) (length : ℕ) : ℕ → ℕ → Option ℕ
  | 0, _ => none
  | rounds + 1, offset =>
    if length ≤ offset then some 0
    else do
      let label ← packet offset
      let offset ← sizeAdd offset 1
      if label = 0 then return offset
      else if label &&& 0xC0 = 0xC0 then
        if offset < length then sizeAdd offset 1 else return 0
      else do
        let rest ← sizeSub length offset
        if 63 < label.toNat ∨ rest < label.toNat then return 0
        else do
          let offset ← sizeAdd offset label.toNat
          dnsSkipName packet length rounds offset

def dnsQuestions (packet : Packet) (length : ℕ) : ℕ → ℕ → Option (Option ℕ)
  | 0, offset => some (some offset)
  | questions + 1, offset => do
    let offset ← dnsSkipName packet length (length + 1) offset
    if offset = 0 then return none
    if (← sizeSub length offset) < 4 then return none
    let offset ← sizeAdd offset 4
    dnsQuestions packet length questions offset

/-- The first address among so many answers is taken. -/
def dnsAnswers (packet : Packet) (length : ℕ) (transaction : UInt16) (s : Network) :
    ℕ → ℕ → Option (Bool × Network)
  | 0, _ => some (false, s)
  | answers + 1, offset => do
    let offset ← dnsSkipName packet length (length + 1) offset
    if offset = 0 then return (false, s)
    if (← sizeSub length offset) < 10 then return (false, s)
    let type ← readBe16 packet offset
    let classCode ← readBe16 packet (offset + 2)
    let ttl ← readBe32 packet (offset + 4)
    let dataLength ← readBe16 packet (offset + 8)
    let offset ← sizeAdd offset 10
    if (← sizeSub length offset) < dataLength.toNat then return (false, s)
    if type = 1 ∧ classCode = 1 ∧ dataLength = 4 then
      return (true, { s with
        pendingDnsAnswer := { address := ← readBe32 packet offset, ttlSeconds := ttl }
        pendingDnsTransaction := transaction
        pendingDnsValid := true })
    let offset ← sizeAdd offset dataLength.toNat
    dnsAnswers packet length transaction s answers offset

def receiveDns (s : Network) (packet : Packet) (length : ℕ) : Option (Bool × Network) :=
  if length < 12 then some (false, s)
  else do
    let flags ← readBe16 packet 2
    if flags &&& 0x800F ≠ 0x8000 then return (false, s)
    let transaction ← readBe16 packet 0
    let questions ← readBe16 packet 4
    let answers ← readBe16 packet 6
    match ← dnsQuestions packet length questions.toNat 12 with
    | none => return (false, s)
    | some offset => dnsAnswers packet length transaction s answers.toNat offset

def receiveUdp (s : Network) (packet : Packet) (length : ℕ) : Option (Bool × Network) :=
  if length < 8 then some (false, s)
  else do
    let sourcePort ← readBe16 packet 0
    let destinationPort ← readBe16 packet 2
    let udpLength ← readBe16 packet 4
    if udpLength.toNat < 8 ∨ length < udpLength.toNat then return (false, s)
    if sourcePort = dhcpServerPort ∧ destinationPort = dhcpClientPort then
      receiveDhcp s (packet.drop 8) (udpLength.toNat - 8)
    else if sourcePort = dnsServerPort ∧ destinationPort = dnsClientPort then
      receiveDns s (packet.drop 8) (udpLength.toNat - 8)
    else return (true, s)

/-- What `receive_tcp` reads of a segment. -/
structure TcpSegment where
  sourcePort : UInt16
  destinationPort : UInt16
  sequence : UInt32
  acknowledgment : UInt32
  flags : UInt8
  window : UInt16
  data : List UInt8
  deriving DecidableEq

def TcpSegment.fin (g : TcpSegment) : Bool := g.flags &&& tcpFlagFin ≠ 0

def tcpSegment (packet : Packet) (length : ℕ) (source destination : UInt32) :
    Option (Option TcpSegment) :=
  if length < 20 then some none
  else do
    if (← transportChecksum source destination ipProtocolTcp packet length) ≠ 0 then return none
    let headerLength := ((← packet 12) >>> 4).toNat * 4
    if headerLength < 20 ∨ length < headerLength then return none
    return some
      { sourcePort := ← readBe16 packet 0
        destinationPort := ← readBe16 packet 2
        sequence := ← readBe32 packet 4
        acknowledgment := ← readBe32 packet 8
        flags := ← packet 13
        window := ← readBe16 packet 14
        data := ← (List.range (length - headerLength)).mapM fun i => packet (headerLength + i) }

def takeFin (s : Network) (source : UInt32) (g : TcpSegment) : Network :=
  if g.fin then
    { s with
      pendingTcpFin := true
      pendingTcpFinAddress := source
      pendingTcpFinRemotePort := g.sourcePort
      pendingTcpFinLocalPort := g.destinationPort
      pendingTcpFinNextSequence := g.sequence + UInt32.ofNat g.data.length + 1 }
  else s

def takeConnection (s : Network) (source : UInt32) (g : TcpSegment) : Network :=
  if s.pendingTcpDataLength = 0 then
    { s with
      pendingTcpDataAddress := source
      pendingTcpDataRemotePort := g.sourcePort
      pendingTcpDataLocalPort := g.destinationPort
      pendingTcpDataNextSequence := g.sequence }
  else s

/-- The segment is of the connection, begins where the pending data ends and fits behind it. -/
def Accepts (s : Network) (source : UInt32) (g : TcpSegment) : Prop :=
  s.pendingTcpDataAddress = source ∧ s.pendingTcpDataRemotePort = g.sourcePort
    ∧ s.pendingTcpDataLocalPort = g.destinationPort ∧ s.pendingTcpDataNextSequence = g.sequence
    ∧ g.data.length ≤ (2 ^ 64 + tcpReceiveLimit - s.pendingTcpDataLength) % 2 ^ 64

instance (s : Network) (source : UInt32) (g : TcpSegment) : Decidable (s.Accepts source g) :=
  inferInstanceAs (Decidable (_ ∧ _))

def takeData (s : Network) (g : TcpSegment) : Network :=
  { s with
    pendingTcpData := fun i =>
      if s.pendingTcpDataLength ≤ i ∧ i < s.pendingTcpDataLength + g.data.length then
        g.data.getD (i - s.pendingTcpDataLength) 0
      else s.pendingTcpData i
    pendingTcpDataLength := s.pendingTcpDataLength + g.data.length
    pendingTcpDataNextSequence := s.pendingTcpDataNextSequence + UInt32.ofNat g.data.length
      + if g.fin then 1 else 0 }

def takeSynAck (s : Network) (source : UInt32) (g : TcpSegment) : Network :=
  if g.flags &&& (tcpFlagSyn ||| tcpFlagAck) = tcpFlagSyn ||| tcpFlagAck then
    { s with
      pendingTcpRemotePort := g.sourcePort
      pendingTcpLocalPort := g.destinationPort
      pendingTcpSynAck := { remoteSequence := g.sequence, receiveWindow := g.window }
      pendingTcpAcknowledgment := g.acknowledgment
      pendingTcpAddress := source
      pendingTcpValid := true }
  else s

/-- What `receive_tcp` does with a segment it has read. -/
def receiveSegment (s : Network) (source : UInt32) (g : TcpSegment) : Bool × Network :=
  let s := s.takeFin source g
  if g.data = [] then (true, s.takeSynAck source g)
  else
    let s := s.takeConnection source g
    if s.Accepts source g then (true, (s.takeData g).takeSynAck source g) else (false, s)

def receiveTcp (s : Network) (packet : Packet) (length : ℕ) (source destination : UInt32) :
    Option (Bool × Network) := do
  match ← tcpSegment packet length source destination with
  | none => return (false, s)
  | some g => return s.receiveSegment source g

def receiveIpv4 (s : Network) (packet : Packet) (length : ℕ) : Option (Bool × Network) :=
  if length < 20 then some (false, s)
  else do
    let first ← packet 0
    if first >>> 4 ≠ 4 then return (false, s)
    let headerLength := (first &&& 0x0F).toNat * 4
    let totalLength := (← readBe16 packet 2).toNat
    if headerLength < 20 ∨ 60 < headerLength ∨ length < headerLength ∨ totalLength < headerLength
        ∨ length < totalLength then
      return (false, s)
    if (← networkIpv4Checksum packet headerLength) ≠ 0 then return (false, s)
    if (← readBe16 packet 6) &&& 0x3FFF ≠ 0 then return (false, s)
    let protocol ← packet 9
    if protocol = ipProtocolUdp then
      receiveUdp s (packet.drop headerLength) (totalLength - headerLength)
    else if protocol = ipProtocolTcp then do
      receiveTcp s (packet.drop headerLength) (totalLength - headerLength) (← readBe32 packet 12)
        (← readBe32 packet 16)
    else return (true, s)

def receiveFrame (s : Network) (packet : Packet) (length : ℕ) : Option (Bool × Network) := do
  let type ← readBe16 packet 12
  if type = etherTypeArp then
    receiveArp s (packet.drop ethernetHeaderBytes) (length - ethernetHeaderBytes)
  else if type = etherTypeIpv4 then
    receiveIpv4 s (packet.drop ethernetHeaderBytes) (length - ethernetHeaderBytes)
  else return (false, s)

/-- `network_receive_ethernet`: the frame counts as received or as dropped. -/
def receiveEthernet (s : Network) (frame : ℕ → UInt8) (length : UInt64) :
    Option (Bool × Network) :=
  if length.toNat < ethernetMinFrameBytes ∨ s.link ≠ .up then
    some (false, { s with droppedFrames := s.droppedFrames + 1 })
  else do
    let (accepted, s) ← s.receiveFrame (packetOf frame length.toNat) length.toNat
    if accepted then return (true, { s with receivedFrames := s.receivedFrames + 1 })
    else return (false, { s with droppedFrames := s.droppedFrames + 1 })

/-- `network_init`. What has no meaning without a flag or a length that is cleared stays. -/
def networkInit (s : Network) : Network :=
  { pendingTcpData := s.pendingTcpData
    pendingTcpDataAddress := s.pendingTcpDataAddress
    pendingTcpDataLocalPort := s.pendingTcpDataLocalPort
    pendingTcpDataRemotePort := s.pendingTcpDataRemotePort
    pendingTcpFinAddress := s.pendingTcpFinAddress
    pendingTcpFinNextSequence := s.pendingTcpFinNextSequence
    pendingTcpFinLocalPort := s.pendingTcpFinLocalPort
    pendingTcpFinRemotePort := s.pendingTcpFinRemotePort
    httpDocument := s.httpDocument }

def networkArpLookup (s : Network) (address : UInt32) : Option Mac :=
  ((List.finRange 4).find? fun i =>
    (s.arpCache i).valid && (s.arpCache i).address == address).map fun i => (s.arpCache i).mac

/-- `network_tcp_receive`: the bytes given out, and the next sequence number where there are any. -/
def tcpReceive (s : Network) (remoteAddress : UInt32) (localPort remotePort : UInt16)
    (capacity : ℕ) : List UInt8 × Option UInt32 × Network :=
  if s.pendingTcpDataLength = 0 ∨ s.pendingTcpDataAddress ≠ remoteAddress
      ∨ s.pendingTcpDataLocalPort ≠ localPort ∨ s.pendingTcpDataRemotePort ≠ remotePort then
    ([], none, s)
  else
    ((List.range (min s.pendingTcpDataLength capacity)).map s.pendingTcpData,
      some s.pendingTcpDataNextSequence, { s with pendingTcpDataLength := 0 })

/-- `network_tcp_remote_fin`: the sequence number behind the peer's last. -/
def tcpRemoteFin (s : Network) (remoteAddress : UInt32) (localPort remotePort : UInt16) :
    Option UInt32 :=
  if s.pendingTcpFin = false ∨ s.pendingTcpFinAddress ≠ remoteAddress
      ∨ s.pendingTcpFinLocalPort ≠ localPort ∨ s.pendingTcpFinRemotePort ≠ remotePort then none
  else some s.pendingTcpFinNextSequence

end Network

/-!
## The document of a response

`src/network.c`: `network_publish_http_response` keeps what a response has behind its headers, and
`network_http_response` gives it out. The search is given as many rounds as the response has bytes.
-/

namespace Network

def httpDocumentLimit : ℕ := 1024

/-- The search for the empty line: the index behind it, or one of the last three. -/
def httpBody (response : List UInt8) : ℕ → ℕ → ℕ
  | 0, body => body
  | rounds + 1, body =>
    if body + 3 < response.length then
      if response.getD body 0 = 0x0D ∧ response.getD (body + 1) 0 = 0x0A
          ∧ response.getD (body + 2) 0 = 0x0D ∧ response.getD (body + 3) 0 = 0x0A then body + 4
      else httpBody response rounds (body + 1)
    else body

def networkPublishHttpResponse (s : Network) (response : List UInt8) : Network :=
  let s := { s with httpDocumentLength := 0 }
  let body := httpBody response response.length 0
  if response.length ≤ body + 3 then s
  else
    let amount := min (response.length - body) httpDocumentLimit
    { s with
      httpDocument := fun i => if i < amount then response.getD (body + i) 0 else s.httpDocument i
      httpDocumentLength := amount }

/-- `network_http_response`: the bytes given out. -/
def networkHttpResponse (s : Network) (capacity : ℕ) : List UInt8 × Network :=
  if capacity = 0 ∨ s.httpDocumentLength = 0 then ([], s)
  else ((List.range (min s.httpDocumentLength capacity)).map s.httpDocument,
    { s with httpDocumentReads := s.httpDocumentReads + 1 })

end Network

end DemonOS
