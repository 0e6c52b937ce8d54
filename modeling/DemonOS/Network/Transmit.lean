import DemonOS.Network.Receive

/-!
# What the network sends

`src/network.c`: `network_build_tcp_data`, a frame with one segment of data, and
`network_build_dns_query`, a frame that asks for the address of a host. The loop over the labels of
its name is given as many rounds as the name has characters and one more.
-/

namespace DemonOS

namespace Network

/-- The Ethernet and IPv4 headers of the frame, without the checksum. -/
def dataHeader (s : Network) (frame : ℕ → UInt8) (frameLength ipLength : ℕ) (destinationMac : Mac)
    (remoteAddress : UInt32) : ℕ → UInt8 :=
  let frame := fun i => if i < frameLength then 0 else frame i
  let frame := writeMac frame 0 destinationMac
  let frame := writeMac frame 6 s.mac
  let frame := writeBe16 frame 12 etherTypeIpv4
  let frame := writeByte frame 14 0x45
  let frame := writeBe16 frame (14 + 2) (UInt16.ofNat ipLength)
  let frame := writeBe16 frame (14 + 4) 5
  let frame := writeByte frame (14 + 8) 64
  let frame := writeByte frame (14 + 9) ipProtocolTcp
  let frame := writeBe32 frame (14 + 12) s.ipv4Address
  writeBe32 frame (14 + 16) remoteAddress

/-- The TCP header and the data, without the checksum. -/
def dataSegment (frame : ℕ → UInt8) (localPort remotePort : UInt16)
    (localSequence remoteSequence : UInt32) (data : List UInt8) : ℕ → UInt8 :=
  let frame := writeBe16 frame 34 localPort
  let frame := writeBe16 frame (34 + 2) remotePort
  let frame := writeBe32 frame (34 + 4) localSequence
  let frame := writeBe32 frame (34 + 8) remoteSequence
  let frame := writeByte frame (34 + 12) 0x50
  let frame := writeByte frame (34 + 13) (tcpFlagPsh ||| tcpFlagAck)
  let frame := writeBe16 frame (34 + 14) 16384
  fun i => if 54 ≤ i ∧ i < 54 + data.length then data.getD (i - 54) 0 else frame i

/-- `network_build_tcp_data`: the length of the frame, 0 if there is none, and the frame. -/
def buildTcpData (s : Network) (frame : ℕ → UInt8) (capacity : ℕ) (destinationMac : Mac)
    (remoteAddress : UInt32) (localPort remotePort : UInt16)
    (localSequence remoteSequence : UInt32) (data : List UInt8) :
    Option (ℕ × (ℕ → UInt8) × Network) :=
  let tcpLength := 20 + data.length
  let ipLength := 20 + tcpLength
  let frameLength := ethernetHeaderBytes + ipLength
  if data.length = 0 ∨ 1400 < data.length ∨ capacity < frameLength ∨ s.link ≠ .up
      ∨ s.ipv4Address = 0 ∨ remoteAddress = 0 ∨ localPort = 0 ∨ remotePort = 0 then
    some (0, frame, s)
  else do
    let frame := s.dataHeader frame frameLength ipLength destinationMac remoteAddress
    let frame := writeBe16 frame (14 + 10)
      (← networkIpv4Checksum ((packetOf frame capacity).drop 14) 20)
    let frame := dataSegment frame localPort remotePort localSequence remoteSequence data
    let frame := writeBe16 frame (34 + 16)
      (← transportChecksum s.ipv4Address remoteAddress ipProtocolTcp
        ((packetOf frame capacity).drop 34) tcpLength)
    return (frameLength, frame, { s with pendingTcpDataLength := 0, pendingTcpFin := false })

def period : UInt8 := 0x2E

/-- The length of a string as far as it is counted, a character more than a name may have. -/
def hostnameLength (hostname : ℕ → UInt8) : ℕ :=
  ((List.range 254).takeWhile fun i => hostname i != 0).length

def writeBytes (bytes : ℕ → UInt8) (i : ℕ) (values : List UInt8) : ℕ → UInt8 := fun a =>
  if i ≤ a ∧ a < i + values.length then values.getD (a - i) 0 else bytes a

/-- The Ethernet and IPv4 headers of a query, without the checksum. -/
def queryHeader (s : Network) (frame : ℕ → UInt8) (frameLength ipLength : ℕ) (destinationMac : Mac)
    (dnsAddress : UInt32) : ℕ → UInt8 :=
  let frame := fun i => if i < frameLength then 0 else frame i
  let frame := writeMac frame 0 destinationMac
  let frame := writeMac frame 6 s.mac
  let frame := writeBe16 frame 12 etherTypeIpv4
  let frame := writeByte frame 14 0x45
  let frame := writeBe16 frame (14 + 2) (UInt16.ofNat ipLength)
  let frame := writeBe16 frame (14 + 4) 3
  let frame := writeByte frame (14 + 8) 64
  let frame := writeByte frame (14 + 9) ipProtocolUdp
  let frame := writeBe32 frame (14 + 12) s.ipv4Address
  writeBe32 frame (14 + 16) dnsAddress

/-- The UDP header and the fixed part of the DNS message. -/
def queryMessage (frame : ℕ → UInt8) (udpLength : ℕ) (transactionId : UInt16) : ℕ → UInt8 :=
  let frame := writeBe16 frame 34 dnsClientPort
  let frame := writeBe16 frame (34 + 2) dnsServerPort
  let frame := writeBe16 frame (34 + 4) (UInt16.ofNat udpLength)
  let frame := writeBe16 frame 42 transactionId
  let frame := writeBe16 frame (42 + 2) 0x0100
  writeBe16 frame (42 + 4) 1

/-- The loop over the labels of the rest of the name, nothing if one is empty or too long: where
it comes to, from `destination` in the message on, and the frame. -/
def queryLabels : ℕ → List UInt8 → ℕ → (ℕ → UInt8) → Option (Option ℕ × (ℕ → UInt8))
  | 0, _, _, _ => none
  | rounds + 1, rest, destination, frame =>
    if rest = [] then some (some destination, frame)
    else
      let label := rest.takeWhile (· != period)
      if label.length = 0 ∨ 63 < label.length then some (none, frame)
      else
        let frame := writeByte frame (42 + destination) (UInt8.ofNat label.length)
        let frame := writeBytes frame (42 + destination + 1) label
        queryLabels rounds (rest.drop (label.length + 1)) (destination + 1 + label.length) frame

/-- `network_build_dns_query`: the length of the frame, 0 if there is none, and the frame. -/
def buildDnsQuery (s : Network) (frame : ℕ → UInt8) (capacity : ℕ) (destinationMac : Mac)
    (dnsAddress : UInt32) (transactionId : UInt16) (hostname : ℕ → UInt8) :
    Option (ℕ × (ℕ → UInt8) × Network) :=
  let nameLength := hostnameLength hostname
  let dnsLength := 12 + nameLength + 2 + 4
  let udpLength := 8 + dnsLength
  let ipLength := 20 + udpLength
  let frameLength := ethernetHeaderBytes + ipLength
  if s.link ≠ .up ∨ s.ipv4Address = 0 ∨ dnsAddress = 0 ∨ transactionId = 0 ∨ nameLength = 0
      ∨ 253 < nameLength ∨ capacity < frameLength then
    some (0, frame, s)
  else do
    let frame := s.queryHeader frame frameLength ipLength destinationMac dnsAddress
    let frame := writeBe16 frame (14 + 10)
      (← networkIpv4Checksum ((packetOf frame capacity).drop 14) 20)
    let frame := queryMessage frame udpLength transactionId
    match ← queryLabels (nameLength + 1) ((List.range nameLength).map hostname) 12 frame with
    | (none, frame) => return (0, frame, s)
    | (some destination, frame) =>
      let frame := writeByte frame (42 + destination) 0
      let frame := writeBe16 frame (42 + destination + 1) 1
      let frame := writeBe16 frame (42 + destination + 1 + 2) 1
      return (frameLength, frame, { s with pendingDnsValid := false })

end Network

end DemonOS
